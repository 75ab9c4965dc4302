import MediaShelf.Proofs.Server.Handling
import MediaShelf.Proofs.Server.Streams
import MediaShelf.Proofs.Shelf.Stakes

/-!
# What a request has at stake

A request that waits has a ticket, one that was admitted has a slot until it is answered without a
file to send or its file is closed, and any other has nothing (`Phase.stake?`). Most moves are about
one request: they leave everyone else's stake as it is, and of its own they make one of the few
things that can become of a stake (`Handling.Goes`). A slot is given back in this way on every way
out.
-/

namespace MediaShelf.Server

open MediaShelf.Admission
open MediaShelf.Catalog
open MediaShelf.Files
open MediaShelf.Http

/-! ## Stakes -/

/-- What somebody else has at stake. -/
def Permit.stake (permit : Permit) : Stake := ⟨permit.volume, permit.ticket, true⟩

/-- What a request has at stake, which may have its slot although it did not open its file yet. -/
def Phase.stake? (opening : Bool) : Phase → Option Stake
  | .waiting call => some ⟨call.entry.volume, call.ticket, opening⟩
  | .answered _ => none
  | .crashed => none
  | .sending _ x => if x.file.resource.isClosed then none else some ⟨x.volume, x.ticket, true⟩

/-- Nothing more is done for a request, and no file was sent to it. -/
inductive Phase.Done : Phase → Prop
  | answered (response : Response) : Done (.answered response)
  | crashed : Done .crashed

namespace Handling

/-- What a request in some phase has at stake. -/
def stakeOf (h : Handling) (request : RequestKey × Phase) : Option Stake :=
  request.2.stake? (request.1 ∈ h.opening)

/-- What a request has at stake. -/
def stake? (h : Handling) (key : RequestKey) : Option Stake :=
  (h.service.phase? key).bind fun phase => h.stakeOf (key, phase)

/-- Everything that is at stake. -/
def stakes (h : Handling) : List Stake :=
  h.service.requests.filterMap h.stakeOf ++ h.service.permits.map Permit.stake

/-- Everything that is at stake for others than one request. -/
def others (h : Handling) (key : RequestKey) : List Stake :=
  (h.service.forget key).requests.filterMap h.stakeOf ++ h.service.permits.map Permit.stake

/-- What was noted of a request fits together: it waits while it opens its file, and a file is
closed just when its transfer is over. -/
structure Fits (h : Handling) (key : RequestKey) : Prop where
  opening : key ∈ h.opening → ∃ call, h.service.phase? key = some (.waiting call)
  sending : ∀ {response : Response} {x : Sending},
    h.service.phase? key = some (.sending response x) →
      x.file.resource.isClosed = x.transfer.isOver

section Stakes

variable {h : Handling} {key : RequestKey} {call : Call} {response : Response} {x : Sending}
  {phase : Phase}

theorem stake?_eq (hphase : h.service.phase? key = some phase) :
    h.stake? key = phase.stake? (key ∈ h.opening) := by
  unfold stake?
  rw [hphase]
  rfl

theorem stake?_of_none (hphase : h.service.phase? key = none) : h.stake? key = none := by
  unfold stake?
  rw [hphase]
  rfl

theorem stake?_of_waiting (hwaits : h.waiting? key = some call) :
    h.stake? key = some ⟨call.entry.volume, call.ticket, false⟩ := by
  obtain ⟨hphase, hnot⟩ := waiting?_eq_some.mp hwaits
  rw [stake?_eq hphase, decide_eq_false hnot]
  rfl

theorem stake?_of_opening (hopening : h.opening? key = some call) :
    h.stake? key = some ⟨call.entry.volume, call.ticket, true⟩ := by
  obtain ⟨hphase, hmem⟩ := opening?_eq_some.mp hopening
  rw [stake?_eq hphase, decide_eq_true hmem]
  rfl

theorem stake?_of_done (hphase : h.service.phase? key = some phase) (hdone : phase.Done) :
    h.stake? key = none := by
  cases hdone with
  | answered response => exact stake?_eq hphase
  | crashed => exact stake?_eq hphase

theorem stake?_of_sending (hphase : h.service.phase? key = some (.sending response x)) :
    h.stake? key = if x.file.resource.isClosed then none else some ⟨x.volume, x.ticket, true⟩ :=
  stake?_eq hphase

/-- A request has one stake, and everyone else has the others. -/
theorem perm_stakes (hkeys : (h.service.requests.map (·.1)).Nodup) (key : RequestKey) :
    h.stakes.Perm ((h.stake? key).toList ++ h.others key) := by
  unfold stakes others stake?
  rw [← List.append_assoc]
  refine List.Perm.append_right _ ?_
  show (h.service.requests.filterMap h.stakeOf).Perm
    (((h.service.requests.lookup key).bind fun phase => h.stakeOf (key, phase)).toList ++
      (h.service.requests.filter (·.1 ≠ key)).filterMap h.stakeOf)
  generalize h.service.requests = requests at hkeys
  induction requests with
  | nil => exact .refl _
  | cons request rest ih =>
    obtain ⟨first, phase⟩ := request
    obtain ⟨hnew, hrest⟩ := List.nodup_cons.mp hkeys
    by_cases hfirst : first = key
    · subst hfirst
      have hothers : rest.filter (·.1 ≠ first) = rest := by
        refine List.filter_eq_self.mpr fun other hother => decide_eq_true fun heq => hnew ?_
        exact List.mem_map.mpr ⟨other, hother, heq⟩
      rw [List.filter_cons_of_neg (by simp), hothers, List.lookup_cons_self, Option.bind_some]
      cases hstake : h.stakeOf (first, phase) with
      | none =>
        rw [List.filterMap_cons_none hstake]
        exact .refl _
      | some stake =>
        rw [List.filterMap_cons_some hstake]
        exact .refl _
    · rw [List.filter_cons_of_pos (by simpa using hfirst), List.lookup_cons,
        beq_false_of_ne (Ne.symm hfirst)]
      cases hstake : h.stakeOf (first, phase) with
      | none =>
        rw [List.filterMap_cons_none hstake, List.filterMap_cons_none hstake]
        exact ih hrest
      | some stake =>
        rw [List.filterMap_cons_some hstake, List.filterMap_cons_some hstake]
        exact ((ih hrest).cons stake).trans List.perm_middle.symm

end Stakes

end Handling

/-! ## What is done to one request -/

namespace Service

/-- Nothing was done but to one request and to limiters. -/
structure Beside (s s' : Service) (key : RequestKey) : Prop where
  requests : (s'.forget key).requests = (s.forget key).requests
  keys : (s.requests.map (·.1)).Nodup → (s'.requests.map (·.1)).Nodup
  permits : s'.permits = s.permits
  stopping : s'.stopping = s.stopping
  shelf : s.shelf.SameVolumes s'.shelf

variable {s s' s'' : Service} {key : RequestKey}

theorem Beside.refl (s : Service) (key : RequestKey) : s.Beside s key :=
  ⟨rfl, id, rfl, rfl, .refl _⟩

theorem Beside.trans (h : s.Beside s' key) (h' : s'.Beside s'' key) : s.Beside s'' key :=
  ⟨h'.requests.trans h.requests, h'.keys ∘ h.keys, h'.permits.trans h.permits,
    h'.stopping.trans h.stopping, h.shelf.trans h'.shelf⟩

theorem Beside.phase?_eq (h : s.Beside s' key) {other : RequestKey} (hne : other ≠ key) :
    s'.phase? other = s.phase? other := by
  rw [← phase?_forget_of_ne hne, ← phase?_forget_of_ne (s := s) hne]
  unfold phase?
  rw [h.requests]

theorem beside_changeLimiter (volume : VolumeId) (change : Limiter → Limiter) :
    s.Beside (s.changeLimiter volume change) key :=
  ⟨rfl, id, rfl, rfl, s.shelf.sameVolumes_changeLimiter volume change⟩

/-- A limiter may be changed with regard to what it is. -/
theorem mounts_changeLimiter {volume : VolumeId} {mount : Mount}
    (hids : (s.shelf.mounts.map (·.id)).Nodup)
    (hfind : s.shelf.mounts.find? volume = some mount) (change : Limiter → Limiter) :
    (s.changeLimiter volume fun _ => change mount.limiter).shelf.mounts =
      s.shelf.mounts.changeLimiter change volume :=
  MountTable.changeLimiter_eq hids hfind change

theorem beside_forget : s.Beside (s.forget key) key := by
  refine ⟨?_, fun hkeys => ?_, rfl, rfl, .refl _⟩
  · show (s.requests.filter _).filter _ = s.requests.filter _
    rw [List.filter_filter]
    refine List.filter_congr fun request _ => ?_
    rw [Bool.and_self]
  · exact hkeys.sublist (List.filter_sublist.map _)

theorem map_setPhase (requests : List (RequestKey × Phase)) (phase : Phase) :
    (requests.map fun request => if request.1 = key then (key, phase) else request).map (·.1) =
      requests.map (·.1) := by
  rw [List.map_map]
  refine List.map_congr_left fun request _ => ?_
  rw [Function.comp_apply]
  split
  case isTrue heq => exact heq.symm
  case isFalse => rfl

theorem beside_setPhase (phase : Phase) : s.Beside (s.setPhase key phase) key := by
  unfold setPhase
  split
  case isTrue =>
    refine ⟨?_, fun hkeys => ?_, rfl, rfl, .refl _⟩
    · show (s.requests.map _).filter _ = s.requests.filter _
      rw [List.filter_map]
      have hsame : (s.requests.filter
          ((fun request : RequestKey × Phase => decide (request.1 ≠ key)) ∘
          fun request => if request.1 = key then (key, phase) else request)) =
            s.requests.filter (·.1 ≠ key) := by
        refine List.filter_congr fun request _ => ?_
        rw [Function.comp_apply]
        split
        case isTrue heq => rw [heq]
        case isFalse => rfl
      rw [hsame]
      refine (List.map_congr_left fun request hrequest => ?_).trans (List.map_id _)
      exact if_neg (of_decide_eq_true (List.mem_filter.mp hrequest).2)
    · exact (map_setPhase s.requests phase).symm ▸ hkeys
  case isFalse hnone =>
    refine ⟨?_, fun hkeys => ?_, rfl, rfl, .refl _⟩
    · show (s.requests ++ [(key, phase)]).filter _ = s.requests.filter _
      rw [List.filter_append, List.filter_cons_of_neg (by simp), List.filter_nil, List.append_nil]
    · show ((s.requests ++ [(key, phase)]).map (·.1)).Nodup
      rw [List.map_append, List.map_singleton]
      refine List.nodup_append.mpr ⟨hkeys, List.nodup_singleton _, ?_⟩
      rintro first hfirst _ hkey heq
      rw [List.mem_singleton.mp hkey] at heq
      obtain ⟨request, hrequest, hfst⟩ := List.mem_map.mp hfirst
      refine hnone (List.lookup_isSome_iff.mpr ⟨request, hrequest, ?_⟩)
      rw [hfst, heq]
      exact beq_self_eq_true key

theorem beside_answer (request : Request) (response : Response) :
    s.Beside (s.answer key request response) key := beside_setPhase _

theorem beside_setSending (response : Response) (x : Sending) :
    s.Beside (s.setSending key response x) key := by
  unfold setSending
  split
  · exact (beside_setPhase _).trans (beside_changeLimiter _ _)
  · exact beside_setPhase _

end Service

/-! ## Open files -/

theorem isClosed_read (content : Bytes) (n : Nat) (r : Resource) :
    (r.read content n).2.isClosed = r.isClosed := by
  unfold Resource.read
  split <;> rfl

theorem isClosed_startTransfer (content : Bytes) (file : OpenFile) (offset length : Nat) :
    (Service.startTransfer content file offset length).1.resource.isClosed =
      file.resource.isClosed := by
  have hseek : (file.resource.seek content (.start offset)).2.isClosed =
      file.resource.isClosed := by
    unfold Resource.seek
    split
    · rfl
    · split <;> rfl
  unfold Service.startTransfer
  split
  · rfl
  · split
    · rename_i heq
      rwa [heq] at hseek
    · rename_i heq
      rwa [heq] at hseek

theorem isClosed_openEntry {shelf : Shelf} {tree : Tree} {here : Place} {entry : Entry}
    {file : OpenFile} (h : shelf.openEntry tree here entry = .ok file) :
    file.resource.isClosed = false := by
  obtain ⟨number, metadata, -, rfl⟩ := openEntry_eq h
  unfold Resource.openIn
  split <;> rfl

theorem isOver_receive (t : Transfer) : t.receive.2.isOver = t.isOver := by
  unfold Transfer.receive
  split <;> rfl

/-! ## Turns of requests -/

namespace Handling

/-- A request has got its slot, and perhaps its file. -/
def Admitted (h : Handling) (key : RequestKey) : Prop :=
  key ∈ h.opening ∨ ∃ response x, h.service.phase? key = some (.sending response x)

/-- One request takes a turn, and everyone else stays as they are. -/
structure Goes (h h' : Handling) (key : RequestKey) : Prop where
  beside : h.service.Beside h'.service key
  opening : ∀ other, other ≠ key → (other ∈ h'.opening ↔ other ∈ h.opening)
  turn : Turn h.service.shelf.mounts (h.stake? key) h'.service.shelf.mounts (h'.stake? key)
  fits : h'.Fits key
  /-- Nobody is admitted while the server is shutting down. -/
  stopping : h.service.stopping = true → h'.Admitted key → h.Admitted key

variable {h h' : Handling} {key : RequestKey} {call : Call} {response : Response} {x : Sending}
  {tree : Tree} {here : Place}

theorem goes_refl (hfits : h.Fits key) : h.Goes h key :=
  ⟨.refl _ _, fun _ _ => .rfl, .stays _, hfits, fun _ => id⟩

/-- A request is over. -/
theorem goes_over (hbeside : h.service.Beside h'.service key)
    (hopening : ∀ other, other ≠ key → (other ∈ h'.opening ↔ other ∈ h.opening))
    (hnot : key ∉ h'.opening)
    (hover : ∀ phase, h'.service.phase? key = some phase → phase.Done)
    (hturn : Turn h.service.shelf.mounts (h.stake? key) h'.service.shelf.mounts none) :
    h.Goes h' key := by
  have hstake : h'.stake? key = none := by
    cases hphase : h'.service.phase? key with
    | none => exact stake?_of_none hphase
    | some phase => exact stake?_of_done hphase (hover phase hphase)
  have hsending : ∀ response x, h'.service.phase? key ≠ some (.sending response x) := by
    intro response x hphase
    cases hover _ hphase
  refine ⟨hbeside, hopening, hstake ▸ hturn, ⟨fun hmem => absurd hmem hnot, fun hphase => ?_⟩,
    fun _ hadmitted => ?_⟩
  · exact absurd hphase (hsending _ _)
  · rcases hadmitted with hmem | ⟨response, x, hphase⟩
    · exact absurd hmem hnot
    · exact absurd hphase (hsending response x)

theorem over_setPhase {phase : Phase} (hdone : phase.Done) (s : Service) (phase' : Phase)
    (hphase : (s.setPhase key phase).phase? key = some phase') : phase'.Done := by
  rw [Service.phase?_setPhase_self, Option.some.injEq] at hphase
  exact hphase ▸ hdone

theorem over_answer (s : Service) (request : Request) (response : Response) (phase : Phase)
    (hphase : (s.answer key request response).phase? key = some phase) : phase.Done :=
  over_setPhase (.answered _) s phase hphase

theorem over_forget (s : Service) (phase : Phase)
    (hphase : (s.forget key).phase? key = some phase) : phase.Done := by
  rw [Service.phase?_forget_self] at hphase
  cases hphase

theorem mem_opening_filter {other : RequestKey} (hne : other ≠ key) :
    other ∈ h.opening.filter (· ≠ key) ↔ other ∈ h.opening := by
  simp [hne]

theorem not_mem_opening_filter : key ∉ h.opening.filter (· ≠ key) := by
  simp

/-- A request whose file is open goes on, or it is over and gives its slot back. -/
theorem goes_setSending {opening : List RequestKey}
    (hstake : h.stake? key = some ⟨x.volume, x.ticket, true⟩) (hadmitted : h.Admitted key)
    (hopen : x.file.resource.isClosed = false)
    (hothers : ∀ other, other ≠ key → (other ∈ opening ↔ other ∈ h.opening))
    (hnot : key ∉ opening) (response : Response) :
    h.Goes ⟨h.service.setSending key response x, opening⟩ key := by
  have hphase : (h.service.setSending key response x).phase? key =
      some (.sending response x.settled) :=
    Service.phase?_setSending_self response x
  refine ⟨Service.beside_setSending response x, hothers, ?_,
    ⟨fun hmem => absurd hmem hnot, fun {response' x'} hphase' => ?_⟩, fun _ _ => hadmitted⟩
  · rw [hstake, stake?_of_sending hphase]
    unfold Service.setSending Sending.settled
    split
    case isTrue =>
      show Turn _ _ ((h.service.setPhase key _).shelf.mounts.changeLimiter (·.release x.ticket)
        x.volume) none
      rw [Service.shelf_setPhase]
      exact .releases _ _
    case isFalse =>
      rw [hopen, Service.shelf_setPhase]
      exact .stays _
  · rw [hphase, Option.some.injEq, Phase.sending.injEq] at hphase'
    obtain ⟨-, rfl⟩ := hphase'
    unfold Sending.settled
    split
    case isTrue hover => exact hover.symm
    case isFalse hover => rw [hopen, Bool.eq_false_of_not_eq_true hover]

theorem Fits.not_opening (hfits : h.Fits key)
    (hphase : h.service.phase? key = some (.sending response x)) : key ∉ h.opening := by
  intro hmem
  obtain ⟨call, hwaits⟩ := hfits.opening hmem
  rw [hphase] at hwaits
  cases hwaits

/-- What is noted of a transfer may change otherwise. -/
theorem goes_sending {transfer : Transfer} (hfits : h.Fits key)
    (hphase : h.service.phase? key = some (.sending response x))
    (hover : transfer.isOver = x.transfer.isOver) :
    h.Goes (h.mapService (·.setPhase key (.sending response { x with transfer := transfer })))
      key := by
  have hnew : (h.mapService (·.setPhase key (.sending response { x with transfer := transfer }))
      ).service.phase? key = some (.sending response { x with transfer := transfer }) :=
    Service.phase?_setPhase_self _
  refine ⟨Service.beside_setPhase _, fun _ _ => .rfl, ?_,
    ⟨fun hmem => absurd hmem (hfits.not_opening hphase), fun {response' x'} hphase' => ?_⟩,
    fun _ _ => .inr ⟨response, x, hphase⟩⟩
  · rw [stake?_of_sending hphase, stake?_of_sending hnew]
    show Turn _ _ (h.service.setPhase key _).shelf.mounts _
    rw [Service.shelf_setPhase]
    exact .stays _
  · rw [hnew, Option.some.injEq, Phase.sending.injEq] at hphase'
    obtain ⟨-, rfl⟩ := hphase'
    exact (hfits.sending hphase).trans hover.symm

/-! ## Moves of requests -/

section Moves

variable (hids : (h.service.shelf.mounts.map (·.id)).Nodup) (hfits : h.Fits key)

include hids hfits in
theorem goes_ask : h.Goes (h.ask key) key := by
  unfold ask
  split
  case h_1 => exact goes_refl hfits
  case h_2 call hwaits =>
    obtain ⟨hphase, hnot⟩ := waiting?_eq_some.mp hwaits
    have hstake := stake?_of_waiting hwaits
    split
    case h_1 => exact goes_refl hfits
    case h_2 mount hfind =>
      split
      case h_1 limiter hpoll =>
        obtain ⟨hrunning, hhanded, rfl⟩ := Limiter.poll_eq_granted hpoll
        refine ⟨Service.beside_changeLimiter _ _, fun other hne => ?_, ?_,
          ⟨fun _ => ⟨call, hphase⟩, ?_⟩, fun hstops => ?_⟩
        · rw [List.mem_cons, or_iff_right hne]
        · have hgot : (⟨h.service.changeLimiter call.entry.volume fun _ =>
              (mount.limiter.poll call.ticket false).2, key :: h.opening⟩ : Handling).opening? key =
                some call := opening?_eq_some.mpr ⟨hphase, List.mem_cons_self⟩
          rw [hstake, stake?_of_opening hgot,
            Service.mounts_changeLimiter hids hfind fun l => (l.poll call.ticket false).2]
          exact .gets hfind hhanded
        · intro response x hsending
          have hnone : h.service.phase? key = some (.sending response x) := hsending
          rw [hphase] at hnone
          cases hnone
        · rw [hrunning] at hstops
          cases hstops
      case h_2 limiter hpoll =>
        obtain rfl := Limiter.poll_eq_cancelled hpoll
        refine goes_over ((Service.beside_changeLimiter _ _).trans (Service.beside_answer _ _))
          (fun _ _ => .rfl) hnot (over_answer _ _ _) ?_
        show Turn _ _ (Service.refuse _ key call.request .admissionCancelled).shelf.mounts _
        rw [hstake, Service.shelf_refuse,
          Service.mounts_changeLimiter hids hfind fun l => l.leave call.ticket]
        exact .leaves _ _
      case h_3 => exact goes_refl hfits

/-- Who still waits after asking for a slot has changed nothing by it. -/
theorem ask_of_waiting (hwaits : (h.ask key).waiting? key = some call) : h.ask key = h := by
  obtain ⟨hphase, hnot⟩ := waiting?_eq_some.mp hwaits
  unfold ask at hphase hnot ⊢
  split
  case h_1 => rfl
  case h_2 other hother =>
    rw [hother] at hphase hnot
    simp only at hphase hnot
    split
    case h_1 => rfl
    case h_2 mount hfind =>
      rw [hfind] at hphase hnot
      simp only at hphase hnot
      split
      case h_1 limiter hpoll =>
        rw [hpoll] at hnot
        exact absurd List.mem_cons_self hnot
      case h_2 limiter hpoll =>
        rw [hpoll] at hphase
        cases over_answer _ _ _ _ hphase
      case h_3 => rfl

include hids hfits in
theorem goes_expire : h.Goes (h.expire key) key := by
  have hask := goes_ask hids hfits
  unfold expire
  simp only
  split
  case h_1 => exact hask
  case h_2 call hwaits =>
    split
    case isFalse => exact hask
    case isTrue hlate =>
      have hsame := ask_of_waiting hwaits
      rw [hsame] at hwaits ⊢
      refine goes_over ((Service.beside_changeLimiter _ _).trans (Service.beside_answer _ _))
        (fun _ _ => .rfl) (waiting?_eq_some.mp hwaits).2 (over_answer _ _ _) ?_
      show Turn _ _ (Service.answer _ key call.request _).shelf.mounts _
      rw [stake?_of_waiting hwaits, Service.shelf_answer]
      exact .leaves _ _

include hfits in
/-- A request that is done with may be forgotten. -/
theorem goes_forget {phase : Phase} (hphase : h.service.phase? key = some phase)
    (hdone : phase.Done) : h.Goes (h.mapService (·.forget key)) key := by
  have hnot : key ∉ h.opening := by
    intro hmem
    obtain ⟨call, hwaits⟩ := hfits.opening hmem
    rw [hphase, Option.some.injEq] at hwaits
    cases hwaits ▸ hdone
  refine goes_over Service.beside_forget (fun _ _ => .rfl) hnot (over_forget _) ?_
  rw [stake?_of_done hphase hdone]
  exact .stays _

include hfits in
theorem goes_hangUp : h.Goes (h.hangUp key) key := by
  unfold hangUp
  split
  case h_1 hnone =>
    show h.Goes ⟨h.service.hangUp key, h.opening⟩ key
    unfold Service.hangUp
    split
    case h_1 call hphase =>
      have hnot : key ∉ h.opening := by
        intro hmem
        rw [opening?_eq_some.mpr ⟨hphase, hmem⟩] at hnone
        cases hnone
      refine goes_over ((Service.beside_changeLimiter _ _).trans Service.beside_forget)
        (fun _ _ => .rfl) hnot (over_forget _) ?_
      rw [stake?_of_waiting (waiting?_eq_some.mpr ⟨hphase, hnot⟩)]
      exact .leaves _ _
    case h_2 response hphase => exact goes_forget hfits hphase (.answered response)
    case h_3 hphase => exact goes_forget hfits hphase .crashed
    case h_4 response x hphase =>
      split
      case isTrue hover =>
        refine goes_over Service.beside_forget (fun _ _ => .rfl) (hfits.not_opening hphase)
          (over_forget _) ?_
        rw [stake?_of_sending hphase, if_pos ((hfits.sending hphase).trans hover)]
        exact .stays _
      case isFalse => exact goes_sending hfits hphase rfl
    case h_5 => exact goes_refl hfits
  case h_2 call hopening =>
    refine goes_over ((Service.beside_changeLimiter _ _).trans Service.beside_forget)
      (fun _ hne => mem_opening_filter hne) not_mem_opening_filter (over_forget _) ?_
    rw [stake?_of_opening hopening]
    exact .releases _ _

/-- A file that is being sent is open until its transfer is over. -/
theorem Fits.stake?_of_sending (hfits : h.Fits key)
    (hphase : h.service.phase? key = some (.sending response x))
    (hover : x.transfer.isOver = false) :
    x.file.resource.isClosed = false ∧ h.stake? key = some ⟨x.volume, x.ticket, true⟩ := by
  have hopen := (hfits.sending hphase).trans hover
  rw [Handling.stake?_of_sending hphase, hopen]
  exact ⟨rfl, rfl⟩

include hfits in
theorem goes_work : h.Goes (h.mapService (Service.work tree · key)) key := by
  show h.Goes ⟨Service.work tree h.service key, h.opening⟩ key
  unfold Service.work
  split
  case h_1 response x hphase =>
    have hreads : ∀ x' : Sending, x'.volume = x.volume → x'.ticket = x.ticket →
        x'.file.resource.isClosed = x.file.resource.isClosed → x.transfer.isOver = false →
        h.Goes ⟨h.service.setSending key response x', h.opening⟩ key := by
      intro x' hvolume hticket hclosed hover
      obtain ⟨hopen, hstake⟩ := hfits.stake?_of_sending hphase hover
      rw [← hvolume, ← hticket] at hstake
      exact goes_setSending hstake (.inr ⟨response, x, hphase⟩) (hclosed.trans hopen)
        (fun _ _ => .rfl) (hfits.not_opening hphase) response
    simp only
    split
    case h_1 => exact goes_refl hfits
    case h_2 hstage =>
      refine hreads _ rfl rfl (isClosed_read _ _ _) ?_
      rw [Transfer.isOver, hstage]
      rfl
    case h_3 piece hstage =>
      refine hreads _ rfl rfl rfl ?_
      rw [Transfer.isOver, hstage]
      rfl
  case h_2 => exact goes_refl hfits

include hfits in
theorem goes_readFails (fault : Fault) : h.Goes (h.mapService (readFails · key fault)) key := by
  show h.Goes ⟨Handling.readFails h.service key fault, h.opening⟩ key
  unfold readFails
  split
  case h_1 response x hphase =>
    split
    case isTrue => exact goes_refl hfits
    case isFalse hover =>
      obtain ⟨hopen, hstake⟩ := hfits.stake?_of_sending hphase (Bool.eq_false_of_not_eq_true hover)
      exact goes_setSending (x := { x with transfer := x.transfer.onRead (.error fault) }) hstake
        (.inr ⟨response, x, hphase⟩) hopen (fun _ _ => .rfl) (hfits.not_opening hphase) response
  case h_2 => exact goes_refl hfits

include hfits in
theorem goes_receive : h.Goes (h.mapService fun s => (s.receive key).2) key := by
  show h.Goes ⟨(h.service.receive key).2, h.opening⟩ key
  unfold Service.receive
  split
  case h_1 response x hphase => exact goes_sending hfits hphase (isOver_receive _)
  case h_2 => exact goes_refl hfits

/-- A request that was admitted is done with, and no file is sent. -/
theorem goes_done (hopening : h.opening? key = some call) {phase : Phase} (hdone : phase.Done) :
    h.Goes ⟨(h.service.setPhase key phase).release call.entry.volume call.ticket,
      h.opening.filter (· ≠ key)⟩ key := by
  refine goes_over ((Service.beside_setPhase _).trans (Service.beside_changeLimiter _ _))
    (fun _ hne => mem_opening_filter hne) not_mem_opening_filter (over_setPhase hdone _) ?_
  show Turn _ _ ((h.service.setPhase key phase).shelf.mounts.changeLimiter
    (·.release call.ticket) call.entry.volume) _
  rw [stake?_of_opening hopening, Service.shelf_setPhase]
  exact .releases _ _

/-- A request that was admitted is answered without a file to send. -/
theorem goes_answer (hopening : h.opening? key = some call) (response : Response) :
    h.Goes ⟨(h.service.answer key call.request response).release call.entry.volume call.ticket,
      h.opening.filter (· ≠ key)⟩ key := goes_done hopening (.answered _)

theorem goes_serve (hopening : h.opening? key = some call) :
    h.Goes ⟨Service.serve tree here h.service key call, h.opening.filter (· ≠ key)⟩ key := by
  unfold Service.serve
  simp only
  split
  case h_1 => exact goes_answer hopening _
  case h_2 file hfile =>
    split
    case h_1 => exact goes_done hopening .crashed
    case h_2 response hresponse =>
      split
      case h_1 => exact goes_answer hopening _
      case h_2 offset length hbody =>
        refine goes_setSending (stake?_of_opening hopening)
          (.inl (opening?_eq_some.mp hopening).2) ?_ (fun _ hne => mem_opening_filter hne)
          not_mem_opening_filter _
        exact (isClosed_startTransfer _ _ _ _).trans (isClosed_openEntry hfile)

include hfits in
theorem goes_finish {serve : Call → Service}
    (hserve : ∀ call, h.opening? key = some call →
      h.Goes ⟨serve call, h.opening.filter (· ≠ key)⟩ key) : h.Goes (h.finish key serve) key := by
  unfold finish
  split
  case h_1 => exact goes_refl hfits
  case h_2 call hopening => exact hserve call hopening

end Moves

end Handling

end MediaShelf.Server
