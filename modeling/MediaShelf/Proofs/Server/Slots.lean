import MediaShelf.Proofs.Server.Holding

/-!
# Slots are neither lost nor given back twice

Whatever happens to a service, a move is one of three things: a request takes a turn, a request
arrives and draws a ticket, or something else changes (`Handling.move_cases`). After each of them
the mounts account for the stakes of all requests and of everyone else (`Handling.Sound.move`). So
the requests that wait or were admitted alone tell how many slots are free, on whichever way the
others came to an end.
-/

namespace MediaShelf.Server

open MediaShelf.Admission
open MediaShelf.Catalog
open MediaShelf.Files
open MediaShelf.Http

namespace Handling

/-- The request that a move is about. -/
def Move.key? : Move → Option RequestKey
  | .event happening => happening.key?
  | .openFile key | .openFails key _ | .readFails key _ => some key
  | .recatalog .. | .pass _ => none

/-- The mounts account for all that is at stake, and what was noted of the requests fits
together. -/
structure Sound (h : Handling) : Prop where
  volumes : (h.service.shelf.mounts.map (·.id)).Nodup
  keys : (h.service.requests.map (·.1)).Nodup
  fits : ∀ key, h.Fits key
  accounted : Accounted h.service.shelf.mounts h.stakes

/-- A request arrives and draws a ticket for a slot of a volume. -/
structure Arrives (h h' : Handling) (key : RequestKey) (volume : VolumeId) : Prop where
  fresh : h.service.phase? key = none
  beside : h.service.Beside h'.service key
  opening : h'.opening = h.opening
  fits : h'.Fits key
  running : h.service.stopping = false
  joins : ∃ ticket, h'.stake? key = some ⟨volume, ticket, false⟩ ∧
    Joins h.service.shelf.mounts h'.service.shelf.mounts ⟨volume, ticket, false⟩

/-- Something happens that is not about a request. -/
structure Elsewhere (h h' : Handling) (m : Move) : Prop where
  requests : h'.service.requests = h.service.requests
  opening : h'.opening = h.opening
  stopping : h.service.stopping = true → h'.service.stopping = true
  frame : h'.service.shelf.mounts.frame = h.service.shelf.mounts.frame
  accounted : Accounted h.service.shelf.mounts h.stakes →
    Accounted h'.service.shelf.mounts h'.stakes
  catalog : (∀ registry ids, m ≠ .recatalog registry ids) →
    h.service.shelf.SameVolumes h'.service.shelf

variable {h h' : Handling} {key : RequestKey} {tree : Tree} {here : Place} {m : Move}

/-! ## Arrivals -/

theorem arrive_cases (hids : (h.service.shelf.mounts.map (·.id)).Nodup) (hfits : h.Fits key)
    (hfresh : h.service.phase? key = none) (request : Request) :
    h.Goes (h.mapService (·.arrive key request)) key ∨
    ∃ entry mount, judge h.service.shelf h.service.address request = .stream entry mount ∧
      h.Arrives (h.mapService (·.arrive key request)) key entry.volume := by
  have hnot : key ∉ h.opening := by
    intro hmem
    obtain ⟨call, hwaits⟩ := hfits.opening hmem
    rw [hfresh] at hwaits
    cases hwaits
  have hanswer : ∀ response, h.Goes ⟨h.service.answer key request response, h.opening⟩ key := by
    intro response
    refine goes_over (Service.beside_answer _ _) (fun _ _ => .rfl) hnot (over_answer _ _ _) ?_
    rw [stake?_of_none hfresh, Service.shelf_answer]
    exact .stays _
  show h.Goes ⟨h.service.arrive key request, h.opening⟩ key ∨ ∃ entry mount,
    judge h.service.shelf h.service.address request = .stream entry mount ∧
      h.Arrives ⟨h.service.arrive key request, h.opening⟩ key entry.volume
  unfold Service.arrive
  split
  case h_1 response hjudge => exact .inl (hanswer response)
  case h_2 entry mount hjudge =>
    split
    case isTrue => exact .inl (hanswer _)
    case isFalse hrunning =>
      have hfind : h.service.shelf.mounts.find? entry.volume = some mount :=
        (judge_stream hjudge).2.2
      have hticket : mount.limiter.enter.1 = mount.limiter.next := by
        unfold Limiter.enter
        split <;> rfl
      refine .inr ⟨entry, mount, hjudge, hfresh,
        (Service.beside_changeLimiter _ _).trans (Service.beside_setPhase _), rfl,
        ⟨fun hmem => absurd hmem hnot, fun hsending => ?_⟩, Bool.eq_false_of_not_eq_true hrunning,
        mount.limiter.next, ?_, ?_⟩
      · rw [Service.phase?_setPhase_self] at hsending
        cases hsending
      · rw [stake?_eq (Service.phase?_setPhase_self _), decide_eq_false hnot]
        show some (⟨entry.volume, mount.limiter.enter.1, false⟩ : Stake) = _
        rw [hticket]
      · rw [Service.shelf_setPhase, Service.mounts_changeLimiter hids hfind (·.enter.2)]
        exact .waits hfind

/-! ## Other holders -/

/-- Somebody else gives a slot back. -/
theorem accounted_giveBack {s : Service} (base : List Stake)
    (hids : (s.shelf.mounts.map (·.id)).Nodup)
    (haccounted : Accounted s.shelf.mounts (base ++ s.permits.map Permit.stake)) (name : String) :
    Accounted (s.giveBack name).shelf.mounts
      (base ++ (s.giveBack name).permits.map Permit.stake) := by
  unfold Service.giveBack
  split
  case h_1 => exact haccounted
  case h_2 permit hfind =>
    have hperm : (permit.stake :: (base ++ (s.permits.erase permit).map Permit.stake)).Perm
        (base ++ s.permits.map Permit.stake) :=
      List.perm_middle.symm.trans
        (((List.perm_cons_erase (List.mem_of_find?_eq_some hfind)).map _).symm.append_left base)
    have hbefore : Accounted s.shelf.mounts
        ((some (⟨permit.volume, permit.ticket, true⟩ : Stake)).toList ++
        (base ++ (s.permits.erase permit).map Permit.stake)) := haccounted.of_perm hperm
    exact (Turn.releases permit.volume permit.ticket).accounted hids hbefore

theorem frame_giveBack (s : Service) (name : String) :
    (s.giveBack name).shelf.mounts.frame = s.shelf.mounts.frame := by
  unfold Service.giveBack
  split
  case h_1 => rfl
  case h_2 permit _ =>
    have hturn : Turn s.shelf.mounts _ _ _ := .releases permit.volume permit.ticket
    exact hturn.frame_eq

theorem elsewhere_giveBack (hids : (h.service.shelf.mounts.map (·.id)).Nodup) (name : String) :
    h.Elsewhere (h.mapService (·.giveBack name)) (.event (.giveBack name)) := by
  have hsame : (h.service.giveBack name).requests = h.service.requests ∧
      (h.service.giveBack name).stopping = h.service.stopping := by
    unfold Service.giveBack
    split <;> exact ⟨rfl, rfl⟩
  refine ⟨hsame.1, rfl, fun hstops => hsame.2.trans hstops, frame_giveBack _ _,
    fun haccounted => ?_, fun _ => (Service.keeps_giveBack name).shelf⟩
  show Accounted (h.service.giveBack name).shelf.mounts
    ((h.service.giveBack name).requests.filterMap h.stakeOf ++ _)
  rw [hsame.1]
  exact accounted_giveBack _ hids haccounted name

theorem elsewhere_attempt (hids : (h.service.shelf.mounts.map (·.id)).Nodup) (name : String)
    (volume : VolumeId) :
    h.Elsewhere (h.mapService fun s => (s.attempt name volume).2)
      (.event (.attempt name volume)) := by
  have hsame : h.Elsewhere h (.event (.attempt name volume)) :=
    ⟨rfl, rfl, id, rfl, id, fun _ => .refl _⟩
  have hvolumes : h.service.shelf.SameVolumes (h.service.attempt name volume).2.shelf :=
    (Service.keeps_attempt name volume).shelf
  show h.Elsewhere ⟨(h.service.attempt name volume).2, h.opening⟩ _
  revert hvolumes
  unfold Service.attempt
  split
  case h_1 => exact fun _ => hsame
  case h_2 mount hfind =>
    split
    case h_1 => exact fun _ => hsame
    case h_2 ticket limiter htry =>
      obtain ⟨hfree, rfl, rfl⟩ := Limiter.tryAcquire_eq_some htry
      intro hvolumes
      have hjoins : Joins h.service.shelf.mounts
          (h.service.changeLimiter volume fun _ => mount.limiter.tryAcquire.2).shelf.mounts
            ⟨volume, mount.limiter.next, true⟩ := by
        rw [Service.mounts_changeLimiter hids hfind (·.tryAcquire.2)]
        exact .takes hfind hfree
      have hids' : ((h.service.changeLimiter volume fun _ =>
          mount.limiter.tryAcquire.2).shelf.mounts.map (·.id)).Nodup := by
        rw [MountTable.map_id_eq, hjoins.frame_eq, ← MountTable.map_id_eq]
        exact hids
      have hback := elsewhere_giveBack (h := ⟨h.service.changeLimiter volume fun _ =>
        mount.limiter.tryAcquire.2, h.opening⟩) hids' name
      refine ⟨hback.requests, rfl, hback.stopping, hback.frame.trans hjoins.frame_eq,
        fun haccounted => ?_, fun _ => hvolumes⟩
      have hboth := accounted_giveBack (⟨volume, mount.limiter.next, true⟩ ::
        h.service.requests.filterMap h.stakeOf) hids' (hjoins.accounted hids haccounted) name
      refine hboth.of_perm ?_
      have hrequests : ((h.service.changeLimiter volume fun _ =>
          mount.limiter.tryAcquire.2).giveBack name).requests = h.service.requests := hback.requests
      generalize (h.service.changeLimiter volume fun _ =>
        mount.limiter.tryAcquire.2).giveBack name = s at hrequests ⊢
      show (s.requests.filterMap h.stakeOf ++
        (s.permits ++ [(⟨name, volume, mount.limiter.next⟩ : Permit)]).map Permit.stake).Perm _
      rw [hrequests, List.map_append, ← List.append_assoc]
      exact List.perm_append_singleton _ _

/-! ## Moves -/

/-- What a move can be. -/
theorem move_cases (h : Handling) (hids : (h.service.shelf.mounts.map (·.id)).Nodup)
    (hfits : ∀ key, h.Fits key) (tree : Tree) (here : Place) (m : Move) :
    (∃ key, h.Goes (h.move tree here m) key) ∨
    (∃ key request entry mount, m = .event (.arrive key request) ∧
      judge h.service.shelf h.service.address request = .stream entry mount ∧
      h.Arrives (h.move tree here m) key entry.volume) ∨
    h.Elsewhere (h.move tree here m) m := by
  cases m with
  | event happening =>
    cases happening with
    | arrive key request =>
      cases hphase : h.service.phase? key with
      | some phase =>
        have hsame : h.move tree here (.event (.arrive key request)) = h := by
          simp only [move, mapService, Service.step, hphase, Option.isSome_some, if_true]
        rw [hsame]
        exact .inl ⟨key, goes_refl (hfits key)⟩
      | none =>
        have hnew : h.move tree here (.event (.arrive key request)) =
            h.mapService (·.arrive key request) := by
          simp only [move, mapService, Service.step, hphase, Option.isSome_none, Bool.false_eq_true,
            if_false]
        rw [hnew]
        rcases arrive_cases hids (hfits key) hphase request with
          hgoes | ⟨entry, mount, hjudge, hjoins⟩
        · exact .inl ⟨key, hgoes⟩
        · exact .inr (.inl ⟨key, request, entry, mount, rfl, hjudge, hjoins⟩)
    | poll key => exact .inl ⟨key, goes_ask hids (hfits key)⟩
    | expire key => exact .inl ⟨key, goes_expire hids (hfits key)⟩
    | work key => exact .inl ⟨key, goes_work (hfits key)⟩
    | receive key => exact .inl ⟨key, goes_receive (hfits key)⟩
    | hangUp key => exact .inl ⟨key, goes_hangUp (hfits key)⟩
    | stop => exact .inr (.inr ⟨rfl, rfl, fun _ => rfl, rfl, id, fun _ => .refl _⟩)
    | attempt name volume => exact .inr (.inr (elsewhere_attempt hids name volume))
    | giveBack name => exact .inr (.inr (elsewhere_giveBack hids name))
  | openFile key => exact .inl ⟨key, goes_finish (hfits key) fun _ hopening => goes_serve hopening⟩
  | openFails key failure =>
    exact .inl ⟨key, goes_finish (hfits key) fun _ hopening => goes_answer hopening _⟩
  | readFails key fault => exact .inl ⟨key, goes_readFails (hfits key) fault⟩
  | recatalog registry ids =>
    exact .inr (.inr ⟨rfl, rfl, id, rfl, id, fun hnot => absurd rfl (hnot registry ids)⟩)
  | pass time => exact .inr (.inr ⟨rfl, rfl, id, rfl, id, fun _ => .refl _⟩)

/-- What is done to one request leaves the stakes of the others as they are. -/
theorem others_eq (hbeside : h.service.Beside h'.service key)
    (hopening : ∀ other, other ≠ key → (other ∈ h'.opening ↔ other ∈ h.opening)) :
    h'.others key = h.others key := by
  unfold others
  rw [hbeside.requests, hbeside.permits]
  refine congrArg (· ++ _) (List.filterMap_congr fun request hrequest => ?_)
  have hne : request.1 ≠ key := of_decide_eq_true (List.mem_filter.mp hrequest).2
  unfold stakeOf
  rw [decide_eq_decide.mpr (hopening request.1 hne)]

/-- The mounts have to account for the stake of one request and of all others. -/
theorem Sound.of_beside (hsound : h.Sound) (hbeside : h.service.Beside h'.service key)
    (hopening : ∀ other, other ≠ key → (other ∈ h'.opening ↔ other ∈ h.opening))
    (hfits : h'.Fits key)
    (hframe : h'.service.shelf.mounts.frame = h.service.shelf.mounts.frame)
    (haccounted : Accounted h'.service.shelf.mounts ((h'.stake? key).toList ++ h.others key)) :
    h'.Sound := by
  have hkeys := hbeside.keys hsound.keys
  refine ⟨?_, hkeys, fun other => ?_, ?_⟩
  · rw [MountTable.map_id_eq, hframe, ← MountTable.map_id_eq]
    exact hsound.volumes
  · by_cases hne : other = key
    · rw [hne]
      exact hfits
    · have hphase := hbeside.phase?_eq hne
      refine ⟨fun hmem => ?_, fun hsending => ?_⟩
      · rw [hphase]
        exact (hsound.fits other).opening ((hopening other hne).mp hmem)
      · exact (hsound.fits other).sending (hphase.symm.trans hsending)
  · rw [← others_eq hbeside hopening] at haccounted
    exact haccounted.of_perm (perm_stakes hkeys key)

theorem Sound.accounted_own (hsound : h.Sound) (key : RequestKey) :
    Accounted h.service.shelf.mounts ((h.stake? key).toList ++ h.others key) :=
  hsound.accounted.of_perm (perm_stakes hsound.keys key).symm

theorem Sound.goes (hsound : h.Sound) (hgoes : h.Goes h' key) : h'.Sound :=
  hsound.of_beside hgoes.beside hgoes.opening hgoes.fits hgoes.turn.frame_eq
    (hgoes.turn.accounted hsound.volumes (hsound.accounted_own key))

theorem Sound.arrives {volume : VolumeId} (hsound : h.Sound)
    (harrives : h.Arrives h' key volume) : h'.Sound := by
  obtain ⟨ticket, hstake, hjoins⟩ := harrives.joins
  have hbefore := hsound.accounted_own key
  rw [stake?_of_none harrives.fresh] at hbefore
  refine hsound.of_beside harrives.beside (fun other _ => by rw [harrives.opening]) harrives.fits
    hjoins.frame_eq ?_
  rw [hstake]
  exact hjoins.accounted hsound.volumes hbefore

theorem Sound.elsewhere (hsound : h.Sound) (helse : h.Elsewhere h' m) : h'.Sound := by
  have hphase : ∀ key, h'.service.phase? key = h.service.phase? key := fun key => by
    unfold Service.phase?
    rw [helse.requests]
  refine ⟨?_, helse.requests ▸ hsound.keys, fun key => ⟨fun hmem => ?_, fun hsending => ?_⟩,
    helse.accounted hsound.accounted⟩
  · rw [MountTable.map_id_eq, helse.frame, ← MountTable.map_id_eq]
    exact hsound.volumes
  · rw [hphase]
    exact (hsound.fits key).opening (helse.opening ▸ hmem)
  · exact (hsound.fits key).sending ((hphase key).symm.trans hsending)

/-- After every move the mounts account for all that is at stake. -/
theorem Sound.move (hsound : h.Sound) (tree : Tree) (here : Place) (m : Move) :
    (h.move tree here m).Sound ∧
      (h.move tree here m).service.shelf.mounts.frame = h.service.shelf.mounts.frame := by
  rcases h.move_cases hsound.volumes hsound.fits tree here m with
    ⟨key, hgoes⟩ | ⟨key, request, entry, mount, -, -, harrives⟩ | helse
  · exact ⟨hsound.goes hgoes, hgoes.turn.frame_eq⟩
  · obtain ⟨ticket, -, hjoins⟩ := harrives.joins
    exact ⟨hsound.arrives harrives, hjoins.frame_eq⟩
  · exact ⟨hsound.elsewhere helse, helse.frame⟩

theorem Sound.after (hsound : h.Sound) (here : Place) (moves : List (Tree × Move)) :
    (h.after here moves).Sound ∧
      (h.after here moves).service.shelf.mounts.frame = h.service.shelf.mounts.frame := by
  induction moves generalizing h with
  | nil => exact ⟨hsound, rfl⟩
  | cons move rest ih =>
    obtain ⟨hnext, hframe⟩ := hsound.move move.1 here move.2
    obtain ⟨hlast, hframe'⟩ := ih hnext
    exact ⟨hlast, hframe'.trans hframe⟩

/-! ## What a move does to a request -/

theorem stake?_of_ne (hbeside : h.service.Beside h'.service key)
    (hopening : ∀ other, other ≠ key → (other ∈ h'.opening ↔ other ∈ h.opening))
    {other : RequestKey} (hne : other ≠ key) : h'.stake? other = h.stake? other := by
  unfold stake? stakeOf
  rw [hbeside.phase?_eq hne]
  simp only [hopening other hne]

theorem admitted_of_ne (hbeside : h.service.Beside h'.service key)
    (hopening : ∀ other, other ≠ key → (other ∈ h'.opening ↔ other ∈ h.opening))
    {other : RequestKey} (hne : other ≠ key) : h'.Admitted other ↔ h.Admitted other := by
  unfold Admitted
  rw [hbeside.phase?_eq hne, hopening other hne]

/-- A request has its ticket from when it arrived. -/
theorem Sound.stake?_move (hsound : h.Sound) {stake : Stake}
    (hstake : (h.move tree here m).stake? key = some stake) :
    (∃ old, h.stake? key = some old ∧ stake.volume = old.volume ∧ stake.ticket = old.ticket ∧
      (old.held → stake.held)) ∨
    (h.service.phase? key = none ∧ stake.held = false ∧
      ∃ request entry mount, m = .event (.arrive key request) ∧
        judge h.service.shelf h.service.address request = .stream entry mount ∧
        stake.volume = entry.volume) := by
  have hsame : (h.move tree here m).stake? key = h.stake? key →
      ∃ old, h.stake? key = some old ∧ stake.volume = old.volume ∧ stake.ticket = old.ticket ∧
        (old.held → stake.held) := fun heq => ⟨stake, heq.symm.trans hstake, rfl, rfl, id⟩
  rcases h.move_cases hsound.volumes hsound.fits tree here m with
    ⟨other, hgoes⟩ | ⟨other, request, entry, mount, rfl, hjudge, harrives⟩ | helse
  · by_cases hne : key = other
    · subst hne
      exact .inl (hgoes.turn.keeps hstake)
    · exact .inl (hsame (stake?_of_ne hgoes.beside hgoes.opening hne))
  · have hopening : ∀ third, third ≠ other →
        (third ∈ (h.move tree here (.event (.arrive other request))).opening ↔ third ∈ h.opening) :=
      fun third _ => by rw [harrives.opening]
    by_cases hne : key = other
    · subst hne
      obtain ⟨ticket, hticket, -⟩ := harrives.joins
      rw [hticket, Option.some.injEq] at hstake
      subst hstake
      exact .inr ⟨harrives.fresh, rfl, request, entry, mount, rfl, hjudge, rfl⟩
    · exact .inl (hsame (stake?_of_ne harrives.beside hopening hne))
  · refine .inl (hsame ?_)
    unfold stake? stakeOf Service.phase?
    rw [helse.requests, helse.opening]

/-- Nobody is admitted any more when the server is shutting down. -/
theorem Sound.stopping_move (hsound : h.Sound) (hstops : h.service.stopping = true) (tree : Tree)
    (here : Place) (m : Move) :
    (h.move tree here m).service.stopping = true ∧
      ∀ key, (h.move tree here m).Admitted key → h.Admitted key := by
  rcases h.move_cases hsound.volumes hsound.fits tree here m with
    ⟨other, hgoes⟩ | ⟨other, request, entry, mount, rfl, hjudge, harrives⟩ | helse
  · refine ⟨hgoes.beside.stopping.trans hstops, fun key hadmitted => ?_⟩
    by_cases hne : key = other
    · subst hne
      exact hgoes.stopping hstops hadmitted
    · exact (admitted_of_ne hgoes.beside hgoes.opening hne).mp hadmitted
  · rw [harrives.running] at hstops
    cases hstops
  · refine ⟨helse.stopping hstops, fun key hadmitted => ?_⟩
    unfold Admitted Service.phase? at hadmitted ⊢
    rwa [helse.requests, helse.opening] at hadmitted

theorem Sound.stopping_after (hsound : h.Sound) (hstops : h.service.stopping = true) (here : Place)
    (moves : List (Tree × Move)) :
    (h.after here moves).service.stopping = true ∧
      ∀ key, (h.after here moves).Admitted key → h.Admitted key := by
  induction moves generalizing h with
  | nil => exact ⟨hstops, fun _ => id⟩
  | cons move rest ih =>
    obtain ⟨hnext, hadmitted⟩ := hsound.stopping_move hstops move.1 here move.2
    obtain ⟨hlast, hadmitted'⟩ := ih (hsound.move move.1 here move.2).1 hnext
    exact ⟨hlast, fun key hkey => hadmitted key (hadmitted' key hkey)⟩

/-- The catalog changes only if others change it. -/
theorem Sound.sameVolumes_move (hsound : h.Sound) (hm : ∀ registry ids, m ≠ .recatalog registry ids)
    (tree : Tree) (here : Place) :
    h.service.shelf.SameVolumes (h.move tree here m).service.shelf := by
  rcases h.move_cases hsound.volumes hsound.fits tree here m with
    ⟨other, hgoes⟩ | ⟨other, request, entry, mount, rfl, hjudge, harrives⟩ | helse
  · exact hgoes.beside.shelf
  · exact harrives.beside.shelf
  · exact helse.catalog hm

/-- Files are looked for and read only for those who were admitted. -/
theorem move_congr_tree (hopens : ∀ key, m = .openFile key → ¬ h.Admitted key)
    (hreads : ∀ key, m = .event (.work key) → ¬ h.Admitted key) (tree tree' : Tree) (here : Place) :
    h.move tree here m = h.move tree' here m := by
  cases m with
  | openFile key =>
    have hnot : key ∉ h.opening := fun hmem => hopens key rfl (.inl hmem)
    show h.finish key _ = h.finish key _
    rw [finish_of_not_mem hnot, finish_of_not_mem hnot]
  | event happening =>
    cases happening with
    | work key =>
      have hsame : ∀ tree, Service.work tree h.service key = h.service := by
        intro tree
        unfold Service.work
        split
        case h_1 response x hphase => exact absurd (.inr ⟨response, x, hphase⟩) (hreads key rfl)
        case h_2 => rfl
      show (⟨Service.work tree h.service key, h.opening⟩ : Handling) =
        ⟨Service.work tree' h.service key, h.opening⟩
      rw [hsame tree, hsame tree']
    | arrive | poll | expire | receive | hangUp | stop | attempt | giveBack => rfl
  | openFails | readFails | recatalog | pass => rfl

/-! ## Runs -/

/-- A service that has just been started. -/
def start (runtime : Runtime) (shelf : Shelf) (address : String) (patience : Nat) : Handling :=
  ⟨.ofShelf runtime shelf address patience, []⟩

theorem sound_start {mode : Resource.Mode} {bufferSize : Nat} {mounts : List Mount} {shelf : Shelf}
    (hmounts : ∀ mount ∈ mounts, ∃ plan, Mount.ofPlan? plan = some mount)
    (hshelf : Shelf.ofMounts mode bufferSize mounts = .ok shelf) (runtime : Runtime)
    (address : String) (patience : Nat) : (start runtime shelf address patience).Sound := by
  unfold Shelf.ofMounts at hshelf
  split at hshelf
  case h_1 => cases hshelf
  case h_2 table htable =>
    cases hshelf
    refine ⟨(MountTable.ordered_ofMounts htable).nodup, List.nodup_nil, fun key => ⟨nofun, nofun⟩,
      nofun, fun mount hmount => ?_⟩
    obtain ⟨plan, hplan⟩ := hmounts mount (MountTable.mem_of_ofMounts htable hmount)
    obtain ⟨limiter, hlimiter, rfl⟩ := Option.map_eq_some_iff.mp hplan
    unfold Limiter.ofCapacity? at hlimiter
    split at hlimiter
    · cases hlimiter
      exact Limiter.books_ofCapacity plan.slots
    · cases hlimiter

theorem after_append (here : Place) (h : Handling) (first second : List (Tree × Move)) :
    h.after here (first ++ second) = (h.after here first).after here second := by
  induction first generalizing h with
  | nil => rfl
  | cons move rest ih => exact ih _

/-- The events of a service are some moves. -/
theorem after_events (here : Place) (s : Service) (events : List (Tree × Event)) :
    (⟨s, []⟩ : Handling).after here
        (events.flatMap fun e => (eventMoves e.2).map fun m => (e.1, m)) =
      ⟨events.foldl (fun s e => Service.step e.1 here s e.2) s, []⟩ := by
  induction events generalizing s with
  | nil => rfl
  | cons first rest ih =>
    rw [List.flatMap_cons, after_append, after_eventMoves, List.foldl_cons]
    exact ih _

/-! ## Slots -/

/-- The slots of a mount are those that requests and others have, those that were handed to requests
that have not asked since, and the free ones. -/
structure SlotsAddUp (h : Handling) (mount : Mount) : Prop where
  had : (tickets mount.id true h.stakes).Perm mount.limiter.holders
  handed : mount.limiter.assigned ⊆ tickets mount.id false h.stakes
  distinct : (tickets mount.id false h.stakes ++ tickets mount.id true h.stakes).Nodup
  total : (tickets mount.id true h.stakes).length + mount.limiter.assigned.length +
    mount.limiter.free = mount.limiter.capacity
  /-- Those who have a slot and those who wait for one tell how many are free. -/
  free : mount.limiter.free = mount.limiter.capacity -
    ((tickets mount.id true h.stakes).length + (tickets mount.id false h.stakes).length)

/-- A request is over: it is gone, it was answered or it panicked, or its file has been sent as far
as it will be. -/
def Over (h : Handling) (key : RequestKey) : Prop :=
  ∀ phase, h.service.phase? key = some phase → phase.Done ∨
    ∃ response x, phase = .sending response x ∧ x.transfer.isOver = true

/-- A request has a ticket of its own at a mount, and one slot there if it was admitted. -/
structure HasTicket (h : Handling) (key : RequestKey) (stake : Stake) (mount : Mount) : Prop where
  find : h.service.shelf.mounts.find? stake.volume = some mount
  admitted : stake.held = true ↔ h.Admitted key
  slots : mount.limiter.holders.count stake.ticket = if stake.held then 1 else 0
  alone : ∀ other ∈ h.others key, other.volume = stake.volume → other.ticket ≠ stake.ticket

theorem Sound.slotsAddUp (hsound : h.Sound) {mount : Mount}
    (hmount : mount ∈ h.service.shelf.mounts) : h.SlotsAddUp mount := by
  have hbooks := hsound.accounted.books mount hmount
  refine ⟨hbooks.holds, fun ticket hticket => ?_, hbooks.nodup, hbooks.slots, hbooks.free_eq⟩
  exact hbooks.waits.mem_iff.mpr (List.mem_append_right _ hticket)

theorem Sound.stake?_of_over (hsound : h.Sound) (hover : h.Over key) : h.stake? key = none := by
  cases hphase : h.service.phase? key with
  | none => exact stake?_of_none hphase
  | some phase =>
    rcases hover phase hphase with hdone | ⟨response, x, rfl, hdone⟩
    · exact stake?_of_done hphase hdone
    · rw [stake?_of_sending hphase, if_pos (((hsound.fits key).sending hphase).trans hdone)]

theorem Sound.stake?_of_not_over (hsound : h.Sound) (hnot : ¬ h.Over key) :
    ∃ stake, h.stake? key = some stake ∧ (stake.held = true ↔ h.Admitted key) := by
  unfold Over at hnot
  push Not at hnot
  obtain ⟨phase, hphase, hgoes, hsent⟩ := hnot
  cases phase with
  | waiting call =>
    refine ⟨_, stake?_eq hphase, ?_⟩
    show decide (key ∈ h.opening) = true ↔ h.Admitted key
    rw [decide_eq_true_iff]
    refine ⟨.inl, fun hadmitted => hadmitted.resolve_right ?_⟩
    rintro ⟨response, x, hsending⟩
    rw [hphase] at hsending
    cases hsending
  | answered response => exact absurd (.answered response) hgoes
  | crashed => exact absurd .crashed hgoes
  | sending response x =>
    have hopen := Bool.eq_false_of_not_eq_true (hsent response x rfl)
    obtain ⟨-, hstake⟩ := (hsound.fits key).stake?_of_sending hphase hopen
    exact ⟨_, hstake, fun _ => .inr ⟨response, x, hphase⟩, fun _ => rfl⟩

theorem Sound.hasTicket (hsound : h.Sound) {stake : Stake} (hstake : h.stake? key = some stake)
    (hadmitted : stake.held = true ↔ h.Admitted key) : ∃ mount, h.HasTicket key stake mount := by
  have hown := hsound.accounted_own key
  rw [hstake] at hown
  obtain ⟨mount, hfind, hslots, halone⟩ := hown.has_ticket
  exact ⟨mount, hfind, hadmitted, hslots, halone⟩

/-- **Slots are accounted for.** A service that starts with every slot free may go through any
moves, and its events are such moves: requests ask for files that are or are not there, wait, give
up, are admitted, fail at any point, are answered or sent their files, and clients go away, while
others take slots and change the catalog. Then at every mount the slots that are had, handed out and
free are all the slots, and the requests that are not over and the other holders alone tell how many
are free. A request that is not over has one ticket for the volume of its entry from when it
arrived, and a slot for it just when it was admitted; one that is over, in whichever way, has
nothing any more, and its file is closed. None of this changes the catalog. While the server is
shutting down nobody is admitted, and nobody who was not admitted has a file looked for. -/
theorem slots_accounted {mode : Resource.Mode} {bufferSize : Nat} {mounts : List Mount}
    {shelf : Shelf} (hmounts : ∀ mount ∈ mounts, ∃ plan, Mount.ofPlan? plan = some mount)
    (hshelf : Shelf.ofMounts mode bufferSize mounts = .ok shelf) (runtime : Runtime)
    (address : String) (patience : Nat) (here : Place) (moves : List (Tree × Move)) {h : Handling}
    (hafter : (start runtime shelf address patience).after here moves = h) :
    (∀ (s : Service) (events : List (Tree × Event)),
      (⟨s, []⟩ : Handling).after here
          (events.flatMap fun e => (eventMoves e.2).map fun m => (e.1, m)) =
        ⟨events.foldl (fun s e => Service.step e.1 here s e.2) s, []⟩) ∧
    h.service.shelf.mounts.frame = shelf.mounts.frame ∧
    (∀ mount ∈ h.service.shelf.mounts, h.SlotsAddUp mount) ∧
    (∀ key, (h.Over key → h.stake? key = none ∧ h.stakes.Perm (h.others key)) ∧
      (¬ h.Over key → ∃ stake mount, h.stake? key = some stake ∧ h.HasTicket key stake mount)) ∧
    (∀ key response x, h.service.phase? key = some (.sending response x) →
      x.file.resource.isClosed = x.transfer.isOver) ∧
    (∀ tree m key stake, (h.move tree here m).stake? key = some stake →
      (∃ old, h.stake? key = some old ∧ stake.volume = old.volume ∧ stake.ticket = old.ticket ∧
        (old.held → stake.held)) ∨
      (h.service.phase? key = none ∧ stake.held = false ∧
        ∃ request entry mount, m = .event (.arrive key request) ∧
          judge h.service.shelf h.service.address request = .stream entry mount ∧
          stake.volume = entry.volume)) ∧
    (∀ tree m, (∀ registry ids, m ≠ .recatalog registry ids) →
      h.service.shelf.SameVolumes (h.move tree here m).service.shelf) ∧
    (h.service.stopping = true → ∀ rest, (h.after here rest).service.stopping = true ∧
      ∀ key, (h.after here rest).Admitted key → h.Admitted key) ∧
    (∀ m, (∀ key, m = .openFile key → ¬ h.Admitted key) →
      (∀ key, m = .event (.work key) → ¬ h.Admitted key) →
        ∀ tree tree', h.move tree here m = h.move tree' here m) := by
  subst hafter
  obtain ⟨hsound, hframe⟩ :=
    (sound_start hmounts hshelf runtime address patience).after here moves
  refine ⟨after_events here, hframe, fun mount => hsound.slotsAddUp, fun key => ⟨fun hover => ?_,
    fun hnot => ?_⟩, fun key response x => (hsound.fits key).sending, fun tree m key stake =>
      hsound.stake?_move, fun tree m hm => hsound.sameVolumes_move hm tree here, fun hstops rest =>
      hsound.stopping_after hstops here rest, fun m hopens hreads tree tree' =>
      move_congr_tree hopens hreads tree tree' here⟩
  · have hnone := hsound.stake?_of_over hover
    have hperm := perm_stakes hsound.keys key
    rw [hnone] at hperm
    exact ⟨hnone, hperm⟩
  · obtain ⟨stake, hstake, hadmitted⟩ := hsound.stake?_of_not_over hnot
    obtain ⟨mount, hticket⟩ := hsound.hasTicket hstake hadmitted
    exact ⟨stake, mount, hstake, hticket⟩

/-- A shelf whose only volume has one slot. -/
def oneSlotShelf : Shelf :=
  ⟨.buffered, 2, [⟨"v", [47, 114], .ofCapacity 1⟩], Shelf.defaultRescanInterval, .empty,
    Shelf.firstIds⟩

/-- Two clients want the slot. The first one gets it and goes away before its file is opened. The
other one gets it then, and the server is told to stop. -/
def handedOver : Handling :=
  (start plainRuntime oneSlotShelf "a" 0).after [] <|
    [.recatalog (Registry.empty.insert clipEntry) Shelf.firstIds,
      .event (.arrive 0 clipCourse.request), .event (.arrive 1 clipCourse.request),
      .event (.poll 0), .event (.hangUp 0), .event (.poll 1), .event .stop].map
        fun m => (openTree, m)

set_option maxRecDepth 20000 in
theorem slots_accounted_handedOver :
    (∃ stake mount, handedOver.stake? 1 = some stake ∧ handedOver.HasTicket 1 stake mount ∧
      stake.held = true) ∧ ∀ rest, ¬ (handedOver.after [] rest).Admitted 2 := by
  have hmounts : ∀ mount ∈ oneSlotShelf.mounts, ∃ plan, Mount.ofPlan? plan = some mount := by
    intro mount hmount
    rw [List.mem_singleton.mp hmount]
    exact ⟨⟨"v", [47, 114], 1⟩, by decide⟩
  have hshelf : Shelf.ofMounts .buffered 2 oneSlotShelf.mounts = .ok oneSlotShelf := rfl
  obtain ⟨-, -, -, htickets, -, -, -, hstops, -⟩ :=
    slots_accounted hmounts hshelf plainRuntime "a" 0 [] _ (rfl : _ = handedOver)
  have hphase : handedOver.service.phase? 1 =
      some (.waiting ⟨clipCourse.request, clipEntry, 1, 0⟩) := by cbv
  have hopening : handedOver.opening = [1] := by cbv
  constructor
  · have hnot : ¬ handedOver.Over 1 := fun hover => by
      rcases hover _ hphase with hdone | ⟨_, _, heq, -⟩
      · cases hdone
      · cases heq
    obtain ⟨stake, mount, hstake, hticket⟩ := (htickets 1).2 hnot
    refine ⟨stake, mount, hstake, hticket, hticket.admitted.mpr (.inl ?_)⟩
    rw [hopening]
    exact List.mem_singleton_self 1
  · intro rest hadmitted
    have hgone : handedOver.service.phase? 2 = none := by cbv
    rcases (hstops (by cbv) rest).2 2 hadmitted with hmem | ⟨response, x, hsending⟩
    · rw [hopening] at hmem
      exact absurd (List.mem_singleton.mp hmem) (by decide)
    · rw [hgone] at hsending
      cases hsending

end Handling

end MediaShelf.Server
