import MediaShelf.Proofs.Shelf.Twin
import MediaShelf.Server.Service

/-!
# Services on twins

A service that runs on one tree and a service that runs on another are alike if they differ in
nothing but the numbers of the files that they have open, and behind those numbers is the same
content (`Service.Alike`). On twins every event leads from alike services to alike ones
(`Service.Alike.step`), so what clients are told is the same.
-/

namespace MediaShelf.Server

open MediaShelf.Admission
open MediaShelf.Catalog
open MediaShelf.Files
open MediaShelf.Http

/-- How far a request has come, the number of its file left out. -/
inductive Progress where
  | waiting (call : Call)
  | answered (response : Response)
  | sending (response : Response) (volume : VolumeId) (ticket : Ticket)
    (reader : Resource × Option FileBody) (transfer : Transfer)
  | crashed

/-- How far a request has come that reads its file from a tree. -/
def progress (tree : Tree) : Phase → Progress
  | .waiting call => .waiting call
  | .answered response => .answered response
  | .sending response sending =>
    .sending response sending.volume sending.ticket (tree.reader sending.file) sending.transfer
  | .crashed => .crashed

/-- A request and how far it has come. -/
def keyProgress (tree : Tree) (request : RequestKey × Phase) : RequestKey × Progress :=
  (request.1, progress tree request.2)

namespace Service

/-- Two services that differ only in the numbers of open files, with the same content behind
them. -/
def Alike (tree tree' : Tree) (s s' : Service) : Prop :=
  ∃ requests, s' = { s with requests := requests } ∧
    s.requests.map (keyProgress tree) = requests.map (keyProgress tree')

variable {tree tree' : Tree} {here : Place} {s s' : Service} {key : RequestKey}

theorem lookup_keyProgress (tree : Tree) (requests : List (RequestKey × Phase))
    (key : RequestKey) : (requests.map (keyProgress tree)).lookup key =
      (requests.lookup key).map (progress tree) := by
  induction requests with
  | nil => rfl
  | cons request rest ih =>
    rw [List.map_cons, List.lookup_cons, List.lookup_cons, ih]
    simp only [keyProgress]
    cases key == request.1 <;> rfl

namespace Alike

theorem shelf_eq (h : Alike tree tree' s s') : s'.shelf = s.shelf := by
  obtain ⟨requests, rfl, -⟩ := h
  rfl

theorem runtime_eq (h : Alike tree tree' s s') : s'.runtime = s.runtime := by
  obtain ⟨requests, rfl, -⟩ := h
  rfl

theorem phase?_eq (h : Alike tree tree' s s') (key : RequestKey) :
    (s.phase? key).map (progress tree) = (s'.phase? key).map (progress tree') := by
  obtain ⟨requests, rfl, hmap⟩ := h
  unfold phase?
  rw [← lookup_keyProgress, hmap, lookup_keyProgress]

theorem isSome_phase? (h : Alike tree tree' s s') (key : RequestKey) :
    (s.phase? key).isSome = (s'.phase? key).isSome := by
  rw [← Option.isSome_map (f := progress tree), h.phase?_eq key, Option.isSome_map]

/-- Alike services have come as far with every request, and send from readers that are alike. -/
theorem phase?_cases (h : Alike tree tree' s s') (key : RequestKey) :
    (s.phase? key = none ∧ s'.phase? key = none) ∨
      (∃ call, s.phase? key = some (.waiting call) ∧ s'.phase? key = some (.waiting call)) ∨
      (∃ response, s.phase? key = some (.answered response) ∧
        s'.phase? key = some (.answered response)) ∨
      (∃ response volume ticket file file' transfer,
        s.phase? key = some (.sending response ⟨volume, ticket, file, transfer⟩) ∧
        s'.phase? key = some (.sending response ⟨volume, ticket, file', transfer⟩) ∧
        tree.reader file = tree'.reader file') ∨
      (s.phase? key = some .crashed ∧ s'.phase? key = some .crashed) := by
  have heq := h.phase?_eq key
  cases hp : s.phase? key with
  | none =>
    rw [hp] at heq
    exact .inl ⟨rfl, Option.map_eq_none_iff.mp heq.symm⟩
  | some phase =>
    rw [hp, Option.map_some] at heq
    obtain ⟨phase', hp', hsame⟩ := Option.map_eq_some_iff.mp heq.symm
    cases phase with
    | waiting call =>
      cases phase' with
      | answered | sending | crashed => cases hsame
      | waiting call' => cases hsame; exact .inr (.inl ⟨_, rfl, hp'⟩)
    | answered response =>
      cases phase' with
      | waiting | sending | crashed => cases hsame
      | answered response' => cases hsame; exact .inr (.inr (.inl ⟨_, rfl, hp'⟩))
    | sending response sending =>
      cases phase' with
      | waiting | answered | crashed => cases hsame
      | sending response' sending' =>
        obtain ⟨volume', ticket', file', transfer'⟩ := sending'
        simp only [progress, Progress.sending.injEq] at hsame
        obtain ⟨rfl, rfl, rfl, hfile, rfl⟩ := hsame
        exact .inr (.inr (.inr (.inl ⟨_, _, _, _, file', _, rfl, hp', hfile.symm⟩)))
    | crashed =>
      cases phase' with
      | waiting | answered | sending => cases hsame
      | crashed => exact .inr (.inr (.inr (.inr ⟨rfl, hp'⟩)))

/-! ## Notes and limiters -/

theorem setPhase (h : Alike tree tree' s s') {phase phase' : Phase}
    (hp : progress tree phase = progress tree' phase') :
    Alike tree tree' (s.setPhase key phase) (s'.setPhase key phase') := by
  have hsome := h.isSome_phase? key
  obtain ⟨requests, rfl, hmap⟩ := h
  unfold Service.setPhase
  rw [hsome]
  split
  · refine ⟨_, rfl, ?_⟩
    -- the note is made at the same keys in both lists
    have hnote (t : Tree) (p : Phase) (l : List (RequestKey × Phase)) :
        (l.map fun request => if request.1 = key then (key, p) else request).map
            (keyProgress t) =
          (l.map (keyProgress t)).map fun request =>
            if request.1 = key then (key, progress t p) else request := by
      rw [List.map_map, List.map_map]
      refine List.map_congr_left fun request _ => ?_
      by_cases hk : request.1 = key <;> simp [hk, keyProgress]
    rw [hnote, hnote, hmap, hp]
  · refine ⟨_, rfl, ?_⟩
    rw [List.map_append, List.map_append, hmap]
    simp [keyProgress, hp]

theorem forget (h : Alike tree tree' s s') : Alike tree tree' (s.forget key) (s'.forget key) := by
  obtain ⟨requests, rfl, hmap⟩ := h
  refine ⟨_, rfl, ?_⟩
  have hdrop (t : Tree) (l : List (RequestKey × Phase)) :
      (l.filter (·.1 ≠ key)).map (keyProgress t) =
        (l.map (keyProgress t)).filter (·.1 ≠ key) := by
    rw [List.filter_map]
    rfl
  exact (hdrop tree _).trans ((congrArg _ hmap).trans (hdrop tree' _).symm)

theorem changeLimiter (h : Alike tree tree' s s') (volume : VolumeId)
    (change : Limiter → Limiter) :
    Alike tree tree' (s.changeLimiter volume change) (s'.changeLimiter volume change) := by
  obtain ⟨requests, rfl, hmap⟩ := h
  exact ⟨requests, rfl, hmap⟩

theorem release (h : Alike tree tree' s s') (volume : VolumeId) (ticket : Ticket) :
    Alike tree tree' (s.release volume ticket) (s'.release volume ticket) :=
  h.changeLimiter volume _

theorem answer (h : Alike tree tree' s s') (request : Request) (response : Response) :
    Alike tree tree' (s.answer key request response) (s'.answer key request response) :=
  h.setPhase rfl

theorem refuse (h : Alike tree tree' s s') (request : Request) (failure : Failure) :
    Alike tree tree' (s.refuse key request failure) (s'.refuse key request failure) :=
  h.answer request _

theorem giveBack (h : Alike tree tree' s s') (name : String) :
    Alike tree tree' (s.giveBack name) (s'.giveBack name) := by
  obtain ⟨requests, rfl, hmap⟩ := h
  unfold Service.giveBack
  cases s.permits.find? (·.name = name) with
  | none => exact ⟨requests, rfl, hmap⟩
  | some permit => exact ⟨requests, rfl, hmap⟩

theorem attempt (h : Alike tree tree' s s') (name : String) (volume : VolumeId) :
    (s.attempt name volume).1 = (s'.attempt name volume).1 ∧
      Alike tree tree' (s.attempt name volume).2 (s'.attempt name volume).2 := by
  obtain ⟨requests, rfl, hmap⟩ := h
  unfold Service.attempt
  simp only
  cases s.shelf.mounts.find? volume with
  | none => exact ⟨rfl, requests, rfl, hmap⟩
  | some mount =>
    simp only
    cases mount.limiter.tryAcquire with
    | mk ticket? limiter =>
      cases ticket? with
      | none => exact ⟨rfl, requests, rfl, hmap⟩
      | some ticket =>
        have hlimit : Alike tree tree' (s.changeLimiter volume fun _ => limiter)
            (Service.changeLimiter { s with requests := requests } volume fun _ => limiter) :=
          ⟨requests, rfl, hmap⟩
        obtain ⟨others, heq, hothers⟩ := hlimit.giveBack name
        refine ⟨rfl, others, ?_, hothers⟩
        simp only [heq]

theorem arrive (h : Alike tree tree' s s') (request : Request) :
    Alike tree tree' (s.arrive key request) (s'.arrive key request) := by
  have h₀ := h
  obtain ⟨requests, rfl, -⟩ := h
  unfold Service.arrive
  simp only
  cases judge s.shelf s.address request with
  | answer response => exact h₀.answer request response
  | stream entry mount =>
    simp only
    split
    · exact h₀.refuse request _
    · exact (h₀.changeLimiter entry.volume _).setPhase rfl

/-! ## Sending -/

theorem contentOf_eq {file file' : OpenFile} (h : tree.reader file = tree'.reader file') :
    tree.contentOf file.number = tree'.contentOf file'.number := by
  unfold Tree.contentOf
  rw [(Prod.mk.inj h).2]

/-- Readers of the same content at the same place get ready alike. -/
theorem startTransfer_eq {file file' : OpenFile} (h : tree.reader file = tree'.reader file')
    (content : Bytes) (offset length : Nat) :
    tree.reader (startTransfer content file offset length).1 =
        tree'.reader (startTransfer content file' offset length).1 ∧
      (startTransfer content file offset length).2 =
        (startTransfer content file' offset length).2 := by
  obtain ⟨hresource, hbody⟩ := Prod.mk.inj h
  unfold startTransfer
  split
  · exact ⟨h, rfl⟩
  · rw [← hresource]
    cases file.resource.seek content (.start offset) with
    | mk outcome resource =>
      cases outcome with
      | error fault => exact ⟨congrArg (resource, ·) hbody, rfl⟩
      | ok at_ => exact ⟨congrArg (resource, ·) hbody, rfl⟩

theorem setSending (h : Alike tree tree' s s') (response : Response) (volume : VolumeId)
    (ticket : Ticket) {file file' : OpenFile} (hfile : tree.reader file = tree'.reader file')
    (transfer : Transfer) :
    Alike tree tree' (s.setSending key response ⟨volume, ticket, file, transfer⟩)
      (s'.setSending key response ⟨volume, ticket, file', transfer⟩) := by
  obtain ⟨hresource, hbody⟩ := Prod.mk.inj hfile
  unfold Service.setSending
  simp only
  split
  · refine (h.setPhase ?_).release volume ticket
    simp only [progress, Tree.reader, hresource, hbody]
  · refine h.setPhase ?_
    simp only [progress, hfile]

theorem work (h : Alike tree tree' s s') :
    Alike tree tree' (Service.work tree s key) (Service.work tree' s' key) := by
  unfold Service.work
  obtain ⟨hp, hp'⟩ | ⟨call, hp, hp'⟩ | ⟨response, hp, hp'⟩ |
    ⟨response, volume, ticket, file, file', transfer, hp, hp', hfile⟩ | ⟨hp, hp'⟩ := h.phase?_cases key
  · rw [hp, hp']
    exact h
  · rw [hp, hp']
    exact h
  · rw [hp, hp']
    exact h
  · obtain ⟨hresource, hbody⟩ := Prod.mk.inj hfile
    simp only [hp, hp']
    cases transfer.stage with
    | reading =>
      simp only [hresource, contentOf_eq hfile]
      refine h.setSending response volume ticket ?_ _
      simp only [Tree.reader, hbody]
    | holding piece => exact h.setSending response volume ticket hfile _
    | _ => exact h
  · rw [hp, hp']
    exact h

theorem receive (h : Alike tree tree' s s') : (s.receive key).1 = (s'.receive key).1 ∧
    Alike tree tree' (s.receive key).2 (s'.receive key).2 := by
  unfold Service.receive
  obtain ⟨hp, hp'⟩ | ⟨call, hp, hp'⟩ | ⟨response, hp, hp'⟩ |
    ⟨response, volume, ticket, file, file', transfer, hp, hp', hfile⟩ | ⟨hp, hp'⟩ := h.phase?_cases key
  · rw [hp, hp']
    exact ⟨rfl, h⟩
  · rw [hp, hp']
    exact ⟨rfl, h⟩
  · rw [hp, hp']
    exact ⟨rfl, h⟩
  · rw [hp, hp']
    refine ⟨rfl, h.setPhase ?_⟩
    simp only [progress, hfile]
  · rw [hp, hp']
    exact ⟨rfl, h⟩

theorem hangUp (h : Alike tree tree' s s') :
    Alike tree tree' (s.hangUp key) (s'.hangUp key) := by
  unfold Service.hangUp
  obtain ⟨hp, hp'⟩ | ⟨call, hp, hp'⟩ | ⟨response, hp, hp'⟩ |
    ⟨response, volume, ticket, file, file', transfer, hp, hp', hfile⟩ | ⟨hp, hp'⟩ := h.phase?_cases key
  · rw [hp, hp']
    exact h
  · rw [hp, hp']
    exact (h.changeLimiter _ _).forget
  · rw [hp, hp']
    exact h.forget
  · simp only [hp, hp']
    split
    · exact h.forget
    · refine h.setPhase ?_
      simp only [progress, hfile]
  · rw [hp, hp']
    exact h.forget

/-! ## Serving -/

section Serve

variable (hs : tree.Sound) (hs' : tree'.Sound)

include hs hs'

/-- A request that has got its slot is answered. -/
theorem serve (h : Alike tree tree' s s') (ht : s.shelf.OnTwins tree tree' here) (call : Call) :
    Alike tree tree' (Service.serve tree here s key call)
      (Service.serve tree' here s' key call) := by
  have hopen := ht.openEntry_eq hs hs' call.entry
  unfold Service.serve
  rw [h.shelf_eq, h.runtime_eq]
  cases hfound : s.shelf.openEntry tree here call.entry with
  | error fault =>
    rw [error_of_map_eq hopen hfound]
    exact (h.answer call.request _).release _ _
  | ok file =>
    obtain ⟨file', hfound', (hfile : tree.reader file = tree'.reader file')⟩ :=
      ok_of_map_eq hopen hfound
    have hresource : file.resource = file'.resource := (Prod.mk.inj hfile).1
    simp only [hfound', hresource, contentOf_eq hfile]
    split
    · exact (h.setPhase rfl).release _ _
    · split
      · exact (h.answer call.request _).release _ _
      · rename_i offset length _
        obtain ⟨hstart, htransfer⟩ :=
          startTransfer_eq hfile (tree'.contentOf file'.number) offset length
        rw [htransfer]
        exact h.setSending _ _ _ hstart _

/-- A waiting request asks for its slot. -/
theorem poll (h : Alike tree tree' s s') (ht : s.shelf.OnTwins tree tree' here) :
    Alike tree tree' (Service.poll tree here s key) (Service.poll tree' here s' key) := by
  unfold Service.poll
  obtain ⟨hp, hp'⟩ | ⟨call, hp, hp'⟩ | ⟨response, hp, hp'⟩ |
    ⟨response, volume, ticket, file, file', transfer, hp, hp', -⟩ | ⟨hp, hp'⟩ := h.phase?_cases key
  · rw [hp, hp']
    exact h
  · rw [hp, hp']
    have h₀ := h
    obtain ⟨requests, rfl, -⟩ := h
    simp only
    cases s.shelf.mounts.find? call.entry.volume with
    | none => exact h₀
    | some mount =>
      simp only
      cases mount.limiter.poll call.ticket s.stopping with
      | mk admission limiter =>
        have hlimit := h₀.changeLimiter call.entry.volume fun _ => limiter
        cases admission with
        | granted => exact hlimit.serve hs hs' (ht.changeLimiter _ _) call
        | cancelled => exact hlimit.refuse call.request _
        | waiting => exact h₀
  · rw [hp, hp']
    exact h
  · rw [hp, hp']
    exact h
  · rw [hp, hp']
    exact h

/-- A waiting request looks at the clock. -/
theorem expire (h : Alike tree tree' s s') (ht : s.shelf.OnTwins tree tree' here) :
    Alike tree tree' (Service.expire tree here s key) (Service.expire tree' here s' key) := by
  have hpoll : Alike tree tree' (Service.poll tree here s key) (Service.poll tree' here s' key) :=
    h.poll hs hs' ht
  unfold Service.expire
  generalize Service.poll tree here s key = polled at hpoll ⊢
  generalize Service.poll tree' here s' key = polled' at hpoll ⊢
  simp only
  obtain ⟨hp, hp'⟩ | ⟨call, hp, hp'⟩ | ⟨response, hp, hp'⟩ |
    ⟨response, volume, ticket, file, file', transfer, hp, hp', -⟩ | ⟨hp, hp'⟩ :=
    hpoll.phase?_cases key
  · rw [hp, hp']
    exact hpoll
  · rw [hp, hp']
    have h₀ := hpoll
    obtain ⟨requests, rfl, -⟩ := hpoll
    simp only
    split
    · exact (h₀.changeLimiter _ _).answer call.request _
    · exact h₀
  · rw [hp, hp']
    exact hpoll
  · rw [hp, hp']
    exact hpoll
  · rw [hp, hp']
    exact hpoll

/-- On twins every event leads from alike services to alike ones. -/
theorem step (h : Alike tree tree' s s') (ht : s.shelf.OnTwins tree tree' here) (event : Event) :
    Alike tree tree' (Service.step tree here s event) (Service.step tree' here s' event) := by
  cases event with
  | arrive key request =>
    simp only [Service.step, h.isSome_phase? key]
    split
    · exact h
    · exact h.arrive request
  | poll key => exact h.poll hs hs' ht
  | expire key => exact h.expire hs hs' ht
  | work key => exact h.work
  | receive key => exact h.receive.2
  | hangUp key => exact h.hangUp
  | stop =>
    obtain ⟨requests, rfl, hmap⟩ := h
    exact ⟨requests, rfl, hmap⟩
  | attempt name volume => exact (h.attempt name volume).2
  | giveBack name => exact h.giveBack name

end Serve

end Alike

end Service

end MediaShelf.Server
