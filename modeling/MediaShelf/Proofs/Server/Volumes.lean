import Mathlib
import MediaShelf.Server.Service

/-!
# What events leave alone

An event changes nothing of a shelf but the limiters of its volumes (`Service.keeps_step`): the
volumes, their roots and the catalog stay as they are, and so does what the service is run on.
-/

namespace MediaShelf

open MediaShelf.Admission
open MediaShelf.Catalog
open MediaShelf.Files
open MediaShelf.Http

/-- A mount but for its limiter. -/
def Mount.volume (mount : Mount) : VolumeId × Bytes := (mount.id, mount.root)

/-- Two shelves that differ in nothing but the limiters of their volumes. -/
def Shelf.SameVolumes (shelf shelf' : Shelf) : Prop :=
  ∃ mounts, shelf' = { shelf with mounts := mounts } ∧
    mounts.map (·.volume) = shelf.mounts.map (·.volume)

namespace Shelf

variable {shelf shelf' shelf'' : Shelf}

theorem SameVolumes.refl (shelf : Shelf) : shelf.SameVolumes shelf := ⟨_, rfl, rfl⟩

theorem SameVolumes.trans (h : shelf.SameVolumes shelf') (h' : shelf'.SameVolumes shelf'') :
    shelf.SameVolumes shelf'' := by
  obtain ⟨mounts, rfl, hmounts⟩ := h
  obtain ⟨mounts', rfl, hmounts'⟩ := h'
  exact ⟨mounts', rfl, hmounts'.trans hmounts⟩

theorem SameVolumes.volumes_eq (h : shelf.SameVolumes shelf') :
    shelf'.mounts.map (·.volume) = shelf.mounts.map (·.volume) := by
  obtain ⟨mounts, rfl, hmounts⟩ := h
  exact hmounts

/-- Files are opened alike. -/
theorem SameVolumes.opens_eq (h : shelf.SameVolumes shelf') :
    shelf'.mode = shelf.mode ∧ shelf'.bufferSize = shelf.bufferSize := by
  obtain ⟨mounts, rfl, -⟩ := h
  exact ⟨rfl, rfl⟩

theorem sameVolumes_changeLimiter (shelf : Shelf) (id : VolumeId)
    (change : Limiter → Limiter) : shelf.SameVolumes (shelf.changeLimiter id change) := by
  refine ⟨_, rfl, ?_⟩
  unfold MountTable.changeLimiter
  rw [List.map_map]
  refine List.map_congr_left fun mount _ => ?_
  rw [Function.comp_apply]
  split <;> rfl

end Shelf

/-- Tables of the same volumes have mounts of the same roots. -/
theorem MountTable.find?_of_volumes {table table' : MountTable}
    (h : table'.map (·.volume) = table.map (·.volume)) {id : VolumeId} {mount : Mount}
    (hmount : table.find? id = some mount) :
    ∃ mount', table'.find? id = some mount' ∧ mount'.root = mount.root := by
  have hfind : ∀ t : MountTable, (t.map (·.volume)).find? (·.1 = id) =
      (t.find? id).map (·.volume) := fun _ => List.find?_map
  have hvolumes := (hfind table').symm.trans ((congrArg _ h).trans (hfind table))
  rw [hmount, Option.map_some, Option.map_eq_some_iff] at hvolumes
  obtain ⟨mount', hmount', heq⟩ := hvolumes
  exact ⟨mount', hmount', congrArg Prod.snd heq⟩

namespace Server.Service

variable {tree : Tree} {here : Place} {s : Service} {key : RequestKey}

@[simp] theorem shelf_setPhase (phase : Phase) : (s.setPhase key phase).shelf = s.shelf := by
  unfold setPhase
  split <;> rfl

@[simp] theorem shelf_answer (request : Request) (response : Response) :
    (s.answer key request response).shelf = s.shelf := shelf_setPhase _

@[simp] theorem shelf_refuse (request : Request) (failure : Failure) :
    (s.refuse key request failure).shelf = s.shelf := shelf_setPhase _

/-- A service that is run on the same, and whose shelf differs in nothing but the limiters of its
volumes. -/
structure Keeps (s s' : Service) : Prop where
  runtime : s'.runtime = s.runtime
  shelf : s.shelf.SameVolumes s'.shelf

theorem Keeps.refl (s : Service) : s.Keeps s := ⟨rfl, .refl _⟩

theorem Keeps.trans {s' s'' : Service} (h : s.Keeps s') (h' : s'.Keeps s'') : s.Keeps s'' :=
  ⟨h'.runtime.trans h.runtime, h.shelf.trans h'.shelf⟩

theorem keeps_setPhase (phase : Phase) : s.Keeps (s.setPhase key phase) := by
  unfold setPhase
  split
  · exact ⟨rfl, .refl _⟩
  · exact ⟨rfl, .refl _⟩

theorem keeps_changeLimiter (volume : VolumeId) (change : Limiter → Limiter) :
    s.Keeps (s.changeLimiter volume change) :=
  ⟨rfl, s.shelf.sameVolumes_changeLimiter volume change⟩

theorem keeps_forget : s.Keeps (s.forget key) := ⟨rfl, .refl _⟩

/-- A request is done with, and gives its slot back. -/
theorem keeps_setPhase_release (phase : Phase) (volume : VolumeId) (ticket : Ticket) :
    s.Keeps ((s.setPhase key phase).release volume ticket) :=
  (keeps_setPhase phase).trans (keeps_changeLimiter volume _)

theorem keeps_arrive (request : Request) : s.Keeps (s.arrive key request) := by
  unfold arrive
  split
  · exact keeps_setPhase _
  · split
    · exact keeps_setPhase _
    · exact (keeps_changeLimiter _ _).trans (keeps_setPhase _)

theorem keeps_setSending (response : Response) (sending : Sending) :
    s.Keeps (s.setSending key response sending) := by
  unfold setSending
  split
  · exact keeps_setPhase_release _ _ _
  · exact keeps_setPhase _

theorem keeps_serve (call : Call) : s.Keeps (serve tree here s key call) := by
  unfold serve
  simp only
  split
  · exact keeps_setPhase_release _ _ _
  · split
    · exact keeps_setPhase_release _ _ _
    · split
      · exact keeps_setPhase_release _ _ _
      · exact keeps_setSending _ _

theorem keeps_poll : s.Keeps (poll tree here s key) := by
  unfold poll
  split
  · split
    · exact .refl _
    · split
      · exact (keeps_changeLimiter _ _).trans (keeps_serve _)
      · exact (keeps_changeLimiter _ _).trans (keeps_setPhase _)
      · exact .refl _
  · exact .refl _

theorem keeps_expire : s.Keeps (expire tree here s key) := by
  refine keeps_poll.trans (?_ : (poll tree here s key).Keeps _)
  unfold expire
  simp only
  split
  · split
    · exact (keeps_changeLimiter _ _).trans (keeps_setPhase _)
    · exact .refl _
  · exact .refl _

theorem keeps_work : s.Keeps (work tree s key) := by
  unfold work
  split
  · simp only
    split
    · exact .refl _
    · exact keeps_setSending _ _
    · exact keeps_setSending _ _
  · exact .refl _

theorem keeps_receive : s.Keeps (s.receive key).2 := by
  unfold receive
  split
  · exact keeps_setPhase _
  · exact .refl _

theorem keeps_hangUp : s.Keeps (s.hangUp key) := by
  unfold hangUp
  split
  · exact (keeps_changeLimiter _ _).trans keeps_forget
  · exact keeps_forget
  · exact keeps_forget
  · split
    · exact keeps_forget
    · exact keeps_setPhase _
  · exact .refl _

theorem keeps_giveBack (name : String) : s.Keeps (s.giveBack name) := by
  unfold giveBack
  split
  · exact .refl _
  · exact ⟨rfl, s.shelf.sameVolumes_changeLimiter _ _⟩

theorem keeps_attempt (name : String) (volume : VolumeId) : s.Keeps (s.attempt name volume).2 := by
  unfold attempt
  split
  · exact .refl _
  · split
    · exact .refl _
    · obtain ⟨hruntime, hshelf⟩ :=
        (keeps_changeLimiter (s := s) volume _).trans (keeps_giveBack name)
      exact ⟨hruntime, hshelf⟩

/-- No event changes anything of a shelf but the limiters of its volumes, or what a service is run
on. -/
theorem keeps_step (event : Event) : s.Keeps (step tree here s event) := by
  cases event with
  | arrive key request =>
    simp only [step]
    split
    · exact .refl _
    · exact keeps_arrive request
  | poll key => exact keeps_poll
  | expire key => exact keeps_expire
  | work key => exact keeps_work
  | receive key => exact keeps_receive
  | hangUp key => exact keeps_hangUp
  | stop => exact ⟨rfl, .refl _⟩
  | attempt name volume => exact keeps_attempt name volume
  | giveBack name => exact keeps_giveBack name

end Server.Service

end MediaShelf
