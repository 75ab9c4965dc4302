import MediaShelf.Proofs.Files.TwinWalk
import MediaShelf.Shelf.Opening
import MediaShelf.Shelf.Rescan

/-!
# Shelves on twins

If two trees are twins at the root of every mount of a shelf (`Shelf.OnTwins`), then scanning every
mount does the same on both, and the file of an entry is opened alike or refused with the same
failure. An open file is looked at without its number (`Tree.reader`).
-/

namespace MediaShelf

open MediaShelf.Catalog
open MediaShelf.Files

/-! ## Scanning -/

section Scan

variable {tree tree' : Tree} {here : Place}

theorem Files.Tree.sizeOf_eq {number number' : FileNumber}
    (h : tree.body? number = tree'.body? number') : tree.sizeOf number = tree'.sizeOf number' := by
  unfold Tree.sizeOf
  rw [h]

theorem found?_twin {item item' : WalkItem} (h : tree.sightOf item = tree'.sightOf item') :
    found? tree.sizeOf item = found? tree'.sizeOf item' := by
  cases item with
  | unreadable depth fault => cases item' with
    | unreadable depth' fault' => rfl
    | met names' node' => cases h
  | met names node => cases item' with
    | unreadable depth' fault' => cases h
    | met names' node' =>
      simp only [Tree.sightOf, Tree.Encounter.met.injEq] at h
      obtain ⟨rfl, hsight⟩ := h
      cases node <;> cases node' <;> simp only [Tree.sight, Sight.file.injEq, reduceCtorEq] at hsight
      · rfl
      · simp only [found?, Tree.sizeOf_eq hsight]
      · rfl

/-- The media files of a walk are told by what its items look like. -/
theorem collect_twin {items items' : List WalkItem} (cancel : Cancellation) (look : Nat)
    (h : items.map tree.sightOf = items'.map tree'.sightOf) :
    collect tree.sizeOf cancel look items = collect tree'.sizeOf cancel look items' := by
  induction items generalizing items' look with
  | nil =>
    have hnil : items' = [] := by simpa using h.symm
    rw [hnil, collect, collect]
  | cons item items ih =>
    cases items' with
    | nil => cases h
    | cons item' items' =>
      rw [List.map_cons, List.map_cons, List.cons.injEq] at h
      have hrest := ih (look + 1) h.2
      have hfound := found?_twin h.1
      unfold collect
      simp only [hrest, hfound]
      cases item with
      | unreadable depth fault => cases item' with
        | unreadable depth' fault' => cases h.1; rfl
        | met names' node' => cases h.1
      | met names node => cases item' with
        | unreadable depth' fault' => cases h.1
        | met names' node' => rfl

variable (hs : tree.Sound) (hs' : tree'.Sound)

include hs hs'

theorem scanVolume_twin {root : Bytes} (ht : tree.Twin tree' here root) (r : Registry)
    (ids : IdSource) (volume : VolumeId) (cancel : Cancellation) :
    scanVolume tree here r ids volume root cancel =
      scanVolume tree' here r ids volume root cancel := by
  unfold scanVolume walkVolume
  rw [collect_twin cancel 0 (ht.walk_eq hs hs')]

theorem scanMounts_twin {mounts : List Mount}
    (ht : ∀ mount ∈ mounts, tree.Twin tree' here mount.root) (cancel : Cancellation)
    (r : Registry) (ids : IdSource) :
    scanMounts tree here cancel mounts r ids = scanMounts tree' here cancel mounts r ids := by
  induction mounts generalizing cancel r ids with
  | nil => rfl
  | cons mount rest ih =>
    have hmount := ht mount List.mem_cons_self
    have hlength : (tree.walk here mount.root).length = (tree'.walk here mount.root).length := by
      simpa using congrArg List.length (hmount.walk_eq hs hs')
    have hrest := ih fun other hmem => ht other (List.mem_cons_of_mem mount hmem)
    simp only [scanMounts, scanVolume_twin hs hs' hmount, hlength, hrest]

end Scan

/-! ## Opening -/

/-- An open file as its reader knows it: what was read, and the content behind it. -/
def Files.Tree.reader (tree : Tree) (file : OpenFile) : Resource × Option FileBody :=
  (file.resource, tree.body? file.number)

namespace Shelf

/-- Two trees are twins at the root of every mount. -/
def OnTwins (shelf : Shelf) (tree tree' : Tree) (here : Place) : Prop :=
  ∀ mount ∈ shelf.mounts, tree.Twin tree' here mount.root

variable {shelf : Shelf} {tree tree' : Tree} {here : Place}

theorem OnTwins.of_mount (h : shelf.OnTwins tree tree' here) {id : VolumeId} {mount : Mount}
    (hm : shelf.mount id = .ok mount) : tree.Twin tree' here mount.root := by
  unfold Shelf.mount at hm
  split at hm
  · rename_i found hfind
    cases hm
    exact h mount (List.mem_of_find?_eq_some hfind)
  · cases hm

theorem OnTwins.changeLimiter (h : shelf.OnTwins tree tree' here) (id : VolumeId)
    (change : Admission.Limiter → Admission.Limiter) :
    (shelf.changeLimiter id change).OnTwins tree tree' here := by
  intro mount hmem
  obtain ⟨old, hold, rfl⟩ := List.mem_map.mp hmem
  split
  · exact h old hold
  · exact h old hold

variable (hs : tree.Sound) (hs' : tree'.Sound)

include hs hs'

theorem OnTwins.scanAll_eq (h : shelf.OnTwins tree tree' here) (cancel : Cancellation) :
    shelf.scanAll tree here cancel = shelf.scanAll tree' here cancel := by
  unfold scanAll
  rw [scanMounts_twin hs hs' h]

/-- The file of an entry is opened alike, or refused with the same failure. -/
theorem OnTwins.openEntry_eq (h : shelf.OnTwins tree tree' here) (entry : Entry) :
    (shelf.openEntry tree here entry).map tree.reader =
      (shelf.openEntry tree' here entry).map tree'.reader := by
  unfold openEntry
  cases hm : shelf.mount entry.volume with
  | error failure => rfl
  | ok mount =>
    have hopen := (h.of_mount hm).openInRoot_eq hs hs' entry.path
    simp only
    cases hfound : tree.openInRoot here mount.root entry.path with
    | error failure =>
      rw [error_of_map_eq hopen hfound]
      rfl
    | ok node =>
      obtain ⟨node', hfound', hsight⟩ := ok_of_map_eq hopen hfound
      rw [hfound']
      cases node <;> cases node' <;> simp only [Tree.sight, Sight.file.injEq, reduceCtorEq] at hsight
      · rfl
      · rename_i number number'
        simp only [hsight]
        cases hbody : tree'.body? number' with
        | none => rfl
        | some body =>
          dsimp only
          split
          · simp only [Except.map, Tree.reader, hsight, hbody]
          · rfl
      · rfl

end Shelf

end MediaShelf
