import MediaShelf.Catalog.Scan
import MediaShelf.Proofs.Files.Names
import MediaShelf.Proofs.Files.TwinWalk

/-!
# What a walk discovers

A walk that is not called off discovers each file once, so what it found is a set of files
(`distinctPaths_walkVolume`).
-/

namespace MediaShelf

open MediaShelf.Catalog
open MediaShelf.Files

/-- Every node of a tree stands below folders with proper names, and has one itself. -/
def Files.Tree.Named (tree : Tree) : Prop :=
  ∀ place ∈ tree.nodes.map (·.1), ∀ name ∈ place, IsName name

instance (tree : Tree) : Decidable tree.Named :=
  inferInstanceAs (Decidable (∀ place ∈ tree.nodes.map (·.1), ∀ name ∈ place, IsName name))

namespace Catalog

def DistinctPaths (found : List Found) : Prop := (found.map fun f => steps f.path).Nodup

instance (found : List Found) : Decidable (DistinctPaths found) :=
  inferInstanceAs (Decidable (found.map fun f => steps f.path).Nodup)

theorem collect_ok {size : FileNumber → Nat} {cancel : Cancellation} {look : Nat}
    {items : List WalkItem} {found : List Found}
    (h : collect size cancel look items = .ok (some found)) :
    found = items.filterMap (found? size) := by
  induction items generalizing look found with
  | nil =>
    cases h
    rfl
  | cons item rest ih =>
    unfold collect at h
    split at h
    · cases h
    · split at h
      · cases h
      · split at h
        · rename_i later hlater
          cases h
          rw [ih hlater]
          cases hfound : found? size item with
          | none => rw [List.filterMap_cons_none hfound]; rfl
          | some f => rw [List.filterMap_cons_some hfound]; rfl
        · rename_i hlater
          exact absurd h (hlater found)

/-- The names that a walk met something by. -/
def metNames? : WalkItem → Option (List Name)
  | .met names _ => some names
  | .unreadable .. => none

theorem found?_eq_some {size : FileNumber → Nat} {item : WalkItem} {f : Found}
    (h : found? size item = some f) :
    ∃ names, metNames? item = some names ∧ f.path = joinNames names := by
  unfold found? at h
  split at h
  · rename_i names number
    simp only at h
    split at h
    · cases h
      exact ⟨names, rfl, rfl⟩
    · cases h
  · cases h

/-- If a walk meets nothing twice, and all by proper names, then no path is found twice. -/
theorem distinctPaths_filterMap {size : FileNumber → Nat} {items : List WalkItem}
    (hnames : ∀ names ∈ items.filterMap metNames?, ∀ name ∈ names, IsName name)
    (hnodup : (items.filterMap metNames?).Nodup) :
    DistinctPaths (items.filterMap (found? size)) := by
  have hpairs : items.Pairwise fun a b => ∀ names ∈ metNames? a, ∀ names' ∈ metNames? b,
      names ≠ names' := List.pairwise_filterMap.mp hnodup
  refine List.pairwise_map.mpr (List.pairwise_filterMap.mpr ?_)
  refine hpairs.imp_of_mem fun {a b} ha hb hne f hf g hg heq => ?_
  obtain ⟨names, hmet, hpath⟩ := found?_eq_some hf
  obtain ⟨names', hmet', hpath'⟩ := found?_eq_some hg
  rw [hpath, hpath', steps_joinNames (hnames names (List.mem_filterMap.mpr ⟨a, ha, hmet⟩)),
    steps_joinNames (hnames names' (List.mem_filterMap.mpr ⟨b, hb, hmet'⟩))] at heq
  refine hne names hmet names' hmet' (List.map_injective_iff.mpr ?_ heq)
  exact fun _ _ h => Step.down.inj h

theorem metNames?_itemBelow {path : Bytes} {names met : List Name} {node : Node}
    (h : metNames? (itemBelow path names node) = some met) : met = names := by
  unfold itemBelow at h
  split at h
  · cases h
  · exact (Option.some.inj h).symm

theorem metNames?_below (path : Bytes) (items : List (List Name × Node)) :
    List.Sublist ((items.map fun (names, node) => itemBelow path names node).filterMap metNames?)
      (items.map (·.1)) := by
  induction items with
  | nil => exact List.Sublist.slnil
  | cons item rest ih =>
    rw [List.map_cons, List.map_cons]
    cases hmet : metNames? (itemBelow path item.1 item.2) with
    | none =>
      rw [List.filterMap_cons_none hmet]
      exact ih.cons _
    | some met =>
      rw [List.filterMap_cons_some hmet, metNames?_itemBelow hmet]
      exact ih.cons_cons _

end Catalog

/-- The names that a walk from a path meets something by are all different, and proper ones. -/
theorem Files.Tree.nodup_metNames {tree : Tree} (hs : tree.Sound) (hn : tree.Named) (here : Place)
    (path : Bytes) : ((tree.walk here path).filterMap metNames?).Nodup ∧
      ∀ names ∈ (tree.walk here path).filterMap metNames?, ∀ name ∈ names, IsName name := by
  unfold Tree.walk
  split
  · exact ⟨List.nodup_nil, fun _ hmem => absurd hmem List.not_mem_nil⟩
  · rename_i place _
    split
    · have hfirst : metNames? (.met [] .folder) = some [] := rfl
      rw [List.filterMap_cons_some hfirst]
      have hsub := metNames?_below path (tree.below place)
      have hbelow : ∀ names ∈ (tree.below place).map (·.1), names ≠ [] ∧
          place ++ names ∈ tree.nodes.map (·.1) := by
        intro names hmem
        obtain ⟨⟨names, node⟩, hitem, rfl⟩ := List.mem_map.mp hmem
        obtain ⟨hne, hnode⟩ := (Tree.mem_below hs).mp hitem
        exact ⟨hne, List.mem_map_of_mem ((hs.mem_nodes (by simp [hne])).mpr hnode)⟩
      refine ⟨List.nodup_cons.mpr ⟨fun hmem => (hbelow [] (hsub.subset hmem)).1 rfl,
        (Tree.nodup_below hs).sublist hsub⟩, ?_⟩
      intro names hmem name hname
      rcases List.mem_cons.mp hmem with rfl | hmem
      · cases hname
      · exact hn _ (hbelow names (hsub.subset hmem)).2 name (List.mem_append_right _ hname)
    · refine ⟨List.nodup_singleton _, fun names hmem name hname => ?_⟩
      rw [List.mem_singleton.mp hmem] at hname
      cases hname
    · exact ⟨List.nodup_nil, fun _ hmem => absurd hmem List.not_mem_nil⟩

namespace Catalog

/-- A walk of a tree discovers each file once. -/
theorem distinctPaths_walkVolume {tree : Tree} (hs : tree.Sound) (hn : tree.Named) {here : Place}
    {root : Bytes} {cancel : Cancellation} {found : List Found}
    (h : walkVolume tree here root cancel = .ok (some found)) : DistinctPaths found := by
  obtain ⟨hnodup, hnames⟩ := tree.nodup_metNames hs hn here root
  rw [collect_ok h]
  exact distinctPaths_filterMap hnames hnodup

end Catalog

end MediaShelf
