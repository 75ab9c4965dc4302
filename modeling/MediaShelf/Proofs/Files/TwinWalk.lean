import MediaShelf.Files.Walk
import MediaShelf.Proofs.Files.Twin

/-!
# Walking twins

A walk that follows no links meets the same in twins, in the same order (`Tree.Twin.walk_eq`): what
lies below a root is told by what can be seen there, and the order by the names alone.
-/

namespace MediaShelf.Files

namespace Tree

/-- A node with its names, as it looks. -/
def sightBelow (tree : Tree) (item : List Name × Node) : List Name × Sight :=
  (item.1, tree.sight item.2)

/-- What stands in front in a walk. -/
def comesFirst {α : Type} (a b : List Name × α) : Bool := (compare a.1 b.1).isLE

variable {tree tree' : Tree} {place : Place} {names : List Name} {node : Node}

theorem comesFirst_trans {α : Type} (a b c : List Name × α) (hab : comesFirst a b)
    (hbc : comesFirst b c) : comesFirst a c := Std.TransCmp.isLE_trans hab hbc

theorem comesFirst_total {α : Type} (a b : List Name × α) : comesFirst a b || comesFirst b a := by
  unfold comesFirst
  have hswap : compare a.1 b.1 = (compare b.1 a.1).swap := Std.OrientedCmp.eq_swap
  rw [hswap]
  cases compare b.1 a.1 <;> rfl

theorem comesFirst_antisymm {α : Type} {a b : List Name × α} (hab : comesFirst a b)
    (hba : comesFirst b a) : a.1 = b.1 :=
  Std.LawfulEqCmp.compare_eq_iff_eq.mp (Std.OrientedCmp.isLE_antisymm hab hba)

theorem restBelow?_eq_some {at_ : Place} : restBelow? place at_ = some names ↔
    at_ = place ++ names := by
  unfold restBelow?
  split
  · rename_i h
    obtain ⟨rest, rfl⟩ := List.isPrefixOf_iff_prefix.mp h
    simp
  · rename_i h
    refine ⟨nofun, fun heq => absurd ?_ h⟩
    rw [heq]
    exact List.isPrefixOf_iff_prefix.mpr (List.prefix_append place names)

/-- The nodes below a place before they are sorted. -/
theorem below_eq (tree : Tree) (place : Place) : tree.below place =
    (tree.nodes.filterMap fun (at_, node) => (restBelow? place at_).bind fun names =>
      if names = [] then none else some (names, node)).mergeSort comesFirst := rfl

theorem ne_nil_of_mem_below {item : List Name × Node} (h : item ∈ tree.below place) :
    item.1 ≠ [] := by
  rw [below_eq, List.mem_mergeSort, List.mem_filterMap] at h
  obtain ⟨⟨at_, found⟩, -, hitem⟩ := h
  obtain ⟨rest, -, hif⟩ := Option.bind_eq_some_iff.mp hitem
  split at hif
  · cases hif
  · rename_i hne
    cases hif
    exact hne

theorem mem_below (hs : tree.Sound) : (names, node) ∈ tree.below place ↔
    names ≠ [] ∧ tree.node? (place ++ names) = some node := by
  rw [below_eq, List.mem_mergeSort, List.mem_filterMap]
  constructor
  · rintro ⟨⟨at_, found⟩, hmem, hitem⟩
    obtain ⟨rest, hrest, hif⟩ := Option.bind_eq_some_iff.mp hitem
    rw [restBelow?_eq_some] at hrest
    subst hrest
    by_cases hnil : rest = []
    · simp [hnil] at hif
    · rw [if_neg hnil] at hif
      cases hif
      exact ⟨hnil, (hs.mem_nodes (by simp [hnil])).mp hmem⟩
  · rintro ⟨hne, hnode⟩
    refine ⟨(place ++ names, node), (hs.mem_nodes (by simp [hne])).mpr hnode, ?_⟩
    have hrest : restBelow? place (place ++ names) = some names := restBelow?_eq_some.mpr rfl
    simp [hrest, hne]

theorem nodup_below (hs : tree.Sound) : ((tree.below place).map (·.1)).Nodup := by
  rw [below_eq, (List.mergeSort_perm _ _).map _ |>.nodup_iff]
  have hd : tree.nodes.Pairwise (fun a b => a.1 ≠ b.1) := List.pairwise_map.mp hs.distinct
  refine List.pairwise_map.mpr (List.pairwise_filterMap.mpr (hd.imp ?_))
  rintro ⟨at_, node⟩ ⟨at₂, node₂⟩ hne ⟨names, found⟩ hitem ⟨names₂, found₂⟩ hitem₂ heq
  obtain ⟨rest, hrest, hif⟩ := Option.bind_eq_some_iff.mp hitem
  obtain ⟨rest₂, hrest₂, hif₂⟩ := Option.bind_eq_some_iff.mp hitem₂
  rw [restBelow?_eq_some] at hrest hrest₂
  split at hif
  · cases hif
  · split at hif₂
    · cases hif₂
    · cases hif
      cases hif₂
      simp only at heq hrest hrest₂ hne
      exact hne (by rw [hrest, hrest₂, heq])

theorem sorted_below (tree : Tree) (place : Place) :
    (tree.below place).Pairwise (fun a b => comesFirst a b) :=
  List.pairwise_mergeSort comesFirst_trans comesFirst_total _

/-- What lies below a place is what can be seen there. -/
theorem mem_sightBelow (hs : tree.Sound) {s : Sight} :
    (names, s) ∈ (tree.below place).map tree.sightBelow ↔
      names ≠ [] ∧ tree.seen? (place ++ names) = some s := by
  rw [List.mem_map]
  constructor
  · rintro ⟨⟨found, node⟩, hmem, heq⟩
    cases heq
    obtain ⟨hne, hnode⟩ := (mem_below hs).mp hmem
    exact ⟨hne, seen?_eq_some.mpr ⟨node, hnode, rfl⟩⟩
  · rintro ⟨hne, hseen⟩
    obtain ⟨node, hnode, rfl⟩ := seen?_eq_some.mp hseen
    exact ⟨(names, node), (mem_below hs).mpr ⟨hne, hnode⟩, rfl⟩

theorem nodup_sightBelow (hs : tree.Sound) :
    ((tree.below place).map tree.sightBelow).Nodup := by
  have h : ((tree.below place).map (·.1)).Nodup := nodup_below hs
  refine List.Nodup.of_map (·.1) ?_
  rw [List.map_map]
  exact h

/-- Below a place from which trees look the same lies the same. -/
theorem AlikeFrom.below_eq (hs : tree.Sound) (hs' : tree'.Sound)
    (h : tree.AlikeFrom tree' place) :
    (tree.below place).map tree.sightBelow = (tree'.below place).map tree'.sightBelow := by
  have hsame : ∀ item, item ∈ (tree.below place).map tree.sightBelow ↔
      item ∈ (tree'.below place).map tree'.sightBelow := by
    rintro ⟨names, s⟩
    rw [mem_sightBelow hs, mem_sightBelow hs', h _ (List.prefix_append place names)]
  have hperm := (List.perm_ext_iff_of_nodup (nodup_sightBelow hs) (nodup_sightBelow hs')).mpr hsame
  have hsorted (t : Tree) : ((t.below place).map t.sightBelow).Pairwise
      (fun a b => comesFirst a b) := List.pairwise_map.mpr (sorted_below t place)
  refine List.Perm.eq_of_pairwise ?_ (hsorted tree) (hsorted tree') hperm
  rintro ⟨names, s⟩ ⟨names', s'⟩ hmem hmem' hfirst hlast
  have hnames : names = names' := comesFirst_antisymm hfirst hlast
  subst hnames
  have hseen := ((mem_sightBelow hs).mp hmem).2
  have hseen' := ((mem_sightBelow hs').mp hmem').2
  rw [h _ (List.prefix_append place names), hseen'] at hseen
  cases hseen
  rfl

/-! ## What a walk meets -/

/-- An item of a walk, as it looks. -/
inductive Encounter where
  | unreadable (depth : Nat) (fault : Fault)
  | met (names : List Name) (sight : Sight)

/-- What an item of a walk looks like. -/
def sightOf (tree : Tree) : WalkItem → Encounter
  | .unreadable depth fault => .unreadable depth fault
  | .met names node => .met names (tree.sight node)

/-- What a walk from a path tells of a node below it, as it looks. -/
def encounterBelow (path : Bytes) (item : List Name × Sight) : Encounter :=
  if maxPath < (join path (joinNames item.1)).length then .unreadable item.1.length .nameTooLong
  else .met item.1 item.2

theorem sightOf_itemBelow (tree : Tree) (path : Bytes) (names : List Name) (node : Node) :
    tree.sightOf (itemBelow path names node) = encounterBelow path (names, tree.sight node) := by
  unfold itemBelow encounterBelow
  split <;> rfl

theorem sightOf_below (tree : Tree) (path : Bytes) (items : List (List Name × Node)) :
    (items.map fun (names, node) => itemBelow path names node).map tree.sightOf =
      (items.map tree.sightBelow).map (encounterBelow path) := by
  rw [List.map_map, List.map_map]
  exact List.map_congr_left fun item _ => sightOf_itemBelow tree path item.1 item.2

/-- A walk meets the same in twins. -/
theorem Twin.walk_eq {here : Place} {path : Bytes} (ht : tree.Twin tree' here path)
    (hs : tree.Sound) (hs' : tree'.Sound) :
    (tree.walk here path).map tree.sightOf = (tree'.walk here path).map tree'.sightOf := by
  obtain ⟨r, hr, hr', halike⟩ := ht
  have hstart : tree.seen? r = tree'.seen? r := halike r (List.prefix_refl r)
  unfold walk
  simp only [hr, hr']
  unfold seen? at hstart
  cases hnode : tree.node? r with
  | none =>
    rw [hnode] at hstart
    rw [Option.map_eq_none_iff.mp hstart.symm]
    rfl
  | some node =>
    rw [hnode, Option.map_some] at hstart
    obtain ⟨node', hnode', hsight⟩ := Option.map_eq_some_iff.mp hstart.symm
    rw [hnode']
    cases node with
    | folder =>
      rw [sight_eq_folder.mp hsight]
      simp only [List.map_cons, sightOf_below, halike.below_eq hs hs']
      rfl
    | file number =>
      cases node' with
      | folder | link target => cases hsight
      | file number' => simp only [List.map_cons, List.map_nil, sightOf, hsight]
    | link target =>
      rw [sight_eq_link.mp hsight]
      rfl

end Tree

end MediaShelf.Files
