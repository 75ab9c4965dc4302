import Mathlib
import MediaShelf.Files.Confined

/-!
# What a probe tells

A probe follows no link: if it tells of a node at a place, then every place on the way holds a
folder (`probe_parent`). So a lookup by the same names, which would follow links, meets none and
ends at that place (`walkSteps_of_probeFrom`).
-/

namespace MediaShelf.Files

namespace Tree

variable {tree : Tree} {here place : Place} {name : Name} {names rest : List Name} {node : Node}

theorem probeFrom_nil_ok : tree.probeFrom here [] = .ok node ↔ tree.node? here = some node := by
  unfold probeFrom
  cases tree.node? here <;> simp

theorem probeFrom_cons_ok :
    tree.probeFrom here (name :: rest) = .ok node ↔
      tree.node? here = some .folder ∧ name.length ≤ maxName ∧
        tree.probeFrom (here ++ [name]) rest = .ok node := by
  rw [probeFrom, ← standFault?_eq_none]
  cases tree.standFault? here with
  | some fault => simp
  | none =>
    by_cases hlong : maxName < name.length
    · simp only [if_pos hlong]
      exact ⟨nofun, fun h => absurd h.2.1 (by omega)⟩
    · simp only [if_neg hlong, true_and]
      exact ⟨fun h => ⟨by omega, h⟩, fun h => h.2⟩

/-- In front of what a probe reaches stand folders. -/
theorem probeFrom_above (h : tree.probeFrom here (names ++ name :: rest) = .ok node) :
    tree.probeFrom here names = .ok .folder := by
  induction names generalizing here with
  | nil =>
    rw [List.nil_append, probeFrom_cons_ok] at h
    exact probeFrom_nil_ok.mpr h.1
  | cons first names ih =>
    rw [List.cons_append, probeFrom_cons_ok] at h
    exact probeFrom_cons_ok.mpr ⟨h.1, h.2.1, ih h.2.2⟩

theorem probeFrom_node? (h : tree.probeFrom here names = .ok node) :
    tree.node? (here ++ names) = some node := by
  induction names generalizing here with
  | nil => simpa using probeFrom_nil_ok.mp h
  | cons first names ih =>
    have := ih (probeFrom_cons_ok.mp h).2.2
    simpa using this

/-- Names that a probe follows lead a lookup to the same place, and past no link. -/
theorem walkSteps_of_probeFrom (hlink : ∀ target, node ≠ .link target)
    (h : tree.probeFrom here names = .ok node) (follows : Bool) (links : Nat) :
    tree.walkSteps follows links here (names.map .down) = .ok (here ++ names) := by
  induction names generalizing here with
  | nil =>
    rw [List.map_nil, walkSteps, probeFrom_nil_ok.mp h]
    simp
  | cons name names ih =>
    obtain ⟨hfolder, hshort, hrest⟩ := probeFrom_cons_ok.mp h
    have hnext : tree.walkSteps follows links (here ++ [name]) (names.map .down) =
        .ok (here ++ name :: names) := by
      simpa using ih hrest
    -- what stands at the next place is the node itself or a folder, in any case no link
    have hnode : ∃ next, tree.node? (here ++ [name]) = some next ∧ ∀ target, next ≠ .link target := by
      cases names with
      | nil => exact ⟨node, probeFrom_nil_ok.mp hrest, hlink⟩
      | cons => exact ⟨.folder, (probeFrom_cons_ok.mp hrest).1, fun _ hno => by cases hno⟩
    obtain ⟨next, hnext?, hno⟩ := hnode
    rw [List.map_cons, walkSteps]
    simp only [standFault?_eq_none.mpr hfolder, if_neg (Nat.not_lt.mpr hshort), hnext?]
    cases next with
    | link target => exact absurd rfl (hno target)
    | folder => exact hnext
    | file number => exact hnext

/-! ## From the root -/

theorem probe_eq_ok :
    tree.probe place = .ok node ↔
      place.any (·.contains 0) = false ∧ placeLength place ≤ maxPath ∧
        tree.probeFrom [] place = .ok node := by
  unfold probe
  by_cases hnul : place.any (·.contains 0) = true
  · rw [if_pos hnul]
    exact ⟨nofun, fun h => absurd hnul (by rw [h.1]; decide)⟩
  · rw [if_neg hnul]
    by_cases hlong : maxPath < placeLength place
    · rw [if_pos hlong]
      exact ⟨nofun, fun h => absurd h.2.1 (by omega)⟩
    · rw [if_neg hlong]
      exact ⟨fun h => ⟨eq_false_of_ne_true hnul, by omega, h⟩, fun h => h.2.2⟩

end Tree

theorem placeLength_le_append (place : Place) (name : Name) :
    placeLength place ≤ placeLength (place ++ [name]) := by
  unfold placeLength placePath
  by_cases h : place = []
  · simp [h]
  · simp [h]

namespace Tree

variable {tree : Tree} {place : Place} {name : Name} {node : Node}

/-- Above what a probe reaches stands a folder, which a probe reaches too. -/
theorem probe_parent (h : tree.probe (place ++ [name]) = .ok node) :
    tree.probe place = .ok .folder := by
  obtain ⟨hnul, hlen, hfrom⟩ := probe_eq_ok.mp h
  refine probe_eq_ok.mpr ⟨?_, Nat.le_trans (placeLength_le_append place name) hlen, probeFrom_above hfrom⟩
  simp only [List.any_append, Bool.or_eq_false_iff] at hnul
  exact hnul.1

theorem probe_nil : tree.probe [] = .ok .folder :=
  probe_eq_ok.mpr ⟨rfl, by decide, rfl⟩

end Tree

end MediaShelf.Files
