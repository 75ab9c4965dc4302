import Mathlib
import MediaShelf.Files.Path
import MediaShelf.Proofs.Text.Parts

/-!
# Names and paths

A relative path that was written from names is read as these names again (`steps_joinNames`), so
different names never make the same path.
-/

namespace MediaShelf.Files

/-- What a file or a folder can be called. -/
structure IsName (name : Name) : Prop where
  ne_nil : name ≠ []
  no_slash : slash ∉ name
  ne_here : name ≠ [dot]
  ne_up : name ≠ [dot, dot]

instance (name : Name) : Decidable (IsName name) :=
  decidable_of_iff (name ≠ [] ∧ slash ∉ name ∧ name ≠ [dot] ∧ name ≠ [dot, dot])
    ⟨fun ⟨h₁, h₂, h₃, h₄⟩ => ⟨h₁, h₂, h₃, h₄⟩, fun ⟨h₁, h₂, h₃, h₄⟩ => ⟨h₁, h₂, h₃, h₄⟩⟩

theorem splitSlash_ne_nil (path : Bytes) : splitSlash path ≠ [] := List.splitOn_ne_nil slash path

theorem not_mem_of_mem_splitSlash {path part : Bytes} (h : part ∈ splitSlash path) :
    slash ∉ part :=
  Text.not_mem_of_mem_splitOn h

theorem splitSlash_of_not_mem {part : Bytes} (h : slash ∉ part) : splitSlash part = [part] :=
  List.splitOn_eq_singleton h

/-- The parts in front of a slash come first, then those behind it. -/
theorem splitSlash_append_slash (front back : Bytes) :
    splitSlash (front ++ slash :: back) = splitSlash front ++ splitSlash back :=
  List.splitOn_append_cons_self front back

theorem joinNames_cons (first second : Name) (rest : List Name) :
    joinNames (first :: second :: rest) = first ++ [slash] ++ joinNames (second :: rest) := rfl

theorem joinNames_eq_intercalate (names : List Name) :
    joinNames names = [slash].intercalate names := by
  induction names with
  | nil => rfl
  | cons name rest ih =>
    cases rest with
    | nil => simp [joinNames]
    | cons next rest => rw [joinNames_cons, ih, List.intercalate_cons_cons]

theorem splitSlash_joinNames {names : List Name} (hne : names ≠ [])
    (h : ∀ name ∈ names, slash ∉ name) : splitSlash (joinNames names) = names := by
  rw [joinNames_eq_intercalate]
  exact List.splitOn_intercalate slash h hne

theorem partStep?_of_isName {name : Name} (h : IsName name) : partStep? name = some (.down name) := by
  unfold partStep?
  rw [if_neg (by simp [h.ne_nil, h.ne_here]), if_neg h.ne_up]

theorem joinNames_cons_cons (b : UInt8) (name : Name) (rest : List Name) :
    ∃ tail, joinNames ((b :: name) :: rest) = b :: tail := by
  cases rest with
  | nil => exact ⟨name, rfl⟩
  | cons next rest => exact ⟨_, rfl⟩

/-- A path that was written from names is read as these names. -/
theorem steps_joinNames {names : List Name} (h : ∀ name ∈ names, IsName name) :
    steps (joinNames names) = names.map .down := by
  cases names with
  | nil => rfl
  | cons first rest =>
    have hfirst := h first List.mem_cons_self
    have hsplit := splitSlash_joinNames (List.cons_ne_nil first rest) fun name hname =>
      (h name hname).no_slash
    have hparts : (first :: rest).filterMap partStep? = (first :: rest).map .down :=
      (List.filterMap_congr fun name hname => partStep?_of_isName (h name hname)).trans
        (congrFun List.filterMap_eq_map' _)
    obtain ⟨b, name, rfl⟩ := List.exists_cons_of_ne_nil hfirst.ne_nil
    obtain ⟨tail, htail⟩ := joinNames_cons_cons b name rest
    have hb : b ≠ slash := fun heq => hfirst.no_slash (heq ▸ List.mem_cons_self)
    have hhead : ((b :: name) :: rest).head? ≠ some [dot] := fun heq =>
      hfirst.ne_here (Option.some.inj heq)
    rw [htail] at hsplit ⊢
    unfold steps
    simp only [hsplit]
    rw [if_neg hb, if_neg hhead, hparts]

end MediaShelf.Files
