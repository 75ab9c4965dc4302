import Mathlib.Data.List.TakeWhile
import MediaShelf.Text.Blank

/-!
The parts of a text. A text is its trim with blanks around (`padded_trim`), blanks around a text are
trimmed away (`trim_append`), and a trim has none around (`tight_trim`). A text that holds a
character is cut at the first such character (`cutAt?_eq_some`), at the last one (`append_cons_inj`)
or at all of them (`not_mem_of_mem_splitOn`).
-/

namespace MediaShelf.Text

/-- A text of blanks. -/
def Blank (s : List Char) : Prop := ∀ c ∈ s, isBlank c = true

instance (s : List Char) : Decidable (Blank s) :=
  decidable_of_iff (s.all isBlank = true) List.all_eq_true

/-- The text `s` is `core` with blanks around. -/
def Padded (core s : List Char) : Prop :=
  ∃ front back, Blank front ∧ Blank back ∧ s = front ++ core ++ back

/-- A number with blanks around, written as `Number` says. -/
def PaddedNumber (Number : List Char → Nat → Prop) (s : List Char) (n : Nat) : Prop :=
  ∃ number, Number number n ∧ Padded number s

@[simp] theorem blank_nil : Blank [] := by simp [Blank]

theorem Blank.append {s t : List Char} (hs : Blank s) (ht : Blank t) : Blank (s ++ t) := by
  intro c hc
  exact (List.mem_append.mp hc).elim (hs c) (ht c)

theorem Blank.not_mem {c : Char} {s : List Char} (hs : Blank s) (hc : isBlank c = false) :
    c ∉ s := by
  intro hmem
  rw [hs c hmem] at hc
  cases hc

theorem padded_self (s : List Char) : Padded s s := ⟨[], [], blank_nil, blank_nil, by simp⟩

theorem Padded.of_append {core back s : List Char} (hback : Blank back)
    (h : Padded (core ++ back) s) : Padded core s := by
  obtain ⟨front, back', hfront, hback', rfl⟩ := h
  exact ⟨front, back ++ back', hfront, hback.append hback', by simp⟩

theorem PaddedNumber.not_mem {Number : List Char → Nat → Prop} {c : Char} {s : List Char}
    {n : Nat} (h : PaddedNumber Number s n) (hblank : isBlank c = false)
    (hnumber : ∀ number n, Number number n → c ∉ number) : c ∉ s := by
  obtain ⟨number, hwritten, front, back, hfront, hback, rfl⟩ := h
  simp only [List.mem_append, not_or]
  exact ⟨⟨hfront.not_mem hblank, hnumber _ _ hwritten⟩, hback.not_mem hblank⟩

/-! ## Trimming blanks away -/

theorem trimLeft_append {front : List Char} (h : Blank front) (s : List Char) :
    trimLeft (front ++ s) = trimLeft s :=
  List.dropWhile_append_of_pos h

theorem trimLeft_eq_nil_iff {s : List Char} : trimLeft s = [] ↔ Blank s :=
  List.dropWhile_eq_nil_iff

theorem trimRight_append {back : List Char} (h : Blank back) (s : List Char) :
    trimRight (s ++ back) = trimRight s := by
  rw [trimRight, List.reverse_append,
    List.dropWhile_append_of_pos fun c hc => h c (List.mem_reverse.mp hc), trimRight]

/-- Trimming at the end stops at a character that is not blank. -/
theorem trimRight_append_cons {c : Char} (hc : isBlank c = false) (s t : List Char) :
    trimRight (s ++ c :: t) = s ++ c :: trimRight t := by
  have hstop : (c :: s.reverse).dropWhile isBlank = c :: s.reverse :=
    trimLeft_cons_of_not_isBlank hc s.reverse
  have hreverse : (s ++ c :: t).reverse = t.reverse ++ c :: s.reverse := by simp
  rw [trimRight, trimRight, hreverse, List.dropWhile_append, hstop]
  split
  · rename_i hempty
    rw [List.isEmpty_iff.mp hempty]
    simp
  · simp

theorem trim_append {front back : List Char} (hfront : Blank front) (hback : Blank back)
    (s : List Char) : trim (front ++ s ++ back) = trim s := by
  rw [trim, trim, List.append_assoc, trimLeft_append hfront]
  by_cases hs : Blank s
  · rw [trimLeft_append hs, trimLeft_eq_nil_iff.mpr hback, trimLeft_eq_nil_iff.mpr hs]
  · rw [trimLeft, List.dropWhile_append, if_neg, trimRight_append hback, trimLeft]
    rw [List.isEmpty_iff]
    exact mt trimLeft_eq_nil_iff.mp hs

theorem Padded.trim_eq {core s : List Char} (h : Padded core s) : trim s = trim core := by
  obtain ⟨front, back, hfront, hback, rfl⟩ := h
  exact trim_append hfront hback core

theorem trim_of_blank {s : List Char} (h : Blank s) : trim s = [] := by
  rw [trim, trimLeft_eq_nil_iff.mpr h, trimRight_nil]

/-- A text that neither begins nor ends with a blank is its own trim. -/
theorem trim_eq_self_of_ends {s : List Char} (hhead : ∀ c ∈ s.head?, isBlank c = false)
    (hlast : ∀ c ∈ s.getLast?, isBlank c = false) : trim s = s := by
  cases s with
  | nil => rfl
  | cons c rest =>
    rw [trim, trimLeft_cons_of_not_isBlank (hhead c rfl)]
    have hend := List.dropLast_concat_getLast (List.cons_ne_nil c rest)
    rw [← hend]
    exact trimRight_append_of_not_isBlank (hlast _ (List.getLast?_eq_some_getLast _)) _

/-! ## What was trimmed away -/

theorem exists_trimRight (s : List Char) : ∃ back, Blank back ∧ s = trimRight s ++ back := by
  refine ⟨(s.reverse.takeWhile isBlank).reverse, fun c hc => ?_, ?_⟩
  · exact List.mem_takeWhile_imp (List.mem_reverse.mp hc)
  · rw [trimRight, ← List.reverse_append, List.takeWhile_append_dropWhile, List.reverse_reverse]

theorem padded_trim (s : List Char) : Padded (trim s) s := by
  obtain ⟨back, hback, hright⟩ := exists_trimRight (trimLeft s)
  refine ⟨s.takeWhile isBlank, back, fun c hc => List.mem_takeWhile_imp hc, hback, ?_⟩
  rw [List.append_assoc, trim, ← hright, trimLeft, List.takeWhile_append_dropWhile]

theorem trim_trimRight (s : List Char) : trim (trimRight s) = trim s := by
  obtain ⟨back, hback, hs⟩ := exists_trimRight s
  have hpadded : Padded (trimRight s) s := ⟨[], back, blank_nil, hback, hs⟩
  exact hpadded.trim_eq.symm

theorem trim_eq_nil_iff {s : List Char} : trim s = [] ↔ Blank s := by
  refine ⟨fun h => ?_, trim_of_blank⟩
  obtain ⟨front, back, hfront, hback, hs⟩ := padded_trim s
  rw [hs, h, List.append_nil]
  exact hfront.append hback

theorem mem_of_mem_trim {c : Char} {s : List Char} (h : c ∈ trim s) : c ∈ s := by
  obtain ⟨front, back, -, -, hs⟩ := padded_trim s
  rw [hs, List.mem_append, List.mem_append]
  exact .inl (.inr h)

/-- A text that neither begins nor ends with a blank. -/
def Tight (s : List Char) : Prop :=
  (∀ c ∈ s.head?, isBlank c = false) ∧ ∀ c ∈ s.getLast?, isBlank c = false

instance (s : List Char) : Decidable (Tight s) :=
  decidable_of_iff (s.head?.all (! isBlank ·) = true ∧ s.getLast?.all (! isBlank ·) = true)
    (by simp only [Tight, Option.all_eq_true, Option.mem_def, Bool.not_eq_true'])

theorem Tight.trim_eq {s : List Char} (h : Tight s) : trim s = s := trim_eq_self_of_ends h.1 h.2

theorem not_isBlank_of_mem_head?_dropWhile {c : Char} {s : List Char}
    (h : c ∈ (s.dropWhile isBlank).head?) : isBlank c = false := by
  have hhead := List.head?_dropWhile_not isBlank s
  rw [Option.mem_def.mp h] at hhead
  exact hhead

/-- What is left of a text neither begins nor ends with a blank. -/
theorem tight_trim (s : List Char) : Tight (trim s) := by
  constructor
  · intro c hc
    -- Trimming at the end keeps the first character, if it keeps any.
    obtain ⟨back, -, hleft⟩ := exists_trimRight (trimLeft s)
    refine @not_isBlank_of_mem_head?_dropWhile c s ?_
    change (trimLeft s).head? = some c
    rw [hleft, List.head?_append, ← trim, hc, Option.some_or]
  · intro c hc
    rw [trim, trimRight, List.getLast?_reverse] at hc
    exact not_isBlank_of_mem_head?_dropWhile hc

/-! ## Cutting at a character -/

section Cutting

variable {α : Type} [DecidableEq α] {x : α} {s : List α}

theorem takeWhile_ne_of_not_mem (h : x ∉ s) : s.takeWhile (fun c => decide (c ≠ x)) = s := by
  rw [List.takeWhile_eq_self_iff]
  intro c hc
  rw [decide_eq_true_iff]
  rintro rfl
  exact h hc

theorem dropWhile_ne_of_not_mem (h : x ∉ s) : s.dropWhile (fun c => decide (c ≠ x)) = [] := by
  rw [List.dropWhile_eq_nil_iff, ← List.takeWhile_eq_self_iff, takeWhile_ne_of_not_mem h]

theorem takeWhile_ne_append_cons (h : x ∉ s) (t : List α) :
    (s ++ x :: t).takeWhile (fun c => decide (c ≠ x)) = s := by
  rw [List.takeWhile_append_of_pos (List.takeWhile_eq_self_iff.mp (takeWhile_ne_of_not_mem h)),
    List.takeWhile_cons_of_neg (by simp), List.append_nil]

theorem dropWhile_ne_append_cons (h : x ∉ s) (t : List α) :
    (s ++ x :: t).dropWhile (fun c => decide (c ≠ x)) = x :: t := by
  rw [List.dropWhile_append_of_pos (List.dropWhile_eq_nil_iff.mp (dropWhile_ne_of_not_mem h)),
    List.dropWhile_cons_of_neg (by simp)]

omit [DecidableEq α] in
/-- The last `x` of a list cuts it in one way. -/
theorem append_cons_inj {s' t t' : List α} (h : x ∉ t) (h' : x ∉ t')
    (heq : s ++ x :: t = s' ++ x :: t') : s = s' ∧ t = t' := by
  rcases List.append_eq_append_iff.mp heq with ⟨between, rfl, hrest⟩ | ⟨between, rfl, hrest⟩ <;>
    cases between
  case inl.nil => simpa using hrest
  case inr.nil => simpa using hrest.symm
  case inl.cons b between =>
    obtain ⟨-, rfl⟩ := List.cons.inj hrest
    exact absurd (List.mem_append_right _ List.mem_cons_self) h
  case inr.cons b between =>
    obtain ⟨-, rfl⟩ := List.cons.inj hrest
    exact absurd (List.mem_append_right _ List.mem_cons_self) h'

/-- A list is cut at the first `x`, if it has one. -/
theorem cutAt?_eq_some {front back : List α} :
    cutAt? x s = some (front, back) ↔ x ∉ front ∧ s = front ++ x :: back := by
  unfold cutAt?
  constructor
  · intro h
    split at h
    case isFalse => cases h
    case isTrue hmem =>
      obtain ⟨first, rest, rfl, hfirst⟩ := List.eq_append_cons_of_mem hmem
      rw [takeWhile_ne_append_cons hfirst, dropWhile_ne_append_cons hfirst] at h
      obtain ⟨rfl, rfl⟩ := Prod.mk.inj (Option.some.inj h)
      exact ⟨hfirst, rfl⟩
  · rintro ⟨hfront, rfl⟩
    rw [if_pos (by simp), takeWhile_ne_append_cons hfront, dropWhile_ne_append_cons hfront]
    rfl

/-- No part that was cut at `x` holds it. -/
theorem not_mem_of_mem_splitOn {part : List α} (h : part ∈ s.splitOn x) : x ∉ part := by
  induction s generalizing part with
  | nil =>
    rw [List.splitOn_nil, List.mem_singleton] at h
    rw [h]
    exact List.not_mem_nil
  | cons c rest ih =>
    rw [List.splitOn_cons_eq_if_modifyHead] at h
    split at h
    case isTrue =>
      rcases List.mem_cons.mp h with rfl | h
      · exact List.not_mem_nil
      · exact ih h
    case isFalse hc =>
      obtain ⟨first, parts, hrest⟩ := List.exists_cons_of_ne_nil (List.splitOn_ne_nil x rest)
      rw [hrest, List.modifyHead_cons] at h
      rw [hrest, List.forall_mem_cons] at ih
      rcases List.mem_cons.mp h with rfl | h
      · rw [List.mem_cons, not_or]
        exact ⟨fun heq => hc (beq_iff_eq.mpr heq.symm), ih.1⟩
      · exact ih.2 _ h

end Cutting

end MediaShelf.Text
