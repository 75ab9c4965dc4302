/-!
Blank characters: the characters with the Unicode property `White_Space`, and trimming by them.
Texts are also cut in two at a mark.
-/

namespace MediaShelf.Text

/-- A character with the Unicode property `White_Space`. -/
def isBlank (c : Char) : Bool :=
  let n := c.toNat
  (9 ≤ n && n ≤ 13) || n == 0x20 || n == 0x85 || n == 0xA0 || n == 0x1680 ||
  (0x2000 ≤ n && n ≤ 0x200A) || n == 0x2028 || n == 0x2029 || n == 0x202F ||
  n == 0x205F || n == 0x3000

/-- Drops the blanks in front. -/
def trimLeft (s : List Char) : List Char := s.dropWhile isBlank

/-- Drops the blanks at the end. -/
def trimRight (s : List Char) : List Char := (s.reverse.dropWhile isBlank).reverse

/-- Drops the blanks at both ends. -/
def trim (s : List Char) : List Char := trimRight (trimLeft s)

@[simp] theorem trimLeft_nil : trimLeft [] = [] := rfl

@[simp] theorem trimRight_nil : trimRight [] = [] := rfl

@[simp] theorem trim_nil : trim [] = [] := rfl

theorem trimLeft_cons_of_not_isBlank {c : Char} (h : isBlank c = false) (s : List Char) :
    trimLeft (c :: s) = c :: s := by
  simp [trimLeft, h]

theorem trimRight_append_of_not_isBlank {c : Char} (h : isBlank c = false) (s : List Char) :
    trimRight (s ++ [c]) = s ++ [c] := by
  simp [trimRight, h]

/-- A text of characters none of which is blank is its own trim. -/
theorem trim_eq_self {s : List Char} (h : ∀ c ∈ s, isBlank c = false) : trim s = s := by
  have hl : trimLeft s = s := by
    cases s with
    | nil => rfl
    | cons c r => exact trimLeft_cons_of_not_isBlank (h c (by simp)) r
  rw [trim, hl, trimRight]
  cases hr : s.reverse with
  | nil => simpa using hr.symm
  | cons c r =>
    have hc : isBlank c = false := h c (by rw [← List.mem_reverse, hr]; simp)
    rw [List.dropWhile_cons_of_neg (by simp [hc]), ← hr, List.reverse_reverse]

/-- Cuts a list at the first `mark`. -/
def cutAt? {α : Type} [DecidableEq α] (mark : α) (s : List α) : Option (List α × List α) :=
  if mark ∈ s then some (s.takeWhile (· ≠ mark), (s.dropWhile (· ≠ mark)).drop 1) else none

end MediaShelf.Text
