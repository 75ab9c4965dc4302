import Mathlib
import MediaShelf.Proofs.Text.Parts
import MediaShelf.Text.Capital
import MediaShelf.Text.Unsigned

/-!
Whole numbers written in digits. A text of digits has no blanks and is its own capitals. What
`parseUnsigned` reads are the numerals, with a plus sign or none in front, whose number is within
the limit (`parseUnsigned_eq_ok`).
-/

namespace MediaShelf.Text

/-! ## Digits -/

theorem isDigit_iff {c : Char} : c.isDigit = true ↔ 48 ≤ c.toNat ∧ c.toNat ≤ 57 := by
  simp only [Char.isDigit, ge_iff_le, Bool.and_eq_true, decide_eq_true_eq, UInt32.le_iff_toNat_le]
  exact Iff.rfl

/-- A character of plain English text that is neither blank nor a small letter. -/
def IsPlainCapital (c : Char) : Prop := isBlank c = false ∧ capital c = [c]

theorem isPlainCapital_of_toNat {c : Char} (h : 0x21 ≤ c.toNat) (h' : c.toNat ≤ 0x5A) :
    IsPlainCapital c := by
  constructor
  · simp only [isBlank, Bool.or_eq_false_iff, Bool.and_eq_false_iff, decide_eq_false_iff_not,
      beq_eq_false_iff_ne]
    omega
  · rw [capital_ascii (by omega)]
    have hsmall : ¬(97 : UInt32) ≤ c.val := by
      rw [UInt32.le_iff_toNat_le]
      change ¬97 ≤ c.toNat
      omega
    simp [Char.toUpper, hsmall]

theorem isPlainCapital_of_isDigit {c : Char} (h : c.isDigit = true) : IsPlainCapital c := by
  have := isDigit_iff.mp h
  exact isPlainCapital_of_toNat (by omega) (by omega)

theorem capitals_append (s t : List Char) : capitals (s ++ t) = capitals s ++ capitals t :=
  List.flatMap_append

/-- A text of characters that are their own capitals is in capitals. -/
theorem capitals_eq_self {s : List Char} (h : ∀ c ∈ s, capital c = [c]) : capitals s = s := by
  induction s with
  | nil => rfl
  | cons c rest ih =>
    rw [List.forall_mem_cons] at h
    rw [capitals, List.flatMap_cons, h.1, ← capitals, ih h.2]
    rfl

theorem capitals_of_plain {s : List Char} (h : ∀ c ∈ s, IsPlainCapital c) : capitals s = s :=
  capitals_eq_self fun c hc => (h c hc).2

/-- Trimmed and in capitals, a plain text is as it was. -/
theorem capitals_trim_of_plain {s : List Char} (h : ∀ c ∈ s, IsPlainCapital c) :
    capitals (trim s) = s := by
  rw [trim_eq_self fun c hc => (h c hc).1, capitals_of_plain h]

/-! ## Whole numbers -/

/-- A text of digits, at least one, that writes the number `n`. -/
def Numeral (s : List Char) (n : Nat) : Prop :=
  s ≠ [] ∧ (∀ c ∈ s, c.isDigit = true) ∧ Nat.ofDigitChars 10 s 0 = n

instance (s : List Char) (n : Nat) : Decidable (Numeral s n) :=
  decidable_of_iff (s ≠ [] ∧ s.all Char.isDigit = true ∧ Nat.ofDigitChars 10 s 0 = n)
    (by rw [Numeral, List.all_eq_true])

/-- A numeral that may have a plus sign in front. -/
def PlusNumeral (s : List Char) (n : Nat) : Prop :=
  Numeral s n ∨ ∃ digits, s = '+' :: digits ∧ Numeral digits n

/-- A digit is read as its value, and nothing else is read. -/
theorem digitValue?_eq_some {c : Char} {d : Nat} :
    digitValue? c = some d ↔ c.isDigit = true ∧ c.toNat - '0'.toNat = d := by
  have hdigit : ('0' ≤ c ∧ c ≤ '9') ↔ c.isDigit = true := by
    rw [isDigit_iff, Char.le_def, Char.le_def, UInt32.le_iff_toNat_le, UInt32.le_iff_toNat_le]
    exact Iff.rfl
  rw [digitValue?]
  split <;> rename_i h <;> rw [hdigit] at h <;> simp [h]

theorem le_ofDigitChars (s : List Char) (v : Nat) : v ≤ Nat.ofDigitChars 10 s v := by
  rw [Nat.ofDigitChars_eq_ofDigitChars_zero]
  exact (Nat.le_mul_of_pos_left v (Nat.pow_pos (by decide))).trans (Nat.le_add_right _ _)

/-- Digits are read onto the value in front of them if what they write is within the limit. -/
theorem readDigits_of_digits {limit v : Nat} {s : List Char} (h : ∀ c ∈ s, c.isDigit = true)
    (hv : v ≤ limit) :
    readDigits limit v s = if Nat.ofDigitChars 10 s v ≤ limit then .ok (Nat.ofDigitChars 10 s v)
      else .error .tooLarge := by
  induction s generalizing v with
  | nil => rw [readDigits, Nat.ofDigitChars_nil, if_pos hv]
  | cons c rest ih =>
    rw [List.forall_mem_cons] at h
    rw [readDigits, digitValue?_eq_some.mpr ⟨h.1, rfl⟩, Nat.ofDigitChars_cons, Nat.mul_comm 10 v]
    dsimp only
    split
    · rw [ih h.2 ‹_›]
    · rw [if_neg fun hle => ‹¬_› ((le_ofDigitChars _ _).trans hle)]

theorem digits_of_readDigits {limit v n : Nat} {s : List Char}
    (h : readDigits limit v s = .ok n) : ∀ c ∈ s, c.isDigit = true := by
  induction s generalizing v with
  | nil => simp
  | cons c rest ih =>
    rw [readDigits] at h
    split at h
    · cases h
    · rename_i d hd
      split at h
      · exact List.forall_mem_cons.mpr ⟨(digitValue?_eq_some.mp hd).1, ih h⟩
      · cases h

theorem le_word64Max_iff {n : Nat} : n ≤ word64Max ↔ n < 2 ^ 64 :=
  Nat.le_sub_one_iff_lt (by decide)

/-- A numeral is read if what it writes is within the limit. -/
theorem parseUnsigned_numeral {limit n : Nat} {s : List Char} (h : Numeral s n) :
    parseUnsigned limit s = if n ≤ limit then .ok n else .error .tooLarge := by
  obtain ⟨hne, hdigits, rfl⟩ := h
  have hsign : ∀ c ∈ s, c ≠ '+' ∧ c ≠ '-' := by
    intro c hc
    constructor <;> rintro rfl <;> exact absurd (hdigits _ hc) (by decide)
  unfold parseUnsigned
  split
  · exact absurd rfl hne
  · exact absurd rfl (hsign '+' (by simp)).1
  · exact absurd rfl (hsign '-' (by simp)).2
  · exact absurd rfl (hsign '+' (by simp)).1
  · exact readDigits_of_digits hdigits (Nat.zero_le _)

theorem parseUnsigned_plus {limit n : Nat} {digits : List Char} (h : Numeral digits n) :
    parseUnsigned limit ('+' :: digits) = if n ≤ limit then .ok n else .error .tooLarge := by
  obtain ⟨hne, hdigits, rfl⟩ := h
  obtain ⟨c, rest, rfl⟩ := List.exists_cons_of_ne_nil hne
  exact readDigits_of_digits hdigits (Nat.zero_le _)

/-- The texts that are read as a number: numerals with a plus sign or none in front, whose number is
within the limit. -/
theorem parseUnsigned_eq_ok {limit n : Nat} {s : List Char} :
    parseUnsigned limit s = .ok n ↔ PlusNumeral s n ∧ n ≤ limit := by
  constructor
  · intro h
    refine ⟨?_, parseUnsigned_le h⟩
    have hnumeral : ∀ {digits : List Char}, digits ≠ [] → readDigits limit 0 digits = .ok n →
        Numeral digits n := by
      intro digits hne hread
      have hdigits := digits_of_readDigits hread
      rw [readDigits_of_digits hdigits (Nat.zero_le _)] at hread
      split at hread
      · exact ⟨hne, hdigits, Except.ok.inj hread⟩
      · cases hread
    unfold parseUnsigned at h
    split at h
    case h_1 => cases h
    case h_2 => cases h
    case h_3 => cases h
    case h_4 rest hrest => exact .inr ⟨rest, rfl, hnumeral (fun hnil => hrest (by rw [hnil])) h⟩
    case h_5 hne _ _ _ => exact .inl (hnumeral hne h)
  · rintro ⟨h | ⟨digits, rfl, h⟩, hle⟩
    · rw [parseUnsigned_numeral h, if_pos hle]
    · rw [parseUnsigned_plus h, if_pos hle]

theorem unsigned?_eq_some {limit n : Nat} {s : List Char} :
    unsigned? limit s = some n ↔ PlusNumeral s n ∧ n ≤ limit := by
  rw [← parseUnsigned_eq_ok, unsigned?]
  cases parseUnsigned limit s <;> simp [Except.toOption]

theorem unsigned?_plusNumeral {limit n : Nat} {s : List Char} (h : PlusNumeral s n) :
    unsigned? limit s = if n ≤ limit then some n else none := by
  have hread : parseUnsigned limit s = if n ≤ limit then .ok n else .error .tooLarge := by
    rcases h with h | ⟨digits, rfl, h⟩
    · exact parseUnsigned_numeral h
    · exact parseUnsigned_plus h
  rw [unsigned?, hread]
  split <;> rfl

/-- A numeral consists of digits and a plus sign. -/
theorem PlusNumeral.mem {s : List Char} {n : Nat} (h : PlusNumeral s n) :
    ∀ c ∈ s, c = '+' ∨ c.isDigit = true := by
  intro c hc
  rcases h with h | ⟨digits, rfl, h⟩
  · exact .inr (h.2.1 c hc)
  · exact (List.mem_cons.mp hc).imp id (h.2.1 c)

theorem PlusNumeral.ne_nil {s : List Char} {n : Nat} (h : PlusNumeral s n) : s ≠ [] := by
  rcases h with h | ⟨digits, rfl, -⟩
  · exact h.1
  · exact List.cons_ne_nil _ _

theorem PlusNumeral.not_mem {s : List Char} {n : Nat} {c : Char} (h : PlusNumeral s n)
    (hplus : c ≠ '+') (hdigit : c.isDigit = false) : c ∉ s := by
  intro hmem
  rcases h.mem c hmem with hc | hc
  · exact hplus hc
  · rw [hdigit] at hc
    cases hc

theorem PlusNumeral.trim_eq {s : List Char} {n : Nat} (h : PlusNumeral s n) : trim s = s := by
  refine trim_eq_self fun c hc => ?_
  rcases h.mem c hc with rfl | hdigit
  · decide
  · exact (isPlainCapital_of_isDigit hdigit).1

/-! ## Numerals with blanks around -/

theorem PaddedNumber.plus {s : List Char} {n : Nat} (h : PaddedNumber Numeral s n) :
    PaddedNumber PlusNumeral s n := by
  obtain ⟨number, hnumber, hpad⟩ := h
  exact ⟨number, .inl hnumber, hpad⟩

theorem PaddedNumber.trim {s : List Char} {n : Nat} (h : PaddedNumber PlusNumeral s n) :
    PlusNumeral (trim s) n := by
  obtain ⟨number, hnumber, hpad⟩ := h
  rwa [hpad.trim_eq, hnumber.trim_eq]

theorem paddedNumber_of_trim {s : List Char} {n : Nat} (h : PlusNumeral (trim s) n) :
    PaddedNumber PlusNumeral s n :=
  ⟨_, h, padded_trim s⟩

/-! ## The numeral of a number -/

theorem isDigit_of_mem_toString {n : Nat} {c : Char} (h : c ∈ (toString n).toList) :
    c.isDigit = true := by
  rw [Nat.toString_eq_ofList_toDigits, String.toList_ofList] at h
  exact Nat.isDigit_of_mem_toDigits (by decide) (by decide) h

theorem toString_toList_ne_nil (n : Nat) : (toString n).toList ≠ [] := by
  rw [Nat.toString_eq_ofList_toDigits, String.toList_ofList]
  exact Nat.toDigits_ne_nil

theorem numeral_toString (n : Nat) : Numeral (toString n).toList n := by
  refine ⟨toString_toList_ne_nil n, fun _ => isDigit_of_mem_toString, ?_⟩
  rw [Nat.toString_eq_ofList_toDigits, String.toList_ofList, Nat.ofDigitChars_ten_toDigits]

end MediaShelf.Text
