import MediaShelf.Proofs.Text.Numerals
import MediaShelf.Text.Binary64

/-!
Decimal numerals with a point or without (`Decimal`): these are what `decimalFraction?` reads, and
what it reads is the number that is written (`decimalFraction?_of_decimal`,
`decimal_of_decimalFraction?`).
-/

namespace MediaShelf.Text

/-- A decimal numeral and the number that it writes: digits, at least one, with at most one point
among them. -/
inductive Decimal : List Char → ℚ → Prop where
  | whole {digits : List Char} {n : Nat} : Numeral digits n → Decimal digits n
  | pointed {digits places : List Char} : digits ++ places ≠ [] →
      (∀ c ∈ digits ++ places, c.isDigit = true) →
      Decimal (digits ++ '.' :: places)
        (Nat.ofDigitChars 10 digits 0 + Nat.ofDigitChars 10 places 0 / 10 ^ places.length)

theorem Decimal.mem {s : List Char} {x : ℚ} (h : Decimal s x) :
    ∀ c ∈ s, c.isDigit = true ∨ c = '.' := by
  intro c hc
  cases h with
  | whole hnumeral => exact .inl (hnumeral.2.1 c hc)
  | pointed _ hdigits =>
    rw [List.mem_append, List.mem_cons] at hc
    rcases hc with hc | hc | hc
    · exact .inl (hdigits c (List.mem_append_left _ hc))
    · exact .inr hc
    · exact .inl (hdigits c (List.mem_append_right _ hc))

theorem Decimal.ne_nil {s : List Char} {x : ℚ} (h : Decimal s x) : s ≠ [] := by
  cases h with
  | whole hnumeral => exact hnumeral.1
  | pointed => simp

theorem Decimal.nonneg {s : List Char} {x : ℚ} (h : Decimal s x) : 0 ≤ x := by
  cases h <;> positivity

/-- Digits are read onto the value in front of them, and nothing else is read. -/
theorem foldl_digits_eq_some {s : List Char} {v n : Nat} :
    s.foldl (fun value? c => match value?, decimalFraction?.digitOf? c with
      | some v, some d => some (v * 10 + d)
      | _, _ => none) (some v) = some n ↔
      (∀ c ∈ s, c.isDigit = true) ∧ Nat.ofDigitChars 10 s v = n := by
  induction s generalizing v with
  | nil => simp [Nat.ofDigitChars_nil]
  | cons c rest ih =>
    rw [List.foldl_cons, List.forall_mem_cons, Nat.ofDigitChars_cons]
    have hread : decimalFraction?.digitOf? c = digitValue? c := rfl
    rw [hread]
    cases hd : digitValue? c with
    | some d =>
      obtain ⟨hdigit, rfl⟩ := digitValue?_eq_some.mp hd
      simp only [ih, hdigit, true_and, Nat.mul_comm 10 v]
    | none =>
      have hdigit : ¬c.isDigit = true := fun h =>
        absurd (digitValue?_eq_some.mpr ⟨h, rfl⟩) (by simp [hd])
      have hnone : ∀ t : List Char,
          t.foldl (fun value? c => match value?, decimalFraction?.digitOf? c with
            | some v, some d => some (v * 10 + d)
            | _, _ => none) (none : Option Nat) = none := by
        intro t
        induction t with
        | nil => rfl
        | cons _ _ iht => exact iht
      simp [hnone, hdigit]

/-- The digits on both sides of a point are read as one numeral, in units of its last place. -/
theorem decimalFraction?_of_parts {s digits places : List Char} {num den : Nat}
    (hdigits : s.takeWhile (fun c => decide (c ≠ '.')) = digits)
    (hplaces : (s.dropWhile fun c => decide (c ≠ '.')).drop 1 = places) :
    decimalFraction? s = some (num, den) ↔
      Numeral (digits ++ places) num ∧ den = 10 ^ places.length := by
  simp only [decimalFraction?, hdigits, hplaces, Nat.pow_eq]
  split
  · rename_i hempty
    obtain ⟨rfl, rfl⟩ : digits = [] ∧ places = [] := by simpa using hempty
    simp [Numeral]
  · rename_i hempty
    have hne : digits ++ places ≠ [] := by simpa using hempty
    rw [Option.map_eq_some_iff]
    constructor
    · rintro ⟨n, hread, hpair⟩
      obtain ⟨rfl, rfl⟩ := Prod.mk.inj hpair
      exact ⟨⟨hne, foldl_digits_eq_some.mp hread⟩, rfl⟩
    · rintro ⟨⟨-, hread⟩, rfl⟩
      exact ⟨num, foldl_digits_eq_some.mpr hread, rfl⟩

/-- A text without a point is read as a whole number. -/
theorem decimalFraction?_whole {digits : List Char} {num den : Nat} (hpoint : '.' ∉ digits) :
    decimalFraction? digits = some (num, den) ↔ Numeral digits num ∧ den = 1 := by
  rw [decimalFraction?_of_parts (takeWhile_ne_of_not_mem hpoint)
    (congrArg (List.drop 1) (dropWhile_ne_of_not_mem hpoint)), List.drop_nil, List.append_nil]
  rfl

/-- A text is read at its first point. -/
theorem decimalFraction?_pointed {digits : List Char} {num den : Nat} (hpoint : '.' ∉ digits)
    (places : List Char) :
    decimalFraction? (digits ++ '.' :: places) = some (num, den) ↔
      Numeral (digits ++ places) num ∧ den = 10 ^ places.length :=
  decimalFraction?_of_parts (takeWhile_ne_append_cons hpoint places)
    (congrArg (List.drop 1) (dropWhile_ne_append_cons hpoint places))

/-- A numeral in units of its last place is what the digits on both sides of the point write. -/
theorem numeral_div {digits places : List Char} {num : Nat} (h : Numeral (digits ++ places) num) :
    (num : ℚ) / (10 ^ places.length : Nat) =
      Nat.ofDigitChars 10 digits 0 + Nat.ofDigitChars 10 places 0 / 10 ^ places.length := by
  obtain ⟨-, -, rfl⟩ := h
  rw [Nat.ofDigitChars_append, Nat.ofDigitChars_eq_ofDigitChars_zero]
  push_cast
  field_simp

theorem point_not_digit {s : List Char} (h : ∀ c ∈ s, c.isDigit = true) : '.' ∉ s := fun hmem =>
  absurd (h '.' hmem) (by decide)

theorem decimal_of_decimalFraction? {s : List Char} {num den : Nat}
    (h : decimalFraction? s = some (num, den)) : 0 < den ∧ Decimal s ((num : ℚ) / den) := by
  by_cases hpoint : '.' ∈ s
  · obtain ⟨digits, places, rfl, hfirst⟩ := List.eq_append_cons_of_mem hpoint
    obtain ⟨hnumeral, rfl⟩ := (decimalFraction?_pointed hfirst places).mp h
    rw [numeral_div hnumeral]
    exact ⟨by positivity, .pointed hnumeral.1 hnumeral.2.1⟩
  · obtain ⟨hnumeral, rfl⟩ := (decimalFraction?_whole hpoint).mp h
    rw [Nat.cast_one, div_one]
    exact ⟨Nat.one_pos, .whole hnumeral⟩

theorem decimalFraction?_of_decimal {s : List Char} {x : ℚ} (h : Decimal s x) :
    ∃ num den, decimalFraction? s = some (num, den) ∧ 0 < den ∧ x = num / den := by
  cases h with
  | @whole _ n hnumeral =>
    exact ⟨n, 1, (decimalFraction?_whole (point_not_digit hnumeral.2.1)).mpr ⟨hnumeral, rfl⟩,
      Nat.one_pos, by simp⟩
  | @pointed digits places hne hdigits =>
    have hnumeral : Numeral (digits ++ places) _ := ⟨hne, hdigits, rfl⟩
    have hpoint := point_not_digit fun c hc => hdigits c (List.mem_append_left _ hc)
    exact ⟨_, _, (decimalFraction?_pointed hpoint places).mpr ⟨hnumeral, rfl⟩, by positivity,
      (numeral_div hnumeral).symm⟩

/-- The numeral of a number is read as that number. -/
theorem decimalFraction?_toString (n : Nat) :
    decimalFraction? (toString n).toList = some (n, 1) := by
  have hnumeral := numeral_toString n
  exact (decimalFraction?_whole (point_not_digit hnumeral.2.1)).mpr ⟨hnumeral, rfl⟩

end MediaShelf.Text
