import MediaShelf.Proofs.Text.Decimals
import MediaShelf.Proofs.Text.Rounding
import MediaShelf.Settings.Decode

/-!
How the text of a size is read back. `ByteSize.toText` writes a whole number of the largest unit
that divides the size; `ByteSize.parse` reads that number in double precision, so it comes back
rounded. The main result, `parse_toText`, says of every 64-bit size which number is read, when it is
the size that was written, and how far off it is otherwise.
-/

namespace MediaShelf.Settings.ByteSize

open MediaShelf.Text

/-! ## The text of a size -/

theorem toText_cases (n : Nat) :
    ∃ unit power, (unit, power) ∈ sizeUnits ∧ 2 ^ power ∣ n ∧
      toText ⟨n⟩ = toString (n / 2 ^ power) ++ unit := by
  simp only [toText]
  split
  · rename_i unit power hfind
    have hmem := List.mem_of_find?_eq_some hfind
    have hdvd := List.find?_some hfind
    simp only [Bool.and_eq_true, beq_iff_eq] at hdvd
    exact ⟨unit, power, hmem, Nat.dvd_of_mod_eq_zero hdvd.2, rfl⟩
  · exact ⟨"B", 0, by decide, by simp, by simp⟩

theorem unit_plain {unit : String} {power : Nat} (h : (unit, power) ∈ sizeUnits) :
    unit.toList ≠ [] ∧ (∀ c ∈ unit.toList, IsPlainCapital c ∧ isNumberChar c = false) ∧
      sizeUnits.lookup unit = some power ∧ power ≤ 30 := by
  have hall : ∀ entry ∈ sizeUnits, entry.1.toList ≠ [] ∧ entry.1.toList ⊆ ['G', 'M', 'K', 'B'] ∧
      sizeUnits.lookup entry.1 = some entry.2 ∧ entry.2 ≤ 30 := by decide
  obtain ⟨hne, hletters, hlookup, hpower⟩ := hall _ h
  refine ⟨hne, fun c hc => ?_, hlookup, hpower⟩
  have hcapital : c = 'G' ∨ c = 'M' ∨ c = 'K' ∨ c = 'B' := by simpa using hletters hc
  rcases hcapital with rfl | rfl | rfl | rfl <;>
    exact ⟨isPlainCapital_of_toNat (by decide) (by decide), by decide⟩

/-! ## Reading a whole number of a unit -/

theorem ofBinary64?_of_value? {b : Binary64} {v : ℚ} (h : b.value? = some v) (hle : v ≤ 2 ^ 64) :
    ofBinary64? b = some (min word64Max ⌊v⌋₊) := by
  have hexceeds : ¬b.exceeds (Nat.pow 2 64) = true := by
    rw [Binary64.exceeds_of_value? h, not_lt]
    exact_mod_cast hle
  rw [ofBinary64?, if_neg hexceeds, Binary64.floor_of_value? h, Option.map_some]

theorem isNumberChar_iff {c : Char} : isNumberChar c = true ↔ c.isDigit = true ∨ c = '.' := by
  rw [isNumberChar, Bool.or_eq_true, beq_iff_eq]

theorem isPlainCapital_of_isNumberChar {c : Char} (h : isNumberChar c = true) :
    IsPlainCapital c := by
  rcases isNumberChar_iff.mp h with hdigit | rfl
  · exact isPlainCapital_of_isDigit hdigit
  · exact isPlainCapital_of_toNat (by decide) (by decide)

theorem isNumberChar_of_isBlank {c : Char} (h : isBlank c = true) : isNumberChar c = false := by
  by_contra hnumber
  rw [Bool.not_eq_false] at hnumber
  rw [(isPlainCapital_of_isNumberChar hnumber).1] at h
  cases h

theorem ofCapitals_unit {number gap : List Char} {unit : String} {power : Nat}
    (hne : number ≠ []) (hnumber : ∀ c ∈ number, isNumberChar c = true) (hgap : Blank gap)
    (hunit : (unit, power) ∈ sizeUnits) :
    ofCapitals (number ++ (gap ++ unit.toList)) =
      match binary64? number with
      | none => .error (.badNumber (String.ofList (number ++ (gap ++ unit.toList))))
      | some value =>
        match ofBinary64? (value.scale power) with
        | some n => .ok ⟨n⟩
        | none => .error (.tooLarge (String.ofList (number ++ (gap ++ unit.toList)))) := by
  obtain ⟨hunitne, hplain, hlookup, -⟩ := unit_plain hunit
  have hrest : ∀ c ∈ gap ++ unit.toList, ¬isNumberChar c = true := by
    intro c hc
    rw [Bool.not_eq_true]
    rcases List.mem_append.mp hc with hc | hc
    · exact isNumberChar_of_isBlank (hgap c hc)
    · exact (hplain c hc).2
  have htake : (number ++ (gap ++ unit.toList)).takeWhile isNumberChar = number := by
    rw [List.takeWhile_append_of_pos hnumber, List.takeWhile_eq_nil_iff.mpr, List.append_nil]
    exact fun hpos => hrest _ (List.getElem_mem hpos)
  have hdrop : (number ++ (gap ++ unit.toList)).dropWhile isNumberChar = gap ++ unit.toList := by
    rw [List.dropWhile_append_of_pos hnumber, List.dropWhile_eq_self_iff]
    exact fun hpos => hrest _ (List.getElem_mem hpos)
  have htrim : trim (gap ++ unit.toList) = unit.toList := by
    have hpadded : Padded unit.toList (gap ++ unit.toList) :=
      ⟨gap, [], hgap, blank_nil, (List.append_nil _).symm⟩
    rw [hpadded.trim_eq, trim_eq_self fun c hc => (hplain c hc).1.1]
  cases hvalue : binary64? number with
  | none =>
    simp only [ofCapitals, htake, hdrop, htrim, if_neg hne, if_neg hunitne, String.ofList_toList,
      hlookup, hvalue]
  | some value =>
    cases hread : ofBinary64? (value.scale power) <;>
      simp only [ofCapitals, htake, hdrop, htrim, if_neg hne, if_neg hunitne,
        String.ofList_toList, hlookup, hvalue, hread]

theorem ofCapitals_numeral {unit : String} {power : Nat} (q : Nat)
    (hunit : (unit, power) ∈ sizeUnits) :
    ofCapitals ((toString q).toList ++ unit.toList) =
      match ofBinary64? ((Binary64.ofFraction q 1).scale power) with
      | some n => .ok ⟨n⟩
      | none => .error (.tooLarge (String.ofList ((toString q).toList ++ unit.toList))) := by
  have hdigits : ∀ c ∈ (toString q).toList, isNumberChar c = true := fun c hc =>
    isNumberChar_iff.mpr (.inl (isDigit_of_mem_toString hc))
  have hvalue : binary64? (toString q).toList = some (Binary64.ofFraction q 1) := by
    rw [binary64?, decimalFraction?_toString, Option.map_some]
  have hread := ofCapitals_unit (toString_toList_ne_nil q) hdigits blank_nil hunit
  rw [hvalue, List.nil_append] at hread
  exact hread

theorem parse_numeral {unit : String} {power : Nat} (q : Nat)
    (hunit : (unit, power) ∈ sizeUnits) :
    parse (toString q ++ unit) =
      match ofBinary64? ((Binary64.ofFraction q 1).scale power) with
      | some n => .ok ⟨n⟩
      | none => .error (.tooLarge (String.ofList ((toString q).toList ++ unit.toList))) := by
  rw [parse, String.toList_append, capitals_trim_of_plain, ofCapitals_numeral q hunit]
  intro c hc
  rcases List.mem_append.mp hc with hc | hc
  · exact isPlainCapital_of_isDigit (isDigit_of_mem_toString hc)
  · exact ((unit_plain hunit).2.1 c hc).1

/-! ## The rounding of a 64-bit size -/

theorem ofBinary64?_exact {q power : Nat} (hle : q * 2 ^ power ≤ word64Max)
    (hexact : (Binary64.ofFraction q 1).value? = some (q : ℚ)) :
    ofBinary64? ((Binary64.ofFraction q 1).scale power) = some (q * 2 ^ power) := by
  have hv : ((Binary64.ofFraction q 1).scale power).value? = some ((q * 2 ^ power : Nat) : ℚ) := by
    rw [Binary64.value?_scale, hexact, Option.map_some, Nat.cast_mul, Nat.cast_pow]
    rfl
  have h64 : ((q * 2 ^ power : Nat) : ℚ) ≤ 2 ^ 64 := by
    exact_mod_cast hle.trans (Nat.sub_le _ _)
  rw [ofBinary64?_of_value? hv h64, Nat.floor_natCast, min_eq_right hle]

theorem small_of_mul_le {q power : Nat} (hle : q * 2 ^ power ≤ word64Max) :
    (q : ℚ) < 2 ^ (1023 : Int) := by
  have hq : q < 2 ^ 64 := by
    have hmul : q ≤ q * 2 ^ power := Nat.le_mul_of_pos_right _ (Nat.two_pow_pos _)
    have hmax : word64Max < 2 ^ 64 := by decide
    omega
  calc (q : ℚ) < 2 ^ (64 : Int) := by exact_mod_cast hq
    _ ≤ 2 ^ (1023 : Int) := Binary64.zpow_two_le (by decide)

theorem value?_of_multiple {q power m k : Nat} (hle : q * 2 ^ power ≤ word64Max)
    (hpower : power ≤ 30) (hm : m ≤ 2 ^ 53) (h : q * 2 ^ power = m * 2 ^ k) :
    (Binary64.ofFraction q 1).value? = some (q : ℚ) := by
  rcases Nat.eq_zero_or_pos q with rfl | hq
  · simp [Binary64.ofFraction]
  have hx : (q : ℚ) / (1 : Nat) = m * 2 ^ ((k : Int) - power) := by
    have hcast : (q : ℚ) * 2 ^ power = (m : ℚ) * 2 ^ k := by exact_mod_cast h
    rw [Nat.cast_one, div_one, zpow_sub₀ two_ne_zero, zpow_natCast, zpow_natCast, ← mul_div_assoc,
      ← hcast, mul_div_assoc, div_self (by positivity), mul_one]
  have hsmall : (q : ℚ) / (1 : Nat) < 2 ^ (1023 : Int) := by
    rw [Nat.cast_one, div_one]
    exact small_of_mul_le hle
  have hexact := Binary64.ofFraction_exact hq.ne' Nat.one_pos hx hm
    (by simp only [Binary64.leastExponent]; omega) hsmall
  rwa [Nat.cast_one, div_one] at hexact

/-- A count of more than 53 bits is read as the nearest multiple of the last bit it keeps, cut down
to a 64-bit word. -/
theorem ofBinary64?_rounded {q power : Nat} (hle : q * 2 ^ power ≤ word64Max)
    (hlarge : 2 ^ 53 < q) :
    ∃ m k : Nat, m ≤ 2 ^ 53 ∧
      ofBinary64? ((Binary64.ofFraction q 1).scale power) = some (min word64Max (m * 2 ^ k)) ∧
      2 ^ 52 * 2 ^ k ≤ q * 2 ^ power ∧ q * 2 ^ power < 2 ^ 53 * 2 ^ k ∧
      2 * (m * 2 ^ k) ≤ 2 * (q * 2 ^ power) + 2 ^ k ∧
      2 * (q * 2 ^ power) ≤ 2 * (m * 2 ^ k) + 2 ^ k := by
  obtain ⟨m, j, hm, hvalue, hfull, hbelow, hup, hdown⟩ :=
    Binary64.ofFraction_whole hlarge (small_of_mul_le hle)
  have hunit : 0 < 2 ^ power := Nat.two_pow_pos power
  have hlow : 2 ^ 52 * 2 ^ (j + power) ≤ q * 2 ^ power := by
    calc 2 ^ 52 * 2 ^ (j + power) = 2 ^ (j + 52) * 2 ^ power := by ring
      _ ≤ q * 2 ^ power := Nat.mul_le_mul_right _ hfull
  have hscaled : ((Binary64.ofFraction q 1).scale power).value? =
      some ((m * 2 ^ (j + power) : Nat) : ℚ) := by
    rw [Binary64.value?_scale, hvalue, Option.map_some]
    push_cast
    rw [pow_add, mul_assoc]
  -- A count below 2 ^ 64 is rounded to 2 ^ 64 at most.
  have h64 : m * 2 ^ (j + power) ≤ 2 ^ 64 := by
    have hk : j + power + 52 < 64 := by
      refine (Nat.pow_lt_pow_iff_right (by decide : 1 < 2)).mp ?_
      calc 2 ^ (j + power + 52) = 2 ^ 52 * 2 ^ (j + power) := by ring
        _ ≤ q * 2 ^ power := hlow
        _ ≤ word64Max := hle
        _ < 2 ^ 64 := by decide
    calc m * 2 ^ (j + power) ≤ 2 ^ 53 * 2 ^ (j + power) := Nat.mul_le_mul_right _ hm
      _ = 2 ^ (j + power + 53) := by ring
      _ ≤ 2 ^ 64 := Nat.pow_le_pow_right (by decide) (by omega)
  refine ⟨m, j + power, hm, ?_, hlow, ?_, ?_, ?_⟩
  · rw [ofBinary64?_of_value? hscaled (by exact_mod_cast h64), Nat.floor_natCast]
  · calc q * 2 ^ power < 2 ^ (j + 53) * 2 ^ power := Nat.mul_lt_mul_of_pos_right hbelow hunit
      _ = 2 ^ 53 * 2 ^ (j + power) := by ring
  · calc 2 * (m * 2 ^ (j + power)) = 2 * (m * 2 ^ j) * 2 ^ power := by ring
      _ ≤ (2 * q + 2 ^ j) * 2 ^ power := Nat.mul_le_mul_right _ hup
      _ = 2 * (q * 2 ^ power) + 2 ^ (j + power) := by ring
  · calc 2 * (q * 2 ^ power) = 2 * q * 2 ^ power := by ring
      _ ≤ (2 * (m * 2 ^ j) + 2 ^ j) * 2 ^ power := Nat.mul_le_mul_right _ hdown
      _ = 2 * (m * 2 ^ (j + power)) + 2 ^ (j + power) := by ring

/-- The greatest 64-bit word is rounded up, to the next power of two. -/
theorem rounds_up_of_max {n m k : Nat} (hmax : n = word64Max)
    (hlow : 2 ^ 52 * 2 ^ k ≤ n) (hhigh : n < 2 ^ 53 * 2 ^ k)
    (hdown : 2 * n ≤ 2 * (m * 2 ^ k) + 2 ^ k) : word64Max ≤ m * 2 ^ k := by
  have hk : k = 11 := by
    have h64 : word64Max = 2 ^ 64 - 1 := rfl
    have hle : 2 ^ (k + 52) < 2 ^ 64 := by
      rw [pow_add, Nat.mul_comm]
      omega
    have hge : 2 ^ 63 < 2 ^ (k + 53) := by
      rw [pow_add, Nat.mul_comm]
      omega
    have := (Nat.pow_lt_pow_iff_right (by decide : 1 < 2)).mp hle
    have := (Nat.pow_lt_pow_iff_right (by decide : 1 < 2)).mp hge
    omega
  subst hk hmax
  have h64 : word64Max = 2 ^ 64 - 1 := rfl
  omega

/-! ## A size read back from its text -/

/-- A size of 64 bits that a unit divides, read as its count of the unit: it comes back exactly when
53 bits of it are enough, or when it is the greatest one, and it is off by a `2 ^ 53`th at most. -/
theorem ofBinary64?_of_word {n power : Nat} (hn : n ≤ word64Max) (hpower : power ≤ 30)
    (hdvd : 2 ^ power ∣ n) :
    ∃ r, ofBinary64? ((Binary64.ofFraction (n / 2 ^ power) 1).scale power) = some r ∧
      (r = n ↔ n = word64Max ∨ ∃ m k, m ≤ 2 ^ 53 ∧ n = m * 2 ^ k) ∧
      n - n / 2 ^ 53 ≤ r ∧ r ≤ n + n / 2 ^ 53 := by
  obtain ⟨q, rfl⟩ := hdvd
  rw [Nat.mul_comm] at hn ⊢
  rw [Nat.mul_div_cancel _ (Nat.two_pow_pos power)]
  have hkept : ∀ m k, m ≤ 2 ^ 53 → q * 2 ^ power = m * 2 ^ k →
      ofBinary64? ((Binary64.ofFraction q 1).scale power) = some (q * 2 ^ power) :=
    fun m k hm h => ofBinary64?_exact hn (value?_of_multiple hn hpower hm h)
  rcases Nat.lt_or_ge (2 ^ 53) q with hlarge | hsmall
  · obtain ⟨m, k, hm, hread, hlow, hhigh, hup, hdown⟩ := ofBinary64?_rounded hn hlarge
    have hcut : min word64Max (m * 2 ^ k) = word64Max ∨
        min word64Max (m * 2 ^ k) = m * 2 ^ k ∧ m * 2 ^ k ≤ word64Max := by omega
    refine ⟨_, hread, ⟨?_, ?_⟩, by omega, by omega⟩
    · intro h
      rcases hcut with hc | ⟨hc, -⟩
      · exact .inl (h ▸ hc)
      · exact .inr ⟨m, k, hm, h ▸ hc⟩
    · rintro (hmax | ⟨m', k', hm', h⟩)
      · rw [hmax]
        exact min_eq_left (rounds_up_of_max hmax hlow hhigh hdown)
      · exact Option.some.inj (hread.symm.trans (hkept m' k' hm' h))
  · refine ⟨q * 2 ^ power, hkept q power hsmall rfl, ?_, Nat.sub_le _ _, Nat.le_add_right _ _⟩
    exact iff_of_true rfl (.inr ⟨q, power, hsmall, rfl⟩)

/-- The text of a 64-bit size is always read, alone and as the value of a setting. The size comes
back exactly when 53 bits of it are enough, or when it is the greatest one; it is off by a `2^53`th
at most. -/
theorem parse_toText (n : Nat) (hn : n ≤ word64Max) :
    ∃ r, parse (toText ⟨n⟩) = .ok ⟨r⟩ ∧ sizeOf (.text (toText ⟨n⟩)) = .ok ⟨r⟩ ∧
      (r = n ↔ n = word64Max ∨ ∃ m k, m ≤ 2 ^ 53 ∧ n = m * 2 ^ k) ∧
      n - n / 2 ^ 53 ≤ r ∧ r ≤ n + n / 2 ^ 53 := by
  obtain ⟨unit, power, hunit, hdvd, htext⟩ := toText_cases n
  obtain ⟨r, hread, hexact, hnear⟩ := ofBinary64?_of_word hn (unit_plain hunit).2.2.2 hdvd
  have hparse : parse (toText ⟨n⟩) = .ok ⟨r⟩ := by
    rw [htext, parse_numeral _ hunit, hread]
  exact ⟨r, hparse, by rw [sizeOf, hparse], hexact, hnear⟩

/-- The least size that needs 54 bits is read one too small. -/
theorem parse_toText_least_inexact :
    2 ^ 53 + 1 ≤ word64Max ∧ toText ⟨2 ^ 53 + 1⟩ = "9007199254740993B" ∧
      parse (toText ⟨2 ^ 53 + 1⟩) = .ok ⟨2 ^ 53⟩ ∧
      ∃ r, parse (toText ⟨2 ^ 53 + 1⟩) = .ok ⟨r⟩ ∧
        2 ^ 53 + 1 - (2 ^ 53 + 1) / 2 ^ 53 ≤ r := by
  have hn : 2 ^ 53 + 1 ≤ word64Max := by decide
  obtain ⟨r, hparse, -, -, hnear, -⟩ := parse_toText (2 ^ 53 + 1) hn
  exact ⟨hn, by decide +kernel, by decide +kernel, r, hparse, hnear⟩

/-- Not every 64-bit size is read back from its text. -/
theorem size_text_not_exact :
    ¬∀ n ≤ word64Max, parse (toText ⟨n⟩) = .ok ⟨n⟩ := by
  intro h
  exact absurd (h (2 ^ 53 + 1) (by decide)) (by decide +kernel)

end MediaShelf.Settings.ByteSize
