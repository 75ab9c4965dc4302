import MediaShelf.Proofs.Settings.SizeText
import MediaShelf.Proofs.Text.Capitals
import MediaShelf.Proofs.Text.Nearest

/-!
# The texts that are sizes

A size is written as a count of bytes in digits, or as a decimal numeral with the name of a unit
(`UnitText`), with blanks around. These are the texts that `ByteSize.parse` reads: a count if it is
below `2^64`, a numeral with a unit if the numeral, rounded to double precision, times the unit is
at most `2^64` (`accepted_texts`). The bound is not strict, and it is put on the rounded number: a
text of `2^64` bytes, or of a few more, is read as the greatest word (`oversized_texts`).
-/

namespace MediaShelf.Settings.ByteSize

open MediaShelf.Text

/-- The names of the units in capitals, each with its number of bytes. -/
def unitBytes : List (String × Nat) :=
  [("GB", 1024 ^ 3), ("MB", 1024 ^ 2), ("KB", 1024), ("B", 1)]

/-- A text names a unit, in large or small letters. -/
def NamesUnit (name : List Char) (bytes : Nat) : Prop :=
  ∃ unit, (unit, bytes) ∈ unitBytes ∧ name.map Char.toUpper = unit.toList

/-- A text is the numeral of `x`, blanks or none, and the name of a unit, with blanks around. -/
def UnitText (text : List Char) (x : ℚ) (bytes : Nat) : Prop :=
  ∃ numeral gap name, Decimal numeral x ∧ Blank gap ∧ NamesUnit name bytes ∧
    Padded (numeral ++ (gap ++ name)) text

/-! ## Units -/

theorem mem_unitBytes {unit : String} {bytes : Nat} :
    (unit, bytes) ∈ unitBytes ↔ ∃ power, (unit, power) ∈ sizeUnits ∧ bytes = 2 ^ power := by
  simp only [unitBytes, sizeUnits, List.mem_cons, Prod.mk.injEq, List.not_mem_nil, or_false]
  constructor
  · rintro (⟨rfl, rfl⟩ | ⟨rfl, rfl⟩ | ⟨rfl, rfl⟩ | ⟨rfl, rfl⟩)
    exacts [⟨30, by simp⟩, ⟨20, by simp⟩, ⟨10, by simp⟩, ⟨0, by simp⟩]
  · rintro ⟨power, ⟨rfl, rfl⟩ | ⟨rfl, rfl⟩ | ⟨rfl, rfl⟩ | ⟨rfl, rfl⟩, rfl⟩ <;> simp

theorem mem_sizeUnits_of_lookup {unit : String} {power : Nat}
    (h : sizeUnits.lookup unit = some power) : (unit, power) ∈ sizeUnits := by
  obtain ⟨before, after, hunits, -⟩ := List.lookup_eq_some_iff.mp h
  rw [hunits]
  simp

theorem capitals_eq_unit_iff {name : List Char} {unit : String} {power : Nat}
    (hunit : (unit, power) ∈ sizeUnits) :
    capitals name = unit.toList ↔ name.map Char.toUpper = unit.toList := by
  have hall : ∀ entry ∈ sizeUnits, entry.1.toList ⊆ ['G', 'M', 'K', 'B'] := by decide
  have hletters : ∀ d ∈ ['G', 'M', 'K', 'B'],
      d.toNat < 0x80 ∧ d.toNat ≠ 0 ∧ d.toNat ∉ strayCapitals := by simp [strayCapitals]
  exact capitals_eq_iff fun d hd => hletters d (hall _ hunit hd)

theorem namesUnit_iff {name : List Char} {bytes : Nat} :
    NamesUnit name bytes ↔
      ∃ unit power, (unit, power) ∈ sizeUnits ∧ bytes = 2 ^ power ∧
        capitals name = unit.toList := by
  constructor
  · rintro ⟨unit, hunit, hname⟩
    obtain ⟨power, hmem, hbytes⟩ := mem_unitBytes.mp hunit
    exact ⟨unit, power, hmem, hbytes, (capitals_eq_unit_iff hmem).mpr hname⟩
  · rintro ⟨unit, power, hmem, hbytes, hname⟩
    exact ⟨unit, mem_unitBytes.mpr ⟨power, hmem, hbytes⟩, (capitals_eq_unit_iff hmem).mp hname⟩

theorem NamesUnit.exists_power {name : List Char} {bytes : Nat} (h : NamesUnit name bytes) :
    ∃ power ≤ 30, bytes = 2 ^ power := by
  obtain ⟨unit, power, hunit, hbytes, -⟩ := namesUnit_iff.mp h
  exact ⟨power, (unit_plain hunit).2.2.2, hbytes⟩

/-! ## Numbers -/

theorem isNumberChar_of_mem_capital {c d : Char} (h : d ∈ capital c) (hd : isNumberChar d = true) :
    isNumberChar c = true := by
  have hcode : 46 ≤ d.toNat ∧ d.toNat ≤ 57 := by
    rcases isNumberChar_iff.mp hd with hdigit | rfl
    · have := isDigit_iff.mp hdigit
      omega
    · decide
  have hstray : ∀ k ∈ strayCapitals, 0x41 ≤ k := by decide
  obtain ⟨-, hupper⟩ := mem_capital_ascii h (by omega) (by omega) fun hmem => by
    have := hstray _ hmem
    omega
  rcases toUpper_cases c with hsame | hsmall
  · rwa [hupper, hsame] at hd
  · rw [hupper] at hcode
    omega

theorem number_capitals (s : List Char) :
    (capitals s).takeWhile isNumberChar = s.takeWhile isNumberChar ∧
      (capitals s).dropWhile isNumberChar = capitals (s.dropWhile isNumberChar) := by
  refine takeWhile_flatMap (fun c hc => (isPlainCapital_of_isNumberChar hc).2) (fun c hc => ?_) s
  refine ⟨capital_ne_nil c, fun d hd => ?_⟩
  by_contra hnumber
  rw [isNumberChar_of_mem_capital hd (by simpa using hnumber)] at hc
  cases hc

theorem numeral_of_numberChars {s : List Char} {n : Nat} (hs : ∀ c ∈ s, isNumberChar c = true)
    (h : PlusNumeral s n) : Numeral s n := by
  rcases h with h | ⟨digits, rfl, -⟩
  · exact h
  · exact absurd (hs '+' List.mem_cons_self) (by decide)

/-- A fraction times a unit as it is read: the rounded number times the unit, cut down to a word, if
that is `2^64` at most. -/
theorem ofBinary64?_of_roundsTo {num den : Nat} {y : ℚ} (hden : 0 < den)
    (h : Binary64.RoundsTo ((num : ℚ) / den) y) (power : Nat) :
    ofBinary64? ((Binary64.ofFraction num den).scale power) =
      if y * 2 ^ power ≤ 2 ^ 64 then some (min word64Max ⌊y * 2 ^ power⌋₊) else none := by
  obtain ⟨y', hy', hv⟩ := Binary64.ofFraction_roundsTo num hden
  obtain rfl := h.unique hy'
  rcases hv with hv | ⟨hinf, hlarge⟩
  · have hscaled : ((Binary64.ofFraction num den).scale power).value? = some (y * 2 ^ power) := by
      rw [Binary64.value?_scale, hv, Option.map_some]
    split
    · exact ofBinary64?_of_value? hscaled ‹_›
    · rw [ofBinary64?, if_pos]
      rw [Binary64.exceeds_of_value? hscaled]
      push_cast
      linarith
  · have hhuge : (2 : ℚ) ^ 64 < y := by
      calc (2 : ℚ) ^ 64 < 2 ^ (65 : Int) := by norm_num
        _ ≤ 2 ^ (1023 : Int) := Binary64.zpow_two_le (by decide)
        _ ≤ y := hlarge
    have hpos : 0 ≤ y := le_trans (by positivity) hhuge.le
    have hscale : y ≤ y * 2 ^ power := le_mul_of_one_le_right hpos (one_le_pow₀ one_le_two)
    rw [if_neg (not_le.mpr (hhuge.trans_le hscale)), hinf]
    rfl

/-! ## Reading a text -/

theorem parse_count {text : String} {n : Nat} (h : PaddedNumber Numeral text.toList n) :
    parse text = if n ≤ word64Max then .ok ⟨n⟩
      else .error (.badCount (String.ofList (trim text.toList)) .tooLarge) := by
  obtain ⟨digits, hdigits, hpadded⟩ := h
  have hplain : ∀ c ∈ digits, IsPlainCapital c := fun c hc =>
    isPlainCapital_of_isDigit (hdigits.2.1 c hc)
  have hnumber : ∀ c ∈ digits, isNumberChar c = true := fun c hc =>
    isNumberChar_iff.mpr (.inl (hdigits.2.1 c hc))
  have htrim : trim text.toList = digits := by
    rw [hpadded.trim_eq, trim_eq_self fun c hc => (hplain c hc).1]
  rw [parse, htrim, capitals_of_plain hplain]
  simp only [ofCapitals, List.takeWhile_eq_self_iff.mpr hnumber,
    List.dropWhile_eq_nil_iff.mpr hnumber, trim_nil, if_neg hdigits.1, if_true,
    parseUnsigned_numeral hdigits]
  by_cases hle : n ≤ word64Max
  · rw [if_pos hle, if_pos hle]
  · rw [if_neg hle, if_neg hle]

theorem capitals_trim_unit {numeral gap name s : List Char} {x : ℚ} {unit : String} {power : Nat}
    (hnumeral : Decimal numeral x) (hgap : Blank gap) (hunit : (unit, power) ∈ sizeUnits)
    (hname : capitals name = unit.toList) (hpadded : Padded (numeral ++ (gap ++ name)) s) :
    capitals (trim s) = numeral ++ (gap ++ unit.toList) := by
  obtain ⟨hne, hplain, -, -⟩ := unit_plain hunit
  have hnumber : ∀ c ∈ numeral, IsPlainCapital c := fun c hc =>
    isPlainCapital_of_isNumberChar (isNumberChar_iff.mpr (hnumeral.mem c hc))
  have hblanks : capitals gap = gap := capitals_eq_self fun c hc => capital_of_isBlank (hgap c hc)
  rw [hpadded.trim_eq, ← trim_capitals, capitals_append, capitals_append,
    capitals_of_plain hnumber, hblanks, hname]
  refine trim_eq_self_of_ends (fun c hc => ?_) fun c hc => ?_
  · rw [List.head?_append_of_ne_nil _ hnumeral.ne_nil] at hc
    exact (hnumber c (List.mem_of_head? hc)).1
  · rw [← List.append_assoc, List.getLast?_append_of_ne_nil _ hne] at hc
    exact (hplain c (List.mem_of_getLast? hc)).1.1

theorem parse_unit {text : String} {x y : ℚ} {bytes : Nat} (h : UnitText text.toList x bytes)
    (hy : Binary64.RoundsTo x y) :
    parse text = if y * bytes ≤ 2 ^ 64 then .ok ⟨min word64Max ⌊y * bytes⌋₊⟩
      else .error (.tooLarge (String.ofList (capitals (trim text.toList)))) := by
  obtain ⟨numeral, gap, name, hnumeral, hgap, hname, hpadded⟩ := h
  obtain ⟨unit, power, hunit, rfl, hcapitals⟩ := namesUnit_iff.mp hname
  have hnumber : ∀ c ∈ numeral, isNumberChar c = true := fun c hc =>
    isNumberChar_iff.mpr (hnumeral.mem c hc)
  have hshown := capitals_trim_unit hnumeral hgap hunit hcapitals hpadded
  obtain ⟨num, den, hfraction, hden, rfl⟩ := decimalFraction?_of_decimal hnumeral
  have hvalue : binary64? numeral = some (Binary64.ofFraction num den) := by
    rw [binary64?, hfraction, Option.map_some]
  have hread := ofCapitals_unit hnumeral.ne_nil hnumber hgap hunit
  rw [parse, hshown, hread, hvalue]
  simp only [ofBinary64?_of_roundsTo hden hy, Nat.cast_pow, Nat.cast_ofNat]
  by_cases hle : y * 2 ^ power ≤ 2 ^ 64
  · rw [if_pos hle, if_pos hle]
  · rw [if_neg hle, if_neg hle]

theorem parts_of_ofCapitals {s : List Char} {r : ByteSize} (h : ofCapitals s = .ok r) :
    (trim (s.dropWhile isNumberChar) = [] ∧
        parseUnsigned word64Max (s.takeWhile isNumberChar) = .ok r.bytes) ∨
      ∃ unit power value, (unit, power) ∈ sizeUnits ∧
        trim (s.dropWhile isNumberChar) = unit.toList ∧
        binary64? (s.takeWhile isNumberChar) = some value ∧
        ofBinary64? (value.scale power) = some r.bytes := by
  unfold ofCapitals at h
  dsimp only at h
  split at h
  · cases h
  split at h
  · rename_i hunit
    split at h
    · rename_i n hread
      cases h
      exact .inl ⟨hunit, hread⟩
    · cases h
  · split at h
    · cases h
    rename_i power hlookup
    split at h
    · cases h
    rename_i value hvalue
    split at h
    · rename_i n hread
      cases h
      exact .inr ⟨_, power, value, mem_sizeUnits_of_lookup hlookup, (String.toList_ofList).symm,
        hvalue, hread⟩
    · cases h

theorem exists_text_of_parse {text : String} {r : ByteSize} (h : parse text = .ok r) :
    (∃ n, PaddedNumber Numeral text.toList n) ∨ ∃ x bytes, UnitText text.toList x bytes := by
  obtain ⟨htake, hdrop⟩ := number_capitals (trim text.toList)
  have hparts := parts_of_ofCapitals h
  rw [htake, hdrop, trim_capitals] at hparts
  have hpadded := padded_trim text.toList
  rw [← List.takeWhile_append_dropWhile (p := isNumberChar) (l := trim text.toList)] at hpadded
  rcases hparts with ⟨hunit, hread⟩ | ⟨unit, power, value, hmem, hunit, hvalue, -⟩
  · have hrest := trim_eq_nil_iff.mp (capitals_eq_nil_iff.mp hunit)
    have hnumeral := numeral_of_numberChars (fun c hc => List.mem_takeWhile_imp hc)
      (parseUnsigned_eq_ok.mp hread).1
    exact .inl ⟨_, _, hnumeral, hpadded.of_append hrest⟩
  · obtain ⟨⟨num, den⟩, hfraction, -⟩ := Option.map_eq_some_iff.mp hvalue
    obtain ⟨gap, back, hgap, hback, hrest⟩ :=
      padded_trim ((trim text.toList).dropWhile isNumberChar)
    rw [hrest, ← List.append_assoc] at hpadded
    exact .inr ⟨_, _, _, gap, _, (decimal_of_decimalFraction? hfraction).2, hgap,
      namesUnit_iff.mpr ⟨unit, power, hmem, rfl, hunit⟩, hpadded.of_append hback⟩

/-! ## The number that is read -/

variable {text : List Char} {x y : ℚ} {bytes : Nat}

theorem UnitText.of_numeral {s t : List Char} {n : Nat} (hs : Numeral s n)
    (ht : NamesUnit t bytes) : UnitText (s ++ t) n bytes :=
  ⟨s, [], t, .whole hs, blank_nil, ht, padded_self _⟩

theorem UnitText.nonneg (h : UnitText text x bytes) : 0 ≤ x := by
  obtain ⟨_, _, _, hnumeral, _⟩ := h
  exact hnumeral.nonneg

theorem UnitText.exists_power (h : UnitText text x bytes) : ∃ power ≤ 30, bytes = 2 ^ power := by
  obtain ⟨_, _, _, _, _, hname, _⟩ := h
  exact hname.exists_power

theorem cast_word64Max : (word64Max : ℚ) = 2 ^ 64 - 1 := by norm_num [word64Max]

theorem near_cut {w : ℚ} (hpos : 0 ≤ w) (hle : w ≤ 2 ^ 64) :
    w - 1 ≤ (min word64Max ⌊w⌋₊ : Nat) ∧ ((min word64Max ⌊w⌋₊ : Nat) : ℚ) ≤ w := by
  have hfloor : (⌊w⌋₊ : ℚ) ≤ w := Nat.floor_le hpos
  have hnext : w < ⌊w⌋₊ + 1 := Nat.lt_floor_add_one w
  rw [Nat.cast_min, cast_word64Max]
  exact ⟨le_min (by linarith) (by linarith), (min_le_right _ _).trans hfloor⟩

/-- A number that is rounded, scaled and cut down to a word is off by a byte and a `2^53`th. -/
theorem near_of_roundsTo {power : Nat} (hpower : power ≤ 30) (hx : 0 ≤ x)
    (hy : Binary64.RoundsTo x y) (hle : y * 2 ^ power ≤ 2 ^ 64) :
    |((min word64Max ⌊y * 2 ^ power⌋₊ : Nat) : ℚ) - x * 2 ^ power| ≤
      1 + x * 2 ^ power / 2 ^ 53 := by
  have hy0 : 0 ≤ y := hy.nonneg hx
  have hunit : (0 : ℚ) < 2 ^ power := by positivity
  obtain ⟨hlow, hhigh⟩ := near_cut (mul_nonneg hy0 hunit.le) hle
  rcases hy.near hx with hnear | ⟨hsmall, hnear⟩
  · have hscaled : |y * 2 ^ power - x * 2 ^ power| ≤ x * 2 ^ power / 2 ^ 53 := by
      rw [← sub_mul, abs_mul, abs_of_pos hunit, mul_div_right_comm]
      exact mul_le_mul_of_nonneg_right hnear hunit.le
    rw [abs_le] at hscaled ⊢
    constructor <;> linarith
  · -- Both the number and what it is rounded to are a byte at most.
    have htiny : x ≤ 2 ^ (-31 : Int) := hsmall.le.trans (Binary64.zpow_two_le (by decide))
    have hstep : y - x ≤ 2 ^ (-31 : Int) :=
      (le_abs_self _).trans (hnear.trans (Binary64.zpow_two_le (by decide)))
    have hbyte : (2 : ℚ) ^ power ≤ 2 ^ 30 := pow_le_pow_right₀ one_le_two hpower
    have hwhole : ∀ z : ℚ, z ≤ 2 * 2 ^ (-31 : Int) → z * 2 ^ power ≤ 1 := by
      intro z hz
      calc z * 2 ^ power ≤ 2 * 2 ^ (-31 : Int) * 2 ^ 30 := by gcongr
        _ = 1 := by norm_num
    have hv : x * 2 ^ power ≤ 1 := hwhole x (by linarith only [htiny, hx])
    have hw : y * 2 ^ power ≤ 1 := hwhole y (by linarith only [htiny, hstep])
    have hv0 : 0 ≤ x * 2 ^ power := mul_nonneg hx hunit.le
    have hr0 : (0 : ℚ) ≤ (min word64Max ⌊y * 2 ^ power⌋₊ : Nat) := Nat.cast_nonneg _
    have herror : 0 ≤ x * 2 ^ power / 2 ^ 53 := div_nonneg hv0 (by positivity)
    rw [abs_le]
    constructor <;> linarith only [hhigh, hv, hw, hv0, hr0, herror]

theorem zpow_sub_mul_pow (k : Int) (power : Nat) : (2 : ℚ) ^ (k - power) * 2 ^ power = 2 ^ k := by
  rw [← zpow_natCast 2 power, ← zpow_add₀ two_ne_zero, sub_add_cancel]

theorem le_scaled {power : Nat} (hpower : power ≤ 30) (hy : Binary64.RoundsTo x y)
    (h : 2 ^ 64 ≤ x * 2 ^ power) : 2 ^ 64 ≤ y * 2 ^ power := by
  have hunit : (0 : ℚ) < 2 ^ power := by positivity
  have hpow : (2 : ℚ) ^ 64 = 2 ^ ((64 : Int) - power) * 2 ^ power :=
    (zpow_sub_mul_pow 64 power).symm
  have hheld : Binary64.Held (2 ^ ((64 : Int) - power)) :=
    Binary64.held_zpow (by simp only [Binary64.leastExponent]; omega)
  rw [hpow, mul_le_mul_iff_left₀ hunit] at h ⊢
  exact hy.le_of_held_le hheld h

/-- The next number above `2^64` in double precision is `2^64 + 2^12`; up to half way there a number
of bytes is rounded to `2^64` at most. -/
theorem scaled_le_iff {power : Nat} (hpower : power ≤ 30) (hy : Binary64.RoundsTo x y) :
    y * 2 ^ power ≤ 2 ^ 64 ↔ x * 2 ^ power ≤ 2 ^ 64 + 2 ^ 11 := by
  have hunit : (0 : ℚ) < 2 ^ power := by positivity
  have hbound := hy.le_zpow_iff (b := 64 - power) (by simp only [Binary64.leastExponent]; omega)
  rw [← mul_le_mul_iff_left₀ hunit, ← mul_le_mul_iff_left₀ hunit (b := x), add_mul,
    zpow_sub_mul_pow, sub_right_comm, zpow_sub_mul_pow, show (64 - 53 : Int) = 11 from rfl]
    at hbound
  exact_mod_cast hbound

/-! ## The texts that are read -/

/-- A count of `2^64` bytes or more is refused. A numeral with a unit that comes to `2^64` bytes or
more is refused above `2^64 + 2^11`; up to there it is rounded to `2^64` and read as the greatest
word. -/
theorem oversized_texts (text : String) :
    (∀ n, PaddedNumber Numeral text.toList n → 2 ^ 64 ≤ n →
      parse text = .error (.badCount (String.ofList (trim text.toList)) .tooLarge)) ∧
    ∀ x bytes, UnitText text.toList x bytes → 2 ^ 64 ≤ x * bytes →
      parse text = if x * bytes ≤ 2 ^ 64 + 2 ^ 11 then .ok ⟨word64Max⟩
        else .error (.tooLarge (String.ofList (capitals (trim text.toList)))) := by
  constructor
  · intro n hcount hlarge
    rw [parse_count hcount, if_neg (by rw [le_word64Max_iff]; omega)]
  · intro x bytes hunit hlarge
    obtain ⟨y, hy⟩ := Binary64.exists_roundsTo hunit.nonneg
    obtain ⟨power, hpower, rfl⟩ := hunit.exists_power
    rw [parse_unit hunit hy]
    push_cast at hlarge ⊢
    have hiff := scaled_le_iff hpower hy
    by_cases hle : y * 2 ^ power ≤ 2 ^ 64
    · have hfloor : word64Max ≤ ⌊y * 2 ^ power⌋₊ := by
        refine Nat.le_floor ?_
        rw [cast_word64Max]
        linarith [le_scaled hpower hy hlarge]
      rw [if_pos hle, if_pos (hiff.mp hle), min_eq_left hfloor]
    · rw [if_neg hle, if_neg (mt hiff.mpr hle)]

/-- In gigabytes: `2^34` of them are read as the greatest word, and one more is refused. -/
theorem oversized_texts_gigabytes :
    PaddedNumber Numeral "18446744073709551616".toList (2 ^ 64) ∧
      parse "18446744073709551616" = .error (.badCount "18446744073709551616" .tooLarge) ∧
      UnitText "17179869184gb".toList (2 ^ 34 : Nat) (1024 ^ 3) ∧
      parse "17179869184gb" = .ok ⟨2 ^ 64 - 1⟩ ∧
      UnitText "17179869185gb".toList (2 ^ 34 + 1 : Nat) (1024 ^ 3) ∧
      parse "17179869185gb" = .error (.tooLarge "17179869185GB") := by
  have hcount : PaddedNumber Numeral "18446744073709551616".toList (2 ^ 64) :=
    ⟨_, by decide +kernel, padded_self _⟩
  have hunit : NamesUnit ['g', 'b'] (1024 ^ 3) := ⟨"GB", by decide, by decide⟩
  have hlimit : UnitText "17179869184gb".toList (2 ^ 34 : Nat) (1024 ^ 3) :=
    .of_numeral (s := "17179869184".toList) (by decide +kernel) hunit
  have hbeyond : UnitText "17179869185gb".toList (2 ^ 34 + 1 : Nat) (1024 ^ 3) :=
    .of_numeral (s := "17179869185".toList) (by decide +kernel) hunit
  refine ⟨hcount, ?_, hlimit, ?_, hbeyond, ?_⟩
  · rw [(oversized_texts _).1 _ hcount le_rfl]
    decide +kernel
  · rw [(oversized_texts _).2 _ _ hlimit (by norm_num), if_pos (by norm_num)]
    rfl
  · rw [(oversized_texts _).2 _ _ hbeyond (by norm_num), if_neg (by norm_num)]
    decide +kernel

/-- A text of `2^64` bytes is accepted. -/
theorem oversized_text_accepted :
    ¬∀ (text : String) (x : ℚ) (bytes : Nat), UnitText text.toList x bytes → 2 ^ 64 ≤ x * bytes →
      ∃ e, parse text = .error e := by
  intro h
  have hunit : UnitText "17179869184GB".toList (2 ^ 34 : Nat) (1024 ^ 3) :=
    .of_numeral (s := "17179869184".toList) (by decide +kernel) ⟨"GB", by decide, by decide⟩
  obtain ⟨e, he⟩ := h _ _ _ hunit (by norm_num)
  have hread : parse "17179869184GB" = .ok ⟨2 ^ 64 - 1⟩ := by decide +kernel
  rw [hread] at he
  cases he

/-- The texts that are read are the counts of bytes below `2^64` and the numerals with a unit that,
rounded, come to `2^64` bytes at most. A count is read as it is. A numeral with a unit is read with
an error of a byte and a `2^53`th at most, and without error if it is a whole number up to `2^53`
that comes to less than `2^64` bytes. -/
theorem accepted_texts (text : String) :
    ((∃ r, parse text = .ok r) ↔
      (∃ n, PaddedNumber Numeral text.toList n ∧ n < 2 ^ 64) ∨
        ∃ x bytes y, UnitText text.toList x bytes ∧ Binary64.RoundsTo x y ∧ y * bytes ≤ 2 ^ 64) ∧
    (∀ n, PaddedNumber Numeral text.toList n → n < 2 ^ 64 → parse text = .ok ⟨n⟩) ∧
    ∀ x bytes, UnitText text.toList x bytes →
      (∀ r, parse text = .ok ⟨r⟩ → |(r : ℚ) - x * bytes| ≤ 1 + x * bytes / 2 ^ 53) ∧
      ∀ q : Nat, x = q → q ≤ 2 ^ 53 → q * bytes < 2 ^ 64 → parse text = .ok ⟨q * bytes⟩ := by
  have hcount : ∀ n, PaddedNumber Numeral text.toList n → n < 2 ^ 64 → parse text = .ok ⟨n⟩ := by
    intro n hn hlt
    rw [parse_count hn, if_pos (le_word64Max_iff.mpr hlt)]
  refine ⟨⟨?_, ?_⟩, hcount, fun x bytes hunit => ⟨?_, ?_⟩⟩
  · rintro ⟨r, hr⟩
    rcases exists_text_of_parse hr with ⟨n, hn⟩ | ⟨x, bytes, hunit⟩
    · rw [parse_count hn] at hr
      split at hr
      · rename_i hle
        exact .inl ⟨n, hn, le_word64Max_iff.mp hle⟩
      · cases hr
    · obtain ⟨y, hy⟩ := Binary64.exists_roundsTo hunit.nonneg
      rw [parse_unit hunit hy] at hr
      split at hr
      · exact .inr ⟨x, bytes, y, hunit, hy, ‹_›⟩
      · cases hr
  · rintro (⟨n, hn, hlt⟩ | ⟨x, bytes, y, hunit, hy, hle⟩)
    · exact ⟨_, hcount n hn hlt⟩
    · exact ⟨_, by rw [parse_unit hunit hy, if_pos hle]⟩
  · intro r hr
    obtain ⟨y, hy⟩ := Binary64.exists_roundsTo hunit.nonneg
    obtain ⟨power, hpower, rfl⟩ := hunit.exists_power
    rw [parse_unit hunit hy] at hr
    push_cast at hr ⊢
    split at hr
    · rename_i hle
      obtain rfl := congrArg bytes (Except.ok.inj hr)
      exact near_of_roundsTo hpower hunit.nonneg hy hle
    · cases hr
  · rintro q rfl hq hlt
    have hheld : Binary64.Held q := by
      simpa using Binary64.held_of_le hq (e := 0) (by decide)
    obtain ⟨y, hy⟩ := Binary64.exists_roundsTo hunit.nonneg
    obtain rfl := hy.eq_of_held hheld
    rw [parse_unit hunit hy, if_pos (by exact_mod_cast hlt.le), ← Nat.cast_mul, Nat.floor_natCast,
      min_eq_right (le_word64Max_iff.mpr hlt)]

/-- A count with blanks around it, a whole number with a point, and a tenth of a gigabyte. -/
theorem accepted_texts_mixed :
    PaddedNumber Numeral " 12\n".toList 12 ∧ parse " 12\n" = .ok ⟨12⟩ ∧
      UnitText "5.0 mB".toList 5 (1024 ^ 2) ∧ parse "5.0 mB" = .ok ⟨5 * 1024 ^ 2⟩ ∧
      UnitText ".1Gb ".toList (1 / 10) (1024 ^ 3) ∧ parse ".1Gb " = .ok ⟨107374182⟩ ∧
      |(107374182 : Nat) - 1 / 10 * ((1024 ^ 3 : Nat) : ℚ)| ≤
        1 + 1 / 10 * ((1024 ^ 3 : Nat) : ℚ) / 2 ^ 53 := by
  have hcount : PaddedNumber Numeral " 12\n".toList 12 :=
    ⟨['1', '2'], by decide, [' '], ['\n'], by decide⟩
  have hfive : Decimal ['5', '.', '0'] 5 := by
    have h : decimalFraction? ['5', '.', '0'] = some (50, 10) := by decide
    convert (decimal_of_decimalFraction? h).2
    norm_num
  have hdecimal : Decimal ['.', '1'] (1 / 10) := by
    have h : decimalFraction? ['.', '1'] = some (1, 10) := by decide
    convert (decimal_of_decimalFraction? h).2
    · norm_num
    · norm_num
  have hwhole : UnitText "5.0 mB".toList 5 (1024 ^ 2) :=
    ⟨_, [' '], ['m', 'B'], hfive, by decide, ⟨"MB", by decide, by decide⟩, padded_self _⟩
  have htenth : UnitText ".1Gb ".toList (1 / 10) (1024 ^ 3) :=
    ⟨_, [], ['G', 'b'], hdecimal, by decide, ⟨"GB", by decide, by decide⟩, [], [' '], by decide⟩
  have hread : parse ".1Gb " = .ok ⟨107374182⟩ := by decide +kernel
  refine ⟨hcount, (accepted_texts _).2.1 _ hcount (by decide), hwhole, ?_, htenth, hread, ?_⟩
  · exact ((accepted_texts _).2.2 _ _ hwhole).2 5 (by norm_num) (by decide) (by decide)
  · exact ((accepted_texts _).2.2 _ _ htenth).1 _ hread

end MediaShelf.Settings.ByteSize
