import Mathlib.Algebra.Order.Archimedean.Basic
import Mathlib.Algebra.Order.Field.Power
import Mathlib.Algebra.Order.Floor.Semifield
import Mathlib.Data.Rat.Floor
import Mathlib.Tactic.FieldSimp
import Mathlib.Tactic.Linarith
import Mathlib.Tactic.LinearCombination
import Mathlib.Tactic.NormNum
import Mathlib.Tactic.Positivity
import Mathlib.Tactic.Ring
import MediaShelf.Text.Binary64

/-!
What `Binary64.ofFraction` does to a fraction, said in rational numbers. The fraction lies in the
range of one exponent (`Grid`); the number it becomes is a multiple of the unit of that exponent
and at most half a unit away (`ofFraction_rounds`). A fraction that the format holds is such a
multiple itself, so it is kept exactly (`ofFraction_exact`).
-/

namespace MediaShelf.Text.Binary64

/-- The value of a finite number. -/
def value? : Binary64 → Option ℚ
  | .finite m e => some (m * 2 ^ e)
  | .infinite => none

@[simp] theorem value?_finite (m : Nat) (e : Int) :
    (finite m e).value? = some ((m : ℚ) * 2 ^ e) := rfl

/-! ## Values of the operations -/

theorem value?_scale (k : Nat) (b : Binary64) :
    (b.scale k).value? = b.value?.map (· * 2 ^ k) := by
  cases b with
  | infinite => rfl
  | finite m e =>
    simp only [scale, value?_finite, Option.map_some, Option.some.injEq]
    rw [zpow_add₀ two_ne_zero, zpow_natCast, mul_assoc]

/-- A unit with an exponent that is not negative, as a whole number. -/
theorem zpow_of_nonneg {e : Int} (h : 0 ≤ e) : (2 : ℚ) ^ e = ((2 ^ e.toNat : Nat) : ℚ) := by
  conv_lhs => rw [← Int.toNat_of_nonneg h]
  rw [zpow_natCast]
  push_cast
  rfl

/-- A unit with a negative exponent, as a part of one. -/
theorem zpow_of_neg {e : Int} (h : ¬0 ≤ e) :
    (2 : ℚ) ^ e = (((2 ^ (-e).toNat : Nat) : ℚ))⁻¹ := by
  rw [← zpow_of_nonneg (by omega : (0 : Int) ≤ -e), ← zpow_neg, neg_neg]

theorem floor_of_value? {b : Binary64} {v : ℚ} (h : b.value? = some v) :
    b.floor = some ⌊v⌋₊ := by
  cases b with
  | infinite => cases h
  | finite m e =>
    obtain rfl : (m : ℚ) * 2 ^ e = v := by simpa using h
    simp only [floor, Option.some.injEq]
    split
    · rename_i he
      rw [zpow_of_nonneg he, ← Nat.cast_mul, Nat.floor_natCast]
      rfl
    · rename_i he
      rw [zpow_of_neg he, ← div_eq_mul_inv, Nat.floor_div_eq_div]
      rfl

theorem exceeds_of_value? {b : Binary64} {v : ℚ} (h : b.value? = some v) (limit : Nat) :
    b.exceeds limit = true ↔ (limit : ℚ) < v := by
  cases b with
  | infinite => cases h
  | finite m e =>
    obtain rfl : (m : ℚ) * 2 ^ e = v := by simpa using h
    simp only [exceeds]
    split
    · rename_i he
      rw [zpow_of_nonneg he, decide_eq_true_iff, ← Nat.cast_mul, Nat.cast_lt]
      rfl
    · rename_i he
      rw [zpow_of_neg he, decide_eq_true_iff, ← div_eq_mul_inv, lt_div_iff₀ (by positivity),
        ← Nat.cast_mul, Nat.cast_lt]
      rfl

/-! ## The range of an exponent -/

/-- A number `x` is rounded to a multiple of `2 ^ e`: it is below the range of the next exponent,
and it fills the mantissa unless the exponent is the least one. -/
structure Grid (x : ℚ) (e : Int) : Prop where
  least : leastExponent ≤ e
  below : x < 2 ^ (e + 53)
  full : e = leastExponent ∨ 2 ^ (e + 52) ≤ x

theorem zpow_two_le {a b : Int} (h : a ≤ b) : (2 : ℚ) ^ a ≤ 2 ^ b :=
  zpow_le_zpow_right₀ one_le_two h

theorem lt_of_zpow_two_lt {a b : Int} (h : (2 : ℚ) ^ a < 2 ^ b) : a < b :=
  (zpow_lt_zpow_iff_right₀ one_lt_two).mp h

theorem le_of_zpow_two_le {a b : Int} (h : (2 : ℚ) ^ a ≤ 2 ^ b) : a ≤ b :=
  (zpow_le_zpow_iff_right₀ one_lt_two).mp h

/-- The fraction that `inUnits` gives is the number in those units. -/
theorem inUnits_spec (num : Nat) {den : Nat} (e : Int) (hden : 0 < den) :
    0 < (inUnits num den e).2 ∧
      ((inUnits num den e).1 : ℚ) / (inUnits num den e).2 * 2 ^ e = num / den := by
  have hd : (den : ℚ) ≠ 0 := by positivity
  unfold inUnits
  split
  · rename_i he
    have hp : (0 : ℚ) < ((2 ^ e.toNat : Nat) : ℚ) := by positivity
    refine ⟨Nat.mul_pos hden (Nat.two_pow_pos _), ?_⟩
    rw [zpow_of_nonneg he]
    simp only [Nat.pow_eq, Nat.cast_mul]
    field_simp
  · rename_i he
    have hp : (0 : ℚ) < ((2 ^ (-e).toNat : Nat) : ℚ) := by positivity
    refine ⟨hden, ?_⟩
    rw [zpow_of_neg he]
    simp only [Nat.pow_eq, Nat.cast_mul]
    field_simp

/-- A fraction lies between the powers of two that the bits of its parts give. -/
theorem fraction_bounds {num den : Nat} (hnum : num ≠ 0) (hden : 0 < den) :
    (2 : ℚ) ^ ((num.log2 : Int) - den.log2 - 1) < num / den ∧
      (num : ℚ) / den < 2 ^ ((num.log2 : Int) - den.log2 + 1) := by
  have hn : (2 : ℚ) ^ (num.log2 : Int) ≤ num := by
    exact_mod_cast Nat.log2_self_le hnum
  have hn' : (num : ℚ) < 2 ^ ((num.log2 : Int) + 1) := by
    exact_mod_cast (Nat.lt_log2_self : num < 2 ^ (num.log2 + 1))
  have hd : (2 : ℚ) ^ (den.log2 : Int) ≤ den := by
    exact_mod_cast Nat.log2_self_le (Nat.pos_iff_ne_zero.mp hden)
  have hd' : (den : ℚ) < 2 ^ ((den.log2 : Int) + 1) := by
    exact_mod_cast (Nat.lt_log2_self : den < 2 ^ (den.log2 + 1))
  have hpos : (0 : ℚ) < den := by exact_mod_cast hden
  have hunit : (0 : ℚ) < 2 ^ (den.log2 : Int) := by positivity
  constructor
  · rw [lt_div_iff₀ hpos]
    calc (2 : ℚ) ^ ((num.log2 : Int) - den.log2 - 1) * den
        < 2 ^ ((num.log2 : Int) - den.log2 - 1) * 2 ^ ((den.log2 : Int) + 1) := by gcongr
      _ = 2 ^ (num.log2 : Int) := by rw [← zpow_add₀ two_ne_zero]; congr 1; omega
      _ ≤ num := hn
  · rw [div_lt_iff₀ hpos]
    calc (num : ℚ) < 2 ^ ((num.log2 : Int) + 1) := hn'
      _ = 2 ^ ((num.log2 : Int) - den.log2 + 1) * 2 ^ (den.log2 : Int) := by
          rw [← zpow_add₀ two_ne_zero]; congr 1; omega
      _ ≤ 2 ^ ((num.log2 : Int) - den.log2 + 1) * den := by gcongr

/-- A whole quotient is below a bound exactly when the fraction is. -/
theorem quotient_lt_iff {n d : Nat} (hd : 0 < d) (bound : Nat) :
    n / d < bound ↔ (n : ℚ) / d < bound := by
  have hpos : (0 : ℚ) < d := by exact_mod_cast hd
  rw [Nat.div_lt_iff_lt_mul hd, div_lt_iff₀ hpos]
  exact_mod_cast Iff.rfl

/-- A fraction lies in the range of the exponent that `exponentFor` gives. -/
theorem exponentFor_grid {num den : Nat} (hnum : num ≠ 0) (hden : 0 < den) :
    Grid ((num : ℚ) / den) (exponentFor num den) := by
  obtain ⟨hlow, hhigh⟩ := fraction_bounds hnum hden
  -- The guess is at most one too small; the quotient in its units tells.
  have key : ∃ e : Int, exponentFor num den = max e leastExponent ∧
      (num : ℚ) / den < 2 ^ (e + 53) ∧ (2 : ℚ) ^ (e + 52) ≤ num / den := by
    set guess : Int := (num.log2 : Int) - (den.log2 : Int) - precision with hguess
    have hp : (precision : Int) = 53 := rfl
    obtain ⟨hd, hu⟩ := inUnits_spec num guess hden
    have hunit : (0 : ℚ) < 2 ^ guess := by positivity
    have hsmall : (inUnits num den guess).1 / (inUnits num den guess).2 < Nat.pow 2 precision ↔
        (num : ℚ) / den < 2 ^ (guess + 53) := by
      rw [quotient_lt_iff hd, ← hu, add_comm, zpow_add₀ two_ne_zero, mul_lt_mul_iff_left₀ hunit]
      norm_num [precision]
    by_cases hq : (inUnits num den guess).1 / (inUnits num den guess).2 < Nat.pow 2 precision
    · refine ⟨guess, ?_, hsmall.mp hq, ?_⟩
      · simp only [exponentFor, ← hguess, if_pos hq]
      · exact le_of_lt (lt_of_le_of_lt (zpow_two_le (by omega)) hlow)
    · refine ⟨guess + 1, ?_, ?_, ?_⟩
      · simp only [exponentFor, ← hguess, if_neg hq]
      · exact lt_of_lt_of_le hhigh (zpow_two_le (by omega))
      · rw [show guess + 1 + 52 = guess + 53 by ring]
        exact not_lt.mp fun h => hq (hsmall.mpr h)
  obtain ⟨e, he, hbelow, hfull⟩ := key
  rw [he]
  refine ⟨le_max_right _ _, lt_of_lt_of_le hbelow (zpow_two_le (by omega)), ?_⟩
  rcases le_total leastExponent e with h | h
  · exact .inr (by rwa [max_eq_left h])
  · exact .inl (max_eq_right h)

/-! ## The rounding -/

/-- A quotient that is half of one away from the fraction is rounded to an even number. -/
theorem even_roundQuotient (n : Nat) {d : Nat} (hd : 0 < d)
    (h : |(roundQuotient n d : ℚ) - n / d| = 1 / 2) : Even (roundQuotient n d) := by
  have hpos : (0 : ℚ) < d := by exact_mod_cast hd
  have hhalf : 2 * n = 2 * (roundQuotient n d * d) + d ∨
      2 * (roundQuotient n d * d) = 2 * n + d := by
    have hdiv : (n : ℚ) / d * d = n := div_mul_cancel₀ _ hpos.ne'
    rcases eq_or_eq_neg_of_abs_eq h with h | h
    · right
      have : 2 * ((roundQuotient n d : ℚ) * d) = 2 * n + d := by
        rw [← hdiv]
        linear_combination 2 * d * h
      exact_mod_cast this
    · left
      have : 2 * (n : ℚ) = 2 * (roundQuotient n d * d) + d := by
        rw [← hdiv]
        linear_combination -2 * d * h
      exact_mod_cast this
  have hdm := Nat.div_add_mod' n d
  revert hhalf
  unfold roundQuotient
  dsimp only
  split_ifs with hbelow habove heven
  · intro hhalf
    omega
  · rw [Nat.add_mul]
    intro hhalf
    have := Nat.mod_lt n hd
    omega
  · exact fun _ => Nat.even_iff.mpr heven
  · exact fun _ => Nat.even_add_one.mpr (mt Nat.even_iff.mp heven)

/-- A rounded quotient is at most half of one away from the fraction. -/
theorem roundQuotient_dist (n : Nat) {d : Nat} (hd : 0 < d) :
    |(roundQuotient n d : ℚ) - n / d| ≤ 1 / 2 := by
  obtain ⟨hle, hge⟩ := roundQuotient_near n d hd
  have hpos : (0 : ℚ) < d := by exact_mod_cast hd
  have hle' : 2 * ((roundQuotient n d : ℚ) * d) ≤ 2 * n + d := by exact_mod_cast hle
  have hge' : 2 * (n : ℚ) ≤ 2 * (roundQuotient n d * d) + d := by exact_mod_cast hge
  have hdiv : (n : ℚ) / d * d = n := div_mul_cancel₀ _ hpos.ne'
  rw [abs_le]
  constructor <;> nlinarith

/-- What a fraction is rounded to: a multiple of its unit at most half a unit away, the even one of
two that are that far, or infinity. -/
theorem ofFraction_rounds {num den : Nat} (hnum : num ≠ 0) (hden : 0 < den) :
    ∃ (m : Nat) (e : Int), Grid ((num : ℚ) / den) e ∧ m ≤ 2 ^ 53 ∧
      |(m : ℚ) * 2 ^ e - num / den| ≤ 2 ^ e / 2 ∧
      (|(m : ℚ) * 2 ^ e - num / den| = 2 ^ e / 2 → Even m) ∧
      ((ofFraction num den).value? = some ((m : ℚ) * 2 ^ e) ∨
        ofFraction num den = .infinite ∧ (2 : ℚ) ^ (1023 : Int) ≤ num / den) := by
  set e := exponentFor num den with he
  set m := roundQuotient (inUnits num den e).1 (inUnits num den e).2 with hm
  have hgrid : Grid ((num : ℚ) / den) e := exponentFor_grid hnum hden
  obtain ⟨hd, hu⟩ := inUnits_spec num e hden
  have hunit : (0 : ℚ) < 2 ^ e := by positivity
  have hnear := roundQuotient_dist (inUnits num den e).1 hd
  rw [← hm] at hnear
  have hdist : |(m : ℚ) * 2 ^ e - num / den| ≤ 2 ^ e / 2 := by
    rw [← hu, ← sub_mul, abs_mul, abs_of_pos hunit]
    calc _ ≤ 1 / 2 * (2 : ℚ) ^ e := by gcongr
      _ = 2 ^ e / 2 := by ring
  have heven : |(m : ℚ) * 2 ^ e - num / den| = 2 ^ e / 2 → Even m := by
    intro h
    rw [← hu, ← sub_mul, abs_mul, abs_of_pos hunit] at h
    exact even_roundQuotient _ hd (mul_right_cancel₀ hunit.ne' (h.trans (by ring)))
  have hmle : m ≤ 2 ^ 53 := by
    have hlt : ((inUnits num den e).1 : ℚ) / (inUnits num den e).2 < 2 ^ 53 := by
      have h := hgrid.below
      rw [← hu, add_comm, zpow_add₀ two_ne_zero] at h
      exact_mod_cast (mul_lt_mul_iff_left₀ hunit).mp h
    have hm1 : (m : ℚ) < 2 ^ 53 + 1 := by
      have := (abs_le.mp hnear).2
      linarith
    exact Nat.lt_succ_iff.mp (by exact_mod_cast hm1)
  refine ⟨m, e, hgrid, hmle, hdist, heven, ?_⟩
  -- Past the greatest exponent the mantissa is full, so the fraction is large.
  have hlarge : greatestExponent ≤ e → (2 : ℚ) ^ (1023 : Int) ≤ num / den := by
    intro h
    simp only [greatestExponent] at h
    rcases hgrid.full with hleast | hfull
    · simp only [leastExponent] at hleast
      omega
    · exact (zpow_two_le (by omega)).trans hfull
  have hof : ofFraction num den =
      if m = 2 ^ 53 then
        if greatestExponent < e + 1 then .infinite else .finite (2 ^ 52) (e + 1)
      else if greatestExponent < e then .infinite else .finite m e := by
    simp only [ofFraction, if_neg hnum, ← he, ← hm, precision]
    by_cases h : m = Nat.pow 2 53
    · rw [if_pos h, if_pos (show m = 2 ^ 53 from h)]
      rfl
    · rw [if_neg h, if_neg (show ¬m = 2 ^ 53 from h)]
  rw [hof]
  by_cases hfull : m = 2 ^ 53
  · rw [if_pos hfull]
    split
    · exact .inr ⟨rfl, hlarge (by omega)⟩
    · left
      rw [value?_finite, hfull, zpow_add_one₀ two_ne_zero]
      congr 1
      push_cast
      ring
  · rw [if_neg hfull]
    split
    · exact .inr ⟨rfl, hlarge (by omega)⟩
    · exact .inl rfl

/-- A whole number of units within half a unit of a whole number of units is that number. -/
theorem nat_eq_of_near {m k : Nat} {u : ℚ} (hu : 0 < u)
    (h : |(m : ℚ) * u - k * u| ≤ u / 2) : m = k := by
  rw [← sub_mul, abs_mul, abs_of_pos hu] at h
  have h1 : |(m : ℚ) - k| ≤ 1 / 2 := by
    have h2 : |(m : ℚ) - k| * u ≤ 1 / 2 * u := by linarith
    exact le_of_mul_le_mul_right h2 hu
  have h3 : |(m : ℤ) - k| < 1 := by
    have h4 : |(m : ℚ) - k| < 1 := by linarith
    exact_mod_cast h4
  have := Int.abs_lt_one_iff.mp h3
  omega

/-- A multiple of a greater unit is one of a smaller unit. -/
theorem exists_multiple (M : Nat) {E e : Int} (h : e ≤ E) :
    ∃ k : Nat, (M : ℚ) * 2 ^ E = k * 2 ^ e := by
  refine ⟨M * 2 ^ (E - e).toNat, ?_⟩
  have hs : (2 : ℚ) ^ E = ((2 ^ (E - e).toNat : Nat) : ℚ) * 2 ^ e := by
    rw [← zpow_of_nonneg (by omega), ← zpow_add₀ two_ne_zero]
    congr 1
    omega
  rw [hs]
  push_cast
  ring

/-- A number with a mantissa of full precision or less is a multiple of its unit. -/
theorem Grid.multiple {M : Nat} {E e : Int} (hg : Grid ((M : ℚ) * 2 ^ E) e)
    (hM : M ≤ 2 ^ 53) (hE : leastExponent ≤ E) : ∃ k : Nat, (M : ℚ) * 2 ^ E = k * 2 ^ e := by
  rcases le_or_gt e E with h | h
  · exact exists_multiple M h
  · -- Only the full power of two lies in the range of a greater exponent.
    have hM' : (M : ℚ) ≤ 2 ^ (53 : Int) := by exact_mod_cast hM
    have hunit : (0 : ℚ) < 2 ^ E := by positivity
    have hfull : (2 : ℚ) ^ (e + 52) ≤ M * 2 ^ E := by
      rcases hg.full with hl | hf
      · omega
      · exact hf
    have hnext : e = E + 1 := by
      have hle : (2 : ℚ) ^ (e + 52) ≤ 2 ^ (E + 53) := by
        calc (2 : ℚ) ^ (e + 52) ≤ M * 2 ^ E := hfull
          _ ≤ 2 ^ (53 : Int) * 2 ^ E := by gcongr
          _ = 2 ^ (E + 53) := by rw [← zpow_add₀ two_ne_zero]; congr 1; omega
      have := le_of_zpow_two_le hle
      omega
    subst hnext
    have hge : (2 : ℚ) ^ (53 : Int) * 2 ^ E ≤ M * 2 ^ E := by
      rw [← zpow_add₀ two_ne_zero]
      exact (zpow_two_le (by omega)).trans hfull
    have hMeq : (M : ℚ) = 2 ^ (53 : Int) := le_antisymm hM' (le_of_mul_le_mul_right hge hunit)
    refine ⟨2 ^ 52, ?_⟩
    rw [hMeq, zpow_add_one₀ two_ne_zero]
    push_cast
    ring

/-- A fraction that the format holds is kept exactly. -/
theorem ofFraction_exact {num den M : Nat} {E : Int} (hnum : num ≠ 0) (hden : 0 < den)
    (hx : (num : ℚ) / den = M * 2 ^ E) (hM : M ≤ 2 ^ 53) (hE : leastExponent ≤ E)
    (hsmall : (num : ℚ) / den < 2 ^ (1023 : Int)) :
    (ofFraction num den).value? = some ((num : ℚ) / den) := by
  obtain ⟨m, e, hg, -, hdist, -, hv⟩ := ofFraction_rounds hnum hden
  obtain ⟨k, hk⟩ := (hx ▸ hg).multiple hM hE
  rw [hx, hk] at hdist
  obtain rfl := nat_eq_of_near (by positivity) hdist
  rcases hv with hv | ⟨-, hlarge⟩
  · rw [hv, hx, hk]
  · exact absurd hsmall (not_lt.mpr hlarge)

/-- A whole number of more than 53 bits becomes the nearest multiple of the last bit it keeps. -/
theorem ofFraction_whole {q : Nat} (hlarge : 2 ^ 53 < q) (hsmall : (q : ℚ) < 2 ^ (1023 : Int)) :
    ∃ m j : Nat, m ≤ 2 ^ 53 ∧ (ofFraction q 1).value? = some ((m * 2 ^ j : Nat) : ℚ) ∧
      2 ^ (j + 52) ≤ q ∧ q < 2 ^ (j + 53) ∧
      2 * (m * 2 ^ j) ≤ 2 * q + 2 ^ j ∧ 2 * q ≤ 2 * (m * 2 ^ j) + 2 ^ j := by
  obtain ⟨m, e, hg, hm, hdist, -, hv⟩ := ofFraction_rounds (show q ≠ 0 by omega) Nat.one_pos
  rw [Nat.cast_one, div_one] at hg hdist hv
  have he : 0 < e := by
    have : (2 : ℚ) ^ (53 : Int) < 2 ^ (e + 53) := lt_trans (by exact_mod_cast hlarge) hg.below
    have := lt_of_zpow_two_lt this
    omega
  obtain ⟨j, rfl⟩ := Int.eq_ofNat_of_zero_le he.le
  have hfull : (2 : ℚ) ^ ((j : Int) + 52) ≤ q := by
    rcases hg.full with h | h
    · simp only [leastExponent] at h
      omega
    · exact h
  have hvalue : (ofFraction q 1).value? = some ((m : ℚ) * 2 ^ (j : Int)) := by
    rcases hv with hv | ⟨-, hinf⟩
    · exact hv
    · exact absurd hsmall (not_lt.mpr hinf)
  obtain ⟨hneg, hpos⟩ := abs_le.mp hdist
  rw [zpow_natCast] at hneg hpos
  have hup : 2 * ((m : ℚ) * 2 ^ j) ≤ 2 * q + 2 ^ j := by linarith
  have hdown : 2 * (q : ℚ) ≤ 2 * (m * 2 ^ j) + 2 ^ j := by linarith
  refine ⟨m, j, hm, ?_, by exact_mod_cast hfull, by exact_mod_cast hg.below,
    by exact_mod_cast hup, by exact_mod_cast hdown⟩
  rw [hvalue, zpow_natCast]
  push_cast
  rfl

end MediaShelf.Text.Binary64
