import MediaShelf.Proofs.Text.Rounding

/-!
Rounding to double precision, said without the algorithm: of the numbers that the format holds
(`Held`) the nearest one, and of two that are equally near the even one (`RoundsTo`). There is one
such number (`RoundsTo.unique`), and `Binary64.ofFraction` finds it (`ofFraction_roundsTo`). It is a
`2^53`th off at most, far from the least numbers (`RoundsTo.near`), and it passes a power of two
only if the number that was rounded does so by half a unit (`RoundsTo.le_zpow_iff`).
-/

namespace MediaShelf.Text.Binary64

/-- A number with a mantissa of 53 bits whose last bit is not below the least exponent. No exponent
is too great here. -/
def Held (y : ℚ) : Prop :=
  ∃ (m : Nat) (e : Int), m < 2 ^ 53 ∧ leastExponent ≤ e ∧ y = m * 2 ^ e

/-- The number `y` is `x` rounded: no other is nearer, and if another is as near then `y` is an even
multiple of the distance between the two. -/
structure RoundsTo (x y : ℚ) : Prop where
  held : Held y
  nearest : ∀ z, Held z → |y - x| ≤ |z - x|
  even : ∀ z, Held z → z ≠ y → |z - x| = |y - x| → ∃ k : Nat, y = 2 * k * |z - y|

theorem held_of_le {m : Nat} {e : Int} (hm : m ≤ 2 ^ 53) (he : leastExponent ≤ e) :
    Held (m * 2 ^ e) := by
  rcases Nat.lt_or_eq_of_le hm with hlt | rfl
  · exact ⟨m, e, hlt, he, rfl⟩
  · refine ⟨2 ^ 52, e + 1, by decide, by omega, ?_⟩
    rw [zpow_add_one₀ two_ne_zero]
    push_cast
    ring

theorem held_zero : Held 0 := ⟨0, leastExponent, by decide, le_rfl, by simp⟩

theorem held_zpow {b : Int} (hb : leastExponent ≤ b) : Held (2 ^ b) := by
  simpa using held_of_le (by decide : 1 ≤ 2 ^ 53) hb

namespace RoundsTo

variable {x y z : ℚ}

/-- Two even multiples of their own distance are the same number. -/
theorem unique (hy : RoundsTo x y) (hz : RoundsTo x z) : y = z := by
  by_contra hne
  have hdist : |z - x| = |y - x| := le_antisymm (hz.nearest y hy.held) (hy.nearest z hz.held)
  obtain ⟨k, hk⟩ := hy.even z hz.held (Ne.symm hne) hdist
  obtain ⟨l, hl⟩ := hz.even y hy.held hne hdist.symm
  rw [abs_sub_comm] at hl
  have hd : 0 < |z - y| := abs_pos.mpr (sub_ne_zero.mpr (Ne.symm hne))
  have hkl : |2 * (l : ℚ) - 2 * k| = 1 := by
    have h : |2 * (l : ℚ) - 2 * k| * |z - y| = 1 * |z - y| := by
      rw [← abs_of_pos hd, ← abs_mul, abs_of_pos hd, sub_mul, ← hl, ← hk, one_mul]
    exact mul_right_cancel₀ hd.ne' h
  have hkl' : |2 * (l : ℤ) - 2 * k| = 1 := by exact_mod_cast hkl
  rcases eq_or_eq_neg_of_abs_eq hkl' with h | h <;> omega

/-- A number that the format holds is rounded to itself. -/
theorem eq_of_held (h : RoundsTo x y) (hx : Held x) : y = x := by
  have hle := h.nearest x hx
  rw [sub_self, abs_zero] at hle
  exact sub_eq_zero.mp (abs_nonpos_iff.mp hle)

/-- Rounding does not pass a number that the format holds. -/
theorem le_of_held_le (h : RoundsTo x y) (hz : Held z) (hle : z ≤ x) : z ≤ y := by
  by_contra hlt
  have hnear := h.nearest z hz
  rw [abs_of_nonpos (by linarith), abs_of_nonpos (by linarith)] at hnear
  linarith

theorem nonneg (h : RoundsTo x y) (hx : 0 ≤ x) : 0 ≤ y := h.le_of_held_le held_zero hx

theorem le_held_of_le (h : RoundsTo x y) (hz : Held z) (hle : x ≤ z) : y ≤ z := by
  by_contra hlt
  have hnear := h.nearest z hz
  rw [abs_of_nonneg (by linarith), abs_of_nonneg (by linarith)] at hnear
  linarith

end RoundsTo

/-! ## The multiple of a unit that is nearest -/

/-- Two different multiples of a unit are a unit or more apart. -/
theorem unit_le_dist {k m : Nat} {u : ℚ} (hu : 0 < u) (hne : k ≠ m) :
    u ≤ |(k : ℚ) * u - m * u| := by
  rw [← sub_mul, abs_mul, abs_of_pos hu]
  have h : (1 : ℤ) ≤ |(k : ℤ) - m| := Int.one_le_abs (by omega)
  have h' : (1 : ℚ) ≤ |(k : ℚ) - m| := by exact_mod_cast h
  exact le_mul_of_one_le_left hu.le h'

/-- A number of the format that is no multiple of the unit lies below the full mantissas. -/
theorem Grid.held_cases {x z : ℚ} {e : Int} (hg : Grid x e) (hz : Held z) :
    (∃ k : Nat, z = k * 2 ^ e) ∨ z < 2 ^ (e + 52) ∧ (2 : ℚ) ^ (e + 52) ≤ x := by
  obtain ⟨m, E, hm, hE, rfl⟩ := hz
  rcases le_or_gt e E with h | h
  · exact .inl (exists_multiple m h)
  · right
    have hm' : (m : ℚ) < 2 ^ (53 : Int) := by exact_mod_cast hm
    have hunit : (0 : ℚ) < 2 ^ E := by positivity
    refine ⟨?_, hg.full.resolve_left (by omega)⟩
    calc (m : ℚ) * 2 ^ E < 2 ^ (53 : Int) * 2 ^ E := by gcongr
      _ = 2 ^ (E + 53) := by rw [← zpow_add₀ two_ne_zero, add_comm]
      _ ≤ 2 ^ (e + 52) := zpow_two_le (by omega)

/-- A multiple of the unit that is half a unit away at most is what a number is rounded to. -/
theorem Grid.roundsTo {x : ℚ} {m : Nat} {e : Int} (hg : Grid x e) (hm : m ≤ 2 ^ 53)
    (hdist : |(m : ℚ) * 2 ^ e - x| ≤ 2 ^ e / 2)
    (heven : |(m : ℚ) * 2 ^ e - x| = 2 ^ e / 2 → Even m) : RoundsTo x (m * 2 ^ e) := by
  have hunit : (0 : ℚ) < 2 ^ e := by positivity
  have hmultiple : ∀ k : Nat, k ≠ m → 2 ^ e / 2 ≤ |(k : ℚ) * 2 ^ e - x| := by
    intro k hk
    have happart := unit_le_dist hunit hk
    have htri := abs_sub_le ((k : ℚ) * 2 ^ e) x (m * 2 ^ e)
    rw [abs_sub_comm x] at htri
    linarith
  -- Below the full mantissas every number is further away than the least full one.
  have hbelow : ∀ z : ℚ, z < 2 ^ (e + 52) → (2 : ℚ) ^ (e + 52) ≤ x →
      |(m : ℚ) * 2 ^ e - x| < |z - x| := by
    intro z hz hx
    have hfull : (2 : ℚ) ^ (e + 52) = ((2 ^ 52 : Nat) : ℚ) * 2 ^ e := by
      rw [add_comm, zpow_add₀ two_ne_zero]
      norm_num
    have hlower : |(m : ℚ) * 2 ^ e - x| ≤ |2 ^ (e + 52) - x| := by
      rw [hfull]
      by_cases hk : 2 ^ 52 = m
      · rw [hk]
      · exact hdist.trans (hmultiple _ hk)
    rw [abs_of_nonpos (by linarith : (2 : ℚ) ^ (e + 52) - x ≤ 0)] at hlower
    rw [abs_of_nonpos (by linarith : z - x ≤ 0)]
    linarith
  refine ⟨held_of_le hm hg.least, fun z hz => ?_, fun z hz hne heq => ?_⟩
  · rcases hg.held_cases hz with ⟨k, rfl⟩ | ⟨hlt, hfull⟩
    · by_cases hk : k = m
      · rw [hk]
      · exact hdist.trans (hmultiple k hk)
    · exact (hbelow z hlt hfull).le
  · rcases hg.held_cases hz with ⟨k, rfl⟩ | ⟨hlt, hfull⟩
    · have hk : k ≠ m := fun h => hne (by rw [h])
      have hhalf : |(m : ℚ) * 2 ^ e - x| = 2 ^ e / 2 :=
        le_antisymm hdist (heq ▸ hmultiple k hk)
      have hapart : |(k : ℚ) * 2 ^ e - m * 2 ^ e| = 2 ^ e := by
        refine le_antisymm ?_ (unit_le_dist hunit hk)
        have htri := abs_sub_le ((k : ℚ) * 2 ^ e) x (m * 2 ^ e)
        rw [abs_sub_comm x] at htri
        linarith
      obtain ⟨j, hj⟩ := heven hhalf
      refine ⟨j, ?_⟩
      rw [hapart, hj]
      push_cast
      ring
    · exact absurd heq (hbelow z hlt hfull).ne'

/-! ## What a fraction becomes -/

/-- A fraction becomes the number that it is rounded to; one that becomes infinite is rounded to a
number of 1024 bits at least. -/
theorem ofFraction_roundsTo (num : Nat) {den : Nat} (hden : 0 < den) :
    ∃ y, RoundsTo ((num : ℚ) / den) y ∧
      ((ofFraction num den).value? = some y ∨
        ofFraction num den = .infinite ∧ (2 : ℚ) ^ (1023 : Int) ≤ y) := by
  rcases Nat.eq_zero_or_pos num with rfl | hnum
  · refine ⟨0, ⟨held_zero, fun z _ => by simp, fun z _ hne heq => ?_⟩, .inl (by simp [ofFraction])⟩
    rw [Nat.cast_zero, zero_div, sub_zero, sub_zero, abs_zero] at heq
    exact absurd (abs_eq_zero.mp heq) hne
  · obtain ⟨m, e, hg, hm, hdist, heven, hv⟩ := ofFraction_rounds hnum.ne' hden
    have hrounds := hg.roundsTo hm hdist heven
    refine ⟨_, hrounds, ?_⟩
    rcases hv with hv | ⟨hinf, hlarge⟩
    · exact .inl hv
    · exact .inr ⟨hinf, hrounds.le_of_held_le (held_zpow (by decide)) hlarge⟩

theorem exists_fraction {x : ℚ} (hx : 0 ≤ x) : ∃ num den : Nat, 0 < den ∧ x = num / den := by
  refine ⟨x.num.toNat, x.den, x.pos, ?_⟩
  have hnum : ((x.num.toNat : Int) : ℚ) = x.num := by
    rw [Int.toNat_of_nonneg (Rat.num_nonneg.mpr hx)]
  rw [← Int.cast_natCast x.num.toNat, hnum, Rat.num_div_den]

theorem exists_roundsTo {x : ℚ} (hx : 0 ≤ x) : ∃ y, RoundsTo x y := by
  obtain ⟨num, den, hden, rfl⟩ := exists_fraction hx
  obtain ⟨y, hy, -⟩ := ofFraction_roundsTo num hden
  exact ⟨y, hy⟩

/-- The error of rounding: a `2^53`th of the number, but for the least numbers. -/
theorem RoundsTo.near {x y : ℚ} (hx : 0 ≤ x) (h : RoundsTo x y) :
    |y - x| ≤ x / 2 ^ 53 ∨ x < 2 ^ (-1021 : Int) ∧ |y - x| ≤ 2 ^ (-1075 : Int) := by
  obtain ⟨num, den, hden, rfl⟩ := exists_fraction hx
  rcases Nat.eq_zero_or_pos num with rfl | hnum
  · left
    rw [Nat.cast_zero, zero_div] at h ⊢
    simp [h.eq_of_held held_zero]
  · obtain ⟨m, e, hg, hm, hdist, heven, -⟩ := ofFraction_rounds hnum.ne' hden
    rw [h.unique (hg.roundsTo hm hdist heven)]
    rcases hg.full with hleast | hfull
    · right
      have hbelow := hg.below
      rw [hleast] at hbelow hdist
      refine ⟨hbelow, ?_⟩
      rw [hleast, show (-1075 : Int) = leastExponent - 1 from rfl, zpow_sub_one₀ two_ne_zero,
        ← div_eq_mul_inv]
      exact hdist
    · left
      refine hdist.trans ?_
      rw [add_comm, zpow_add₀ two_ne_zero] at hfull
      rw [le_div_iff₀ (by positivity)]
      norm_num at hfull ⊢
      linarith

/-! ## Passing a power of two -/

/-- The format holds no number between a power of two and the next multiple of its last bit. -/
theorem Held.ge_of_gt_zpow {y : ℚ} {b : Int} (hy : Held y) (hlt : (2 : ℚ) ^ b < y) :
    (2 : ℚ) ^ b + 2 ^ (b - 52) ≤ y := by
  obtain ⟨m, e, hm, -, rfl⟩ := hy
  have hm' : (m : ℚ) < 2 ^ (53 : Int) := by exact_mod_cast hm
  have he : b - 52 ≤ e := by
    have hunit : (0 : ℚ) < 2 ^ e := by positivity
    have hupper : (2 : ℚ) ^ b < 2 ^ (e + 53) := by
      calc (2 : ℚ) ^ b < m * 2 ^ e := hlt
        _ ≤ 2 ^ (53 : Int) * 2 ^ e := by gcongr
        _ = 2 ^ (e + 53) := by rw [← zpow_add₀ two_ne_zero, add_comm]
    have := lt_of_zpow_two_lt hupper
    omega
  obtain ⟨k, hk⟩ := exists_multiple m he
  have hunit : (0 : ℚ) < 2 ^ (b - 52) := by positivity
  have hpower : (2 : ℚ) ^ b = ((2 ^ 52 : Nat) : ℚ) * 2 ^ (b - 52) := by
    have : (2 : ℚ) ^ b = 2 ^ (52 : Int) * 2 ^ (b - 52) := by
      rw [← zpow_add₀ two_ne_zero, add_sub_cancel]
    rw [this]
    norm_num
  rw [hk, hpower] at hlt ⊢
  have hlt' : 2 ^ 52 < k := by exact_mod_cast (mul_lt_mul_iff_left₀ hunit).mp hlt
  have hle : ((2 ^ 52 : Nat) : ℚ) + 1 ≤ k := by exact_mod_cast hlt'
  calc _ = (((2 ^ 52 : Nat) : ℚ) + 1) * 2 ^ (b - 52) := by ring
    _ ≤ k * 2 ^ (b - 52) := by gcongr

/-- What is rounded does not pass a power of two unless it is more than half a unit above it. -/
theorem RoundsTo.le_zpow_iff {x y : ℚ} {b : Int} (h : RoundsTo x y)
    (hb : leastExponent + 52 ≤ b) : y ≤ 2 ^ b ↔ x ≤ 2 ^ b + 2 ^ (b - 53) := by
  have hunit : (0 : ℚ) < 2 ^ (b - 53) := by positivity
  have htwo : (2 : ℚ) ^ (b - 52) = 2 * 2 ^ (b - 53) := by
    rw [← zpow_one_add₀ two_ne_zero]
    congr 1
    omega
  have hpower : (2 : ℚ) ^ b = 2 ^ 52 * 2 ^ (b - 52) := by
    rw [← zpow_natCast, ← zpow_add₀ two_ne_zero]
    congr 1
    push_cast
    omega
  have hheld : Held (2 ^ b) := held_zpow (by omega)
  have hnext : Held ((2 : ℚ) ^ b + 2 ^ (b - 52)) := by
    refine ⟨2 ^ 52 + 1, b - 52, by decide, by omega, ?_⟩
    rw [hpower]
    push_cast
    ring
  constructor
  · intro hle
    by_contra hgt
    have hnear := h.nearest _ hnext
    rcases abs_cases ((2 : ℚ) ^ b + 2 ^ (b - 52) - x) with ⟨habs, -⟩ | ⟨habs, -⟩ <;>
    · rw [abs_of_nonpos (by linarith), habs] at hnear
      linarith
  · intro hle
    by_contra hgt
    have hge := h.held.ge_of_gt_zpow (not_le.mp hgt)
    -- Both numbers beside `x` are half a unit away, and the upper one is odd.
    have hx : 2 ^ b ≤ x := by
      by_contra hlt
      exact hgt (h.le_held_of_le hheld (not_le.mp hlt).le)
    have hnear := h.nearest _ hheld
    rw [abs_of_nonneg (by linarith), abs_of_nonpos (by linarith)] at hnear
    have hy : y = 2 ^ b + 2 ^ (b - 52) := by linarith
    have hx' : x = 2 ^ b + 2 ^ (b - 53) := by linarith
    obtain ⟨k, hk⟩ := h.even _ hheld (by linarith) (by
      rw [abs_of_nonpos (by linarith), abs_of_nonneg (by linarith)]
      linarith)
    rw [hy, sub_add_cancel_left, abs_neg, abs_of_pos (by positivity), hpower] at hk
    have hk' : (2 : ℚ) ^ 52 + 1 = 2 * k := by
      refine mul_right_cancel₀ (zpow_ne_zero (b - 52) (two_ne_zero : (2 : ℚ) ≠ 0)) ?_
      linarith
    have : 2 ^ 52 + 1 = 2 * k := by exact_mod_cast hk'
    omega

end MediaShelf.Text.Binary64
