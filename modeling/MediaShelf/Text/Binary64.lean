/-!
Double-precision numbers, read from decimal text in exact arithmetic: the value is the nearest
number of the form `mantissa * 2 ^ exponent` that the format holds, a tie going to the even
mantissa. Only what is not negative occurs here.
-/

namespace MediaShelf.Text

/-- A double-precision number that is not negative: `mantissa * 2 ^ exponent`, or infinity. -/
inductive Binary64 where
  | finite (mantissa : Nat) (exponent : Int)
  | infinite
  deriving DecidableEq, Repr

namespace Binary64

/-- The bits of a mantissa. -/
def precision : Nat := 53

/-- The least exponent of a mantissa's last bit. -/
def leastExponent : Int := -1074

/-- The greatest exponent of a mantissa's last bit. -/
def greatestExponent : Int := 971

/-- The quotient nearest to `num / den`; a tie goes to the even one. -/
def roundQuotient (num den : Nat) : Nat :=
  let q := num / den
  let r := num % den
  if 2 * r < den then q
  else if den < 2 * r then q + 1
  else if q % 2 = 0 then q else q + 1

/-- `num / den` measured in units of `2 ^ exponent`, as a fraction. -/
def inUnits (num den : Nat) (exponent : Int) : Nat × Nat :=
  if 0 ≤ exponent then (num, den * Nat.pow 2 exponent.toNat)
  else (num * Nat.pow 2 (-exponent).toNat, den)

/-- The exponent at which `num / den` has a mantissa of full precision, or the least exponent if
that is greater. -/
def exponentFor (num den : Nat) : Int :=
  let guess : Int := (num.log2 : Int) - (den.log2 : Int) - precision
  let (n, d) := inUnits num den guess
  max (if n / d < Nat.pow 2 precision then guess else guess + 1) leastExponent

/-- The number nearest to `num / den`. -/
def ofFraction (num den : Nat) : Binary64 :=
  if num = 0 then .finite 0 leastExponent
  else
    let exponent := exponentFor num den
    let (n, d) := inUnits num den exponent
    let mantissa := roundQuotient n d
    let (mantissa, exponent) :=
      if mantissa = Nat.pow 2 precision then (Nat.pow 2 (precision - 1), exponent + 1) else (mantissa, exponent)
    if greatestExponent < exponent then .infinite else .finite mantissa exponent

/-- The number times `2 ^ k`. The product is exact; one that the format does not hold keeps its
exact value here. -/
def scale (k : Nat) : Binary64 → Binary64
  | .infinite => .infinite
  | .finite m e => .finite m (e + k)

/-- The whole part of a finite number. -/
def floor : Binary64 → Option Nat
  | .infinite => none
  | .finite m e => some (if 0 ≤ e then m * Nat.pow 2 e.toNat else m / Nat.pow 2 (-e).toNat)

/-- Whether a number is greater than a whole number that the format holds. -/
def exceeds (limit : Nat) : Binary64 → Bool
  | .infinite => true
  | .finite m e => if 0 ≤ e then limit < m * Nat.pow 2 e.toNat else limit * Nat.pow 2 (-e).toNat < m

/-- The twice rounding error of `roundQuotient` is at most the divisor. -/
theorem roundQuotient_near (num den : Nat) (h : 0 < den) :
    2 * (roundQuotient num den * den) ≤ 2 * num + den ∧
      2 * num ≤ 2 * (roundQuotient num den * den) + den := by
  have hdm := Nat.div_add_mod num den
  have hr := Nat.mod_lt num h
  have hc : num / den * den = den * (num / den) := Nat.mul_comm _ _
  unfold roundQuotient
  dsimp only
  split
  · omega
  · split
    · rw [Nat.add_mul]; omega
    · split
      · omega
      · rw [Nat.add_mul]; omega

end Binary64

/-- Digits before and after a decimal point, as a numerator and a power of ten below it; `none`
unless there is a digit and at most one point. -/
def decimalFraction? (s : List Char) : Option (Nat × Nat) :=
  let whole := s.takeWhile (· ≠ '.')
  let places := (s.dropWhile (· ≠ '.')).drop 1
  if whole.isEmpty && places.isEmpty then none
  else
    (whole ++ places).foldl
      (fun value? c => match value?, digitOf? c with
        | some v, some d => some (v * 10 + d)
        | _, _ => none)
      (some 0) |>.map (·, Nat.pow 10 places.length)
where
  digitOf? (c : Char) : Option Nat :=
    if '0' ≤ c ∧ c ≤ '9' then some (c.toNat - '0'.toNat) else none

/-- The number that a decimal text without sign and exponent stands for. -/
def binary64? (s : List Char) : Option Binary64 :=
  (decimalFraction? s).map fun (num, den) => Binary64.ofFraction num den

end MediaShelf.Text
