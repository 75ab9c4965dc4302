/-!
Whole numbers written in decimal, read up to a greatest value. A plus sign may stand in front.
Reading goes from left to right, so of two faults the one further left is the one reported.
-/

namespace MediaShelf.Text

/-- The greatest 64-bit word. -/
def word64Max : Nat := Nat.pow 2 64 - 1

/-- The greatest 16-bit word. -/
def word16Max : Nat := Nat.pow 2 16 - 1

/-- Why a text is not a whole number in range. -/
inductive UnsignedError where
  | empty
  | invalidDigit
  | tooLarge
  deriving DecidableEq, Repr

/-- The wording of an unreadable number. -/
def UnsignedError.message : UnsignedError → String
  | .empty => "cannot parse integer from empty string"
  | .invalidDigit => "invalid digit found in string"
  | .tooLarge => "number too large to fit in target type"

/-- The value of a decimal digit. -/
def digitValue? (c : Char) : Option Nat :=
  if '0' ≤ c ∧ c ≤ '9' then some (c.toNat - '0'.toNat) else none

/-- Reads digits onto the value read so far, refusing whatever passes `limit`. -/
def readDigits (limit : Nat) : Nat → List Char → Except UnsignedError Nat
  | value, [] => .ok value
  | value, c :: rest =>
    match digitValue? c with
    | none => .error .invalidDigit
    | some d =>
      if value * 10 + d ≤ limit then readDigits limit (value * 10 + d) rest
      else .error .tooLarge

/-- Reads a whole number that is at most `limit`. -/
def parseUnsigned (limit : Nat) : List Char → Except UnsignedError Nat
  | [] => .error .empty
  | ['+'] => .error .invalidDigit
  | ['-'] => .error .invalidDigit
  | '+' :: rest => readDigits limit 0 rest
  | s => readDigits limit 0 s

/-- Reads a whole number that is at most `limit`, if there is one. -/
def unsigned? (limit : Nat) (s : List Char) : Option Nat := (parseUnsigned limit s).toOption

theorem readDigits_le {limit v n : Nat} {s : List Char} (hv : v ≤ limit)
    (h : readDigits limit v s = .ok n) : n ≤ limit := by
  induction s generalizing v with
  | nil => simp only [readDigits, Except.ok.injEq] at h; omega
  | cons c r ih =>
    unfold readDigits at h
    split at h
    · cases h
    · split at h
      · exact ih (by assumption) h
      · cases h

/-- A number that was read is within the limit. -/
theorem parseUnsigned_le {limit n : Nat} {s : List Char}
    (h : parseUnsigned limit s = .ok n) : n ≤ limit := by
  unfold parseUnsigned at h
  split at h <;> first | cases h | exact readDigits_le (Nat.zero_le _) h

theorem unsigned?_le {limit n : Nat} {s : List Char} (h : unsigned? limit s = some n) :
    n ≤ limit := by
  unfold unsigned? at h
  cases hp : parseUnsigned limit s with
  | error e => simp [hp, Except.toOption] at h
  | ok v =>
    simp only [hp, Except.toOption, Option.some.injEq] at h
    exact h ▸ parseUnsigned_le hp

end MediaShelf.Text
