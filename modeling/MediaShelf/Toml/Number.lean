import MediaShelf.Toml.Scan
import MediaShelf.Toml.Value

/-!
Numbers, dates and times in TOML documents. Each is a word: the characters up to the next blank or
mark of punctuation.
-/

namespace MediaShelf.Toml

/-- A character that ends a word. -/
def endsWord (c : Char) : Bool :=
  isBlank c || c = '\n' || c = '\r' || c = ',' || c = ']' || c = '\x7d' || c = '#'

/-- The greatest integer. -/
def greatestInteger : Int := Nat.pow 2 63 - 1

/-- The least integer. -/
def leastInteger : Int := -(Nat.pow 2 63 : Int)

/-- The value of digits in a base, between any two of which an underscore may stand. -/
def digitsValue? (base : Nat) (s : List Char) : Option Nat :=
  let rec go (value : Nat) (afterDigit : Bool) : List Char → Option Nat
    | [] => if afterDigit then some value else none
    | '_' :: rest => if afterDigit then go value false rest else none
    | c :: rest =>
      match hexDigit? c with
      | some d => if d < base then go (value * base + d) true rest else none
      | none => none
  go 0 false s

/-- A decimal number as whole numbers are written: without needless zeros in front. -/
def wholeValue? (s : List Char) : Option Nat :=
  match s with
  | '0' :: _ :: _ => none
  | _ => digitsValue? 10 s

/-- The sign in front, and the rest. -/
def splitSign : List Char → Bool × List Char
  | '-' :: rest => (true, rest)
  | '+' :: rest => (false, rest)
  | s => (false, s)

/-- Reads an integer; it has 64 bits. -/
def integer? (word : List Char) : Option Int :=
  let value? : Option Int := match word with
    | '0' :: 'x' :: rest => (digitsValue? 16 rest).map Int.ofNat
    | '0' :: 'o' :: rest => (digitsValue? 8 rest).map Int.ofNat
    | '0' :: 'b' :: rest => (digitsValue? 2 rest).map Int.ofNat
    | _ =>
      let (negative, rest) := splitSign word
      (wholeValue? rest).map fun n => if negative then -(n : Int) else n
  value?.bind fun n => if leastInteger ≤ n ∧ n ≤ greatestInteger then some n else none

/-! ## Floats -/

/-- Whether `digits` times ten to the `exponent` is beyond the greatest number in double precision,
and so far that it is not rounded back to it. -/
def exceedsDouble (digits : Nat) (exponent : Int) : Bool :=
  let bound := Nat.pow 2 1024 - Nat.pow 2 970
  let length := (Nat.toDigits 10 digits).length
  if digits = 0 then false
  else if 400 < (length : Int) + exponent then true
  else if (length : Int) + exponent < 300 then false
  else if 0 ≤ exponent then decide (bound ≤ digits * Nat.pow 10 exponent.toNat)
  else decide (bound * Nat.pow 10 (-exponent).toNat ≤ digits)

/-- The digits of a text, without underscores. -/
def bareDigits (s : List Char) : List Char := s.filter (· ≠ '_')

/-- The number that plain digits stand for. -/
def plainValue (s : List Char) : Nat := s.foldl (fun n c => n * 10 + (c.toNat - '0'.toNat)) 0

/-- Whether a text has the form of digits with underscores only between them. -/
def isDigits (s : List Char) : Bool := (digitsValue? 10 s).isSome

/-- Whether a word is a float. A number beyond double precision is none, unless it is negative. -/
def isFloat (word : List Char) : Bool :=
  let (negative, s) := splitSign word
  if s = ['i', 'n', 'f'] ∨ s = ['n', 'a', 'n'] then true
  else
    let isMark (c : Char) : Bool := c = 'e' || c = 'E'
    let mantissa := s.takeWhile fun c => ! isMark c
    let power := (s.drop mantissa.length).drop 1
    let (negativePower, powerDigits) := splitSign power
    let whole := mantissa.takeWhile (· ≠ '.')
    let fraction := (mantissa.drop whole.length).drop 1
    let hasPower := mantissa.length < s.length
    let hasFraction := whole.length < mantissa.length
    if ! (hasPower || hasFraction) then false
    else if (wholeValue? whole).isNone then false
    else if hasFraction && ! isDigits fraction then false
    else if hasPower && ! isDigits powerDigits then false
    else
      let fraction := bareDigits fraction
      let digits := plainValue (bareDigits whole ++ fraction)
      let power : Int := plainValue (bareDigits powerDigits)
      let exponent := (if negativePower then -power else power) - fraction.length
      negative || ! exceedsDouble digits exponent

/-! ## Dates and times -/

/-- The number that exactly `count` digits in front stand for, and the rest. -/
def fixedDigits? (count : Nat) (s : List Char) : Option (Nat × List Char) :=
  let digits := s.take count
  if digits.length = count ∧ digits.all Char.isDigit then
    some (plainValue digits, s.drop count)
  else none

/-- The number of days of a month, in a given year. -/
def daysOfMonth (year month : Nat) : Nat :=
  if month = 2 then
    if year % 4 = 0 ∧ (year % 100 ≠ 0 ∨ year % 400 = 0) then 29 else 28
  else if month = 4 ∨ month = 6 ∨ month = 9 ∨ month = 11 then 30 else 31

/-- The rest after a date. -/
def date? (s : List Char) : Option (List Char) :=
  match fixedDigits? 4 s with
  | some (year, '-' :: rest) =>
    match fixedDigits? 2 rest with
    | some (month, '-' :: rest) =>
      match fixedDigits? 2 rest with
      | some (day, rest) =>
        if 1 ≤ month ∧ month ≤ 12 ∧ 1 ≤ day ∧ day ≤ daysOfMonth year month then some rest
        else none
      | none => none
    | _ => none
  | _ => none

/-- The rest after hours and minutes. -/
def hourMinute? (s : List Char) : Option (List Char) :=
  match fixedDigits? 2 s with
  | some (hour, ':' :: rest) =>
    match fixedDigits? 2 rest with
    | some (minute, rest) => if hour ≤ 23 ∧ minute ≤ 59 then some rest else none
    | none => none
  | _ => none

/-- The rest after a fraction of a second, if there is one. -/
def skipFraction? : List Char → Option (List Char)
  | '.' :: rest =>
    let digits := rest.takeWhile Char.isDigit
    if digits = [] then none else some (rest.drop digits.length)
  | s => some s

/-- The rest after a time of day. -/
def time? (s : List Char) : Option (List Char) :=
  match hourMinute? s with
  | some (':' :: rest) =>
    match fixedDigits? 2 rest with
    | some (second, rest) => if second ≤ 60 then skipFraction? rest else none
    | none => none
  | _ => none

/-- The rest after a distance from universal time, if there is one. -/
def skipOffset? : List Char → Option (List Char)
  | 'Z' :: rest => some rest
  | 'z' :: rest => some rest
  | '+' :: rest => hourMinute? rest
  | '-' :: rest => hourMinute? rest
  | s => some s

/-- Whether a text is a time of day with perhaps a distance from universal time. -/
def isOffsetTime (s : List Char) : Bool := (time? s).bind skipOffset? == some []

/-- Whether a word is a date, a time, or both with a letter between them. -/
def isMoment (word : List Char) : Bool :=
  match date? word with
  | some [] => true
  | some (c :: rest) => (c = 'T' || c = 't') && isOffsetTime rest
  | none => time? word == some []

/-- Whether a word is a date alone. -/
def isDate (word : List Char) : Bool := date? word == some []

/-- Reads a number, a date or a time. A date may be followed by a blank and a time. -/
def word? (s : List Char) : Option (Value × List Char) :=
  let word := s.takeWhile fun c => ! endsWord c
  let rest := s.drop word.length
  if isDate word then
    match rest with
    | ' ' :: more =>
      let time := more.takeWhile fun c => ! endsWord c
      if isOffsetTime time then some (.moment, more.drop time.length) else some (.moment, rest)
    | _ => some (.moment, rest)
  else if isMoment word then some (.moment, rest)
  else
    match integer? word with
    | some n => some (.integer n, rest)
    | none => if isFloat word then some (.float, rest) else none

end MediaShelf.Toml
