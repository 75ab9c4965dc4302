import MediaShelf.Text.Binary64
import MediaShelf.Text.Blank
import MediaShelf.Text.Capital
import MediaShelf.Text.Quoted
import MediaShelf.Text.Unsigned

/-!
Sizes in bytes, written with a unit: `10MB`, `512 kb`, `1.5GB`, `4096`. Units are powers of 1024.
A number without a unit is a whole number of bytes; with a unit it may have a fraction and is
read in double precision.
-/

namespace MediaShelf.Settings

open MediaShelf.Text

/-- A number of bytes. -/
structure ByteSize where
  bytes : Nat
  deriving DecidableEq, Repr

/-- The units from the largest on, each as a power of two. -/
def sizeUnits : List (String × Nat) := [("GB", 30), ("MB", 20), ("KB", 10), ("B", 0)]

/-- Why a text is not a size; each carries the text in capitals. -/
inductive ByteSizeError where
  | missingNumber (text : String)
  | badCount (text : String) (cause : UnsignedError)
  | unknownUnit (unit : String)
  | badNumber (text : String)
  | tooLarge (text : String)
  deriving DecidableEq, Repr

/-- The wording of an unreadable size. -/
def ByteSizeError.message : ByteSizeError → String
  | missingNumber text => "invalid byte size " ++ quoted text ++ ": missing number"
  | badCount text cause => "invalid byte size " ++ quoted text ++ ": " ++ cause.message
  | unknownUnit unit => "unknown unit " ++ quoted unit ++ " (expected B, KB, MB, GB)"
  | badNumber text => "invalid number in byte size " ++ quoted text ++ ": invalid float literal"
  | tooLarge text => "byte size " ++ quoted text ++ " is too large"

namespace ByteSize

/-- A character of the number in front of the unit. -/
def isNumberChar (c : Char) : Bool := c.isDigit || c == '.'

/-- The whole bytes of a number in double precision, up to the greatest 64-bit word; the number
2 ^ 64 itself is cut down to that word, and one above it is refused. -/
def ofBinary64? (value : Binary64) : Option Nat :=
  if value.exceeds (Nat.pow 2 64) then none else value.floor.map (min word64Max)

/-- Reads a size from a text in capitals without blanks around it. -/
def ofCapitals (s : List Char) : Except ByteSizeError ByteSize :=
  let number := s.takeWhile isNumberChar
  let unit := trim (s.dropWhile isNumberChar)
  let text := String.ofList s
  if number = [] then .error (.missingNumber text)
  else if unit = [] then
    match parseUnsigned word64Max number with
    | .ok n => .ok ⟨n⟩
    | .error cause => .error (.badCount text cause)
  else
    match sizeUnits.lookup (String.ofList unit) with
    | none => .error (.unknownUnit (String.ofList unit))
    | some power =>
      match binary64? number with
      | none => .error (.badNumber text)
      | some value =>
        match ofBinary64? (value.scale power) with
        | some n => .ok ⟨n⟩
        | none => .error (.tooLarge text)

/-- Reads a size; large and small letters count alike. -/
def parse (text : String) : Except ByteSizeError ByteSize :=
  ofCapitals (capitals (trim text.toList))

/-- The text of a size: in the largest unit of which it is a whole number. -/
def toText (size : ByteSize) : String :=
  match sizeUnits.find? fun (_, power) => size.bytes ≠ 0 && size.bytes % Nat.pow 2 power == 0 with
  | some (unit, power) => toString (size.bytes / Nat.pow 2 power) ++ unit
  | none => toString size.bytes ++ "B"

end ByteSize

end MediaShelf.Settings
