import MediaShelf.Text.Visible

/-!
Quoted text in messages: a text between double quotes on one line, in which every character that
does not show is written by its number.
-/

namespace MediaShelf.Text

/-- The last digits of a number in hexadecimal notation, as many as are asked for. -/
def hexDigits : Nat → Nat → List Char
  | 0, _ => []
  | count + 1, n => hexDigits count (n / 16) ++ [Nat.digitChar (n % 16)]

/-- Which quote marks are escaped: inside a quoted text only the double one, inside a quoted path
the single one too. -/
structure QuoteStyle where
  escapesSingle : Bool
  deriving DecidableEq, Repr

/-- How a text is quoted. -/
def QuoteStyle.text : QuoteStyle := ⟨false⟩

/-- How a path is quoted. -/
def QuoteStyle.path : QuoteStyle := ⟨true⟩

/-- The written form of one character between the quotes. -/
def escapeChar (style : QuoteStyle) (c : Char) : List Char :=
  if c = '\x00' then ['\\', '0']
  else if c = '\t' then ['\\', 't']
  else if c = '\r' then ['\\', 'r']
  else if c = '\n' then ['\\', 'n']
  else if c = '\\' then ['\\', '\\']
  else if c = '"' then ['\\', '"']
  else if c = '\'' ∧ style.escapesSingle then ['\\', '\'']
  else if isExtending c || isHidden c then ['\\', 'u', '\x7b'] ++ Nat.toDigits 16 c.toNat ++ ['\x7d']
  else [c]

/-- A text between double quotes. -/
def quote (style : QuoteStyle) (s : List Char) : List Char :=
  ['"'] ++ s.flatMap (escapeChar style) ++ ['"']

/-- A text as messages quote it. -/
def quoted (s : String) : String := String.ofList (quote .text s.toList)

/-- A path as messages quote it. -/
def quotedPath (s : String) : String := String.ofList (quote .path s.toList)

end MediaShelf.Text
