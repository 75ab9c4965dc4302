import MediaShelf.Text.Quoted

/-!
JSON texts of listings: values without fractions, written on one line or on many.
-/

namespace MediaShelf.Text

/-- A value of a JSON text. -/
inductive JsonValue where
  | text (s : String)
  | number (n : Nat)
  | list (items : List JsonValue)
  | object (fields : List (String × JsonValue))

/-- The written form of one character of a JSON text. -/
def jsonChar (c : Char) : List Char :=
  if c = '"' then ['\\', '"']
  else if c = '\\' then ['\\', '\\']
  else if c = '\x08' then ['\\', 'b']
  else if c = '\x0c' then ['\\', 'f']
  else if c = '\n' then ['\\', 'n']
  else if c = '\r' then ['\\', 'r']
  else if c = '\t' then ['\\', 't']
  else if c.toNat < 0x20 then ['\\', 'u'] ++ hexDigits 4 c.toNat
  else [c]

/-- A JSON text between its quotes. -/
def jsonQuoted (s : String) : String :=
  String.ofList (['"'] ++ s.toList.flatMap jsonChar ++ ['"'])

namespace JsonValue

mutual

/-- A value on one line, without blanks. -/
def compact : JsonValue → String
  | text s => jsonQuoted s
  | number n => toString n
  | list items => "[" ++ ",".intercalate (compactItems items) ++ "]"
  | object fields => "\x7b" ++ ",".intercalate (compactFields fields) ++ "\x7d"

/-- Each of some values on one line. -/
def compactItems : List JsonValue → List String
  | [] => []
  | item :: rest => item.compact :: compactItems rest

/-- Each of some fields on one line. -/
def compactFields : List (String × JsonValue) → List String
  | [] => []
  | (key, value) :: rest => (jsonQuoted key ++ ":" ++ value.compact) :: compactFields rest

end

/-- A new line at a depth: two blanks for each level. -/
def newLine (depth : Nat) : String := "\n".pushn ' ' (2 * depth)

/-- Parts on lines of their own between brackets; nothing between the brackets if there are no
parts. -/
def bracketed (opening closing : String) (depth : Nat) (parts : List String) : String :=
  if parts.isEmpty then opening ++ closing
  else
    opening ++ newLine (depth + 1) ++ ("," ++ newLine (depth + 1)).intercalate parts ++
      newLine depth ++ closing

mutual

/-- A value on many lines, at a depth. -/
def prettyAt (depth : Nat) : JsonValue → String
  | text s => jsonQuoted s
  | number n => toString n
  | list items => bracketed "[" "]" depth (prettyItems (depth + 1) items)
  | object fields => bracketed "\x7b" "\x7d" depth (prettyFields (depth + 1) fields)

/-- Each of some values on many lines. -/
def prettyItems (depth : Nat) : List JsonValue → List String
  | [] => []
  | item :: rest => item.prettyAt depth :: prettyItems depth rest

/-- Each of some fields on many lines. -/
def prettyFields (depth : Nat) : List (String × JsonValue) → List String
  | [] => []
  | (key, value) :: rest =>
    (jsonQuoted key ++ ": " ++ value.prettyAt depth) :: prettyFields depth rest

end

/-- A value on many lines. -/
def pretty (value : JsonValue) : String := value.prettyAt 0

end JsonValue

end MediaShelf.Text
