import MediaShelf.Text.Utf8

/-!
Header fields of requests and responses: lists of a name and the bytes of a value, in the order
they were given. Names are compared without regard to case.
-/

namespace MediaShelf.Http

/-- A header field. -/
structure Field where
  name : String
  value : Bytes
  deriving DecidableEq, Repr

/-- Header fields in the order they were given. -/
abbrev Fields := List Field

/-- A field name in small letters. -/
def smallName (name : String) : String := String.ofList (name.toList.map Char.toLower)

/-- The value of the first field of a name. -/
def Fields.first? (fields : Fields) (name : String) : Option Bytes :=
  (fields.find? fun field => smallName field.name == smallName name).map (·.value)

/-- Whether there is a field of a name. -/
def Fields.has (fields : Fields) (name : String) : Bool := (fields.first? name).isSome

/-- A byte that shows, a space or a tab: the bytes that a value may hold to count as text. -/
def isTextByte (b : UInt8) : Bool := (0x20 ≤ b && b < 0x7F) || b == 0x09

/-- The text of a value, if all its bytes show. -/
def valueText? (value : Bytes) : Option String :=
  if value.all isTextByte then some (String.ofList (value.map fun b => Char.ofNat b.toNat))
  else none

/-- The text of the first field of a name. -/
def Fields.text? (fields : Fields) (name : String) : Option String :=
  (fields.first? name).bind valueText?

/-- A byte that a header value may hold. -/
def isValueByte (b : UInt8) : Bool := (0x20 ≤ b && b != 0x7F) || b == 0x09

/-- The value of a field, if all its bytes may stand in one. -/
def fieldValue? (value : Bytes) : Option Bytes :=
  if value.all isValueByte then some value else none

/-- A character of a field name. -/
def isNameChar (c : Char) : Bool :=
  c.isAlphanum || "!#$%&*+-.^_|~".toList.contains c || c == '\x27' || c == '\x60'

/-- A field that a request can carry. -/
def Field.isValid (field : Field) : Bool :=
  field.name ≠ "" && field.name.toList.all isNameChar && field.value.all isValueByte

/-- A field whose value is a text. -/
def Field.ofText (name value : String) : Field := ⟨name, Text.encode value⟩

end MediaShelf.Http
