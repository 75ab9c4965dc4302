import MediaShelf.Http.Headers

/-!
The `Content-Disposition` header: the file is to be shown, not saved, under its name.
-/

namespace MediaShelf.Http

/-- A control character. -/
def isControl (c : Char) : Bool :=
  c.toNat < 0x20 || (0x7F ≤ c.toNat && c.toNat ≤ 0x9F)

/-- What stands for a character inside the quotes: quotes, backslashes and controls become
underscores. -/
def safeChar (c : Char) : Char :=
  if c = '"' ∨ c = '\\' ∨ isControl c then '_' else c

/-- The name as it stands inside the quotes. -/
def safeName (name : String) : String := String.ofList (name.toList.map safeChar)

/-- The text that is to stand in the header for a file name. -/
def disposition (name : String) : String := "inline; filename=\"" ++ safeName name ++ "\""

/-- The header value for a file name, if its text can stand in a header. -/
def disposition? (name : String) : Option Bytes := fieldValue? (Text.encode (disposition name))

end MediaShelf.Http
