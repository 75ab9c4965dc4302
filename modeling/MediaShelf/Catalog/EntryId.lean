import MediaShelf.Text.Quoted

/-!
Identifiers of catalog entries: 128-bit numbers in the usual hyphenated notation. New ones come
from a sequence, which may be any.
-/

namespace MediaShelf.Catalog

/-- The identifier of an entry. -/
structure EntryId where
  bits : BitVec 128
  deriving DecidableEq

namespace EntryId

/-- The identifier that is never given to an entry. -/
def nil : EntryId := ⟨0⟩

/-- The order of identifiers is that of their numbers. -/
def le (a b : EntryId) : Bool := a.bits.toNat ≤ b.bits.toNat

/-- The value of a hexadecimal digit, large or small. -/
def hexValue? (c : Char) : Option Nat :=
  if '0' ≤ c ∧ c ≤ '9' then some (c.toNat - '0'.toNat)
  else if 'a' ≤ c ∧ c ≤ 'f' then some (c.toNat - 'a'.toNat + 10)
  else if 'A' ≤ c ∧ c ≤ 'F' then some (c.toNat - 'A'.toNat + 10)
  else none

/-- The number that hexadecimal digits stand for. -/
def hexNumber? (digits : List Char) : Option Nat :=
  digits.foldl
    (fun value? c => match value?, hexValue? c with
      | some value, some d => some (value * 16 + d)
      | _, _ => none)
    (some 0)

/-- The identifier with the given 32 digits. -/
def ofDigits? (digits : List Char) : Option EntryId :=
  if digits.length = 32 then (hexNumber? digits).map fun n => ⟨BitVec.ofNat 128 n⟩ else none

/-- The digits of a text of the form 8-4-4-4-12. -/
def hyphenatedDigits? (s : List Char) : Option (List Char) :=
  if s.length = 36 ∧ s[8]? = some '-' ∧ s[13]? = some '-' ∧ s[18]? = some '-' ∧
      s[23]? = some '-' then
    some (s.take 8 ++ (s.drop 9).take 4 ++ (s.drop 14).take 4 ++ (s.drop 19).take 4 ++
      s.drop 24)
  else none

/-- The lead of an identifier written as a resource name. -/
def resourceLead : List Char := ['u', 'r', 'n', ':', 'u', 'u', 'i', 'd', ':']

/-- Reads an identifier: 32 digits, or 36 characters with hyphens, these also in braces or after
`urn:uuid:`. -/
def parse? (text : String) : Option EntryId :=
  let s := text.toList
  if s.length = 32 then ofDigits? s
  else if s.length = 36 then (hyphenatedDigits? s).bind ofDigits?
  else if s.length = 38 ∧ s.head? = some '\x7b' ∧ s.getLast? = some '\x7d' then
    (hyphenatedDigits? (s.drop 1).dropLast).bind ofDigits?
  else if s.length = 45 ∧ (s.take 9).map Char.toLower = resourceLead then
    (hyphenatedDigits? (s.drop 9)).bind ofDigits?
  else none

/-- The 32 digits of an identifier. -/
def digits (id : EntryId) : List Char := Text.hexDigits 32 id.bits.toNat

/-- The hyphenated notation. -/
def toText (id : EntryId) : String :=
  let d := id.digits
  String.ofList (d.take 8 ++ ['-'] ++ (d.drop 8).take 4 ++ ['-'] ++ (d.drop 12).take 4 ++ ['-'] ++
    (d.drop 16).take 4 ++ ['-'] ++ d.drop 20)

end EntryId

/-- Where new identifiers come from. -/
structure IdSource where
  /-- The identifiers in the order in which they are handed out. -/
  sequence : Nat → EntryId
  /-- How many were handed out. -/
  drawn : Nat

namespace IdSource

/-- The identifiers that follow one, each a step further. -/
def after (id : EntryId) : IdSource := ⟨fun n => ⟨id.bits + BitVec.ofNat 128 (n + 1)⟩, 0⟩

/-- Hands out the next identifier. -/
def next (source : IdSource) : EntryId × IdSource :=
  (source.sequence source.drawn, { source with drawn := source.drawn + 1 })

end IdSource

end MediaShelf.Catalog
