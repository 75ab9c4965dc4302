import MediaShelf.Text.Blank
import MediaShelf.Text.Unsigned

/-!
The `Range` header for one span of bytes: `bytes=A-B`, `bytes=A-` and `bytes=-N`. A header that is
not of this form, names another unit or asks for several spans is ignored, and the whole file is
served.
-/

namespace MediaShelf.Http

open MediaShelf.Text

/-- What a request asks for of a file. -/
inductive ByteRange where
  /-- The whole file. -/
  | full
  /-- The bytes from `first` to `last`, both included. -/
  | part (first last : Nat)
  /-- Bytes that the file does not have. -/
  | unsatisfiable
  deriving DecidableEq, Repr

namespace ByteRange

/-- The text after `lead`, if `s` starts with it. -/
def after? (lead s : List Char) : Option (List Char) :=
  if lead.isPrefixOf s then some (s.drop lead.length) else none

/-- The range of the bounds on the two sides of the dash, for a file of `size` bytes. -/
def ofBounds (first last : List Char) (size : Nat) : ByteRange :=
  match first, last with
  | [], [] => .full
  | [], last =>
    match unsigned? word64Max last with
    | none => .full
    | some length =>
      if length = 0 ∨ size = 0 then .unsatisfiable else .part (size - length) (size - 1)
  | first, [] =>
    match unsigned? word64Max first with
    | none => .full
    | some first => if size ≤ first then .unsatisfiable else .part first (size - 1)
  | first, last =>
    match unsigned? word64Max first, unsigned? word64Max last with
    | some first, some last =>
      if last < first then .full
      else if size ≤ first then .unsatisfiable
      else .part first (min last (size - 1))
    | _, _ => .full

/-- The texts on the two sides of the dash, in a header value for one span of bytes. -/
def sides? (value : List Char) : Option (List Char × List Char) :=
  match after? ['b', 'y', 't', 'e', 's', '='] (trim value) with
  | none => none
  | some spec => if spec.contains ',' then none else cutAt? '-' spec

/-- The range that a header value asks for, for a file of `size` bytes. -/
def ofValue (value : List Char) (size : Nat) : ByteRange :=
  match sides? value with
  | none => .full
  | some (first, last) => ofBounds (trim first) (trim last) size

/-- The range that an optional header asks for, for a file of `size` bytes. -/
def parse (header : Option String) (size : Nat) : ByteRange :=
  match header with
  | none => .full
  | some value => ofValue value.toList size

/-- Offset and length of the bytes to serve of a file of `size` bytes. -/
def span (size : Nat) : ByteRange → Option (Nat × Nat)
  | .full => some (0, size)
  | .part first last => some (first, last - first + 1)
  | .unsatisfiable => none

/-- A range is in order for a file: its bytes exist and it holds at least one. -/
def WithinFile (size : Nat) : ByteRange → Prop
  | .part first last => first ≤ last ∧ last < size
  | _ => True

theorem withinFile_ofBounds (first last : List Char) (size : Nat) :
    (ofBounds first last size).WithinFile size := by
  unfold ofBounds
  repeat' split
  all_goals simp only [WithinFile]
  all_goals omega

/-- Every range that parsing finds lies inside the file. -/
theorem withinFile_parse (header : Option String) (size : Nat) :
    (parse header size).WithinFile size := by
  unfold parse ofValue
  repeat' split
  all_goals first | exact withinFile_ofBounds .. | trivial

end ByteRange

end MediaShelf.Http
