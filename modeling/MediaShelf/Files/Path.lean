import MediaShelf.Text.Utf8

/-!
Paths as byte strings. A path is read as a sequence of steps: the root, the directory itself, its
parent, or a name in it. Two paths with the same steps are the same path, however many slashes
and inner dots they are written with.
-/

namespace MediaShelf.Files

/-- A name in a directory. -/
abbrev Name := Bytes

/-- One step of a path. -/
inductive Step where
  | root
  | here
  | up
  | down (name : Name)
  deriving DecidableEq, Repr

/-- The byte between two names. -/
def slash : UInt8 := 0x2F

/-- The byte of a dot. -/
def dot : UInt8 := 0x2E

/-- The parts between the slashes; there is one more than there are slashes. -/
def splitSlash (path : Bytes) : List Bytes := path.splitOn slash

/-- The step that one part stands for; empty parts and dots stand for none. -/
def partStep? (part : Bytes) : Option Step :=
  if part = [] ∨ part = [dot] then none
  else if part = [dot, dot] then some .up
  else some (.down part)

/-- The steps of a path. A dot counts only in front of a relative path. -/
def steps (path : Bytes) : List Step :=
  let parts := splitSlash path
  match path with
  | [] => []
  | b :: _ =>
    if b = slash then .root :: parts.filterMap partStep?
    else if parts.head? = some [dot] then .here :: parts.filterMap partStep?
    else parts.filterMap partStep?

/-- The written form of a step. -/
def Step.bytes : Step → Bytes
  | .root => [slash]
  | .here => [dot]
  | .up => [dot, dot]
  | .down name => name

/-- Whether a path starts at the root. -/
def isAbsolute (path : Bytes) : Bool := path.head? == some slash

/-- The path `tail` as seen from `base`. -/
def join (base tail : Bytes) : Bytes :=
  if isAbsolute tail ∨ base = [] then tail
  else if base.getLast? = some slash then base ++ tail
  else base ++ [slash] ++ tail

/-- The written form of a relative path with the given names. -/
def joinNames : List Name → Bytes
  | [] => []
  | [name] => name
  | name :: rest => name ++ [slash] ++ joinNames rest

/-- The name that the path ends in; a path that ends in the root or in a step up has none. -/
def fileName? (path : Bytes) : Option Name :=
  match (steps path).getLast? with
  | some (.down name) => some name
  | _ => none

/-- A name cut at its last dot: what stands before it, and what follows. A name with no dot but a
leading one has no second half. -/
def splitExtension (name : Name) : Name × Option Name :=
  let rest := name.reverse.dropWhile (· ≠ dot)
  match rest with
  | [] => (name, none)
  | [_] => (name, none)
  | _ :: stem => (stem.reverse, some (name.reverse.takeWhile (· ≠ dot)).reverse)

/-- What follows the last dot of the name that the path ends in. -/
def extension? (path : Bytes) : Option Name :=
  (fileName? path).bind fun name => (splitExtension name).2

/-- The names in the directory part of a path, in order. -/
def folderNames (path : Bytes) : List Name :=
  (steps path).dropLast.filterMap fun
    | .down name => some name
    | _ => none

end MediaShelf.Files
