import MediaShelf.Files.Confined
import MediaShelf.Shelf.Basic

/-!
Opening files. The path of an entry is resolved inside the root of its mount, so that nothing
outside the root is ever opened; only regular files become resources. A buffer that is too large for
memory makes the opening panic.
-/

namespace MediaShelf

open MediaShelf.Catalog
open MediaShelf.Files

/-- An open file: the number of its content, and how far it was read. -/
structure OpenFile where
  number : FileNumber
  resource : Resource

/-- The node that a relative path leads to inside a root. -/
def Files.Tree.openInRoot (tree : Tree) (here : Place) (root relative : Bytes) :
    Except Failure Node :=
  match tree.resolveInRoot here root relative with
  | .error failure => .error failure
  | .ok place =>
    match tree.probe place with
    | .error fault => .error (.fault fault)
    | .ok node => .ok node

/-- The bytes of an opened node. -/
def Files.Tree.readNode (tree : Tree) : Node → Except Fault Bytes
  | .file number =>
    match tree.body? number with
    | some body => .ok body.content
    | none => .error .noEntry
  | _ => .error .isDirectory

/-- The content that a file has now. -/
def Files.Tree.contentOf (tree : Tree) (number : FileNumber) : Bytes :=
  match tree.body? number with
  | some body => body.content
  | none => []

/-- The file name of a path, as a text. -/
def fileNameText (path : Bytes) : String :=
  match fileName? path with
  | some name => Text.decodeLossy name
  | none => ""

/-- Why a file is not opened. -/
inductive OpenFault where
  | failed (failure : Failure)
  /-- The one who opens it panics, with a message. -/
  | panicked (message : String)
  deriving DecidableEq, Repr

/-- Opens the file of an entry in the mode of the shelf. -/
def Shelf.openEntry (shelf : Shelf) (tree : Tree) (here : Place) (entry : Entry) :
    Except OpenFault OpenFile :=
  match shelf.mount entry.volume with
  | .error failure => .error (.failed failure)
  | .ok mount =>
    match tree.openInRoot here mount.root entry.path with
    | .error failure => .error (.failed failure)
    | .ok (.file number) =>
      match tree.body? number with
      | none => .error (.failed (.fault .noEntry))
      | some body =>
        let metadata : Resource.Metadata :=
          ⟨fileNameText entry.path, body.modified, body.size⟩
        if Resource.canOpen shelf.mode shelf.bufferSize then
          .ok ⟨number, Resource.openIn shelf.mode shelf.bufferSize metadata⟩
        else .error (.panicked "capacity overflow")
    | .ok _ => .error (.failed (.fault .notRegular))

end MediaShelf
