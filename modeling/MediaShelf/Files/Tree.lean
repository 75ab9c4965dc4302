import MediaShelf.Failure
import MediaShelf.Files.Path
import MediaShelf.Http.Date

/-!
A tree of folders, files and symbolic links. A place is the list of names that leads from the root
to a node through folders only. File contents are kept apart from names, so that a file which was
opened stays readable after its name is gone.
-/

namespace MediaShelf.Files

/-- The names from the root to a node; no node on the way is a link. -/
abbrev Place := List Name

/-- The number of a file's content. -/
abbrev FileNumber := Nat

/-- What can stand at a place. -/
inductive Node where
  | folder
  | file (number : FileNumber)
  | link (target : Bytes)
  deriving DecidableEq, Repr

/-- The content of a file and when it was last changed. A file that is lengthened without being
written to grows by a hole, which reads as zeros. -/
structure FileBody where
  written : Bytes
  /-- How many zeros stand behind what was written. -/
  hole : Nat
  modified : Http.Moment
  deriving DecidableEq

namespace FileBody

/-- What reading a file gives. -/
def content (body : FileBody) : Bytes :=
  if body.hole = 0 then body.written else body.written ++ List.replicate body.hole 0

/-- The size of a file. -/
def size (body : FileBody) : Nat := body.written.length + body.hole

/-- A file cut, or filled with zeros, to a length. -/
def resized (body : FileBody) (length : Nat) (modified : Http.Moment) : FileBody :=
  ⟨body.written.take length, length - body.written.length, modified⟩

@[simp] theorem length_content (body : FileBody) : body.content.length = body.size := by
  by_cases h : body.hole = 0 <;> simp [content, size, h]

@[simp] theorem size_resized (body : FileBody) (length : Nat) (modified : Http.Moment) :
    (body.resized length modified).size = length := by
  simp [resized, size]; omega

end FileBody

/-- A tree: the nodes below the root by their places, and the file contents by their numbers. -/
structure Tree where
  nodes : List (Place × Node)
  bodies : List (FileNumber × FileBody)
  nextNumber : FileNumber

namespace Tree

/-- The tree that holds nothing but the root. -/
def empty : Tree := ⟨[], [], 0⟩

/-- The node at a place; the root is a folder. -/
def node? (tree : Tree) (place : Place) : Option Node :=
  if place = [] then some .folder else tree.nodes.lookup place

/-- Whether a place holds a folder. -/
def isFolder (tree : Tree) (place : Place) : Bool := tree.node? place == some .folder

/-- The content with a number. -/
def body? (tree : Tree) (number : FileNumber) : Option FileBody := tree.bodies.lookup number

/-- The size of a file. -/
def sizeOf (tree : Tree) (number : FileNumber) : Nat :=
  match tree.body? number with
  | some body => body.size
  | none => 0

/-- The file at a place. -/
def bodyAt? (tree : Tree) (place : Place) : Option FileBody :=
  match tree.node? place with
  | some (.file number) => tree.body? number
  | _ => none

/-- Every node other than the root lies in a folder. -/
def WellFormed (tree : Tree) : Prop :=
  ∀ (place : Place) (name : Name), (tree.node? (place ++ [name])).isSome →
    tree.node? place = some .folder

@[simp] theorem node?_nil (tree : Tree) : tree.node? [] = some .folder := rfl

theorem node?_of_ne_nil (tree : Tree) {place : Place} (h : place ≠ []) :
    tree.node? place = tree.nodes.lookup place := by
  simp [node?, h]

/-- In a well-formed tree every place on the way to a node is a folder. -/
theorem WellFormed.folder_of_append {tree : Tree} (h : tree.WellFormed) :
    ∀ (rest : List Name) (place : Place), rest ≠ [] → (tree.node? (place ++ rest)).isSome →
      tree.node? place = some .folder
  | [], _, hne, _ => absurd rfl hne
  | name :: rest, place, _, hs => by
    by_cases hr : rest = []
    · subst hr; exact h place name hs
    · have hf := folder_of_append h rest (place ++ [name]) hr (by simpa using hs)
      exact h place name (by simp [hf])

end Tree

end MediaShelf.Files
