import MediaShelf.Files.Lookup

/-!
Walking everything below a folder, links not being followed. A walk meets the folder itself first,
then what lies below it, in the order of the names on the way. It spells the path of each node from
the path that it started with, so what lies too deep for that cannot be read.
-/

namespace MediaShelf.Files

/-- One thing that a walk meets. -/
inductive WalkItem where
  /-- Something that could not be read, `depth` names below the start. -/
  | unreadable (depth : Nat) (fault : Fault)
  /-- A node, by the names that lead to it from the start. -/
  | met (names : List Name) (node : Node)
  deriving DecidableEq

/-- What stands below a place in front of the rest of another. -/
def restBelow? (place at_ : Place) : Option (List Name) :=
  if place.isPrefixOf at_ then some (at_.drop place.length) else none

/-- What a walk from a path tells of a node below it: one whose path, as it is spelled from there,
is longer than the system takes cannot be read. -/
def itemBelow (path : Bytes) (names : List Name) (node : Node) : WalkItem :=
  if maxPath < (join path (joinNames names)).length then .unreadable names.length .nameTooLong
  else .met names node

namespace Tree

/-- The nodes below a place, by the names that lead to them from there, sorted. -/
def below (tree : Tree) (place : Place) : List (List Name × Node) :=
  let found := tree.nodes.filterMap fun (at_, node) =>
    (restBelow? place at_).bind fun names => if names = [] then none else some (names, node)
  found.mergeSort fun a b => (compare a.1 b.1).isLE

/-- What a walk from a path meets. A start that is a link is followed to a folder; the fault of an
unreadable start names the path as it was given. -/
def walk (tree : Tree) (here : Place) (path : Bytes) : List WalkItem :=
  match tree.canonical here path with
  | .error fault =>
    let lead := "IO error for operation on " ++ Text.decodeLossy path ++ ": "
    [.unreadable 0 ⟨fault.kind, lead ++ fault.text⟩]
  | .ok place =>
    match tree.node? place with
    | some .folder =>
      .met [] .folder :: (tree.below place).map fun (names, node) => itemBelow path names node
    | some node => [.met [] node]
    | none => [.unreadable 0 .noEntry]

end Tree

end MediaShelf.Files
