import MediaShelf.Files.Lookup

/-!
Resolving a relative path inside a root folder. A path that is absolute or climbs above its start
is refused before the tree is looked at. The rest is walked name by name from the root folder,
each link being replaced by the steps of its target, and the walk is refused as soon as it stands
anywhere but inside the root or on one of the folders that lead to it. So the answer for a path
that leaves the root does not depend on what lies outside.
-/

namespace MediaShelf.Files

/-- Folds dots and steps up without looking at the tree; `none` if the path is absolute or climbs
above its start. -/
def normalizeFrom (names : List Name) : List Step → Option (List Name)
  | [] => some names
  | .root :: _ => none
  | .here :: rest => normalizeFrom names rest
  | .up :: rest => if names = [] then none else normalizeFrom names.dropLast rest
  | .down name :: rest => normalizeFrom (names ++ [name]) rest

/-- The names that a relative path comes down to. -/
def normalize? (relative : Bytes) : Option (List Name) := normalizeFrom [] (steps relative)

/-- Whether a place is inside a root: the root itself or below it. -/
def isInside (root place : Place) : Bool := root.isPrefixOf place

/-- Whether a walk may stand at a place: inside the root, or on the way to it. -/
def isAllowed (root place : Place) : Bool := root.isPrefixOf place || place.isPrefixOf root

/-- Walks by steps, confined to `root`. `probe` tells what is at a place; `links` is the number of
links that may still be followed; once something is `missing` the tree is asked no more, and the
steps are only counted. -/
def walkConfined (probe : Place → Except Fault Node) (root : Place) (outside : Failure)
    (links : Nat) (missing : Bool) (here : Place) : List Step → Except Failure Place
  | [] =>
    if ¬ isInside root here then .error outside
    else if missing then .error (.fault .noSuchFile)
    else .ok here
  | .root :: rest => walkConfined probe root outside links missing [] rest
  | .here :: rest => walkConfined probe root outside links missing here rest
  | .up :: rest => walkConfined probe root outside links missing here.dropLast rest
  | .down name :: rest =>
    let next := here ++ [name]
    if ¬ isAllowed root next then .error outside
    else if missing then walkConfined probe root outside links missing next rest
    else
      match probe next with
      | .ok (.link target) =>
        match links with
        | 0 => .error (.fault .tooManyLinks)
        | links + 1 => walkConfined probe root outside links false here (steps target ++ rest)
      | .ok _ => walkConfined probe root outside links false next rest
      | .error fault =>
        if fault.kind = .notFound then walkConfined probe root outside links true next rest
        else .error (.fault fault)
termination_by steps => (links, steps.length)

/-- The place that a relative path leads to inside a root folder. The root is looked up as seen
from the folder `here`. -/
def Tree.resolveInRoot (tree : Tree) (here : Place) (root relative : Bytes) :
    Except Failure Place :=
  match normalize? relative with
  | none => .error (.outsideRoot relative)
  | some [] => .error (.fault .emptyPath)
  | some names =>
    match tree.canonical here root with
    | .error fault => .error (.fault fault)
    | .ok place =>
      walkConfined tree.probe place (.outsideRoot relative) maxLinks false place
        (names.map .down)

end MediaShelf.Files
