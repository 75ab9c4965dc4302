import MediaShelf.Files.Tree

/-!
Looking up a path the way the operating system does: links are followed, a relative target goes on
from the folder of its link, an absolute one from the root, and a step up leads to the parent of
the folder reached. At most `maxLinks` links are followed.
-/

namespace MediaShelf.Files

/-- The number of links that are followed before a lookup is given up. -/
def maxLinks : Nat := 40

/-- The greatest length of a name. -/
def maxName : Nat := 255

/-- The greatest length of a path. -/
def maxPath : Nat := 4095

/-- The written form of a place. -/
def placePath (place : Place) : Bytes :=
  if place = [] then [slash] else place.flatMap fun name => slash :: name

/-- The length of the written form of a place. -/
def placeLength (place : Place) : Nat := (placePath place).length

namespace Tree

/-- Why no step leads on from a place that is no folder. -/
def standFault? (tree : Tree) (here : Place) : Option Fault :=
  match tree.node? here with
  | some .folder => none
  | some (.file _) => some .notDirectory
  | _ => some .noEntry

theorem standFault?_eq_none {tree : Tree} {here : Place} :
    tree.standFault? here = none ↔ tree.node? here = some .folder := by
  unfold standFault?
  split <;> simp_all

/-- The node that is reached from a folder by names; no link is followed. -/
def probeFrom (tree : Tree) (here : Place) : List Name → Except Fault Node
  | [] =>
    match tree.node? here with
    | some node => .ok node
    | none => .error .noEntry
  | name :: rest =>
    match tree.standFault? here with
    | some fault => .error fault
    | none =>
      if maxName < name.length then .error .nameTooLong
      else probeFrom tree (here ++ [name]) rest

/-- What the system says about the node at a place, a link not being followed. -/
def probe (tree : Tree) (place : Place) : Except Fault Node :=
  if place.any (·.contains 0) then .error .nulInName
  else if maxPath < placeLength place then .error .nameTooLong
  else tree.probeFrom [] place

/-- The step that one part of a path stands for in a lookup. -/
def systemStep? (part : Bytes) : Option Step :=
  if part = [] then none
  else if part = [dot] then some .here
  else if part = [dot, dot] then some .up
  else some (.down part)

/-- The steps of a path in a lookup: every dot counts, and so does a slash at the end, because
they ask for a folder. -/
def systemSteps (path : Bytes) : List Step :=
  let inner := (splitSlash path).filterMap systemStep?
  let inner := if inner ≠ [] ∧ path.getLast? = some slash then inner ++ [.here] else inner
  if isAbsolute path then .root :: inner else inner

/-- Goes on from a place by steps. The last link is followed too if `followsLast`. -/
def walkSteps (tree : Tree) (followsLast : Bool) (links : Nat) (here : Place) :
    List Step → Except Fault Place
  | [] => if (tree.node? here).isSome then .ok here else .error .noEntry
  | .root :: rest => walkSteps tree followsLast links [] rest
  | .here :: rest =>
    match tree.standFault? here with
    | some fault => .error fault
    | none => walkSteps tree followsLast links here rest
  | .up :: rest =>
    match tree.standFault? here with
    | some fault => .error fault
    | none => walkSteps tree followsLast links here.dropLast rest
  | .down name :: rest =>
    match tree.standFault? here with
    | some fault => .error fault
    | none =>
      if maxName < name.length then .error .nameTooLong
      else
        match tree.node? (here ++ [name]) with
        | none => .error .noEntry
        | some (.link target) =>
          if rest = [] ∧ ¬ followsLast then .ok (here ++ [name])
          else
            match links with
            | 0 => .error .linkLoop
            | links + 1 => walkSteps tree followsLast links here (systemSteps target ++ rest)
        | some _ => walkSteps tree followsLast links (here ++ [name]) rest
termination_by steps => (links, steps.length)

/-- The place that a path leads to, as seen from the folder `here`. -/
def lookup (tree : Tree) (followsLast : Bool) (here : Place) (path : Bytes) :
    Except Fault Place :=
  if path.contains 0 then .error .nulInName
  else if path = [] then .error .noEntry
  else if maxPath < path.length then .error .nameTooLong
  else tree.walkSteps followsLast maxLinks here (systemSteps path)

/-- The place of what a path leads to when every link is followed. -/
def canonical (tree : Tree) (here : Place) (path : Bytes) : Except Fault Place :=
  tree.lookup true here path

/-- Whether a path leads to anything. -/
def hasPath (tree : Tree) (here : Place) (path : Bytes) : Bool :=
  (tree.canonical here path).isOk

/-- The content of the file that a path leads to. -/
def readFile (tree : Tree) (here : Place) (path : Bytes) : Except Fault Bytes :=
  match tree.canonical here path with
  | .error fault => .error fault
  | .ok place =>
    match tree.bodyAt? place with
    | some body => .ok body.content
    | none => .error .isDirectory

end Tree

end MediaShelf.Files
