import MediaShelf.Files.Lookup

/-!
Changes to a tree from outside: files are written, cut, moved and taken away while the server
runs. Writing over a file keeps its number, so that whoever has it open sees the new content;
taking a file away leaves its content to those who have it open.
-/

namespace MediaShelf.Files

namespace Tree

/-- Puts a node at a place, in the stead of what was there. -/
def setNode (tree : Tree) (place : Place) (node : Node) : Tree :=
  { tree with nodes := (place, node) :: tree.nodes.filter (·.1 ≠ place) }

/-- Gives a number a content. -/
def setBody (tree : Tree) (number : FileNumber) (body : FileBody) : Tree :=
  { tree with bodies := (number, body) :: tree.bodies.filter (·.1 ≠ number) }

/-- Puts a new file at a place. -/
def addFile (tree : Tree) (place : Place) (body : FileBody) : Tree :=
  let number := tree.nextNumber
  { (tree.setNode place (.file number)).setBody number body with nextNumber := number + 1 }

/-- The folder that steps lead to; folders that are missing are made. -/
def makeFolders (tree : Tree) (here : Place) : List Step → Except Fault (Tree × Place)
  | [] => .ok (tree, here)
  | .root :: rest => makeFolders tree [] rest
  | .here :: rest => makeFolders tree here rest
  | .up :: rest => makeFolders tree here.dropLast rest
  | .down name :: rest =>
    let next := here ++ [name]
    match tree.node? next with
    | none =>
      if name.contains 0 then .error .nulInName
      else if maxName < name.length then .error .nameTooLong
      else makeFolders (tree.setNode next .folder) next rest
    | some .folder => makeFolders tree next rest
    | some (.file _) => .error .notDirectory
    | some (.link target) =>
      match tree.walkSteps true maxLinks here (systemSteps target) with
      | .error fault => .error fault
      | .ok place =>
        if tree.isFolder place then makeFolders tree place rest else .error .notDirectory

/-- The folder that a path lies in, made if it is missing, and the name in it. -/
def makeParent (tree : Tree) (here : Place) (path : Bytes) :
    Except Fault (Tree × Place × Name) :=
  match fileName? path with
  | none => .error .invalidArgument
  | some name =>
    if name.contains 0 then .error .nulInName
    else if maxName < name.length then .error .nameTooLong
    else
      match tree.makeFolders here (steps path).dropLast with
      | .error fault => .error fault
      | .ok (tree, folder) => .ok (tree, folder, name)

/-- Writes a file, its folders included. -/
def write (tree : Tree) (here : Place) (path : Bytes) (body : FileBody) : Except Fault Tree :=
  match tree.makeParent here path with
  | .error fault => .error fault
  | .ok (tree, folder, name) =>
    match tree.node? (folder ++ [name]) with
    | none => .ok (tree.addFile (folder ++ [name]) body)
    | some (.file number) => .ok (tree.setBody number body)
    | some .folder => .error .isDirectory
    | some (.link target) =>
      match tree.walkSteps true maxLinks folder (systemSteps target) with
      | .error fault => .error fault
      | .ok place =>
        match tree.node? place with
        | some (.file number) => .ok (tree.setBody number body)
        | _ => .error .isDirectory

/-- Cuts a file, or fills it with zeros, to a length. -/
def truncate (tree : Tree) (here : Place) (path : Bytes) (length : Nat)
    (modified : Http.Moment) : Except Fault Tree :=
  match tree.canonical here path with
  | .error fault => .error fault
  | .ok place =>
    match tree.node? place with
    | some (.file number) =>
      match tree.body? number with
      | some body => .ok (tree.setBody number (body.resized length modified))
      | none => .error .noEntry
    | _ => .error .isDirectory

/-- Makes a folder and those it lies in. -/
def makeFolder (tree : Tree) (here : Place) (path : Bytes) : Except Fault Tree :=
  (tree.makeFolders here (steps path)).map (·.1)

/-- Takes away a node and everything below it; a link is taken away itself. -/
def remove (tree : Tree) (here : Place) (path : Bytes) : Except Fault Tree :=
  match tree.lookup false here path with
  | .error fault => .error fault
  | .ok place => .ok { tree with nodes := tree.nodes.filter fun (at_, _) => ¬ place.isPrefixOf at_ }

/-- Moves a node and everything below it to another name, in the stead of what was there. -/
def rename (tree : Tree) (here : Place) (source target : Bytes) : Except Fault Tree :=
  match tree.makeParent here target with
  | .error fault => .error fault
  | .ok (tree, folder, name) =>
    match tree.lookup false here source with
    | .error fault => .error fault
    | .ok place =>
      let goal := folder ++ [name]
      if goal = place then .ok tree
      else
        let (moved, kept) := tree.nodes.partition fun (at_, _) => place.isPrefixOf at_
        let kept := kept.filter fun (at_, _) => ¬ goal.isPrefixOf at_
        .ok { tree with
          nodes := moved.map (fun (at_, node) => (goal ++ at_.drop place.length, node)) ++ kept }

/-- Puts a link at a path, its folders being made. -/
def addLink (tree : Tree) (here : Place) (path target : Bytes) : Except Fault Tree :=
  match tree.makeParent here path with
  | .error fault => .error fault
  | .ok (tree, folder, name) =>
    match tree.node? (folder ++ [name]) with
    | none => .ok (tree.setNode (folder ++ [name]) (.link target))
    | some _ => .error (.system .alreadyExists "File exists" 17)

end Tree

end MediaShelf.Files
