import MediaShelf.CommandLine.Program

/-!
The program on a real machine: it reads settings and walks folders as a task asks for it, prints
what the task ends with, and decides nothing itself. It has no access to the network, so that a
server ends at once.
-/

namespace MediaShelf.CommandLine

open MediaShelf.Catalog
open MediaShelf.Files
open MediaShelf.Settings

/-- The failure that an error of the system stands for. -/
def faultOf : IO.Error → Fault
  | .noFileOrDirectory .. => .noEntry
  | .permissionDenied _ code text => .system .permissionDenied text code.toNat
  | .inappropriateType _ code text =>
    .system (if code = 21 then .isADirectory else .notADirectory) text code.toNat
  | error => ⟨.other, toString error⟩

/-- The bytes of a file. -/
def readRealFile (path : String) : IO (Except Fault Bytes) := do
  match ← (IO.FS.readBinFile path).toBaseIO with
  | .ok bytes => return .ok bytes.toList
  | .error error => return .error (faultOf error)

/-- Whether there is anything at a path. -/
def isReal (path : String) : IO Bool := do
  ((← IO.currentDir) / path).pathExists

/-- The settings that are asked for, or the first that stand at a usual place. -/
def loadReal (here home : Bytes) (asked : Option Bytes) : IO (Except LoadFault Settings) := do
  let usual ← (usualPlaces home).filterM fun path => isReal (Text.decodeLossy path)
  match asked.or usual.head? with
  | none => return .ok Settings.default
  | some path => return ofFile here path (← readRealFile (Text.decodeLossy path))

/-- What a walk met so far, in reverse, and the sizes of the files in it by their numbers. -/
structure RealWalk where
  items : List WalkItem
  sizes : Array Nat

namespace RealWalk

/-- Meets a file. -/
def meetFile (walk : RealWalk) (names : List Name) (size : Nat) : RealWalk :=
  ⟨.met names (.file walk.sizes.size) :: walk.items, walk.sizes.push size⟩

/-- Meets anything else. -/
def meet (walk : RealWalk) (item : WalkItem) : RealWalk := { walk with items := item :: walk.items }

/-- Meets a folder and everything below it. What cannot be read is noted, and the walk goes on. -/
partial def meetFolder (walk : RealWalk) (path : String) (names : List Name) : IO RealWalk := do
  match ← ((← IO.currentDir) / path).readDir.toBaseIO with
  | .error error => return walk.meet (.unreadable names.length (faultOf error))
  | .ok entries =>
    (entries.qsort (·.fileName < ·.fileName)).foldlM (fun walk entry => do
      let below := names ++ [Text.encode entry.fileName]
      match ← entry.path.symlinkMetadata.toBaseIO with
      | .error error => return walk.meet (.unreadable below.length (faultOf error))
      | .ok about =>
        match about.type with
        | .dir => walk.meetFolder entry.path.toString below
        | .file => return walk.meetFile below about.byteSize.toNat
        | _ => return walk.meet (.met below (.link []))) (walk.meet (.met names .folder))

end RealWalk

/-- What a walk from a path meets. -/
def walkReal (path : String) : IO RealWalk := do
  let start : RealWalk := ⟨[], #[]⟩
  match ← ((← IO.currentDir) / path).metadata.toBaseIO with
  | .error error => return start.meet (.unreadable 0 (faultOf error))
  | .ok about =>
    match about.type with
    | .dir => start.meetFolder path []
    | .file => return start.meetFile [] about.byteSize.toNat
    | _ => return start

/-- Scans every mount of a shelf. -/
def scanReal (shelf : Shelf) : IO Shelf :=
  shelf.mounts.foldlM (fun shelf mount => do
    let walk ← walkReal (Text.decodeLossy mount.root)
    let found := collect (walk.sizes.getD · 0) none 0 walk.items.reverse
    let (_, registry, ids) := reconcile shelf.registry shelf.ids mount.id found
    return { shelf with registry := registry, ids := ids }) shelf

/-- The fault of listening without a network. -/
def noNetwork : Fault := .system .unsupported "Operation not supported" 95

/-- Carries a task out. -/
def Task.perform (here home : Bytes) : Task → IO Outcome
  | .finish outcome => return outcome
  | .load asked next => do (next (← loadReal here home asked)).perform here home
  | .scan shelf next => do (next (← scanReal shelf)).perform here home
  | .listen _ _ next => (next noNetwork).perform here home

/-- Runs the program with some arguments; the result is its exit code. -/
def runReal (words : List String) : IO UInt32 := do
  let here := Text.encode (← IO.currentDir).toString
  let home := Text.encode ((← IO.getEnv "HOME").getD "~")
  let outcome ← (taskOf here words).perform here home
  IO.print outcome.output
  IO.eprint outcome.errors
  return UInt32.ofNat outcome.exit

end MediaShelf.CommandLine

def main (words : List String) : IO UInt32 := MediaShelf.CommandLine.runReal words
