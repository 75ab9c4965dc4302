import MediaShelf.Catalog.Registry
import MediaShelf.Files.Walk

/-!
Bringing the catalog of a volume in line with the files below its root, in three parts: a walk
that finds the media files, a comparison with the catalog, and a change of the catalog. Other
changes may come between the last two: what was replaced since is not taken away, and what was
put in since is not put in again.
-/

namespace MediaShelf.Catalog

open MediaShelf.Files

/-- What a scan did to a volume. -/
structure ScanSummary where
  added : Nat
  removed : Nat
  unchanged : Nat
  deriving DecidableEq, Repr

namespace ScanSummary

/-- The summary of nothing. -/
def zero : ScanSummary := ⟨0, 0, 0⟩

/-- Whether a scan changed nothing. -/
def isIdle (s : ScanSummary) : Bool := s.added == 0 && s.removed == 0

/-- Two summaries in one. -/
def add (a b : ScanSummary) : ScanSummary :=
  ⟨a.added + b.added, a.removed + b.removed, a.unchanged + b.unchanged⟩

end ScanSummary

/-- A media file that a walk found: its path below the root, and its size. -/
structure Found where
  path : Bytes
  size : Nat
  deriving DecidableEq

/-- When a token that calls a scan off is seen to have fired: after so many looks, or never. -/
abbrev Cancellation := Option Nat

/-- Whether the token has fired at a look. -/
def Cancellation.fired (cancel : Cancellation) (look : Nat) : Bool :=
  match cancel with
  | some first => first ≤ look
  | none => false

/-- The media file that an item of a walk is, if it is one: a file with an admitted extension
that is not empty. `size` tells the sizes of files. -/
def found? (size : FileNumber → Nat) : WalkItem → Option Found
  | .met names (.file number) =>
    let path := joinNames names
    if Library.isMedia path && size number != 0 then some ⟨path, size number⟩ else none
  | _ => none

/-- Goes through a walk, looking at the token before every item; `none` if it has fired. Only an
unreadable start is a failure, anything unreadable below it is passed over. -/
def collect (size : FileNumber → Nat) (cancel : Cancellation) (look : Nat) :
    List WalkItem → Except Fault (Option (List Found))
  | [] => .ok (some [])
  | item :: rest =>
    if cancel.fired look then .ok none
    else
      match item with
      | .unreadable 0 fault => .error fault
      | _ =>
        match collect size cancel (look + 1) rest with
        | .ok (some found) => .ok (some ((found? size item).toList ++ found))
        | other => other

/-- The media files below a root. -/
def walkVolume (tree : Tree) (here : Place) (root : Bytes) (cancel : Cancellation) :
    Except Fault (Option (List Found)) :=
  collect tree.sizeOf cancel 0 (tree.walk here root)

/-- What a scan is going to do. -/
structure Difference where
  gone : List (PathKey × EntryId)
  fresh : List Found
  unchanged : Nat

/-- Whether a path is one of a volume, and nothing was found there. -/
def isGone (volume : VolumeId) (found : List Found) (key : PathKey) : Bool :=
  key.volume = volume && ! (found.any fun f => steps f.path == key.steps)

/-- Compares what was found with the catalog of a volume. -/
def Difference.of (r : Registry) (volume : VolumeId) (found : List Found) : Difference :=
  let fresh := found.filter fun f => ¬ r.byPath.has (.of volume f.path)
  { gone := r.byPath.pairs.filter fun pair => isGone volume found pair.1
    fresh := fresh
    unchanged := found.length - fresh.length }

/-- Takes the paths away that still have the entries they were compared with; how many did. -/
def removeGone (r : Registry) : List (PathKey × EntryId) → Nat × Registry
  | [] => (0, r)
  | (key, id) :: rest =>
    let (done, r) := r.removeIfCurrent key id
    let (count, r) := removeGone r rest
    ((if done then 1 else 0) + count, r)

/-- Puts the files in that still have no entry; how many had none. -/
def addFresh (r : Registry) (ids : IdSource) (volume : VolumeId) :
    List Found → Nat × Registry × IdSource
  | [] => (0, r, ids)
  | f :: rest =>
    if r.byPath.has (.of volume f.path) then addFresh r ids volume rest
    else
      let (id, ids) := ids.next
      let (count, r, ids) := addFresh (r.insert (.ofFile id volume f.path f.size)) ids volume rest
      (1 + count, r, ids)

/-- Changes the catalog by a difference. -/
def Difference.apply (d : Difference) (r : Registry) (ids : IdSource) (volume : VolumeId) :
    ScanSummary × Registry × IdSource :=
  let (removed, r) := removeGone r d.gone
  let (added, r, ids) := addFresh r ids volume d.fresh
  (⟨added, removed, d.unchanged⟩, r, ids)

/-- The outcome of a scan: a failure, a scan called off, or what was done. -/
abbrev ScanOutcome := Except Failure (Option ScanSummary)

/-- Brings the catalog of a volume in line with what a walk found. -/
def reconcile (r : Registry) (ids : IdSource) (volume : VolumeId) :
    Except Fault (Option (List Found)) → ScanOutcome × Registry × IdSource
  | .error fault => (.error (.fault fault), r, ids)
  | .ok none => (.ok none, r, ids)
  | .ok (some found) =>
    let (summary, r, ids) := (Difference.of r volume found).apply r ids volume
    (.ok (some summary), r, ids)

/-- Brings the catalog of a volume in line with the files below `root`. -/
def scanVolume (tree : Tree) (here : Place) (r : Registry) (ids : IdSource) (volume : VolumeId)
    (root : Bytes) (cancel : Cancellation) : ScanOutcome × Registry × IdSource :=
  reconcile r ids volume (walkVolume tree here root cancel)

end MediaShelf.Catalog
