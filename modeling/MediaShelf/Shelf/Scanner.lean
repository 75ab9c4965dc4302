import MediaShelf.Shelf.Rescan

/-!
The scanner of a shelf, step by step. When a round is due, it goes from mount to mount: it looks at
the token, walks the mount while others may cancel the token, compares what it found with the
catalog, and changes the catalog. A change that has been made out is made, even if the token is
cancelled in between. Only between two rounds does the scanner stop.
-/

namespace MediaShelf

open MediaShelf.Catalog
open MediaShelf.Files

/-- What the scanner is at. -/
inductive ScannerPhase where
  | unstarted
  /-- The next round is not due yet. -/
  | resting
  /-- On a round, with these mounts to come. -/
  | between (left : List Mount)
  | walking (mount : Mount) (left : List Mount)
  /-- A walk has been compared with the catalog. -/
  | changing (volume : VolumeId) (difference : Difference) (left : List Mount)
  | stopped

/-- What happens to the scanner. -/
inductive ScannerEvent where
  /-- A round is due. -/
  | due
  /-- The token is looked at before the next mount is walked. -/
  | look
  /-- A walk ends that has found the files as they were then. If the token had been cancelled, it
  may have been seen at one of the looks on the way. -/
  | walked (tree : Tree) (here : Place) (seen : Cancellation)
  | changed
  /-- The token is looked at between two rounds. -/
  | stops

/-- What the scanner is at after an event, and the shelf then. Events that cannot happen in a phase
change nothing. -/
def ScannerPhase.step (cancelled : Bool) (phase : ScannerPhase) (shelf : Shelf)
    (event : ScannerEvent) : ScannerPhase × Shelf :=
  match phase, event with
  | .resting, .due => (if cancelled then .resting else .between shelf.mounts, shelf)
  | .resting, .stops => (if cancelled then .stopped else .resting, shelf)
  | .between [], .look => (.resting, shelf)
  | .between (mount :: left), .look =>
    (if cancelled then .resting else .walking mount left, shelf)
  | .walking mount left, .walked tree here seen =>
    match walkVolume tree here mount.root (if cancelled then seen else none) with
    | .error _ => (.between left, shelf)
    | .ok none => (.resting, shelf)
    | .ok (some found) =>
      (.changing mount.id (Difference.of shelf.registry mount.id found) left, shelf)
  | .changing volume difference left, .changed =>
    let (_, registry, ids) := difference.apply shelf.registry shelf.ids volume
    (.between left, { shelf with registry := registry, ids := ids })
  | _, _ => (phase, shelf)

/-- The events of a round through which the files stay as they are. -/
def ScannerEvent.round (tree : Tree) (here : Place) (mounts : List Mount) : List ScannerEvent :=
  .due :: mounts.flatMap (fun _ => [.look, .walked tree here none, .changed]) ++ [.look]

end MediaShelf
