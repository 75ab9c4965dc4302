import MediaShelf.Catalog.Scan
import MediaShelf.Shelf.Basic

/-!
Scanning every mount of a shelf, in the order of the volumes. The token is looked at before each
mount and throughout each walk. A mount that cannot be read is passed over; a scan that was called
off ends the round.
-/

namespace MediaShelf

open MediaShelf.Catalog
open MediaShelf.Files

/-- The same token after some looks at it. -/
def Catalog.Cancellation.after (cancel : Cancellation) (looks : Nat) : Cancellation :=
  cancel.map (· - looks)

/-- Scans mounts one after the other: the sum of what was done, and the catalog then. -/
def scanMounts (tree : Tree) (here : Place) (cancel : Cancellation) :
    List Mount → Registry → IdSource → ScanSummary × Registry × IdSource
  | [], r, ids => (.zero, r, ids)
  | mount :: rest, r, ids =>
    if cancel.fired 0 then (.zero, r, ids)
    else
      let looks := 1 + (tree.walk here mount.root).length
      match scanVolume tree here r ids mount.id mount.root (cancel.after 1) with
      | (.ok none, r, ids) => (.zero, r, ids)
      | (.ok (some summary), r, ids) =>
        let (total, r, ids) := scanMounts tree here (cancel.after looks) rest r ids
        (summary.add total, r, ids)
      | (.error _, r, ids) => scanMounts tree here (cancel.after looks) rest r ids

/-- Scans every mount of a shelf. -/
def Shelf.scanAll (shelf : Shelf) (tree : Tree) (here : Place) (cancel : Cancellation) :
    ScanSummary × Shelf :=
  let (total, registry, ids) :=
    scanMounts tree here cancel shelf.mounts shelf.registry shelf.ids
  (total, { shelf with registry := registry, ids := ids })

end MediaShelf
