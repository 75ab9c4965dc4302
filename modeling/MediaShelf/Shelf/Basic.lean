import MediaShelf.Catalog.Registry
import MediaShelf.Library.Playlist
import MediaShelf.Resource.Basic
import MediaShelf.Shelf.Mount

/-!
A shelf: the mounted volumes, the catalog of what they hold, and how files on them are read.
-/

namespace MediaShelf

open MediaShelf.Admission
open MediaShelf.Catalog
open MediaShelf.Library

/-- The mounted volumes and their catalog. -/
structure Shelf where
  mode : Resource.Mode
  /-- How many bytes are read ahead in buffered mode. -/
  bufferSize : Nat
  mounts : MountTable
  /-- The time between two scans of every mount, in milliseconds. -/
  rescanInterval : Nat
  registry : Registry
  ids : IdSource

namespace Shelf

/-- The time between two scans unless it is told otherwise: five minutes. -/
def defaultRescanInterval : Nat := 5 * 60 * 1000

/-- The identifiers of a new shelf, in increasing order. -/
def firstIds : IdSource := .after ⟨0x01900000_0000_7000_8000_000000000000⟩

/-- A shelf with an empty catalog; a buffer size of 0 counts as 1. -/
def ofMounts (mode : Resource.Mode) (bufferSize : Nat) (mounts : List Mount) :
    Except Failure Shelf :=
  match MountTable.ofMounts mounts with
  | .error clash => .error (.invalidInput clash.text)
  | .ok table =>
    .ok ⟨mode, max bufferSize 1, table, defaultRescanInterval, .empty, firstIds⟩

/-- The mount of a volume. -/
def mount (shelf : Shelf) (id : VolumeId) : Except Failure Mount :=
  match shelf.mounts.find? id with
  | some mount => .ok mount
  | none => .error (.volumeNotFound id)

/-- Changes the limiter of a volume. -/
def changeLimiter (shelf : Shelf) (id : VolumeId) (change : Limiter → Limiter) : Shelf :=
  { shelf with mounts := shelf.mounts.changeLimiter change id }

/-- The entry as listings show it. -/
def listed (entry : Entry) : ListedFile := ⟨entry.id, entry.name, entry.category, entry.size⟩

/-- Every file of the catalog, by name. -/
def files (shelf : Shelf) : List ListedFile := shelf.registry.list.map listed

/-- The files of the catalog that a filter lets through. -/
def filesOf (shelf : Shelf) (filter : CategoryFilter) : List ListedFile :=
  shelf.files.filter fun file => filter.admits file.category

end Shelf

end MediaShelf
