import MediaShelf.Catalog.EntryId
import MediaShelf.Library.Media

/-!
Entries of the catalog: one for each media file that was found, or that was put in by hand.
-/

namespace MediaShelf.Catalog

/-- The name of a volume. -/
abbrev VolumeId := String

/-- One file of the catalog. -/
structure Entry where
  id : EntryId
  volume : VolumeId
  /-- The path below the root of the volume. -/
  path : Bytes
  name : String
  category : String
  /-- The size in bytes when the file was found. -/
  size : Nat
  deriving DecidableEq

/-- Where an entry belongs: its volume, and its path by steps, so that two spellings of a path
are one place. -/
structure PathKey where
  volume : VolumeId
  steps : List Files.Step
  deriving DecidableEq

/-- The key of a path on a volume. -/
def PathKey.of (volume : VolumeId) (path : Bytes) : PathKey := ⟨volume, Files.steps path⟩

namespace Entry

/-- The entry of a file, named and grouped by its path. -/
def ofFile (id : EntryId) (volume : VolumeId) (path : Bytes) (size : Nat) : Entry :=
  ⟨id, volume, path, Library.displayName path, Library.category path, size⟩

/-- The key of an entry. -/
def key (entry : Entry) : PathKey := .of entry.volume entry.path

/-- The order of listings: by name, and by identifier where names are equal. -/
def precedes (a b : Entry) : Bool :=
  a.name < b.name || (a.name == b.name && a.id.le b.id)

end Entry

end MediaShelf.Catalog
