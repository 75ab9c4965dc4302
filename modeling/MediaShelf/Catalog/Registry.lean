import MediaShelf.Catalog.Entry
import MediaShelf.Catalog.Table
import MediaShelf.Failure

/-!
The catalog: entries by identifier, and identifiers by path. The two tables are only changed
together: putting an entry in puts out whatever stood under its identifier or at its path.
-/

namespace MediaShelf.Catalog

/-- The catalog as two tables. -/
structure Registry where
  byId : Table EntryId Entry
  byPath : Table PathKey EntryId

namespace Registry

/-- The catalog without entries. -/
def empty : Registry := ⟨.empty, .empty⟩

/-- Puts out the entry at a path other than the one with identifier `id`. -/
def displacePath (r : Registry) (key : PathKey) (id : EntryId) : Registry :=
  match r.byPath.get? key with
  | some previous => if previous ≠ id then { r with byId := r.byId.erase previous } else r
  | none => r

/-- Forgets the path of the entry with identifier `id` if it is not `key`. -/
def displaceId (r : Registry) (key : PathKey) (id : EntryId) : Registry :=
  match r.byId.get? id with
  | some stale => if stale.key ≠ key then { r with byPath := r.byPath.erase stale.key } else r
  | none => r

/-- Puts an entry in, in the stead of any entry with its identifier or at its path. -/
def insert (r : Registry) (entry : Entry) : Registry :=
  let r := (r.displacePath entry.key entry.id).displaceId entry.key entry.id
  ⟨r.byId.insert entry.id entry, r.byPath.insert entry.key entry.id⟩

/-- Takes the entry at a path away. -/
def remove (r : Registry) (key : PathKey) : Option Entry × Registry :=
  match r.byPath.get? key with
  | none => (none, r)
  | some id => (r.byId.get? id, ⟨r.byId.erase id, r.byPath.erase key⟩)

/-- Takes the entry at a path away if it still is the one with identifier `expected`. -/
def removeIfCurrent (r : Registry) (key : PathKey) (expected : EntryId) : Bool × Registry :=
  if r.byPath.get? key = some expected then
    let (removed, r) := r.remove key
    (removed.isSome, r)
  else (false, r)

/-- The entry with an identifier. -/
def get (r : Registry) (id : EntryId) : Except Failure Entry :=
  if id = .nil then .error (.notFound "nil id")
  else match r.byId.get? id with
    | some entry => .ok entry
    | none => .error (.notFound id.toText)

/-- The identifier of the entry at a path. -/
def idForPath (r : Registry) (volume : VolumeId) (path : Bytes) : Option EntryId :=
  r.byPath.get? (.of volume path)

/-- Every entry, by name and then by identifier. -/
def list (r : Registry) : List Entry := r.byId.values.mergeSort Entry.precedes

/-- The number of entries. -/
def size (r : Registry) : Nat := r.byId.size

/-- The number of paths of a volume. -/
def volumeSize (r : Registry) (volume : VolumeId) : Nat :=
  (r.byPath.keys.filter (·.volume = volume)).length

end Registry

end MediaShelf.Catalog
