import MediaShelf.Settings.Basic
import MediaShelf.Shelf.Basic

/-!
From volumes to mounts. A volume with one folder is one mount; one with more is a mount for each,
numbered from 1. A volume without a name is given a made-up one.
-/

namespace MediaShelf.Settings

open MediaShelf.Catalog

/-- The mounts of a volume that is called `id`. -/
def volumePlans (id : VolumeId) (volume : VolumeSettings) : List MountPlan :=
  let slots := max volume.slots 1
  match volume.paths with
  | [path] => [⟨id, path, slots⟩]
  | paths =>
    paths.zipIdx.map fun (path, i) => ⟨id ++ "-" ++ toString (i + 1), path, slots⟩

/-- The name of a volume: the one it has, or the next made-up one. -/
def volumeName (ids : IdSource) (volume : VolumeSettings) : VolumeId × IdSource :=
  if volume.id = "" then
    let (id, ids) := ids.next
    (id.toText, ids)
  else (volume.id, ids)

/-- The mounts of some volumes, in order. -/
def plans (ids : IdSource) : List VolumeSettings → List MountPlan × IdSource
  | [] => ([], ids)
  | volume :: rest =>
    let (id, ids) := volumeName ids volume
    let (more, ids) := plans ids rest
    (volumePlans id volume ++ more, ids)

/-- Why there is no shelf. -/
inductive ShelfFault where
  /-- A volume was to have more slots than there can be. -/
  | tooManySlots
  | failure (failure : Failure)
  deriving DecidableEq

/-- The wording of a fault, the outermost message first. -/
def ShelfFault.chain : ShelfFault → List String
  | tooManySlots =>
    ["A volume may not have more than " ++ toString Admission.maxSlots ++ " slots"]
  | failure cause => ["Failed to set up media volumes", cause.message]

/-- The shelf of some media settings, with an empty catalog; made-up names and identifiers come from
`ids`. Scans are at least a second apart. -/
def shelfFrom (ids : IdSource) (media : MediaSettings) : Except ShelfFault Shelf :=
  let (plans, ids) := plans ids media.volumes
  match plans.mapM Mount.ofPlan? with
  | none => .error .tooManySlots
  | some mounts =>
    match Shelf.ofMounts media.mode media.bufferSize.bytes mounts with
    | .error failure => .error (.failure failure)
    | .ok shelf =>
      .ok { shelf with rescanInterval := max media.rescanInterval 1 * 1000, ids := ids }

/-- The shelf of some media settings, with the identifiers of a new shelf. -/
def shelf (media : MediaSettings) : Except ShelfFault Shelf := shelfFrom Shelf.firstIds media

end MediaShelf.Settings
