import MediaShelf.Admission.Limiter
import MediaShelf.Catalog.Entry

/-!
Mounts: root folders that are served, each as a volume with slots of its own.
-/

namespace MediaShelf

open MediaShelf.Admission
open MediaShelf.Catalog

/-- A mount that is asked for. -/
structure MountPlan where
  id : VolumeId
  root : Bytes
  slots : Nat
  deriving DecidableEq

/-- A root folder that is served as a volume. -/
structure Mount where
  id : VolumeId
  root : Bytes
  limiter : Limiter
  deriving DecidableEq

/-- A mount with every slot free, if there can be so many slots. -/
def Mount.ofPlan? (plan : MountPlan) : Option Mount :=
  (Limiter.ofCapacity? plan.slots).map fun limiter => ⟨plan.id, plan.root, limiter⟩

/-- Mounts in the order of their volumes. -/
abbrev MountTable := List Mount

namespace MountTable

/-- The mount of a volume. -/
def find? (table : MountTable) (id : VolumeId) : Option Mount := List.find? (·.id = id) table

/-- Puts a mount in its place in the order. -/
def put (mount : Mount) : MountTable → MountTable
  | [] => [mount]
  | first :: rest =>
    if mount.id < first.id then mount :: first :: rest else first :: put mount rest

/-- Why mounts do not make a table. -/
inductive Clash where
  /-- A volume without a name. -/
  | unnamed
  /-- Two volumes of one name. -/
  | duplicate (id : VolumeId)
  deriving DecidableEq, Repr

/-- The wording of a clash. -/
def Clash.text : Clash → String
  | unnamed => "volume id must not be empty"
  | duplicate id => "duplicate volume id: " ++ id

/-- Adds mounts to a table, one after the other. -/
def extend (table : MountTable) : List Mount → Except Clash MountTable
  | [] => .ok table
  | mount :: rest =>
    if mount.id = "" then .error .unnamed
    else if (table.find? mount.id).isSome then .error (.duplicate mount.id)
    else extend (table.put mount) rest

/-- The table of some mounts. -/
def ofMounts (mounts : List Mount) : Except Clash MountTable := extend [] mounts

/-- Changes the limiter of a volume. -/
def changeLimiter (change : Limiter → Limiter) (id : VolumeId) (table : MountTable) :
    MountTable :=
  table.map fun mount =>
    if mount.id = id then { mount with limiter := change mount.limiter } else mount

end MountTable

end MediaShelf
