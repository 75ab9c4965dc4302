import MediaShelf.Files.Path
import MediaShelf.Settings.Basic

/-!
Which settings can be served: the server has a port, a buffer is not empty, every volume has a
folder, and no folder is given twice. Folders are compared in their absolute form.
-/

namespace MediaShelf.Settings

open MediaShelf.Files
open MediaShelf.Text

/-- What is wrong with settings. -/
inductive Unsound where
  | zeroPort
  | zeroBuffer
  /-- A volume without folders. -/
  | noPaths (label : String)
  /-- A folder without a path. -/
  | emptyPath
  /-- A folder that two volumes hold, or one volume twice. -/
  | sharedPath (path : Bytes) (first second : String)
  deriving DecidableEq

/-- The wording of what is wrong, the outermost message first. -/
def Unsound.chain : Unsound → List String
  | zeroPort => ["Server port cannot be 0"]
  | zeroBuffer => ["Buffer size must be greater than 0 in buffered mode"]
  | noPaths label => ["Volume '" ++ label ++ "' must have at least one path"]
  | emptyPath => ["Failed to resolve path \"\"", "cannot make an empty path absolute"]
  | sharedPath path first second =>
    ["Path " ++ quotedPath (decodeLossy path) ++ " is mounted by more than one volume ('" ++
      first ++ "' and '" ++ second ++ "')"]

/-- The absolute form of a path, by steps, as seen from a folder. Steps up are kept. -/
def absoluteSteps? (here : Bytes) (path : Bytes) : Option (List Step) :=
  if path = [] then none
  else if isAbsolute path then some (steps path)
  else
    let inner := match steps path with
      | .here :: rest => rest
      | inner => inner
    some (steps here ++ inner)

/-- What messages call a volume: its name, or its number if it has none. -/
def volumeLabel (number : Nat) (volume : VolumeSettings) : String :=
  if volume.id = "" then "#" ++ toString number else volume.id

/-- The folders that were met, each with the volume that holds it. -/
abbrev Mounted := List (List Step × String)

/-- Goes through the folders of a volume. -/
def checkPaths (here : Bytes) (label : String) (mounted : Mounted) :
    List Bytes → Except Unsound Mounted
  | [] => .ok mounted
  | path :: rest =>
    match absoluteSteps? here path with
    | none => .error .emptyPath
    | some absolute =>
      match mounted.lookup absolute with
      | some other => .error (.sharedPath path other label)
      | none => checkPaths here label ((absolute, label) :: mounted) rest

/-- Goes through the volumes, the first of which has the given number. -/
def checkVolumes (here : Bytes) (number : Nat) (mounted : Mounted) :
    List VolumeSettings → Except Unsound Unit
  | [] => .ok ()
  | volume :: rest =>
    let label := volumeLabel number volume
    if volume.paths = [] then .error (.noPaths label)
    else
      match checkPaths here label mounted volume.paths with
      | .error unsound => .error unsound
      | .ok mounted => checkVolumes here (number + 1) mounted rest

/-- Whether settings can be served from a folder; the first thing that is wrong if not. -/
def check (here : Bytes) (s : Settings) : Except Unsound Unit :=
  if s.server.port = 0 then .error .zeroPort
  else if s.media.mode = .buffered ∧ s.media.bufferSize.bytes = 0 then .error .zeroBuffer
  else checkVolumes here 1 [] s.media.volumes

end MediaShelf.Settings
