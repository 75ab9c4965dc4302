import MediaShelf.Settings.Basic

/-!
Volumes on the command line: a name, a number of slots and folders, as in `movies:2:/srv/a,/srv/b`.
Blanks around each part do not count, and neither do empty folders. Only the first two colons
separate; folders may hold more of them.
-/

namespace MediaShelf.Settings

open MediaShelf.Text

/-- Why a text is not a volume. -/
inductive MountTextError where
  | badForm
  /-- The number of slots is given as it was written. -/
  | badLimit (limit : String) (cause : UnsignedError)
  deriving DecidableEq, Repr

/-- The wording of an unreadable volume. -/
def MountTextError.message : MountTextError → String
  | badForm => "invalid format, expected 'ID:LIMIT:PATH,PATH'"
  | badLimit limit cause => "invalid limit " ++ quoted limit ++ ": " ++ cause.message

/-- The folders of a volume. -/
def mountPaths (s : List Char) : List Bytes :=
  (((s.splitOn ',').map trim).filter (· ≠ [])).map fun part => encode (String.ofList part)

/-- Reads a volume. -/
def parseMountText (text : String) : Except MountTextError VolumeSettings :=
  match cutAt? ':' text.toList with
  | none => .error .badForm
  | some (id, rest) =>
    match cutAt? ':' rest with
    | none => .error .badForm
    | some (limit, paths) =>
      match parseUnsigned word64Max (trim limit) with
      | .error cause => .error (.badLimit (String.ofList limit) cause)
      | .ok slots => .ok ⟨String.ofList (trim id), slots, mountPaths paths⟩

/-- Writes a volume. -/
def mountText (volume : VolumeSettings) : String :=
  volume.id ++ ":" ++ toString volume.slots ++ ":" ++
    ",".intercalate (volume.paths.map decodeLossy)

end MediaShelf.Settings
