import MediaShelf.Settings.Basic
import MediaShelf.Toml.Document

/-!
Settings from a TOML document. Every part may be left out, and what is not known is passed over.
The parts of a structure may also be given by position, in a list. Faults are found in the order of
the document, and the first one counts.
-/

namespace MediaShelf.Settings

open MediaShelf.Toml

/-- Why a document holds no settings. -/
inductive DocumentFault where
  /-- The text is no document. -/
  | malformed
  /-- A value is of another kind, or out of range. -/
  | shape
  | badMode (failure : Failure)
  | badSize (error : ByteSizeError)
  deriving DecidableEq

/-- The wording of a fault, where it has one of its own. -/
def DocumentFault.message? : DocumentFault → Option String
  | malformed => none
  | shape => none
  | badMode failure => some failure.message
  | badSize error => some error.message

/-- The outcome of reading a part of a document. -/
abbrev Decoded (α : Type) := Except DocumentFault α

/-- A text. -/
def textOf : Value → Decoded String
  | .text s => .ok s
  | _ => .error .shape

/-- A whole number up to a limit. -/
def numberOf (limit : Nat) : Value → Decoded Nat
  | .integer n => if 0 ≤ n ∧ n ≤ limit then .ok n.toNat else .error .shape
  | _ => .error .shape

/-- A list of values of one kind. -/
def listOf {α : Type} (item : Value → Decoded α) : Value → Decoded (List α)
  | .list items => items.mapM item
  | _ => .error .shape

/-- The mode that files are read in. -/
def modeOf (value : Value) : Decoded Resource.Mode :=
  match textOf value with
  | .error fault => .error fault
  | .ok text =>
    match Resource.Mode.parse text with
    | .ok mode => .ok mode
    | .error failure => .error (.badMode failure)

/-- A size that is given as a whole number of bytes. -/
def ByteSize.ofCount? (n : Int) : Option ByteSize :=
  if 0 ≤ n ∧ n ≤ Text.word64Max then some ⟨n.toNat⟩ else none

/-- A size: a whole number of bytes, or a text. -/
def sizeOf : Value → Decoded ByteSize
  | .integer n =>
    match ByteSize.ofCount? n with
    | some size => .ok size
    | none => .error .shape
  | .text s =>
    match ByteSize.parse s with
    | .ok size => .ok size
    | .error e => .error (.badSize e)
  | _ => .error .shape

/-- The parts of a structure: those of a table by name, and those of a list by position. -/
def partsOf (names : List String) : Value → Decoded (List (String × Value))
  | .table fields => .ok fields
  | .list items => .ok (names.zip items)
  | .moment => .ok []
  | _ => .error .shape

/-- A structure that starts as its default, and that each part changes. -/
def structureOf {α : Type} (names : List String) (start : α)
    (part : α → String → Value → Decoded α) (value : Value) : Decoded α :=
  match partsOf names value with
  | .error fault => .error fault
  | .ok parts => parts.foldlM (fun a (key, value) => part a key value) start

/-- One part of how the server listens. -/
def serverPart (s : ServerSettings) (key : String) (value : Value) : Decoded ServerSettings :=
  match key with
  | "host" => (textOf value).map fun host => { s with host := host }
  | "port" => (numberOf Text.word16Max value).map fun port => { s with port := port }
  | "admission_timeout_secs" =>
    (numberOf Text.word64Max value).map fun seconds => { s with admissionTimeout := seconds }
  | "shutdown_grace_secs" =>
    (numberOf Text.word64Max value).map fun seconds => { s with shutdownGrace := seconds }
  | _ => .ok s

/-- One part of a volume. -/
def volumePart (v : VolumeSettings) (key : String) (value : Value) : Decoded VolumeSettings :=
  match key with
  | "id" => (textOf value).map fun id => { v with id := id }
  | "max_io" => (numberOf Text.word64Max value).map fun slots => { v with slots := slots }
  | "paths" =>
    (listOf textOf value).map fun paths => { v with paths := paths.map Text.encode }
  | _ => .ok v

/-- A volume. -/
def volumeOf (value : Value) : Decoded VolumeSettings :=
  structureOf ["id", "max_io", "paths"] defaultVolume volumePart value

/-- One part of how media files are found and read. -/
def mediaPart (m : MediaSettings) (key : String) (value : Value) : Decoded MediaSettings :=
  match key with
  | "mode" => (modeOf value).map fun mode => { m with mode := mode }
  | "buffer_size" => (sizeOf value).map fun size => { m with bufferSize := size }
  | "max_io" => (numberOf Text.word64Max value).map fun slots => { m with slots := slots }
  | "rescan_interval_secs" =>
    (numberOf Text.word64Max value).map fun seconds => { m with rescanInterval := seconds }
  | "volumes" => (listOf volumeOf value).map fun volumes => { m with volumes := volumes }
  | _ => .ok m

/-- One part of the settings. -/
def settingsPart (s : Settings) (key : String) (value : Value) : Decoded Settings :=
  match key with
  | "server" =>
    (structureOf ["host", "port", "admission_timeout_secs", "shutdown_grace_secs"]
      defaultServer serverPart value).map fun server => { s with server := server }
  | "media" =>
    (structureOf ["mode", "buffer_size", "max_io", "rescan_interval_secs", "volumes"]
      defaultMedia mediaPart value).map fun media => { s with media := media }
  | _ => .ok s

/-- The settings that a text holds. -/
def ofText (text : String) : Decoded Settings :=
  match Toml.parse? text with
  | none => .error .malformed
  | some fields => structureOf ["server", "media"] Settings.default settingsPart (.table fields)

end MediaShelf.Settings
