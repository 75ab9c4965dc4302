import MediaShelf.Resource.Basic
import MediaShelf.Settings.ByteSize

/-!
The settings of the program: where the server listens, how files are read, and which folders are
served.
-/

namespace MediaShelf

/-- How the server listens. -/
structure ServerSettings where
  host : String
  port : Nat
  /-- How many seconds a request for a file waits for a slot. -/
  admissionTimeout : Nat
  /-- How many seconds open connections are given when the server shuts down. -/
  shutdownGrace : Nat
  deriving DecidableEq, Repr

/-- A group of root folders under one name. -/
structure VolumeSettings where
  /-- The name; one is made up where it is empty. -/
  id : String
  slots : Nat
  paths : List Bytes
  deriving DecidableEq, Repr

/-- How media files are found and read. -/
structure MediaSettings where
  mode : Resource.Mode
  bufferSize : Settings.ByteSize
  /-- The slots of volumes that are given by their folders alone. -/
  slots : Nat
  /-- The seconds between two scans. -/
  rescanInterval : Nat
  volumes : List VolumeSettings
  deriving DecidableEq, Repr

/-- All settings. -/
structure Settings where
  server : ServerSettings
  media : MediaSettings
  deriving DecidableEq, Repr

namespace Settings

/-- The slots of a volume unless it is told otherwise. -/
def defaultSlots : Nat := 10

/-- How the server listens unless it is told otherwise. -/
def defaultServer : ServerSettings := ⟨"0.0.0.0", 8081, 5, 15⟩

/-- How media files are found and read unless it is told otherwise. -/
def defaultMedia : MediaSettings :=
  ⟨.buffered, ⟨10 * Nat.pow 2 20⟩, defaultSlots, 300, []⟩

/-- A volume unless it is told otherwise. -/
def defaultVolume : VolumeSettings := ⟨"", defaultSlots, []⟩

end Settings

/-- The settings unless they are told otherwise. -/
def Settings.default : Settings := ⟨Settings.defaultServer, Settings.defaultMedia⟩

/-- A volume of some folders, without a name. -/
def VolumeSettings.ofPaths (paths : List Bytes) (slots : Nat) : VolumeSettings :=
  ⟨"", slots, paths⟩

end MediaShelf
