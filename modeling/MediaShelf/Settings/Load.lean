import MediaShelf.Files.Lookup
import MediaShelf.Settings.Decode
import MediaShelf.Settings.Sound

/-!
Settings from files: the one that is asked for, or the first that exists of a few usual places, or
the defaults.
-/

namespace MediaShelf.Settings

open MediaShelf.Files
open MediaShelf.Text

/-- Why settings were not loaded. -/
inductive LoadFault where
  | unreadable (path : Bytes) (fault : Fault)
  | undecodable (path : Bytes) (fault : DocumentFault)
  | unsound (unsound : Unsound)
  deriving DecidableEq

/-- What a message says of a document: that it is one that cannot be read, and why where the reason
has a wording. -/
def DocumentFault.text (fault : DocumentFault) : String :=
  "TOML parse error" ++ (match fault.message? with | some message => "\n" ++ message | none => "")

/-- The wording of a fault, the outermost message first. -/
def LoadFault.chain : LoadFault → List String
  | unreadable path fault =>
    ["Failed to read config file: " ++ quotedPath (decodeLossy path), fault.text]
  | undecodable path fault =>
    ["Failed to parse config file: " ++ quotedPath (decodeLossy path), fault.text]
  | unsound cause => cause.chain

/-- The place that the program runs in: the files, the folder it is in, and the home folder. -/
structure Surroundings where
  tree : Tree
  here : Place
  home : Bytes

/-- The path of the folder that the program is in. -/
def Surroundings.herePath (s : Surroundings) : Bytes := placePath s.here

/-- A file that is no text. -/
def noText : Fault := ⟨.invalidData, "stream did not contain valid UTF-8"⟩

/-- The settings in a file at `path`, given what reading it gave. -/
def ofFile (here path : Bytes) : Except Fault Bytes → Except LoadFault Settings
  | .error fault => .error (.unreadable path fault)
  | .ok bytes =>
    match decode? bytes with
    | none => .error (.unreadable path noText)
    | some text =>
      match ofText text with
      | .error fault => .error (.undecodable path fault)
      | .ok settings =>
        match check here settings with
        | .error unsound => .error (.unsound unsound)
        | .ok () => .ok settings

/-- Loads settings from a file. -/
def load (s : Surroundings) (path : Bytes) : Except LoadFault Settings :=
  ofFile s.herePath path (s.tree.readFile s.here path)

/-- The usual places of settings, in the order in which they are tried. -/
def usualPlaces (home : Bytes) : List Bytes :=
  [encode "./reelhouse.toml", encode "./config.toml",
   home ++ encode "/.config/reelhouse/config.toml", encode "/etc/reelhouse/config.toml"]

/-- Loads settings from the file that is asked for, or from the first usual place that exists. -/
def loadOrDefault (s : Surroundings) (asked : Option Bytes) : Except LoadFault Settings :=
  match asked with
  | some path => load s path
  | none =>
    match (usualPlaces s.home).find? (s.tree.hasPath s.here ·) with
    | some path => load s path
    | none => .ok Settings.default

end MediaShelf.Settings
