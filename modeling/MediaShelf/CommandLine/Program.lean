import MediaShelf.CommandLine.Command
import MediaShelf.Server.Address
import MediaShelf.Settings.Load
import MediaShelf.Settings.Mounts
import MediaShelf.Shelf.Rescan

/-!
What the program does for its arguments. A task says step by step what it needs from outside:
settings from a file, a scan of the mounted folders, a port to listen at. What it prints is decided
here alone.
-/

namespace MediaShelf.CommandLine

open MediaShelf.Files
open MediaShelf.Library
open MediaShelf.Server
open MediaShelf.Settings
open MediaShelf.Text

/-- How a run of the program ends. -/
structure Outcome where
  exit : Nat
  output : String
  errors : String
  deriving DecidableEq, Repr

/-- What a run of the program does. -/
inductive Task where
  | finish (outcome : Outcome)
  /-- Needs settings, from a file that may be named. -/
  | load (asked : Option Bytes) (next : Except LoadFault Settings → Task)
  /-- Needs a scan of every mount of a shelf. -/
  | scan (shelf : Shelf) (next : Shelf → Task)
  /-- Serves a shelf at an address, and goes on only if it cannot listen there. -/
  | listen (address : SocketAddress) (shelf : Shelf) (next : Fault → Task)

/-! ## Messages -/

/-- The name and the version of the program. -/
def versionText : String := "reelhouse 0.1.0\n"

/-- How the program is called. -/
def usageText : String :=
  "Stream a home video library to TVs and players over HTTP\n\n" ++
  "Usage: reelhouse [OPTIONS] <COMMAND>\n\n" ++
  "Commands:\n" ++
  "  serve     Start the streaming server\n" ++
  "  scan      Scan media roots once and print the catalog\n" ++
  "  validate  Validate configuration file\n" ++
  "  version   Display version information\n" ++
  "  help      Print this message or the help of the given subcommand(s)\n\n" ++
  "Options:\n" ++
  "  -c, --config <CONFIG>  Path to config file\n" ++
  "  -v, --verbose          Enable verbose logging\n" ++
  "  -h, --help             Print help\n" ++
  "  -V, --version          Print version\n"

/-- A run that ends well. -/
def success (output : String) : Outcome := ⟨0, output, ""⟩

/-- A text whose further lines stand four blanks to the right, as its first one does. -/
def indented (text : String) : String :=
  "    " ++ String.ofList (text.toList.flatMap fun c =>
    if c = '\n' then "\n    ".toList else [c])

/-- A text behind its number, with its further lines below it. -/
def numbered (number : Nat) (text : String) : String :=
  let label := toString number
  "".pushn ' ' (5 - label.length) ++ label ++ ": " ++ String.ofList (text.toList.flatMap fun c =>
    if c = '\n' then "\n       ".toList else [c])

/-- The causes of a failure: numbered if there is more than one. -/
def causesText : List String → String
  | [] => ""
  | [cause] => "\n\nCaused by:\n" ++ indented cause
  | causes =>
    "\n\nCaused by:\n" ++
      "\n".intercalate (causes.zipIdx.map fun (cause, i) => numbered i cause)

/-- A run that fails, with its messages, the outermost first. -/
def failed (chain : List String) : Outcome :=
  ⟨1, "", "Error: " ++ chain.headD "" ++ causesText (chain.drop 1) ++ "\n"⟩

/-- What a refusal of the arguments says. -/
def Refused.text : Refused → String
  | badValue text => "invalid value: " ++ text
  | emptyValue => "a value is required"
  | unneededValue => "unexpected value"
  | unknownArgument => "unexpected argument"
  | repeated => "the argument cannot be used multiple times"
  | unknownCommand => "unrecognized subcommand"
  | missingCommand => "a subcommand is required"
  | _ => ""

/-- A run whose arguments are refused. -/
def refusedOutcome : Refused → Outcome
  | .help => success usageText
  | .version => success versionText
  | .bareHelp => ⟨2, "", usageText⟩
  | refused => ⟨2, "", "error: " ++ refused.text ++ "\n\n" ++ usageText⟩

/-! ## Listings -/

/-- A text filled up with blanks behind it. -/
def padRight (width : Nat) (text : String) : String := text.pushn ' ' (width - text.length)

/-- A text filled up with blanks in front. -/
def padLeft (width : Nat) (text : String) : String :=
  "".pushn ' ' (width - text.length) ++ text

/-- One line of the catalog. -/
def catalogLine (id category size name : String) : String :=
  id ++ " " ++ padRight 20 category ++ " " ++ padLeft 12 size ++ "  " ++ name ++ "\n"

/-- The catalog as a table with a line for each file. -/
def catalogTable (files : List ListedFile) (mounts : Nat) : String :=
  catalogLine (padRight 38 "ID") "CATEGORY" "SIZE" "NAME" ++
    String.join (files.map fun file =>
      catalogLine file.id.toText file.category (toString file.size) file.name) ++
    "\n" ++ toString files.length ++ " files across " ++ toString mounts ++ " mounts\n"

/-- The catalog in JSON. -/
def catalogJson (files : List ListedFile) : String :=
  (listingJson files).pretty ++ "\n"

/-- One line about a volume. -/
def volumeLine (volume : VolumeSettings) : String :=
  "  Volume " ++ (if volume.id = "" then "<generated>" else volume.id) ++ ": max_io " ++
    toString volume.slots ++ ", " ++ toString volume.paths.length ++ " path(s)\n"

/-- What is said of settings that can be served. -/
def settingsText (s : Settings) : String :=
  "Configuration is valid\n" ++
    "  Server: " ++ s.server.host ++ ":" ++ toString s.server.port ++ "\n" ++
    "  Media: mode " ++ s.media.mode.name ++ ", buffer " ++ s.media.bufferSize.toText ++
    ", rescan every " ++ toString s.media.rescanInterval ++ "s\n" ++
    String.join (s.media.volumes.map volumeLine)

/-! ## Tasks -/

/-- What cannot be read as an address. -/
def badAddress : List String := ["Invalid server address", "invalid socket address syntax"]

/-- The address that settings ask for. -/
def addressText (s : ServerSettings) : String := s.host ++ ":" ++ toString s.port

/-- Goes on with a shelf, if the settings make one. -/
def withShelf (media : MediaSettings) (next : Shelf → Task) : Task :=
  match shelf media with
  | .error fault => .finish (failed fault.chain)
  | .ok shelf => next shelf

/-- Goes on with settings that can be served from a folder. -/
def withSound (here : Bytes) (s : Settings) (next : Task) : Task :=
  match check here s with
  | .error unsound => .finish (failed unsound.chain)
  | .ok () => next

/-- Goes on with loaded settings. -/
def withSettings (asked : Option Bytes) (next : Settings → Task) : Task :=
  .load asked fun
    | .error fault => .finish (failed fault.chain)
    | .ok s => next s

/-- Serves some settings. -/
def serveTask (s : Settings) : Task :=
  withShelf s.media fun shelf =>
    match SocketAddress.parse? (addressText s.server) with
    | none => .finish (failed badAddress)
    | some address =>
      .listen address shelf fun fault =>
        .finish (failed ["Failed to bind to " ++ address.toText, fault.text])

/-- Scans once and lists what was found. -/
def scanTask (s : Settings) (json : Bool) : Task :=
  withShelf s.media fun shelf =>
    .scan shelf fun shelf =>
      let files := shelf.files
      .finish (success
        (if json then catalogJson files else catalogTable files shelf.mounts.length))

/-- The task of a command that is given from a folder. -/
def Invocation.task (here : Bytes) (invocation : Invocation) : Task :=
  match invocation.command with
  | .serve arguments =>
    withSettings invocation.config fun s =>
      let s := arguments.applyTo s
      withSound here s (serveTask s)
  | .scan paths json =>
    withSettings invocation.config fun s =>
      let s := scanSettings paths s
      withSound here s (scanTask s json)
  | .validate file => withSettings file fun s => .finish (success (settingsText s))
  | .version => .finish (success versionText)

/-- The task of some arguments. -/
def taskOf (here : Bytes) (words : List String) : Task :=
  match readArguments words with
  | .error refused => .finish (refusedOutcome refused)
  | .ok invocation => invocation.task here

/-- The fault of listening at an address that is not of this machine. -/
def notOwnAddress : Fault := .system .addrNotAvailable "Cannot assign requested address" 99

/-- How a task ends in some surroundings. A server that can listen runs until it is told to end. -/
def Task.run (surroundings : Surroundings) : Task → Outcome
  | .finish outcome => outcome
  | .load asked next => (next (loadOrDefault surroundings asked)).run surroundings
  | .scan shelf next =>
    (next (shelf.scanAll surroundings.tree surroundings.here none).2).run surroundings
  | .listen address _ next =>
    if address.isOwn then success "" else (next notOwnAddress).run surroundings

/-- How a run of the program with some arguments ends. -/
def runProgram (surroundings : Surroundings) (words : List String) : Outcome :=
  (taskOf surroundings.herePath words).run surroundings

end MediaShelf.CommandLine
