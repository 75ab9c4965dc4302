import MediaShelf.CommandLine.Arguments

/-!
The commands of the program: serving, scanning once, looking settings over, and telling the
version.
-/

namespace MediaShelf.CommandLine

open MediaShelf.Settings

/-- What serving is told on the command line. -/
structure ServeArguments where
  paths : List Bytes
  host : Option String
  port : Option Nat
  mode : Option Resource.Mode
  bufferSize : Option ByteSize
  slots : Option Nat
  mounts : List VolumeSettings
  deriving DecidableEq

/-- A command. -/
inductive Command where
  | serve (arguments : ServeArguments)
  | scan (paths : List Bytes) (json : Bool)
  /-- Looks over the settings in a file. -/
  | validate (file : Option Bytes)
  | version
  deriving DecidableEq

/-- A command, and what holds for every command. -/
structure Invocation where
  config : Option Bytes
  verbose : Bool
  command : Command
  deriving DecidableEq

/-! ## Forms -/

/-- The option that asks for help. -/
def helpForm : OptionForm := ⟨.help, some 'h', "help", .showHelp⟩

/-- The option that names a file of settings. -/
def configForm : OptionForm := ⟨.config, some 'c', "config", .single⟩

/-- The option that asks for more messages. -/
def verboseForm : OptionForm := ⟨.verbose, some 'v', "verbose", .switch⟩

/-- What stands in front of a command. -/
def rootForm : CommandForm :=
  ⟨[configForm, verboseForm, helpForm, ⟨.version, some 'V', "version", .showVersion⟩], none,
    ["serve", "scan", "validate", "version", "help"]⟩

/-- What serving takes. -/
def serveForm : CommandForm :=
  ⟨[configForm, verboseForm, helpForm, ⟨.host, none, "host", .single⟩,
    ⟨.port, some 'p', "port", .single⟩, ⟨.mode, none, "mode", .single⟩,
    ⟨.bufferSize, none, "buffer-size", .single⟩, ⟨.slots, none, "max-io", .single⟩,
    ⟨.mount, none, "mount", .many⟩], some (.paths, true), []⟩

/-- What scanning takes. -/
def scanForm : CommandForm :=
  ⟨[configForm, verboseForm, helpForm, ⟨.json, none, "json", .switch⟩], some (.paths, true), []⟩

/-- What looking settings over takes. Its file is named by a word alone. -/
def validateForm : CommandForm := ⟨[verboseForm, helpForm], some (.config, false), []⟩

/-- What telling the version takes. -/
def versionForm : CommandForm := ⟨[configForm, verboseForm, helpForm], none, []⟩

/-- What a command takes. -/
def formOf (name : String) : CommandForm :=
  match name with
  | "serve" => serveForm
  | "scan" => scanForm
  | "validate" => validateForm
  | _ => versionForm

/-! ## Reading a command -/

/-- The arguments of serving that were given. -/
def serveArguments (r : Reading) : ServeArguments where
  paths := r.paths .paths
  host := match r.last? .host with
    | some (.text host) => some host
    | _ => none
  port := r.number? .port
  mode := match r.last? .mode with
    | some (.mode mode) => some mode
    | _ => none
  bufferSize := match r.last? .bufferSize with
    | some (.size size) => some size
    | _ => none
  slots := r.number? .slots
  mounts := r.volumes

/-- The command of a name, with what was given behind it; `config` is the file of settings that
was named anywhere. -/
def commandOf (name : String) (r : Reading) (config : Option Bytes) : Command :=
  match name with
  | "serve" => .serve (serveArguments r)
  | "scan" => .scan (r.paths .paths) (r.has .json)
  | "validate" => .validate config
  | _ => .version

/-- What asking for help about some words comes to. -/
def helpAbout : List String → Refused
  | [] => .help
  | [name] => if name ∈ rootForm.commands then .help else .unknownCommand
  | _ => .unknownCommand

/-- Reads the words behind a command. -/
def readCommand (name : String) (words : List String) : Except Refused Reading :=
  match readWords (formOf name) .start words with
  | .error refused => .error refused
  | .ok read => read.reading.flush

/-- Reads the arguments of the program. What stands behind the command is looked at before what
stands in front of it is settled. -/
def readArguments (words : List String) : Except Refused Invocation :=
  match readWords rootForm .start words with
  | .error refused => .error refused
  | .ok ⟨_, some ("help", rest)⟩ => .error (helpAbout rest)
  | .ok ⟨front, none⟩ =>
    match front.flush with
    | .error refused => .error refused
    | .ok front => .error (if front.given = [] then .bareHelp else .missingCommand)
  | .ok ⟨front, some (name, rest)⟩ =>
    match readCommand name rest with
    | .error refused => .error refused
    | .ok behind =>
      match front.flush with
      | .error refused => .error refused
      | .ok front =>
        let config := (behind.path? .config).or (front.path? .config)
        .ok ⟨config, front.has .verbose || behind.has .verbose, commandOf name behind config⟩

/-! ## Settings and the command line -/

/-- Adds a volume of the folders that were given by path alone. If there is nothing to serve, the
folder that the program is in is served. -/
def addPaths (paths : List Bytes) (s : Settings) : Settings :=
  let paths := if paths = [] ∧ s.media.volumes = [] then [Text.encode "."] else paths
  if paths = [] then s
  else
    let volume := VolumeSettings.ofPaths paths s.media.slots
    { s with media := { s.media with volumes := s.media.volumes ++ [volume] } }

/-- The settings once the command line was heard: what it gives replaces what the settings say, and
the folders that it gives by path alone are served as well. -/
def ServeArguments.applyTo (a : ServeArguments) (s : Settings) : Settings :=
  let server := { s.server with
    host := a.host.getD s.server.host
    port := a.port.getD s.server.port }
  let media := { s.media with
    mode := a.mode.getD s.media.mode
    bufferSize := a.bufferSize.getD s.media.bufferSize
    slots := a.slots.getD s.media.slots
    volumes := if a.mounts = [] then s.media.volumes else a.mounts }
  addPaths a.paths ⟨server, media⟩

/-- The settings for scanning some folders; those of the settings if none is given. -/
def scanSettings (paths : List Bytes) (s : Settings) : Settings :=
  addPaths paths
    (if paths = [] then s else { s with media := { s.media with volumes := [] } })

end MediaShelf.CommandLine
