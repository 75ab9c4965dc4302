import MediaShelf.Settings.MountText

/-!
The arguments of the program, as they may be written: which options a command takes, and what a
sequence of words says. An option whose value stands in the next word is settled only when the next
option, folder or command is met; a word that cannot be read at all is reported before that.
-/

namespace MediaShelf.CommandLine

open MediaShelf.Settings
open MediaShelf.Text

/-- The things that can be given. -/
inductive Argument where
  | config | verbose | help | version
  | host | port | mode | bufferSize | slots | mount
  | json
  | paths
  deriving DecidableEq, Repr

/-- What giving an argument does. -/
inductive Effect where
  /-- Switches something on, once. -/
  | switch
  /-- Gives a value, once. -/
  | single
  /-- Gives a value, any number of times. -/
  | many
  | showHelp
  | showVersion
  deriving DecidableEq, Repr

/-- An option: how it is written, and what giving it does. -/
structure OptionForm where
  argument : Argument
  short : Option Char
  long : String
  effect : Effect

/-- What a command takes. -/
structure CommandForm where
  options : List OptionForm
  /-- What words without dashes give, and whether there may be more than one of them. -/
  positional : Option (Argument × Bool)
  commands : List String

/-- Why arguments are refused; showing help or the version counts as a refusal too. -/
inductive Refused where
  | badValue (text : String)
  | emptyValue
  | unneededValue
  | unknownArgument
  | repeated
  | unknownCommand
  | missingCommand
  | help
  | bareHelp
  | version
  deriving DecidableEq, Repr

/-- What was given. -/
inductive Given where
  | on
  | text (s : String)
  | path (path : Bytes)
  | number (n : Nat)
  | mode (mode : Resource.Mode)
  | size (size : ByteSize)
  | volume (volume : VolumeSettings)
  deriving DecidableEq

/-! ## Values -/

/-- Reads digits as a value that has the given wording when it is too large. -/
def digitsOr (limit : Nat) (tooLarge : String) (s : List Char) : Except Refused Nat :=
  match readDigits limit 0 s with
  | .ok n => .ok n
  | .error .tooLarge => .error (.badValue tooLarge)
  | .error cause => .error (.badValue cause.message)

/-- A port out of range. -/
def badPort (value : String) : Refused := .badValue (value ++ " is not in 0..=65535")

/-- Reads a port. The number is read as a signed word of 64 bits, and looked at then. -/
def parsePort (text : String) : Except Refused Nat :=
  match text.toList with
  | '-' :: c :: rest =>
    match digitsOr (Nat.pow 2 63) "number too small to fit in target type" (c :: rest) with
    | .error refused => .error refused
    | .ok n => if n = 0 then .ok 0 else .error (badPort ("-" ++ toString n))
  | s =>
    match parseUnsigned (Nat.pow 2 63 - 1) s with
    | .error cause => .error (.badValue cause.message)
    | .ok n => if n ≤ word16Max then .ok n else .error (badPort (toString n))

/-- Reads the value of an argument. -/
def parseValue (argument : Argument) (text : String) : Except Refused Given :=
  let path : Except Refused Given :=
    if text = "" then .error .emptyValue else .ok (.path (encode text))
  match argument with
  | .config => path
  | .paths => path
  | .host => .ok (.text text)
  | .port => (parsePort text).map .number
  | .mode =>
    match Resource.Mode.parse text with
    | .ok mode => .ok (.mode mode)
    | .error failure => .error (.badValue failure.message)
  | .bufferSize =>
    match ByteSize.parse text with
    | .ok size => .ok (.size size)
    | .error e => .error (.badValue e.message)
  | .slots =>
    match parseUnsigned word64Max text.toList with
    | .ok n => .ok (.number n)
    | .error cause => .error (.badValue cause.message)
  | .mount =>
    match parseMountText text with
    | .ok volume => .ok (.volume volume)
    | .error e => .error (.badValue e.message)
  | _ => .ok .on

/-! ## Reading words -/

/-- What was read of the words for one command. -/
structure Reading where
  /-- What was given, in order. -/
  given : List (Argument × Given)
  /-- An argument whose values are still being gathered. -/
  pending : Option (Argument × Effect × List String)
  /-- Whether the next word is the value of the pending option. -/
  awaitsValue : Bool
  /-- Whether the single word without dashes was given. -/
  usedPositional : Bool
  /-- Whether two dashes were met, behind which no word is an option. -/
  onlyWords : Bool

namespace Reading

/-- Nothing was read yet. -/
def start : Reading := ⟨[], none, false, false, false⟩

/-- Whether an argument was given. -/
def has (r : Reading) (argument : Argument) : Bool := r.given.any (·.1 = argument)

/-- Notes the values of an argument. -/
def note (r : Reading) (argument : Argument) (values : List String) : Except Refused Reading :=
  (values.mapM (parseValue argument)).map fun values =>
    { r with given := r.given ++ values.map (argument, ·) }

/-- Does what giving an argument with some values does. -/
def apply (r : Reading) (argument : Argument) (effect : Effect) (values : List String) :
    Except Refused Reading :=
  match effect with
  | .showHelp => .error .help
  | .showVersion => .error .version
  | .switch =>
    if r.has argument then .error .repeated
    else .ok { r with given := r.given ++ [(argument, .on)] }
  | .single =>
    if values = [] then .error .emptyValue
    else if r.has argument then .error .repeated
    else r.note argument values
  | .many => if values = [] then .error .emptyValue else r.note argument values

/-- Settles the argument whose values were being gathered. -/
def flush (r : Reading) : Except Refused Reading :=
  match r.pending with
  | none => .ok r
  | some (argument, effect, values) =>
    apply { r with pending := none, awaitsValue := false } argument effect values

/-- Settles the pending argument, and gives another one. -/
def give (r : Reading) (form : OptionForm) (values : List String) : Except Refused Reading :=
  match r.flush with
  | .error refused => .error refused
  | .ok r => r.apply form.argument form.effect values

/-- Settles the pending argument, and waits for the value of another one. -/
def await (r : Reading) (form : OptionForm) : Except Refused Reading :=
  match r.flush with
  | .error refused => .error refused
  | .ok r => .ok { r with pending := some (form.argument, form.effect, []), awaitsValue := true }

/-- Adds a value to the pending argument. -/
def push (r : Reading) (value : String) : Reading :=
  { r with
    pending := r.pending.map fun (argument, effect, values) => (argument, effect, values ++ [value])
    awaitsValue := false }

end Reading

/-- Whether an option takes a value. -/
def OptionForm.takesValue (form : OptionForm) : Bool :=
  form.effect == .single || form.effect == .many

/-- Reads an option that is written in full, with perhaps a value behind an equals sign. -/
def readLong (form : CommandForm) (r : Reading) (body : List Char) : Except Refused Reading :=
  let name := String.ofList (body.takeWhile (· ≠ '='))
  let value := match body.dropWhile (· ≠ '=') with
    | [] => none
    | _ :: value => some (String.ofList value)
  match form.options.find? (·.long = name) with
  | none => .error .unknownArgument
  | some option =>
    if option.takesValue then
      match value with
      | some value => r.give option [value]
      | none => r.await option
    else
      match value with
      | some _ => .error .unneededValue
      | none => r.give option []

/-- Reads options that are written as one letter each, behind a single dash. The rest behind one
that takes a value is its value. -/
def readShort (form : CommandForm) (r : Reading) : List Char → Except Refused Reading
  | [] => .ok r
  | c :: rest =>
    match form.options.find? (·.short = some c) with
    | none => .error .unknownArgument
    | some option =>
      if option.takesValue then
        match rest with
        | [] => r.await option
        | '=' :: value => r.give option [String.ofList value]
        | value => r.give option [String.ofList value]
      else
        match r.give option [] with
        | .error refused => .error refused
        | .ok r => readShort form r rest

/-- Reads a word that is no option. -/
def readWord (form : CommandForm) (r : Reading) (word : String) : Except Refused Reading :=
  match form.positional with
  | none =>
    if form.commands = [] ∨ (r.onlyWords ∧ word ∈ form.commands) then .error .unknownArgument
    else .error .unknownCommand
  | some (argument, many) =>
    if r.usedPositional ∧ ¬ many then .error .unknownArgument
    else
      let effect : Effect := if many then .many else .single
      let continues := many && (r.pending.map (·.1)) == some argument
      if continues then .ok (r.push word)
      else
        match r.flush with
        | .error refused => .error refused
        | .ok r =>
          .ok { r with pending := some (argument, effect, [word]), usedPositional := true }

/-- What the words for a command come to: what was read, and the command that followed with the
words behind it. -/
structure WordsRead where
  reading : Reading
  command : Option (String × List String)

/-- Reads words up to the end, or up to a command. -/
def readWords (form : CommandForm) (r : Reading) : List String → Except Refused WordsRead
  | [] => .ok ⟨r, none⟩
  | word :: rest =>
    if r.onlyWords then
      match readWord form r word with
      | .error refused => .error refused
      | .ok r => readWords form r rest
    else if ¬ r.awaitsValue ∧ word ∈ form.commands then .ok ⟨r, some (word, rest)⟩
    else
      let next : Except Refused Reading := match word.toList with
        | ['-', '-'] => .ok { r with onlyWords := true }
        | '-' :: '-' :: body => readLong form r body
        | '-' :: c :: body => readShort form r (c :: body)
        | _ => if r.awaitsValue then .ok (r.push word) else readWord form r word
      match next with
      | .error refused => .error refused
      | .ok r => readWords form r rest

/-! ## Looking at what was given -/

namespace Reading

/-- The last value of an argument. -/
def last? (r : Reading) (argument : Argument) : Option Given :=
  ((r.given.filter (·.1 = argument)).map (·.2)).getLast?

/-- The path given for an argument. -/
def path? (r : Reading) (argument : Argument) : Option Bytes :=
  match r.last? argument with
  | some (.path path) => some path
  | _ => none

/-- The number given for an argument. -/
def number? (r : Reading) (argument : Argument) : Option Nat :=
  match r.last? argument with
  | some (.number n) => some n
  | _ => none

/-- Every path given for an argument, in order. -/
def paths (r : Reading) (argument : Argument) : List Bytes :=
  r.given.filterMap fun
    | (a, .path path) => if a = argument then some path else none
    | _ => none

/-- Every volume given, in order. -/
def volumes (r : Reading) : List VolumeSettings :=
  r.given.filterMap fun
    | (_, .volume volume) => some volume
    | _ => none

end Reading

end MediaShelf.CommandLine
