import MediaShelf.Toml.Draft
import MediaShelf.Toml.Number

/-!
Reading a TOML document: first its statements, one to a line, and then the table that they build.
-/

namespace MediaShelf.Toml

/-! ## Values -/

/-- Gives a key, which may be dotted, a value. -/
def assignKey? (key : List String) (value : Value) (fields : Fields) : Option Fields :=
  match key.getLast? with
  | some last => fields.assignDotted? key.dropLast last value
  | none => none

mutual

/-- Reads a value, in which values may lie `depth` deep. The fuel bounds how many there are. -/
def value? (depth : Nat) : (fuel : Nat) → List Char → Option (Value × List Char)
  | 0, _ => none
  | fuel + 1, s =>
    match s with
    | '"' :: _ => (string? s).map fun (text, rest) => (.text (String.ofList text), rest)
    | '\x27' :: _ => (string? s).map fun (text, rest) => (.text (String.ofList text), rest)
    | '[' :: rest =>
      if depth = 0 then none
      else (items? (depth - 1) fuel rest).map fun (items, rest) => (.list items, rest)
    | '\x7b' :: rest =>
      if depth = 0 then none
      else
        match skipBlanks rest with
        | '\x7d' :: rest => some (.table [], rest)
        | rest => (inline? (depth - 1) fuel [] rest).map fun (fields, rest) =>
            (.table (fieldsToValues fields), rest)
    | 't' :: 'r' :: 'u' :: 'e' :: rest => some (.boolean true, rest)
    | 'f' :: 'a' :: 'l' :: 's' :: 'e' :: rest => some (.boolean false, rest)
    | s => word? s

/-- Reads the items of a list up to the closing bracket. -/
def items? (depth : Nat) : (fuel : Nat) → List Char → Option (List Value × List Char)
  | 0, _ => none
  | fuel + 1, s =>
    match skipFiller false s with
    | ']' :: rest => some ([], rest)
    | s =>
      match value? depth fuel s with
      | none => none
      | some (item, rest) =>
        match skipFiller false rest with
        | ',' :: rest => (items? depth fuel rest).map fun (items, rest) => (item :: items, rest)
        | ']' :: rest => some ([item], rest)
        | _ => none

/-- Reads the fields of a table on one line up to the closing brace. -/
def inline? (depth : Nat) : (fuel : Nat) → Fields → List Char → Option (Fields × List Char)
  | 0, _, _ => none
  | fuel + 1, fields, s =>
    match key? s with
    | some (key, '=' :: rest) =>
      match value? depth fuel (skipBlanks rest) with
      | none => none
      | some (value, rest) =>
        match assignKey? key value fields with
        | none => none
        | some fields =>
          match skipBlanks rest with
          | ',' :: rest => inline? depth fuel fields rest
          | '\x7d' :: rest => some (fields, rest)
          | _ => none
    | _ => none

end

/-! ## Statements -/

/-- A statement of a document. -/
inductive Statement where
  | table (path : List String)
  | element (path : List String)
  | assign (key : List String) (value : Value)

/-- Reads a statement up to the end of its line. -/
def statement? (s : List Char) : Option (Statement × List Char) :=
  let fuel := s.length + 1
  let parsed := match s with
    | '[' :: '[' :: rest =>
      match key? rest with
      | some (path, ']' :: ']' :: rest) => some (.element path, rest)
      | _ => none
    | '[' :: rest =>
      match key? rest with
      | some (path, ']' :: rest) => some (.table path, rest)
      | _ => none
    | s =>
      match key? s with
      | some (key, '=' :: rest) =>
        (value? maxDepth fuel (skipBlanks rest)).map fun (value, rest) => (.assign key value, rest)
      | _ => none
  match parsed with
  | none => none
  | some (statement, rest) => (statementEnd? rest).map fun rest => (statement, rest)

/-- Reads the statements of a document. Every line is at least one character long. -/
def statements? : (fuel : Nat) → List Char → Option (List Statement)
  | 0, _ => none
  | fuel + 1, s =>
    match skipFiller false s with
    | [] => some []
    | s =>
      match statement? s with
      | none => none
      | some (statement, rest) => (statements? fuel rest).map (statement :: ·)

/-! ## The table of a document -/

/-- A document that is being built: its table, and the header that keys belong to. -/
structure Building where
  root : Fields
  path : List String

/-- Carries out a statement. -/
def Building.run? (b : Building) : Statement → Option Building
  | .table path =>
    match path.getLast? with
    | none => none
    | some key =>
      (Fields.change? (·.beginTable? key) path.dropLast b.root).map fun root => ⟨root, path⟩
  | .element path =>
    match path.getLast? with
    | none => none
    | some key =>
      (Fields.change? (·.beginElement? key) path.dropLast b.root).map fun root => ⟨root, path⟩
  | .assign key value =>
    (Fields.change? (assignKey? key value) b.path b.root).map fun root => { b with root := root }

/-- Carries out statements one after the other. -/
def Building.runAll? (b : Building) : List Statement → Option Building
  | [] => some b
  | statement :: rest => (b.run? statement).bind fun b => runAll? b rest

/-- A byte order mark in front does not count. -/
def skipMark : List Char → List Char
  | '\uFEFF' :: rest => rest
  | s => s

/-- The fields of the table that a text stands for. -/
def parse? (text : String) : Option (List (String × Value)) :=
  let s := skipMark text.toList
  ((statements? (s.length + 1) s).bind (Building.runAll? ⟨[], []⟩)).map fun b =>
    fieldsToValues b.root

end MediaShelf.Toml
