import MediaShelf.Toml.Value

/-!
Tables that are being built. A table may be begun by its own header, by the header of a table in
it, or by a dotted key; how it was begun decides who may still add to it. No key is ever given
twice.
-/

namespace MediaShelf.Toml

/-- How a table was begun. -/
inductive TableOrigin where
  /-- By a header of its own. -/
  | header
  /-- By the header of a table in it. -/
  | implied
  /-- By a dotted key. -/
  | dotted
  deriving DecidableEq, Repr

/-- What a key stands for in a table that is being built. -/
inductive Draft where
  | value (value : Value)
  | table (origin : TableOrigin) (fields : List (String × Draft))
  /-- A list of tables, of which the last is being built. -/
  | tables (finished : List (List (String × Draft))) (last : List (String × Draft))

/-- The fields of a table that is being built, in the order in which they were begun. -/
abbrev Fields := List (String × Draft)

namespace Fields

/-- Puts a draft in the stead of the one of a key, or behind all others. -/
def set (fields : Fields) (key : String) (draft : Draft) : Fields :=
  if (fields.lookup key).isSome then
    fields.map fun (k, old) => if k == key then (k, draft) else (k, old)
  else fields ++ [(key, draft)]

/-- Gives a new key a value. -/
def assign? (fields : Fields) (key : String) (value : Value) : Option Fields :=
  if (fields.lookup key).isSome then none else some (fields ++ [(key, .value value)])

/-- Gives a key in a table that a dotted key leads to a value. Tables begun by a header of their
own are closed to dotted keys, and the last table must have been begun by a dotted key. -/
def assignDotted? : (path : List String) → (key : String) → Value → Fields → Option Fields
  | [], key, value, fields => fields.assign? key value
  | part :: rest, key, value, fields =>
    match fields.lookup part with
    | none =>
      (assignDotted? rest key value []).map fun inner => fields.set part (.table .dotted inner)
    | some (.table .dotted inner) =>
      (assignDotted? rest key value inner).map fun inner =>
        fields.set part (.table .dotted inner)
    | some (.table .implied inner) =>
      if rest = [] then none
      else
        (assignDotted? rest key value inner).map fun inner =>
          fields.set part (.table .implied inner)
    | some (.tables finished last) =>
      if rest = [] then none
      else
        (assignDotted? rest key value last).map fun last =>
          fields.set part (.tables finished last)
    | some (.table .header _) => none
    | some (.value _) => none

/-- Changes the table that the keys of a header lead to; tables that are missing are begun. -/
def change? (f : Fields → Option Fields) : (path : List String) → Fields → Option Fields
  | [], fields => f fields
  | part :: rest, fields =>
    match fields.lookup part with
    | none => (change? f rest []).map fun inner => fields.set part (.table .implied inner)
    | some (.table origin inner) =>
      (change? f rest inner).map fun inner => fields.set part (.table origin inner)
    | some (.tables finished last) =>
      (change? f rest last).map fun last => fields.set part (.tables finished last)
    | some (.value _) => none

/-- Begins the table of a header. A table that only headers in it have begun is taken up again. -/
def beginTable? (key : String) (fields : Fields) : Option Fields :=
  match fields.lookup key with
  | none => some (fields ++ [(key, .table .header [])])
  | some (.table .implied inner) =>
    some (fields.filter (·.1 ≠ key) ++ [(key, .table .header inner)])
  | _ => none

/-- Begins the next table of a list. -/
def beginElement? (key : String) (fields : Fields) : Option Fields :=
  match fields.lookup key with
  | none => some (fields ++ [(key, .tables [] [])])
  | some (.tables finished last) => some (fields.set key (.tables (finished ++ [last]) []))
  | _ => none

end Fields

mutual

/-- The value that a draft has become. -/
def Draft.toValue : Draft → Value
  | .value value => value
  | .table _ fields => .table (fieldsToValues fields)
  | .tables finished last => .list (tablesToValues finished ++ [.table (fieldsToValues last)])

/-- The values of some fields. -/
def fieldsToValues : List (String × Draft) → List (String × Value)
  | [] => []
  | (key, draft) :: rest => (key, draft.toValue) :: fieldsToValues rest

/-- The values of some tables. -/
def tablesToValues : List (List (String × Draft)) → List Value
  | [] => []
  | fields :: rest => .table (fieldsToValues fields) :: tablesToValues rest

end

end MediaShelf.Toml
