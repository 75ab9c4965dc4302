/-!
Values of TOML documents. Floats and times are values that nothing here ever looks into.
-/

namespace MediaShelf.Toml

/-- A value of a document. -/
inductive Value where
  | text (s : String)
  | integer (n : Int)
  | float
  | boolean (b : Bool)
  /-- A date, a time, or both. -/
  | moment
  | list (items : List Value)
  | table (fields : List (String × Value))

end MediaShelf.Toml
