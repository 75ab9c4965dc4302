import MediaShelf.Catalog.EntryId
import MediaShelf.Text.Json

/-!
What clients see of the catalog: the listed files, and the choice of a category.
-/

namespace MediaShelf.Library

open MediaShelf.Catalog
open MediaShelf.Text

/-- A file as listings show it. -/
structure ListedFile where
  id : EntryId
  name : String
  category : String
  size : Nat
  deriving DecidableEq

/-- Which category a listing is limited to, if any. -/
structure CategoryFilter where
  wanted : Option String
  deriving DecidableEq, Repr

/-- No filter and the empty filter let every category through. -/
def CategoryFilter.admits (filter : CategoryFilter) (category : String) : Bool :=
  match filter.wanted with
  | none => true
  | some wanted => wanted == "" || wanted == category

/-- A listed file in JSON. -/
def ListedFile.json (file : ListedFile) : JsonValue :=
  .object [("id", .text file.id.toText), ("name", .text file.name),
    ("category", .text file.category), ("size", .number file.size)]

/-- Listed files in JSON. -/
def listingJson (files : List ListedFile) : JsonValue := .list (files.map (·.json))

end MediaShelf.Library
