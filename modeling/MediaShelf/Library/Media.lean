import MediaShelf.Files.Path
import MediaShelf.Text.Small

/-!
Which files are media, and how the catalog names and groups them: by the extension, by the name
without it, and by the folder they lie in.
-/

namespace MediaShelf.Library

open MediaShelf.Files

/-- The extensions of media files, in small letters. -/
def mediaExtensions : List String := ["mp4", "m4v"]

/-- A media file is one whose extension is a text that is admitted once it is in small letters. -/
def isMedia (path : Bytes) : Bool :=
  match (extension? path).bind Text.decode? with
  | some extension => mediaExtensions.contains (String.ofList (Text.smalls extension.toList))
  | none => false

/-- The category of files that lie in no folder. -/
def uncategorized : String := "Uncategorized"

/-- The category of a file: the folders on its path, joined by slashes. -/
def category (path : Bytes) : String :=
  match folderNames path with
  | [] => uncategorized
  | names => "/".intercalate (names.map Text.decodeLossy)

/-- The name that a file is shown under: its file name without the extension. -/
def displayName (path : Bytes) : String :=
  match fileName? path with
  | some name => Text.decodeLossy (splitExtension name).1
  | none => ""

end MediaShelf.Library
