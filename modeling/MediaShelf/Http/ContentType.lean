import MediaShelf.Files.Path
import MediaShelf.Text.Small

/-!
The content type of a file, by its extension.
-/

namespace MediaShelf.Http

/-- The content types of known extensions. -/
def contentTypes : List (String × String) :=
  [("mp4", "video/mp4"), ("m4v", "video/mp4"), ("mkv", "video/x-matroska"),
   ("avi", "video/x-msvideo"), ("mov", "video/quicktime"), ("wmv", "video/x-ms-wmv"),
   ("flv", "video/x-flv"), ("webm", "video/webm"), ("mpg", "video/mpeg"),
   ("mpeg", "video/mpeg")]

/-- The content type of any other file. -/
def unknownContentType : String := "application/octet-stream"

/-- The content type of a file name; large and small letters of ASCII count alike. -/
def contentType (name : String) : String :=
  match Files.extension? (Text.encode name) with
  | none => unknownContentType
  | some extension =>
    match Text.decode? extension with
    | none => unknownContentType
    | some text =>
      let small := String.ofList (Text.smallAscii text.toList)
      (contentTypes.lookup small).getD unknownContentType

end MediaShelf.Http
