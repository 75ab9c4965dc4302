import MediaShelf.Http.ByteRange
import MediaShelf.Http.ContentType
import MediaShelf.Http.Date
import MediaShelf.Http.Disposition
import MediaShelf.Http.Refusal
import MediaShelf.Http.Renderer
import MediaShelf.Http.Target
import MediaShelf.Text.Json

/-!
Requests and what they are answered with.
-/

namespace MediaShelf.Http

open MediaShelf.Text

/-- A request. -/
structure Request where
  method : String
  target : Target
  fields : Fields
  deriving DecidableEq

/-- Whether a request wants the fields of an answer only. -/
def Request.isHead (request : Request) : Bool := request.method == "HEAD"

/-- What stands in the body of an answer. -/
inductive Body where
  | whole (bytes : Bytes)
  /-- A span of a file, which is sent piece by piece. -/
  | span (offset length : Nat)
  deriving DecidableEq

/-- An answer. -/
structure Response where
  status : Nat
  fields : Fields
  body : Body
  deriving DecidableEq

namespace Response

/-- An answer without a body. -/
def bare (status : Nat) : Response := ⟨status, [], .whole []⟩

/-- An answer with a text of some type. -/
def ofText (contentType text : String) : Response :=
  ⟨200, [.ofText "content-type" contentType], .whole (encode text)⟩

/-- An answer in JSON. -/
def ofJson (status : Nat) (value : JsonValue) : Response :=
  ⟨status, [.ofText "content-type" "application/json"], .whole (encode value.compact)⟩

/-- The answer to a request that is turned away. -/
def ofRefusal (refusal : Refusal) : Response :=
  .ofJson refusal.status (.object [("code", .text refusal.code), ("error", .text refusal.text)])

/-- The answer to a request that cannot be read. -/
def badRequest (text : String) : Response :=
  ⟨400, [.ofText "content-type" "text/plain; charset=utf-8"], .whole (encode text)⟩

/-- The answer without its body. -/
def withoutBody (response : Response) : Response := { response with body := .whole [] }

/-- The answer for a range outside the file. -/
def outsideFile (size : Nat) : Response :=
  ⟨416, [.ofText "content-range" ("bytes */" ++ toString size), .ofText "accept-ranges" "bytes"],
    .whole []⟩

/-- The text of a range in an answer. -/
def rangeText (first last size : Nat) : String :=
  "bytes " ++ toString first ++ "-" ++ toString last ++ "/" ++ toString size

/-- The status of an answer that serves a range, and the field that tells which. -/
def rangeFields (size : Nat) : ByteRange → Nat × Fields
  | .part first last => (206, [.ofText "content-range" (rangeText first last size)])
  | _ => (200, [])

/-- The answer that sends a span of a file. -/
def ofSpan (request : Request) (name : String) (size : Nat) (range : ByteRange)
    (offset length : Nat) (date : String) : Response :=
  let (status, rangeFields) := rangeFields size range
  let disposition := match disposition? name with
    | some value => [Field.mk "content-disposition" value]
    | none => []
  let fields : Fields :=
    [.ofText "content-type" (contentType name), .ofText "accept-ranges" "bytes",
      .ofText "content-length" (toString length), .ofText "last-modified" date] ++ rangeFields ++
    disposition ++ (if isRenderer request.fields then rendererFields else [])
  ⟨status, fields, if request.isHead then .whole [] else .span offset length⟩

/-- The answer that serves a file of a name, a size and a time of change to a request. There is none
if the time of change has no date: the calendar library panics, and the request with it. -/
def ofFile? (calendar : Calendar) (request : Request) (name : String) (size : Nat)
    (modified : Moment) : Option Response :=
  let range := ByteRange.parse (request.fields.text? "range") size
  match range.span size with
  | none => some (outsideFile size)
  | some (offset, length) =>
    (calendar.date? modified).map (ofSpan request name size range offset length)

end Response

end MediaShelf.Http
