import MediaShelf.Http.Response
import MediaShelf.Shelf.Basic

/-!
Which requests the server knows, and the answers that need no file: a sign of life, the listing of
the catalog, and the playlist.
-/

namespace MediaShelf.Server

open MediaShelf.Catalog
open MediaShelf.Http
open MediaShelf.Library
open MediaShelf.Text

/-- What a path asks for. -/
inductive Route where
  | health
  | files
  | playlist
  /-- The file of an entry, whose identifier stands in the path. -/
  | stream (part : Bytes)
  deriving DecidableEq, Repr

namespace Route

/-- The path in front of an identifier. -/
def streamLead : Bytes := encode "/stream/"

/-- The route of a path. Paths are compared as they stand on the request line. -/
def ofPath? (path : Bytes) : Option Route :=
  if path = encode "/health" then some .health
  else if path = encode "/api/files" then some .files
  else if path = encode "/playlist.m3u" then some .playlist
  else if streamLead.isPrefixOf path then
    let part := path.drop streamLead.length
    if part = [] ∨ part.contains 0x2F then none else some (.stream part)
  else none

end Route

/-- Whether a route answers a method. -/
def isServed (method : String) : Bool := method == "GET" || method == "HEAD"

/-- The filter that a query asks for. -/
def filterOf? (query : Option Bytes) : Option CategoryFilter :=
  match singleField "category" (queryFields (query.getD [])) with
  | .ok wanted => some ⟨wanted⟩
  | .error () => none

/-- The answer to a query that names a category twice. -/
def repeatedCategory : Response :=
  .badRequest "Failed to deserialize query string: duplicate field `category`"

/-- The answer to an identifier that is no text. -/
def unreadableId : Response := .badRequest "Invalid URL: Invalid UTF-8 in `id`"

/-- The listing of some files. -/
def listing (files : List ListedFile) : Response := .ofJson 200 (listingJson files)

/-- The answer with the playlist, whose addresses name the host that the client asked for. -/
def playlistAnswer (shelf : Shelf) (address : String) (filter : CategoryFilter)
    (fields : Fields) : Response :=
  let host := (fields.text? "host").getD address
  .ofText "audio/x-mpegurl" (playlist host (shelf.filesOf filter))

/-- The answer to a request that needs no file. -/
def plainAnswer (shelf : Shelf) (address : String) (request : Request) : Route → Response
  | .health => .ofText "text/plain; charset=utf-8" "OK"
  | .files =>
    match filterOf? request.target.query with
    | some filter => listing (shelf.filesOf filter)
    | none => repeatedCategory
  | .playlist =>
    match filterOf? request.target.query with
    | some filter => playlistAnswer shelf address filter request.fields
    | none => repeatedCategory
  | .stream _ => .bare 404

/-- The entry that a part of a path names. -/
def entryOf (shelf : Shelf) (part : Bytes) : Except Response Entry :=
  match decode? (percentDecode part) with
  | none => .error unreadableId
  | some text =>
    match EntryId.parse? text with
    | none => .error (.ofRefusal (.ofFailure (.notFound text)))
    | some id =>
      match shelf.registry.get id with
      | .error failure => .error (.ofRefusal (.ofFailure failure))
      | .ok entry => .ok entry

/-- What a request comes to: an answer, or an entry whose file is to be sent. -/
inductive Verdict where
  | answer (response : Response)
  | stream (entry : Entry) (mount : Mount)

/-- Looks at a request, before any file is opened. -/
def judge (shelf : Shelf) (address : String) (request : Request) : Verdict :=
  match Route.ofPath? request.target.path with
  | none => .answer (.bare 404)
  | some route =>
    if ! isServed request.method then .answer (.bare 405)
    else
      match route with
      | .stream part =>
        match entryOf shelf part with
        | .error response => .answer response
        | .ok entry =>
          match shelf.mount entry.volume with
          | .error failure => .answer (.ofRefusal (.ofFailure failure))
          | .ok mount => .stream entry mount
      | route => .answer (plainAnswer shelf address request route)

end MediaShelf.Server
