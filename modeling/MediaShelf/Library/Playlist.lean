import MediaShelf.Library.Listing

/-!
The playlist of the catalog, which has two lines for each file: its title, and its address on this
server.
-/

namespace MediaShelf.Library

open MediaShelf.Catalog

/-- A title on one line: line ends become spaces. -/
def oneLine (s : List Char) : List Char :=
  s.map fun c => if c = '\r' ∨ c = '\n' then ' ' else c

/-- The title of a file: its category and its name. -/
def ListedFile.title (file : ListedFile) : List Char :=
  oneLine ((file.category ++ " - " ++ file.name).toList)

/-- The address of a file on the server that the client calls `host`. -/
def ListedFile.address (host : String) (file : ListedFile) : String :=
  "http://" ++ host ++ "/stream/" ++ file.id.toText

/-- The two lines of a file. -/
def playlistItem (host : String) (file : ListedFile) : String :=
  "#EXTINF:-1," ++ String.ofList file.title ++ "\n" ++ file.address host ++ "\n"

/-- The playlist of some files. -/
def playlist (host : String) (files : List ListedFile) : String :=
  "#EXTM3U\n" ++ String.join (files.map (playlistItem host))

end MediaShelf.Library
