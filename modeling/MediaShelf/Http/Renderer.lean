import MediaShelf.Http.Headers

/-!
Requests from media renderers: television sets and players that expect the header fields of their
streaming profile. They give themselves away by a field of that profile or by their agent text.
-/

namespace MediaShelf.Http

/-- The field that tells how a file is transferred. -/
def transferModeName : String := "transfermode.dlna.org"

/-- The field that describes a stream. -/
def contentFeaturesName : String := "contentfeatures.dlna.org"

/-- The field about delays. -/
def realTimeInfoName : String := "realtimeinfo.dlna.org"

/-- The field that asks for a description of the stream. -/
def featuresRequestName : String := "getcontentfeatures.dlna.org"

/-- The streaming profile: seeking by range, nothing transcoded, streaming transfer. -/
def contentFeatures : String :=
  "DLNA.ORG_OP=01;DLNA.ORG_CI=0;DLNA.ORG_FLAGS=01700000000000000000000000000000"

/-- What agent texts of renderers hold, in small letters. -/
def rendererMarks : List String :=
  ["dlna", "upnp", "foobar", "kodi", "xbmc", "plex", "roku", "lg ", "samsung", "sony",
   "playstation", "xbox", "windows media player", "vlc"]

/-- Whether `part` stands somewhere in `s`. -/
def occursIn (part : List Char) : List Char → Bool
  | [] => part.isEmpty
  | c :: rest => part.isPrefixOf (c :: rest) || occursIn part rest

/-- Whether an agent text is one of a renderer. Agent texts are ASCII, so small letters are. -/
def isRendererAgent (agent : String) : Bool :=
  let small := agent.toList.map Char.toLower
  rendererMarks.any fun mark => occursIn mark.toList small

/-- Whether a request comes from a renderer. -/
def isRenderer (fields : Fields) : Bool :=
  fields.has featuresRequestName || fields.has transferModeName ||
    match fields.text? "user-agent" with
    | some agent => isRendererAgent agent
    | none => false

/-- The fields that a renderer expects in the answer. -/
def rendererFields : Fields :=
  [.ofText transferModeName "Streaming", .ofText contentFeaturesName contentFeatures,
   .ofText realTimeInfoName "DLNA.ORG_TLAG=*", .ofText "connection" "close"]

end MediaShelf.Http
