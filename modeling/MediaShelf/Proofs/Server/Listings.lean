import MediaShelf.Proofs.Library.Playlists
import MediaShelf.Proofs.Shelf.Agreement
import MediaShelf.Proofs.Text.Decoding
import MediaShelf.Server.Routes

/-!
# Listings and playlists

The listing and the playlist of a catalog show the same files in the same order, whichever category
is asked for, and their identifiers lead back to the entries that are shown
(`playlist_leads_back`). Whatever files are called, the lines of a playlist stay what they are.
-/

namespace MediaShelf.Server

open MediaShelf.Catalog
open MediaShelf.Http
open MediaShelf.Library
open MediaShelf.Text

/-- A request for what stands at a path, with a query that asks for a filter. -/
structure AsksFor (request : Request) (path : String) (filter : CategoryFilter) : Prop where
  served : isServed request.method = true
  path : request.target.path = encode path
  filter : filterOf? request.target.query = some filter

/-- The identifier of a listed file. -/
def listedId? : JsonValue → Option EntryId
  | .object fields =>
    match fields.lookup "id" with
    | some (.text id) => EntryId.parse? id
    | _ => none
  | _ => none

/-- The identifiers in a listing. -/
def listingIds : JsonValue → List EntryId
  | .list items => items.filterMap listedId?
  | _ => []

/-! ## What is answered -/

section Answers

variable {shelf : Shelf} {address : String} {request : Request} {filter : CategoryFilter}

theorem judge_files (h : AsksFor request "/api/files" filter) :
    judge shelf address request = .answer (.ofJson 200 (listingJson (shelf.filesOf filter))) := by
  have hroute : Route.ofPath? (encode "/api/files") = some .files := by decide +kernel
  simp only [judge, h.path, hroute, h.served, plainAnswer, h.filter]
  rfl

theorem judge_playlist (h : AsksFor request "/playlist.m3u" filter) :
    judge shelf address request = .answer (.ofText "audio/x-mpegurl"
      (playlist ((request.fields.text? "host").getD address) (shelf.filesOf filter))) := by
  have hroute : Route.ofPath? (encode "/playlist.m3u") = some .playlist := by decide +kernel
  simp only [judge, h.path, hroute, h.served, plainAnswer, h.filter]
  rfl

theorem listingIds_listingJson (files : List ListedFile) :
    listingIds (listingJson files) = files.map (·.id) := by
  have hfile : listedId? ∘ ListedFile.json = some ∘ (·.id) := by
    funext file
    simp only [Function.comp_apply, ListedFile.json, listedId?, List.lookup, beq_self_eq_true,
      EntryId.parse?_toText]
  rw [listingJson, listingIds, List.filterMap_map, hfile, List.filterMap_eq_map]

/-- A value that counts as text has no line end. -/
theorem isLine_of_text {value : Bytes} {text : String} (h : valueText? value = some text) :
    IsLine text.toList := by
  have hbyte : ∀ n < 256, isTextByte (UInt8.ofNat n) = true →
      Char.ofNat n ≠ '\r' ∧ Char.ofNat n ≠ '\n' := by decide +kernel
  unfold valueText? at h
  split at h
  case isFalse => cases h
  case isTrue hall =>
    rw [List.all_eq_true] at hall
    rw [← Option.some.inj h, String.toList_ofList, isLine_iff]
    refine List.forall_mem_map.mpr fun b hb => hbyte b.toNat b.toNat_lt ?_
    rw [UInt8.ofNat_toNat]
    exact hall b hb

theorem isLine_host (fields : Fields) (haddress : IsLine address.toList) :
    IsLine ((fields.text? "host").getD address).toList := by
  cases htext : fields.text? "host" with
  | none => exact haddress
  | some text =>
    obtain ⟨value, -, hvalue⟩ := Option.bind_eq_some_iff.mp htext
    exact isLine_of_text hvalue

end Answers

/-! ## Back to the entries -/

section Entries

variable {shelf : Shelf} {filter : CategoryFilter} {file : ListedFile}

/-- A file that is shown is the entry that its identifier finds. -/
theorem get_of_mem_filesOf (hr : shelf.registry.Consistent) (h : file ∈ shelf.filesOf filter)
    (hid : file.id ≠ .nil) :
    ∃ entry, shelf.registry.get file.id = .ok entry ∧ Shelf.listed entry = file := by
  obtain ⟨s, hs⟩ := hr.exists_holds
  obtain ⟨entry, hentry, rfl⟩ := List.mem_map.mp (List.mem_filter.mp h).1
  have hget : shelf.registry.byId.get? entry.id = some entry := hs.mem_list.mp hentry
  change entry.id ≠ .nil at hid
  refine ⟨entry, ?_, rfl⟩
  change shelf.registry.get entry.id = .ok entry
  rw [Registry.get, if_neg hid, hget]

theorem bytes_toText (id : EntryId) : ∀ b ∈ encode id.toText, b ≠ 0x2F ∧ b ≠ percent := by
  rw [encode_eq]
  intro b hb
  obtain ⟨c, hc, hbc⟩ := List.mem_flatMap.mp hb
  exact EntryId.forall_mem_toText
    (p := fun c => ∀ b ∈ String.utf8EncodeChar c, b ≠ 0x2F ∧ b ≠ percent)
    (by decide +kernel) (by decide +kernel) id c hc b hbc

/-- The path in the address of a file asks for its stream. -/
theorem ofPath?_stream (id : EntryId) :
    Route.ofPath? (encode ("/stream/" ++ id.toText)) = some (.stream (encode id.toText)) := by
  have hpath : encode ("/stream/" ++ id.toText) = Route.streamLead ++ encode id.toText :=
    encode_append _ _
  have hother : ∀ path ∈ ["/health", "/api/files", "/playlist.m3u"],
      Route.streamLead ++ encode id.toText ≠ encode path := by
    intro path hmem heq
    have hlead : ∀ path ∈ ["/health", "/api/files", "/playlist.m3u"],
        ¬ Route.streamLead <+: encode path := by decide +kernel
    exact hlead path hmem (heq ▸ List.prefix_append _ _)
  have hpart : ¬ (encode id.toText = [] ∨ (encode id.toText).contains 0x2F = true) := by
    rw [not_or, List.contains_iff_mem]
    refine ⟨fun hnil => ?_, fun hmem => (bytes_toText id _ hmem).1 rfl⟩
    have hread := EntryId.parse?_toText id
    have hempty : encode "" = [] := by decide +kernel
    rw [encode_injective (hnil.trans hempty.symm)] at hread
    cases hread
  rw [hpath, Route.ofPath?, if_neg (hother _ (by simp)), if_neg (hother _ (by simp)),
    if_neg (hother _ (by simp)), if_pos (by simp)]
  simp only [List.drop_left]
  rw [if_neg hpart]

theorem entryOf_toText {id : EntryId} {entry : Entry} (h : shelf.registry.get id = .ok entry) :
    entryOf shelf (encode id.toText) = .ok entry := by
  have hdecode : percentDecode (encode id.toText) = encode id.toText :=
    percentDecode_of_not_mem fun hmem => (bytes_toText id _ hmem).2 rfl
  simp only [entryOf, hdecode, decode?_eq_some.mpr rfl, EntryId.parse?_toText, h]

end Entries

/-- **Playlists lead back to their entries.** For a host without line ends, and files of any names
and categories, a playlist is its head and two lines for each file, and is read as these lines; the
second line is the address of the file, and the identifier in it is read back. For every consistent
catalog and every filter, the listing and the playlist are of the same files in the same order, and
so are the identifiers that are read from them; each that is not nil finds the entry that is shown,
and so does the path of its address. The host is what the request says, which is never more than a
line, or else the address of the server. -/
theorem playlist_leads_back :
    (∀ host : String, IsLine host.toList → ∀ files : List ListedFile,
      let written := "#EXTM3U".toList :: files.flatMap fun file =>
        ["#EXTINF:-1,".toList ++ oneLine (file.category ++ " - " ++ file.name).toList,
          ("http://" ++ host ++ "/stream/" ++ file.id.toText).toList]
      (playlist host files).toList = written.flatMap (· ++ ['\n']) ∧
        lines (playlist host files).toList = written ∧
        playlistIds (playlist host files) = files.map (·.id) ∧
        ∀ file ∈ files, EntryId.parse? file.id.toText = some file.id) ∧
    ∀ (shelf : Shelf) (address : String), shelf.registry.Consistent →
      ∀ (filter : CategoryFilter) (request request' : Request),
        AsksFor request "/api/files" filter → AsksFor request' "/playlist.m3u" filter →
        let files := shelf.filesOf filter
        let host := (request'.fields.text? "host").getD address
        judge shelf address request = .answer (.ofJson 200 (listingJson files)) ∧
          judge shelf address request' =
            .answer (.ofText "audio/x-mpegurl" (playlist host files)) ∧
          listingIds (listingJson files) = files.map (·.id) ∧
          (IsLine address.toList →
            playlistIds (playlist host files) = listingIds (listingJson files)) ∧
          ∀ file ∈ files, file.id ≠ .nil → ∃ entry,
            shelf.registry.get file.id = .ok entry ∧ entry.name = file.name ∧
            entry.category = file.category ∧ ∃ part,
              Route.ofPath? (encode ("/stream/" ++ file.id.toText)) = some (.stream part) ∧
              entryOf shelf part = .ok entry := by
  refine ⟨fun host hhost files => ⟨toList_playlist host files, lines_playlist hhost files,
    playlistIds_playlist hhost files, fun file _ => EntryId.parse?_toText file.id⟩, ?_⟩
  intro shelf address hr filter request request' hrequest hrequest'
  refine ⟨judge_files hrequest, judge_playlist hrequest', listingIds_listingJson _, ?_, ?_⟩
  · intro haddress
    rw [playlistIds_playlist (isLine_host request'.fields haddress), listingIds_listingJson]
  · intro file hfile hid
    obtain ⟨entry, hget, hlisted⟩ := get_of_mem_filesOf hr hfile hid
    exact ⟨entry, hget, congrArg ListedFile.name hlisted, congrArg ListedFile.category hlisted, _,
      ofPath?_stream file.id, entryOf_toText hget⟩

/-- A file whose name would be taken for lines of a playlist, if it were not for its line ends. -/
def oddEntry : Entry :=
  .ofFile ⟨5⟩ "v" (encode "Odd\nOnes/#EXTM3U\r\nhttp:.mp4") 3

/-- A shelf with this file. -/
def oddShelf : Shelf where
  mode := .direct
  bufferSize := 1
  mounts := []
  rescanInterval := Shelf.defaultRescanInterval
  registry := Registry.empty.insert oddEntry
  ids := Shelf.firstIds

/-- A request for the files of its category. -/
def oddRequest (path : String) : Request :=
  ⟨"GET", ⟨encode path, some (encode "category=Odd%0AOnes")⟩, [.ofText "Host" "tv:8081"]⟩

theorem playlist_leads_back_odd :
    lines (playlist "tv" (oddShelf.filesOf ⟨some "Odd\nOnes"⟩)).toList =
        ["#EXTM3U".toList, "#EXTINF:-1,Odd Ones - #EXTM3U  http:".toList,
          "http://tv/stream/00000000-0000-0000-0000-000000000005".toList] ∧
      (∃ text, judge oddShelf "tv" (oddRequest "/playlist.m3u") =
        .answer (.ofText "audio/x-mpegurl" text) ∧ playlistIds text = [⟨5⟩]) ∧
      ∃ part, Route.ofPath? (encode "/stream/00000000-0000-0000-0000-000000000005") =
        some (.stream part) ∧ entryOf oddShelf part = .ok oddEntry := by
  have hr : oddShelf.registry.Consistent := (Registry.holds_empty.insert oddEntry).consistent
  have hfiles : oddShelf.filesOf ⟨some "Odd\nOnes"⟩ = [Shelf.listed oddEntry] := by cbv
  obtain ⟨hwritten, hanswers⟩ := playlist_leads_back
  obtain ⟨-, hlines, -⟩ := hwritten "tv" (by decide) (oddShelf.filesOf ⟨some "Odd\nOnes"⟩)
  obtain ⟨-, htext, hlisted, hids, hentries⟩ := hanswers oddShelf "tv" hr
    ⟨some "Odd\nOnes"⟩ (oddRequest "/api/files") (oddRequest "/playlist.m3u")
    ⟨rfl, rfl, by decide +kernel⟩ ⟨rfl, rfl, by decide +kernel⟩
  obtain ⟨entry, hget, -, -, part, hroute, hentry⟩ := hentries (Shelf.listed oddEntry)
    (hfiles ▸ List.mem_singleton.mpr rfl) (by decide)
  have hodd : oddShelf.registry.get (Shelf.listed oddEntry).id = .ok oddEntry := rfl
  obtain rfl : oddEntry = entry := Except.ok.inj (hodd.symm.trans hget)
  have hid : (Shelf.listed oddEntry).id.toText = "00000000-0000-0000-0000-000000000005" := by
    decide +kernel
  refine ⟨?_, ⟨_, htext, ?_⟩, part, ?_, hentry⟩
  · rw [hlines, hfiles]
    decide +kernel
  · rw [hids (by decide), hlisted]
    exact congrArg (List.map (·.id)) hfiles
  · rw [hid] at hroute
    exact hroute

end MediaShelf.Server
