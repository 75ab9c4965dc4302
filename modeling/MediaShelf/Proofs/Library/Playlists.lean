import MediaShelf.Library.Playlist
import MediaShelf.Proofs.Catalog.IdText

/-!
# Reading playlists

Players read a playlist line by line: a line that starts with a number sign tells about the next
one, any other line is an address. Names may hold anything, but line ends in them are made blanks,
so a playlist has the lines that it was written from (`lines_playlist`), and the identifiers in its
addresses are those of its files (`playlistIds_playlist`).
-/

namespace MediaShelf.Library

open MediaShelf.Catalog

/-- The lines of a text. A carriage return, a line feed or both end a line. -/
def lines : List Char → List (List Char)
  | [] => []
  | '\r' :: '\n' :: rest => [] :: lines rest
  | c :: rest =>
    if c = '\r' ∨ c = '\n' then [] :: lines rest
    else match lines rest with
      | [] => [[c]]
      | line :: more => (c :: line) :: more

/-- Whether a text has no line end. -/
def IsLine (text : List Char) : Prop := '\r' ∉ text ∧ '\n' ∉ text

instance (text : List Char) : Decidable (IsLine text) := inferInstanceAs (Decidable (_ ∧ _))

/-- The identifier in an address: what follows its last slash. -/
def addressId? (line : List Char) : Option EntryId :=
  if line.head? = some '#' then none
  else EntryId.parse? (String.ofList (line.rtakeWhile (· ≠ '/')))

/-- The identifiers in a playlist. -/
def playlistIds (text : String) : List EntryId := (lines text.toList).filterMap addressId?

/-- The lines that tell about a file. -/
def fileLines (host : String) (file : ListedFile) : List (List Char) :=
  ["#EXTINF:-1,".toList ++ file.title, (file.address host).toList]

/-! ## Lines -/

theorem isLine_iff {text : List Char} : IsLine text ↔ ∀ c ∈ text, c ≠ '\r' ∧ c ≠ '\n' := by
  simp only [IsLine, forall_and, ne_eq, List.forall_mem_ne']

theorem IsLine.append {front back : List Char} (hfront : IsLine front) (hback : IsLine back) :
    IsLine (front ++ back) :=
  isLine_iff.mpr (List.forall_mem_append.mpr ⟨isLine_iff.mp hfront, isLine_iff.mp hback⟩)

theorem lines_append {line : List Char} (h : IsLine line) (rest : List Char) :
    lines (line ++ '\n' :: rest) = line :: lines rest := by
  induction line with
  | nil =>
    rw [List.nil_append, lines, if_pos (.inr rfl)]
    nofun
  | cons c line ih =>
    obtain ⟨hreturn, hfeed⟩ := h
    rw [List.mem_cons, not_or] at hreturn hfeed
    have hc : ¬ (c = '\r' ∨ c = '\n') := not_or.mpr ⟨Ne.symm hreturn.1, Ne.symm hfeed.1⟩
    rw [List.cons_append, lines, if_neg hc, ih ⟨hreturn.2, hfeed.2⟩]
    exact fun _ heq => absurd (.inl heq) hc

/-- Lines that are written one below the other are read as these lines. -/
theorem lines_flatMap {written : List (List Char)} (h : ∀ line ∈ written, IsLine line) :
    lines (written.flatMap (· ++ ['\n'])) = written := by
  induction written with
  | nil => rfl
  | cons line rest ih =>
    rw [List.forall_mem_cons] at h
    rw [List.flatMap_cons, List.append_assoc, List.singleton_append, lines_append h.1, ih h.2]

/-! ## Playlists -/

section

variable {host : String} {files : List ListedFile}

theorem isLine_oneLine (text : List Char) : IsLine (oneLine text) := by
  refine isLine_iff.mpr (List.forall_mem_map.mpr fun c _ => ?_)
  split
  · decide
  · exact not_or.mp ‹_›

theorem isLine_toText (id : EntryId) : IsLine id.toText.toList :=
  isLine_iff.mpr (EntryId.forall_mem_toText (by decide) (by decide) id)

theorem no_slash_toText (id : EntryId) : '/' ∉ id.toText.toList := fun h =>
  EntryId.forall_mem_toText (p := (· ≠ '/')) (by decide) (by decide) id _ h rfl

theorem toList_address (host : String) (file : ListedFile) : (file.address host).toList =
    "http://".toList ++ host.toList ++ "/stream".toList ++ '/' :: file.id.toText.toList := by
  simp [ListedFile.address]

theorem isLine_fileLines (hhost : IsLine host.toList) (file : ListedFile) :
    ∀ line ∈ fileLines host file, IsLine line := by
  intro line hline
  rw [fileLines, List.mem_cons, List.mem_singleton] at hline
  rcases hline with rfl | rfl
  · exact .append (by decide) (isLine_oneLine _)
  · have hscheme : IsLine "http://".toList := by decide
    have hroute : IsLine "/stream".toList := by decide
    have hslash : IsLine ['/'] := by decide
    rw [toList_address]
    exact ((hscheme.append hhost).append hroute).append (hslash.append (isLine_toText _))

theorem toList_playlist (host : String) (files : List ListedFile) : (playlist host files).toList =
    ("#EXTM3U".toList :: files.flatMap (fileLines host)).flatMap (· ++ ['\n']) := by
  have hitems : (String.join (files.map (playlistItem host))).toList =
      (files.flatMap (fileLines host)).flatMap (· ++ ['\n']) := by
    rw [String.toList_join, List.flatMap_map, List.flatMap_assoc]
    refine List.flatMap_congr fun file _ => ?_
    simp [playlistItem, fileLines]
  rw [playlist, String.toList_append, hitems, List.flatMap_cons]
  rfl

/-- The lines of a playlist: a head, and two lines for each file. -/
theorem lines_playlist (hhost : IsLine host.toList) (files : List ListedFile) :
    lines (playlist host files).toList =
      "#EXTM3U".toList :: files.flatMap (fileLines host) := by
  rw [toList_playlist, lines_flatMap]
  refine List.forall_mem_cons.mpr ⟨by decide, fun line hline => ?_⟩
  obtain ⟨file, -, hfile⟩ := List.mem_flatMap.mp hline
  exact isLine_fileLines hhost file line hfile

theorem addressId?_address (host : String) (file : ListedFile) :
    addressId? (file.address host).toList = some file.id := by
  have hplain : ∀ c ∈ file.id.toText.toList.reverse, decide (c ≠ '/') = true := by
    intro c hc
    rw [decide_eq_true_iff]
    rintro rfl
    exact no_slash_toText file.id (List.mem_reverse.mp hc)
  have hlast : (file.address host).toList.rtakeWhile (· ≠ '/') = file.id.toText.toList := by
    rw [toList_address, List.rtakeWhile, List.reverse_append, List.reverse_cons, List.append_assoc,
      List.takeWhile_append_of_pos hplain, List.singleton_append,
      List.takeWhile_cons_of_neg (by decide), List.append_nil, List.reverse_reverse]
  have hhead : (file.address host).toList.head? ≠ some '#' := by
    rw [toList_address]
    simp
  rw [addressId?, if_neg hhead, hlast, String.ofList_toList, EntryId.parse?_toText]

/-- The identifiers in a playlist are those of its files, in order. -/
theorem playlistIds_playlist (hhost : IsLine host.toList) (files : List ListedFile) :
    playlistIds (playlist host files) = files.map (·.id) := by
  have hfile : ∀ file, (fileLines host file).filterMap addressId? = [file.id] := by
    intro file
    have hinfo : addressId? ("#EXTINF:-1,".toList ++ file.title) = none := if_pos rfl
    rw [fileLines, List.filterMap_cons_none hinfo,
      List.filterMap_cons_some (addressId?_address host file), List.filterMap_nil]
  have hstart : addressId? "#EXTM3U".toList = none := if_pos (by decide)
  rw [playlistIds, lines_playlist hhost, List.filterMap_cons_none hstart]
  induction files with
  | nil => rfl
  | cons file rest ih =>
    rw [List.flatMap_cons, List.filterMap_append, hfile, ih, List.map_cons, List.singleton_append]

end

end MediaShelf.Library
