import MediaShelf.Http.ContentType
import MediaShelf.Proofs.Files.Confinement
import MediaShelf.Proofs.Files.Spelling
import MediaShelf.Proofs.Library.MediaNames
import MediaShelf.Proofs.Shelf.WholeFile
import MediaShelf.Proofs.Text.Ascii

/-!
# Media files and their content type

The catalog takes files by the extension of the name on disk, which may be any bytes; the server
gives a content type by the extension of the name that it shows, in which U+FFFD stands for what is
no text. The one makes all letters small, the other those of ASCII. Both ask for the same names
(`isMedia_iff`, `contentType_eq_video_iff`): an extension of ASCII letters stays as it is when the
name is shown, and nothing else becomes one (`isMediaName_shownBytes`). So the files that the
catalog takes are those that are served as video (`media_served_as_video`).
-/

namespace MediaShelf.Library

open MediaShelf.Files
open MediaShelf.Http
open MediaShelf.Text

/-! ## Small letters -/

theorem ascii_of_mem_mediaLetters {c t : Char} (ht : t ∈ mediaLetters)
    (h : c = t ∨ c = t.toUpper) : c.toNat < 0x80 := by
  have hletters : ∀ t ∈ mediaLetters, t.toNat < 0x80 ∧ t.toUpper.toNat < 0x80 := by
    simp [mediaLetters]
  rcases h with rfl | rfl
  · exact (hletters c ht).1
  · exact (hletters t ht).2

theorem smalls_eq_smallAscii {s : List Char} (h : ∀ c ∈ s, c.toNat < 0x80) :
    smalls s = smallAscii s := by
  rw [smalls, List.flatMap_congr fun c hc => small_ascii (h c hc), ← List.map_eq_flatMap]
  rfl

/-- For the extensions of media files it does not matter which letters are made small. -/
theorem smallAscii_eq_iff {s text : List Char} (htext : ∀ t ∈ text, t ∈ mediaLetters) :
    smallAscii s = text ↔ smalls s = text := by
  constructor
  · intro h
    refine (smalls_eq_smallAscii fun c hc => ?_).trans h
    have ht : c.toLower ∈ mediaLetters := htext _ (h ▸ List.mem_map_of_mem hc)
    exact ascii_of_mem_mediaLetters ht (eq_or_toUpper_of_toLower ht rfl)
  · intro h
    refine (smalls_eq_smallAscii fun c hc => ?_).symm.trans h
    obtain ⟨t, more, hsmall⟩ := List.exists_cons_of_ne_nil (small_ne_nil c)
    have hmem : t ∈ small c := hsmall ▸ List.mem_cons_self
    have ht : t ∈ mediaLetters := htext t (h ▸ List.mem_flatMap.mpr ⟨c, hc, hmem⟩)
    exact ascii_of_mem_mediaLetters ht (small_eq_mediaLetter ht hmem).2

theorem mediaExtension_small_iff {s : List Char} : String.ofList (smallAscii s) ∈ mediaExtensions ↔
    String.ofList (smalls s) ∈ mediaExtensions := by
  have hspelled : ∀ {small : List Char}, String.ofList small ∈ mediaExtensions ↔
      small = ['m', 'p', '4'] ∨ small = ['m', '4', 'v'] := by
    intro small
    rw [mediaExtensions, List.mem_pair, ← String.toList_inj, ← String.toList_inj,
      String.toList_ofList]
    simp
  have hmp4 : ∀ t ∈ ['m', 'p', '4'], t ∈ mediaLetters := by simp [mediaLetters]
  have hm4v : ∀ t ∈ ['m', '4', 'v'], t ∈ mediaLetters := by simp [mediaLetters]
  rw [hspelled, hspelled, smallAscii_eq_iff hmp4, smallAscii_eq_iff hm4v]

/-! ## Content types -/

/-- The extensions that are served as video of this type are those of media files. -/
theorem lookup_contentTypes_iff {extension : String} :
    (contentTypes.lookup extension).getD unknownContentType = "video/mp4" ↔
      extension ∈ mediaExtensions := by
  constructor
  · intro h
    cases hlookup : contentTypes.lookup extension with
    | none =>
      rw [hlookup] at h
      exact absurd h (by decide)
    | some type =>
      rw [hlookup, Option.getD_some] at h
      obtain ⟨front, back, htypes, -⟩ := List.lookup_eq_some_iff.mp hlookup
      have hall : ∀ entry ∈ contentTypes, entry.2 = "video/mp4" → entry.1 ∈ mediaExtensions := by
        decide
      exact hall (extension, type) (by rw [htypes]; simp) h
  · have hall : ∀ extension ∈ mediaExtensions,
        (contentTypes.lookup extension).getD unknownContentType = "video/mp4" := by decide
    exact hall extension

/-- A name is served as video if it looks like that of a media file. -/
theorem contentType_eq_video_iff {shown : String} : contentType shown = "video/mp4" ↔
    ∃ name, fileName? (encode shown) = some name ∧ IsMediaName name := by
  have hunknown : unknownContentType ≠ "video/mp4" := by decide
  simp only [contentType, extension?, isMediaName_iff]
  cases fileName? (encode shown) with
  | none => simp [hunknown]
  | some name =>
    cases hsplit : (splitExtension name).2 with
    | none => simp [hsplit, hunknown]
    | some extension =>
      simp only [Option.bind_some, Option.some.injEq, exists_eq_left', hsplit,
        isMediaExtension_iff, List.contains_iff_mem, ← mediaExtension_small_iff]
      cases decode? extension with
      | none => simp [hunknown]
      | some text => simp [lookup_contentTypes_iff]

/-! ## Names as they are shown -/

theorem encode_append_dot (stem extension : List Char) :
    encode (String.ofList (stem ++ '.' :: extension)) =
      encode (String.ofList stem) ++ dot :: encode (String.ofList extension) := by
  have hdot : encode "." = [dot] := by decide +kernel
  have htext : String.ofList (stem ++ '.' :: extension) =
      String.ofList stem ++ "." ++ String.ofList extension := by
    rw [← String.toList_inj]
    simp
  rw [htext, encode_append, encode_append, hdot, List.append_assoc, List.singleton_append]

/-- The bytes of a name as it is shown. -/
def shownBytes (name : Name) : Bytes := encode (decodeLossy name)

/-- A dot in a name cuts it, as it is shown, at the same place. -/
theorem shownBytes_append_dot (stem extension : Name) :
    shownBytes (stem ++ dot :: extension) = shownBytes stem ++ dot :: shownBytes extension := by
  have hcut := decodeLossy_append_cons (b := dot) (by decide) stem extension
  have hdot : Char.ofNat dot.toNat = '.' := rfl
  rw [hdot] at hcut
  rw [shownBytes, ← String.ofList_toList (s := decodeLossy _), hcut, encode_append_dot,
    String.ofList_toList, String.ofList_toList]
  rfl

theorem shownBytes_of_ascii {bytes : Bytes} (h : ∀ b ∈ bytes, b.toNat < 0x80) :
    shownBytes bytes = bytes := by
  obtain ⟨text, rfl⟩ := exists_encode_of_ascii h
  rw [shownBytes, decodeLossy_encode]

theorem mem_shownBytes {b : UInt8} (hb : b.toNat < 0x80) {name : Name} :
    b ∈ shownBytes name ↔ b ∈ name := mem_encode_decodeLossy hb name

/-- What is shown as ASCII bytes was these bytes. -/
theorem eq_of_ascii_shownBytes {name : Name} (h : ∀ b ∈ shownBytes name, b.toNat < 0x80) :
    shownBytes name = name :=
  encode_decodeLossy_of_ascii (ascii_of_encode h)

theorem shownBytes_eq_iff {name text : Name} (htext : ∀ b ∈ text, b.toNat < 0x80) :
    shownBytes name = text ↔ name = text := by
  constructor
  · rintro rfl
    exact (eq_of_ascii_shownBytes htext).symm
  · rintro rfl
    exact shownBytes_of_ascii htext

/-- Names are shown as names. -/
theorem isName_shownBytes {name : Name} (h : IsName name) : IsName (shownBytes name) where
  ne_nil := mt (shownBytes_eq_iff (by simp)).mp h.ne_nil
  no_slash := mt (mem_shownBytes (by decide)).mp h.no_slash
  ne_here := mt (shownBytes_eq_iff (by simp [dot])).mp h.ne_here
  ne_up := mt (shownBytes_eq_iff (by simp [dot])).mp h.ne_up

theorem fileName?_name {name : Name} (h : IsName name) : fileName? name = some name := by
  simpa [joinNames] using fileName?_joinNames (List.cons_ne_nil name []) (by simpa using h)

theorem mediaExtension_spelled {extension : Name} (h : IsMediaExtension extension) :
    dot ∉ extension ∧ ∀ b ∈ extension, b.toNat < 0x80 := by
  have hall : ∀ spelling ∈ mediaSpellings, dot ∉ spelling ∧ ∀ b ∈ spelling, b.toNat < 0x80 := by
    simp [mediaSpellings, dot]
  exact hall extension (isMediaExtension_iff_mem.mp h)

/-- A name looks like that of a media file if it does as it is shown. -/
theorem isMediaName_shownBytes {name : Name} :
    IsMediaName (shownBytes name) ↔ IsMediaName name := by
  have hnil : ∀ stem : Name, shownBytes stem = [] ↔ stem = [] := fun _ =>
    shownBytes_eq_iff (by simp)
  constructor
  · rintro ⟨stem, extension, hstem, hextension, hname⟩
    obtain ⟨hdot, hascii⟩ := mediaExtension_spelled hextension
    have hmem : dot ∈ name := by
      rw [← mem_shownBytes (by decide), hname]
      exact List.mem_append_right _ List.mem_cons_self
    -- The last dot of the name is shown as the last dot, so what follows it is the extension.
    obtain ⟨behind, front, hreverse, hlast⟩ :=
      List.eq_append_cons_of_mem (List.mem_reverse.mpr hmem)
    have hcut : name = front.reverse ++ dot :: behind.reverse := by
      simpa using congrArg List.reverse hreverse
    have hlast' : dot ∉ shownBytes behind.reverse := by
      rwa [mem_shownBytes (by decide), List.mem_reverse]
    rw [hcut, shownBytes_append_dot] at hname
    obtain ⟨hfront, hbehind⟩ := append_cons_inj hlast' hdot hname
    refine ⟨front.reverse, behind.reverse, ?_, ?_, hcut⟩
    · rw [Ne, ← hnil, hfront]
      exact hstem
    · rwa [(shownBytes_eq_iff hascii).mp hbehind]
  · rintro ⟨stem, extension, hstem, hextension, rfl⟩
    refine ⟨shownBytes stem, extension, mt (hnil stem).mp hstem, hextension, ?_⟩
    rw [shownBytes_append_dot, shownBytes_of_ascii (mediaExtension_spelled hextension).2]

theorem contentType_shown_iff {name : Name} (h : IsName name) :
    contentType (decodeLossy name) = "video/mp4" ↔ IsMediaName name := by
  rw [contentType_eq_video_iff, ← isMediaName_shownBytes,
    show encode (decodeLossy name) = shownBytes name from rfl,
    fileName?_name (isName_shownBytes h)]
  simp only [Option.some.injEq, exists_eq_left']

/-! ## What is served as video -/

theorem isMedia_iff_contentType {path : Bytes} :
    isMedia path = true ↔ contentType (fileNameText path) = "video/mp4" := by
  rw [isMedia_iff, fileNameText]
  cases hname : fileName? path with
  | none =>
    have hempty : fileName? (encode "") = none := by decide +kernel
    simp [contentType_eq_video_iff, hempty]
  | some name =>
    have hshown := contentType_shown_iff (isName_of_fileName? hname)
    simp only [Option.some.injEq, exists_eq_left', hshown]

/-- **What is in the catalog is served as video.** Whatever the bytes of a path, it is that of a
media file if and only if the name shown for it is served as `video/mp4`. So no name is taken by one
of the two and refused by the other, and a file that is opened for an entry of the catalog has that
type. -/
theorem media_served_as_video :
    (∀ path : Bytes, isMedia path = true ↔ contentType (fileNameText path) = "video/mp4") ∧
    (∀ name : Name, IsName name →
      (isMedia name = true ↔ contentType (decodeLossy name) = "video/mp4")) ∧
    ∀ (shelf : Shelf) (tree : Tree) (here : Place) (entry : Catalog.Entry) (file : OpenFile),
      shelf.openEntry tree here entry = .ok file → isMedia entry.path = true →
        contentType file.resource.metadata.name = "video/mp4" := by
  refine ⟨fun path => isMedia_iff_contentType, fun name hname => ?_, ?_⟩
  · rw [isMedia_iff_contentType, fileNameText, fileName?_name hname]
  · intro shelf tree here entry file hopen hmedia
    obtain ⟨number, metadata, hname, rfl⟩ := openEntry_eq hopen
    rw [Resource.openIn_metadata, hname]
    exact isMedia_iff_contentType.mp hmedia

/-- A folder `/r` with a file whose name is the byte `0xFF`, which is no text, and `.M4V`. -/
def strangeTree : Tree :=
  ⟨[([[114]], .folder), ([[114], [255, 46, 77, 52, 86]], .file 0)], [(0, ⟨[1, 2, 3], 0, ⟨0⟩⟩)], 1⟩

/-- A file whose name is no text is served by what follows its last dot. -/
theorem media_served_as_video_no_text :
    (isMedia [255, 46, 77, 52, 86] = true ↔ contentType "\uFFFD.M4V" = "video/mp4") ∧
    isMedia [255, 46, 77, 52, 86] = true ∧
    contentType "\uFFFD.M4V" = "video/mp4" :=
  ⟨media_served_as_video.2.1 [255, 46, 77, 52, 86] (by decide), by decide +kernel,
    media_served_as_video.2.2 linkedShelf strangeTree []
      (.ofFile .nil "v" [255, 46, 77, 52, 86] 3)
      ⟨0, Resource.openIn .direct 1 ⟨"\uFFFD.M4V", ⟨0⟩, 3⟩⟩ (by cbv) (by decide +kernel)⟩

end MediaShelf.Library
