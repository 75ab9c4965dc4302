import MediaShelf.Catalog.Entry
import MediaShelf.Proofs.Http.MediaTypes
import MediaShelf.Proofs.Library.Categories

/-!
# What an entry tells of its path

An entry shows the folders of its file as a category, and the name without its extension. Three
functions cut the path for that, and each decodes the bytes of its own part. A dot is read as itself
whatever bytes stand beside it (`decodeLossy_append_dot`), and a slash is only read from a slash, so
the parts put together are the path again (`entry_retells_path`): the path itself if its names are
texts, and otherwise the path as it is shown.
-/

namespace MediaShelf

open MediaShelf.Catalog
open MediaShelf.Files
open MediaShelf.Text

/-- The path that an entry tells of by its category and its name, given the extension. The category
of a file that lies in no folder tells of none. -/
def Catalog.Entry.retold (entry : Entry) (extension : String) : String :=
  if folderNames entry.path = [] then entry.name ++ "." ++ extension
  else entry.category ++ "/" ++ (entry.name ++ "." ++ extension)

namespace Library

/-! ## Cutting a path -/

section Cutting

variable {path : Bytes} {folder : List Name} {name : Name}

theorem fileName?_of_steps (h : steps path = (folder ++ [name]).map .down) :
    fileName? path = some name := by
  rw [fileName?, h, List.map_append, List.map_singleton, List.getLast?_concat]

/-- The category of a file that lies in folders. -/
theorem category_of_steps (h : steps path = (folder ++ [name]).map .down) (hne : folder ≠ []) :
    category path = "/".intercalate (folder.map decodeLossy) := by
  unfold category
  rw [folderNames_of_steps h]
  cases folder with
  | nil => exact absurd rfl hne
  | cons first rest => rfl

end Cutting

/-! ## Texts put together -/

/-- A dot is read as itself, whatever stands beside it. -/
theorem decodeLossy_append_dot (stem extension : Name) :
    decodeLossy (stem ++ dot :: extension) =
      decodeLossy stem ++ "." ++ decodeLossy extension := by
  rw [← String.toList_inj, decodeLossy_append_cons (by decide), String.toList_append,
    String.toList_append, List.append_assoc]
  rfl

theorem slash_mem_decodeLossy {name : Name} : '/' ∈ (decodeLossy name).toList ↔ slash ∈ name :=
  mem_decodeLossy (b := slash) (by decide) name

theorem encode_intercalate (texts : List String) :
    encode ("/".intercalate texts) = joinNames (texts.map encode) := by
  have hslash : encode "/" = [slash] := by decide +kernel
  induction texts with
  | nil => decide +kernel
  | cons first rest ih =>
    cases rest with
    | nil => rw [String.intercalate_singleton]; rfl
    | cons second rest =>
      rw [String.intercalate_cons_cons, encode_append, encode_append, hslash, ih]
      rfl

/-! ## The whole path -/

section Whole

variable {path : Bytes} {names folder : List Name} {stem : Name} {extension : String}

/-- The file name of a plain path to a media file, cut where its extension begins. -/
theorem exists_stem_of_isMedia (hnames : steps path = names.map .down)
    (hmedia : isMedia path = true) : ∃ folder stem extension, stem ≠ [] ∧
      dot ∉ encode extension ∧ names = folder ++ [stem ++ dot :: encode extension] := by
  obtain ⟨name, hname, stem, bytes, hstem, hbytes, rfl⟩ := isMedia_iff.mp hmedia
  obtain ⟨hdot, hascii⟩ := mediaExtension_spelled hbytes
  obtain ⟨extension, rfl⟩ := exists_encode_of_ascii hascii
  unfold fileName? at hname
  rw [hnames, List.getLast?_map] at hname
  cases hlast : names.getLast? with
  | none => rw [hlast] at hname; cases hname
  | some last =>
    rw [hlast] at hname
    obtain rfl : last = stem ++ dot :: encode extension := Option.some.inj hname
    obtain ⟨folder, hfolder⟩ := List.getLast?_eq_some_iff.mp hlast
    exact ⟨folder, stem, extension, hstem, hdot, hfolder⟩

theorem displayName_of_steps
    (h : steps path = (folder ++ [stem ++ dot :: encode extension]).map .down) (hstem : stem ≠ [])
    (hdot : dot ∉ encode extension) : displayName path = decodeLossy stem := by
  rw [displayName, fileName?_of_steps h]
  exact congrArg (decodeLossy ·.1) (splitExtension_append_dot hstem hdot)

/-- What an entry tells of is the path as it is shown. -/
theorem retold_ofFile (h : steps path = (folder ++ [stem ++ dot :: encode extension]).map .down)
    (hstem : stem ≠ []) (hdot : dot ∉ encode extension) (id : EntryId) (volume : VolumeId)
    (size : Nat) : (Entry.ofFile id volume path size).retold extension =
      "/".intercalate ((folder ++ [stem ++ dot :: encode extension]).map decodeLossy) := by
  have hfile : decodeLossy (stem ++ dot :: encode extension) =
      displayName path ++ "." ++ extension := by
    rw [decodeLossy_append_dot, decodeLossy_encode, displayName_of_steps h hstem hdot]
  have hfolder : folderNames (Entry.ofFile id volume path size).path = folder :=
    folderNames_of_steps h
  rw [List.map_append, List.map_singleton, hfile, Entry.retold]
  by_cases hroot : folder = []
  · rw [if_pos (hfolder.trans hroot), hroot, List.map_nil, List.nil_append,
      String.intercalate_singleton]
    rfl
  · rw [if_neg (hfolder ▸ hroot), String.intercalate_append_of_ne_nil
      (mt List.map_eq_nil_iff.mp hroot) (List.cons_ne_nil _ _), String.intercalate_singleton,
      ← category_of_steps h hroot]
    rfl

/-- **An entry tells of its whole path.** For every path to a media file that consists of names
only, the entry of the file has a name that is not empty and has no slash in it, and its category
(unless the file lies in no folder), name and extension, put together with slashes and a dot, are
cut by slashes into the names on the path as they are shown, and are read as the path with these
names. If the names are texts, that is the same path. -/
theorem entry_retells_path (hnames : steps path = names.map .down) (hmedia : isMedia path = true)
    (id : EntryId) (volume : VolumeId) (size : Nat) :
    let entry := Entry.ofFile id volume path size
    entry.name ≠ "" ∧ '/' ∉ entry.name.toList ∧
    ∃ extension, extension? path = some (encode extension) ∧
      (entry.retold extension).toList.splitOn '/' =
        names.map (fun name => (decodeLossy name).toList) ∧
      steps (encode (entry.retold extension)) = names.map (fun name => .down (shownBytes name)) ∧
      ((∀ name ∈ names, ∃ text, name = encode text) →
        steps (encode (entry.retold extension)) = steps path) := by
  intro entry
  obtain ⟨folder, stem, extension, hstem, hdot, hsplit⟩ := exists_stem_of_isMedia hnames hmedia
  have hisName : ∀ name ∈ names, IsName name := fun name hname =>
    isName_of_down_mem_steps (hnames ▸ List.mem_map_of_mem hname)
  have hlast : IsName (stem ++ dot :: encode extension) := hisName _ (by simp [hsplit])
  have hsteps := hsplit ▸ hnames
  have hname : entry.name = decodeLossy stem := displayName_of_steps hsteps hstem hdot
  have hretold : entry.retold extension = "/".intercalate (names.map decodeLossy) :=
    (retold_ofFile hsteps hstem hdot id volume size).trans (by rw [hsplit])
  have hread : steps (encode (entry.retold extension)) =
      names.map (fun name => .down (shownBytes name)) := by
    rw [hretold, encode_intercalate, List.map_map, steps_joinNames, List.map_map]
    · rfl
    · exact List.forall_mem_map.mpr fun name hname => isName_shownBytes (hisName name hname)
  refine ⟨?_, ?_, extension, ?_, ?_, hread, fun htexts => ?_⟩
  · intro hempty
    refine hstem ((shownBytes_eq_iff (by simp)).mp ?_)
    rw [shownBytes, ← hname, hempty]
    decide +kernel
  · rw [hname, slash_mem_decodeLossy]
    exact fun hmem => hlast.no_slash (List.mem_append_left _ hmem)
  · rw [extension?, fileName?_of_steps hsteps]
    exact congrArg Prod.snd (splitExtension_append_dot hstem hdot)
  · rw [hretold, String.toList_intercalate]
    refine (List.splitOn_intercalate '/' ?_ ?_).trans (List.map_map ..)
    · simp only [List.forall_mem_map, slash_mem_decodeLossy]
      exact fun name hname => (hisName name hname).no_slash
    · simp [hsplit]
  · rw [hread, hnames]
    refine List.map_congr_left fun name hname => ?_
    obtain ⟨text, rfl⟩ := htexts name hname
    rw [shownBytes, decodeLossy_encode]

/-- A folder whose name is the byte `0xFF`, which is no text, and in it `.b.M4V`. -/
def oddPath : Bytes := [255, 47, 46, 98, 46, 77, 52, 86]

/-- A path with more slashes than names, all of which are texts. -/
def slashedPath : Bytes := encode "Shows//Season 1/e.01.mp4"

/-- A name that is no text is told as it is shown, and a path of texts as it is. -/
theorem entry_retells_path_odd :
    (steps oddPath = [[255], encode ".b.M4V"].map .down ∧ isMedia oddPath = true ∧
      ∃ extension, extension? oddPath = some (encode extension) ∧
        steps (encode ((Entry.ofFile .nil "v" oddPath 3).retold extension)) =
          [.down (encode "\uFFFD"), .down (encode ".b.M4V")]) ∧
    (steps slashedPath = [encode "Shows", encode "Season 1", encode "e.01.mp4"].map .down ∧
      isMedia slashedPath = true ∧
      ∃ extension, extension? slashedPath = some (encode extension) ∧
        steps (encode ((Entry.ofFile .nil "v" slashedPath 3).retold extension)) =
          steps slashedPath) := by
  have hodd : steps oddPath = [[255], encode ".b.M4V"].map .down := by decide +kernel
  have hslashed : steps slashedPath =
      [encode "Shows", encode "Season 1", encode "e.01.mp4"].map .down := by decide +kernel
  have hmedia : isMedia oddPath = true ∧ isMedia slashedPath = true := by decide +kernel
  obtain ⟨-, -, extension, hextension, -, hread, -⟩ :=
    entry_retells_path hodd hmedia.1 .nil "v" 3
  obtain ⟨-, -, extension', hextension', -, -, hsame⟩ :=
    entry_retells_path hslashed hmedia.2 .nil "v" 3
  refine ⟨⟨hodd, hmedia.1, extension, hextension, hread.trans (by decide +kernel)⟩,
    hslashed, hmedia.2, extension', hextension', hsame ?_⟩
  simp

end Whole

end Library

end MediaShelf
