import MediaShelf.Proofs.Files.Spelling
import MediaShelf.Proofs.Shelf.Agreement
import MediaShelf.Proofs.Text.Decoding

/-!
# Categories and folders

A category is written from the names of the folders on a path, with slashes in between. No name has
a slash in it, so different folders have different categories (`intercalate_inj`), but for one pair:
the root, whose files are called uncategorized, and the folder in it that has this name. Whatever
callers do to a catalog, entries keep the categories of their paths (`PlainShared.Run.filed`), and
what a category is asked for comes from one folder of a volume, or from these two
(`categories_tell_folders`).
-/

namespace MediaShelf

open MediaShelf.Catalog
open MediaShelf.Files
open MediaShelf.Library
open MediaShelf.Text

namespace Library

/-- A relative path leads through folders to a file, and all names on it are texts. -/
def Leads (path : Bytes) (folder : List String) (name : String) : Prop :=
  steps path = (folder ++ [name]).map fun text => .down (encode text)

instance (path : Bytes) (folder : List String) (name : String) :
    Decidable (Leads path folder name) :=
  inferInstanceAs (Decidable (_ = _))

/-- The names that the category of a folder is written from. -/
def labels (folder : List String) : List String :=
  if folder = [] then [uncategorized] else folder

/-- One is the root, and the other the folder in it that is called as files of the root are. -/
def IsRootTwin (folder other : List String) : Prop :=
  folder = [] ∧ other = [uncategorized] ∨ folder = [uncategorized] ∧ other = []

instance (folder other : List String) : Decidable (IsRootTwin folder other) :=
  inferInstanceAs (Decidable (_ ∨ _))

/-! ## Names and slashes -/

section Names

variable {path : Bytes} {folder other : List String} {name : String}

theorem not_mem_toList {text : String} (h : slash ∉ encode text) : '/' ∉ text.toList := by
  intro hmem
  refine h ?_
  rw [encode_eq, List.mem_flatMap]
  exact ⟨'/', hmem, by decide⟩

theorem Leads.no_slash (h : Leads path folder name) : ∀ text ∈ folder, '/' ∉ text.toList := by
  intro text htext
  refine not_mem_toList (@isName_of_down_mem_steps path _ ?_).no_slash
  rw [h]
  exact List.mem_map_of_mem (List.mem_append_left _ htext)

theorem no_slash_labels (h : ∀ text ∈ folder, '/' ∉ text.toList) :
    ∀ text ∈ labels folder, '/' ∉ text.toList := by
  unfold labels
  split
  · decide
  · exact h

theorem labels_ne_nil (folder : List String) : labels folder ≠ [] := by
  unfold labels
  split
  · exact List.cons_ne_nil _ _
  · assumption

theorem labels_inj : labels folder = labels other ↔ folder = other ∨ IsRootTwin folder other := by
  unfold labels IsRootTwin
  by_cases hfolder : folder = [] <;> by_cases hother : other = []
  · simp [hfolder, hother]
  · simp [hfolder, hother, eq_comm]
  · simp [hfolder, hother]
  · simp [hfolder, hother]

/-- Names are read back from what they are joined to by slashes. -/
theorem intercalate_inj {texts others : List String} (htexts : texts ≠ []) (hothers : others ≠ [])
    (h : ∀ text ∈ texts, '/' ∉ text.toList) (h' : ∀ text ∈ others, '/' ∉ text.toList) :
    "/".intercalate texts = "/".intercalate others ↔ texts = others := by
  have hsplit : ∀ {texts : List String}, texts ≠ [] → (∀ text ∈ texts, '/' ∉ text.toList) →
      ("/".intercalate texts).toList.splitOn '/' = texts.map String.toList := by
    intro texts hne hall
    rw [String.toList_intercalate]
    exact List.splitOn_intercalate '/' (List.forall_mem_map.mpr hall) (by simpa using hne)
  refine ⟨fun heq => ?_, congrArg _⟩
  have hchars := congrArg (fun text => text.toList.splitOn '/') heq
  simp only [hsplit htexts h, hsplit hothers h'] at hchars
  exact List.map_injective_iff.mpr (fun _ _ => String.toList_inj.mp) hchars

/-! ## Categories -/

/-- The folders on a path are all its names but the last one. -/
theorem folderNames_of_steps {names : List Name} {last : Name}
    (h : steps path = (names ++ [last]).map .down) : folderNames path = names := by
  rw [folderNames, h, List.map_append, List.map_singleton, List.dropLast_concat,
    List.filterMap_map]
  exact List.filterMap_some

theorem folderNames_of_leads (h : Leads path folder name) :
    folderNames path = folder.map encode := by
  have hsteps : steps path = (folder.map encode ++ [encode name]).map .down := by
    rw [h, ← List.map_singleton, ← List.map_append, List.map_map]
    rfl
  exact folderNames_of_steps hsteps

theorem category_of_leads (h : Leads path folder name) :
    category path = "/".intercalate (labels folder) := by
  have hdecode : (folder.map encode).map decodeLossy = folder := by
    rw [List.map_map, Function.LeftInverse.comp_eq_id decodeLossy_encode, List.map_id]
  unfold category labels
  rw [folderNames_of_leads h]
  cases folder with
  | nil => exact String.intercalate_singleton.symm
  | cons first rest => exact congrArg ("/".intercalate ·) hdecode

/-- Paths have one category if they lead through the same folders, or one through none and the other
through the folder that is called as the category of the root. -/
theorem category_inj {path' : Bytes} {name' : String} (h : Leads path folder name)
    (h' : Leads path' other name') :
    category path = category path' ↔ folder = other ∨ IsRootTwin folder other := by
  rw [category_of_leads h, category_of_leads h',
    intercalate_inj (labels_ne_nil _) (labels_ne_nil _) (no_slash_labels h.no_slash)
      (no_slash_labels h'.no_slash), labels_inj]

end Names

end Library

/-! ## What a catalog keeps -/

namespace Catalog

/-- Every entry has the category of its path. -/
def EntrySet.Filed (s : EntrySet) : Prop := ∀ entry ∈ s, entry.category = category entry.path

/-- An entry that is put in has the category of its path. -/
def Demand.Filed : Demand → Prop
  | .add entry => entry.category = category entry.path
  | _ => True

section Runs

variable {s : EntrySet} {p next last : PlainShared} {caller : Caller}

theorem EntrySet.filed_empty : EntrySet.empty.Filed := fun _ h => absurd h EntrySet.not_mem_empty

theorem EntrySet.Filed.without (h : s.Filed) (gone : Entry → Prop) [DecidablePred gone] :
    (s.without gone).Filed := fun entry hentry => h entry (EntrySet.mem_without.mp hentry).1

theorem EntrySet.Filed.add (h : s.Filed) {entry : Entry}
    (hentry : entry.category = category entry.path) : (s.add entry).Filed := by
  intro other hother
  rcases EntrySet.mem_add.mp hother with rfl | ⟨hold, -⟩
  · exact hentry
  · exact h other hold

theorem EntrySet.Filed.addFresh (h : s.Filed) (ids : IdSource) (volume : VolumeId)
    (found : List Found) : (s.addFresh ids volume found).2.1.Filed := by
  induction found generalizing s ids with
  | nil => exact h
  | cons f rest ih =>
    unfold EntrySet.addFresh
    split
    · exact ih h ids
    · exact ih (h.add rfl) _

theorem EntrySet.Filed.carryOut (h : s.Filed) (ids : IdSource) (plan : Plan) :
    (s.carryOut ids plan).2.1.Filed := (h.without _).addFresh ids plan.volume plan.fresh

/-- A step that puts in no entry of another category leaves none. -/
theorem PlainShared.Step.filed {demand : Demand} {reply : Reply}
    (h : p.Step caller demand reply next) (hdemand : demand.Filed) (hfiled : p.entries.Filed) :
    next.entries.Filed := by
  cases h with
  | add entry => exact hfiled.add hdemand
  | remove => exact hfiled.without _
  | apply => exact hfiled.carryOut _ _
  | removeNone | getNil | get | getNone | idForPath | idForPathNone | size | volumeSize | compare
  | applyNone => exact hfiled

/-- So do many steps. -/
theorem PlainShared.Run.filed {calls : List (Caller × Demand)} {replies : List Reply}
    (h : p.Run calls replies last) (hcalls : ∀ call ∈ calls, call.2.Filed)
    (hfiled : p.entries.Filed) : last.entries.Filed := by
  induction h with
  | nil => exact hfiled
  | cons hstep _ ih =>
    rw [List.forall_mem_cons] at hcalls
    exact ih hcalls.2 (hstep.filed hcalls.1 hfiled)

/-- Whatever callers have done to a catalog, its entries have the categories of their paths. -/
theorem Shared.filed_serveAll (ids : IdSource) {calls : List (Caller × Demand)}
    (hcalls : ∀ call ∈ calls, call.2.Filed) :
    ∀ entry ∈ ((start ids).serveAll calls).2.registry.list,
      entry.category = category entry.path := by
  obtain ⟨last, hrun, hlast⟩ := (holds_start ids).serveAll calls
  intro entry hentry
  rw [hlast.registry.mem_list, hlast.registry.mem] at hentry
  exact hrun.filed hcalls EntrySet.filed_empty entry hentry

end Runs

end Catalog

/-! ## What a category is asked for -/

/-- A listing of one category shows the files that have it. -/
theorem Shelf.category_of_listed {shelf : Shelf} {entry : Entry} {wanted : String}
    (hwanted : wanted ≠ "") (h : listed entry ∈ shelf.filesOf ⟨some wanted⟩) :
    entry.category = wanted := by
  have hadmits := (List.mem_filter.mp h).2
  simp only [CategoryFilter.admits, Bool.or_eq_true, beq_iff_eq] at hadmits
  exact (hadmits.resolve_left hwanted).symm

/-- **Folders have their own categories.** Two relative paths of names that are texts have one
category if and only if they lead through the same folders, or the one through none and the other
through the folder `Uncategorized` of the root. So, whatever callers have done to a catalog, files
that a listing or a playlist shows for a category lie in one folder of their volumes, but for the
category that these two have. -/
theorem categories_tell_folders {path path' : Bytes} {folder folder' : List String}
    {name name' : String} (hpath : Leads path folder name) (hpath' : Leads path' folder' name') :
    (category path = category path' ↔ folder = folder' ∨ IsRootTwin folder folder') ∧
    ∀ (ids : IdSource) (calls : List (Caller × Demand)), (∀ call ∈ calls, call.2.Filed) →
      ∀ shelf : Shelf, shelf.registry = ((Shared.start ids).serveAll calls).2.registry →
        ∀ wanted ≠ "", ∀ entry ∈ shelf.registry.list, ∀ entry' ∈ shelf.registry.list,
          entry.path = path → entry'.path = path' →
          Shelf.listed entry ∈ shelf.filesOf ⟨some wanted⟩ →
          Shelf.listed entry' ∈ shelf.filesOf ⟨some wanted⟩ →
            folder = folder' ∨ wanted = uncategorized ∧ IsRootTwin folder folder' := by
  refine ⟨category_inj hpath hpath', ?_⟩
  intro ids calls hcalls shelf hshelf wanted hwanted entry hentry entry' hentry'
  rintro rfl rfl hshown hshown'
  have hfiled := Shared.filed_serveAll ids hcalls
  rw [← hshelf] at hfiled
  have hwant : category entry.path = wanted :=
    (hfiled entry hentry).symm.trans (Shelf.category_of_listed hwanted hshown)
  have hwant' : category entry'.path = wanted :=
    (hfiled entry' hentry').symm.trans (Shelf.category_of_listed hwanted hshown')
  rcases (category_inj hpath hpath').mp (hwant.trans hwant'.symm) with hsame | htwin
  · exact .inl hsame
  · refine .inr ⟨?_, htwin⟩
    rw [← hwant, category_of_leads hpath]
    rcases htwin with ⟨rfl, -⟩ | ⟨rfl, -⟩ <;> exact String.intercalate_singleton

/-- A shelf after one scan of a volume, by which some files were found. -/
def scannedShelf (found : List Found) : Shelf where
  mode := .direct
  bufferSize := 1
  mounts := []
  rescanInterval := Shelf.defaultRescanInterval
  registry := ((Shared.start Shelf.firstIds).serveAll
    [(0, .compare "v" found), (0, .apply)]).2.registry
  ids := Shelf.firstIds

/-- Files of two folders with the same name. -/
def seasons : List Found :=
  [⟨encode "Comedy/Season 1/c.mp4", 5⟩, ⟨encode "Drama/Season 1/d.mp4", 5⟩]

theorem mem_scannedShelf {found : List Found} {entry : Entry} :
    entry ∈ (scannedShelf found).registry.list ↔ entry ∈ (scannedShelf found).registry := by
  obtain ⟨_, -, hholds, -⟩ := registry_refines_entrySet Shelf.firstIds
    [(0, .compare "v" found), (0, .apply)]
  exact hholds.mem_list

/-- No category is that of both files. -/
theorem categories_tell_folders_seasons :
    let comedy := Entry.ofFile (Shelf.firstIds.sequence 0) "v" (encode "Comedy/Season 1/c.mp4") 5
    let drama := Entry.ofFile (Shelf.firstIds.sequence 1) "v" (encode "Drama/Season 1/d.mp4") 5
    let shelf := scannedShelf seasons
    (comedy ∈ shelf.registry.list ∧ drama ∈ shelf.registry.list) ∧
      comedy.category ≠ drama.category ∧ ∀ wanted ≠ "",
        Shelf.listed comedy ∈ shelf.filesOf ⟨some wanted⟩ →
          Shelf.listed drama ∉ shelf.filesOf ⟨some wanted⟩ := by
  intro comedy drama shelf
  have hcomedy : comedy ∈ shelf.registry.list := mem_scannedShelf.mpr (by decide +kernel)
  have hdrama : drama ∈ shelf.registry.list := mem_scannedShelf.mpr (by decide +kernel)
  obtain ⟨hcategory, hshown⟩ := @categories_tell_folders comedy.path drama.path
    ["Comedy", "Season 1"] ["Drama", "Season 1"] "c.mp4" "d.mp4" (by decide +kernel)
    (by decide +kernel)
  refine ⟨⟨hcomedy, hdrama⟩, fun heq => absurd (hcategory.mp heq) (by decide), ?_⟩
  intro wanted hwanted hc hd
  have hfolders := hshown Shelf.firstIds [(0, .compare "v" seasons), (0, .apply)]
    (by simp [Demand.Filed]) shelf rfl wanted hwanted comedy hcomedy drama hdrama rfl rfl hc hd
  exact absurd (hfolders.imp_right And.right) (by decide)

/-- A file of the root, and one of the folder in it that is called `Uncategorized`. -/
def rootTwins : List Found := [⟨encode "a.mp4", 5⟩, ⟨encode "Uncategorized/b.mp4", 5⟩]

/-- The category of the root is that of this folder too, and is shown with the files of both. -/
theorem rootTwins_mixed :
    (¬ ∀ path path' folder folder' name name', Leads path folder name →
      Leads path' folder' name' → (category path = category path' ↔ folder = folder')) ∧
    ((scannedShelf rootTwins).filesOf ⟨some uncategorized⟩).map (·.name) = ["a", "b"] := by
  refine ⟨fun h => ?_, by cbv⟩
  have hsame := h (encode "a.mp4") (encode "Uncategorized/b.mp4") [] [uncategorized] "a.mp4" "b.mp4"
    (by decide +kernel) (by decide +kernel)
  exact absurd (hsame.mp (by decide +kernel)) (by decide)

end MediaShelf
