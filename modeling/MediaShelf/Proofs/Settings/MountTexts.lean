import Mathlib
import MediaShelf.Proofs.Text.Decoding
import MediaShelf.Proofs.Text.Numerals
import MediaShelf.Settings.MountText

/-!
# Volumes written and read

A volume on the command line is its name, its slots and its folders. Reading cuts at two colons and
at every comma and trims the parts, so what was read has no blanks around and no separator in it
where one would cut (`mountParts_of_parseMountText`). A volume of such parts is read back from the
text that it is written as (`parseMountText_of_parts`).
-/

namespace MediaShelf.Settings

open MediaShelf.Text

/-- A folder that can be written between commas. -/
structure IsMountPath (path : String) : Prop where
  ne_empty : path ≠ ""
  no_comma : ',' ∉ path.toList
  tight : Tight path.toList

/-- What a volume on the command line is made of. Colons may stand in its folders. -/
structure MountParts (id : String) (slots : Nat) (paths : List String) : Prop where
  no_colon : ':' ∉ id.toList
  tight : Tight id.toList
  slots_le : slots ≤ word64Max
  isMountPath : ∀ path ∈ paths, IsMountPath path

/-! ## Folders -/

section Folders

variable {paths : List String}

theorem mountPaths_intercalate (h : ∀ path ∈ paths, IsMountPath path) :
    mountPaths (",".intercalate paths).toList = paths.map encode := by
  have htrim : (paths.map String.toList).map trim = paths.map String.toList := by
    rw [List.map_map]
    exact List.map_congr_left fun path hpath => (h path hpath).tight.trim_eq
  have hkept : (paths.map String.toList).filter (· ≠ []) = paths.map String.toList := by
    rw [List.filter_eq_self]
    refine List.forall_mem_map.mpr fun path hpath => ?_
    simpa using (h path hpath).ne_empty
  have hparts : (((",".intercalate paths).toList.splitOn ',').map trim).filter (· ≠ []) =
      paths.map String.toList := by
    rw [String.toList_intercalate]
    cases paths with
    | nil => rfl
    | cons first rest =>
      have hcommas : ∀ part ∈ (first :: rest).map String.toList, ',' ∉ part :=
        List.forall_mem_map.mpr fun path hpath => (h path hpath).no_comma
      have hsplit : (",".toList.intercalate ((first :: rest).map String.toList)).splitOn ',' =
          (first :: rest).map String.toList :=
        List.splitOn_intercalate ',' hcommas (by simp)
      rw [hsplit, htrim, hkept]
  rw [mountPaths, hparts, List.map_map]
  exact List.map_congr_left fun path _ => congrArg encode String.ofList_toList

theorem exists_mountPaths (s : List Char) :
    ∃ paths : List String, mountPaths s = paths.map encode ∧ ∀ path ∈ paths, IsMountPath path := by
  refine ⟨(((s.splitOn ',').map trim).filter (· ≠ [])).map String.ofList, ?_, ?_⟩
  · rw [mountPaths, List.map_map]
    rfl
  · refine List.forall_mem_map.mpr fun part hpart => ?_
    obtain ⟨hmem, hne⟩ := List.mem_filter.mp hpart
    obtain ⟨whole, hwhole, rfl⟩ := List.mem_map.mp hmem
    refine ⟨by simpa using hne, ?_, ?_⟩
    · rw [String.toList_ofList]
      exact fun hcomma => not_mem_of_mem_splitOn hwhole (mem_of_mem_trim hcomma)
    · rw [String.toList_ofList]
      exact tight_trim whole

end Folders

/-! ## Volumes -/

section Volumes

variable {id : String} {slots : Nat} {paths : List String}

theorem mountText_of_paths (id : String) (slots : Nat) (paths : List String) :
    mountText ⟨id, slots, paths.map encode⟩ =
      id ++ ":" ++ toString slots ++ ":" ++ ",".intercalate paths := by
  rw [mountText, List.map_map, Function.LeftInverse.comp_eq_id decodeLossy_encode, List.map_id]

theorem trim_toString (n : Nat) : trim (toString n).toList = (toString n).toList :=
  trim_eq_self fun _ hc => (isPlainCapital_of_isDigit (isDigit_of_mem_toString hc)).1

theorem colon_not_mem_toString (n : Nat) : ':' ∉ (toString n).toList := fun hmem =>
  absurd (isDigit_of_mem_toString hmem) (by decide)

theorem parseMountText_of_parts (h : MountParts id slots paths) :
    parseMountText (id ++ ":" ++ toString slots ++ ":" ++ ",".intercalate paths) =
      .ok ⟨id, slots, paths.map encode⟩ := by
  have htext : (id ++ ":" ++ toString slots ++ ":" ++ ",".intercalate paths).toList =
      id.toList ++ ':' :: ((toString slots).toList ++ ':' :: (",".intercalate paths).toList) := by
    simp
  have hid := cutAt?_eq_some.mpr ⟨h.no_colon, htext⟩
  have hslots : cutAt? ':' ((toString slots).toList ++ ':' :: (",".intercalate paths).toList) =
      some ((toString slots).toList, (",".intercalate paths).toList) :=
    cutAt?_eq_some.mpr ⟨colon_not_mem_toString slots, rfl⟩
  have hnumber : parseUnsigned word64Max (toString slots).toList = .ok slots := by
    rw [parseUnsigned_numeral (numeral_toString slots), if_pos h.slots_le]
  simp only [parseMountText, hid, hslots, trim_toString, hnumber, h.tight.trim_eq,
    String.ofList_toList, mountPaths_intercalate h.isMountPath]

theorem mountParts_of_parseMountText {text : String} {volume : VolumeSettings}
    (h : parseMountText text = .ok volume) :
    ∃ id slots paths, MountParts id slots paths ∧ volume = ⟨id, slots, paths.map encode⟩ := by
  unfold parseMountText at h
  split at h
  case h_1 => cases h
  case h_2 id rest hid =>
    split at h
    case h_1 => cases h
    case h_2 limit folders _ =>
      split at h
      case h_1 => cases h
      case h_2 slots hslots =>
        obtain ⟨paths, hpaths, hall⟩ := exists_mountPaths folders
        rw [hpaths] at h
        refine ⟨String.ofList (trim id), slots, paths, ⟨?_, ?_, parseUnsigned_le hslots, hall⟩,
          (Except.ok.inj h).symm⟩
        · rw [String.toList_ofList]
          exact fun hcolon => (cutAt?_eq_some.mp hid).1 (mem_of_mem_trim hcolon)
        · rw [String.toList_ofList]
          exact tight_trim id

end Volumes

/-- **Volumes are read as they are written.** A name without a colon, a number of slots and folders
without commas, none of them with blanks around and no folder empty, are read as that volume. Every
text that is read gives a volume of this kind, and writing that volume and reading it again gives
the same. -/
theorem mountTexts_read_back :
    (∀ (id : String) (slots : Nat) (paths : List String), MountParts id slots paths →
      parseMountText (id ++ ":" ++ toString slots ++ ":" ++ ",".intercalate paths) =
        .ok ⟨id, slots, paths.map encode⟩) ∧
    ∀ (text : String) (volume : VolumeSettings), parseMountText text = .ok volume →
      ∃ id slots paths, MountParts id slots paths ∧ volume = ⟨id, slots, paths.map encode⟩ ∧
        mountText volume = id ++ ":" ++ toString slots ++ ":" ++ ",".intercalate paths ∧
        parseMountText (mountText volume) = .ok volume := by
  refine ⟨fun id slots paths h => parseMountText_of_parts h, fun text volume h => ?_⟩
  obtain ⟨id, slots, paths, hparts, rfl⟩ := mountParts_of_parseMountText h
  have hwritten := mountText_of_paths id slots paths
  exact ⟨id, slots, paths, hparts, rfl, hwritten, hwritten ▸ parseMountText_of_parts hparts⟩

/-- A volume with a colon in a folder, and one that is read from a text with blanks and an empty
folder in it. -/
theorem mountTexts_read_back_blanks :
    parseMountText "disk1:4:/mnt/a:b,/mnt/c" =
        .ok ⟨"disk1", 4, ["/mnt/a:b", "/mnt/c"].map encode⟩ ∧
      parseMountText " disk1 : +4 :/mnt/a:b,, /mnt/c " =
        .ok ⟨"disk1", 4, ["/mnt/a:b", "/mnt/c"].map encode⟩ ∧
      parseMountText (mountText ⟨"disk1", 4, ["/mnt/a:b", "/mnt/c"].map encode⟩) =
        .ok ⟨"disk1", 4, ["/mnt/a:b", "/mnt/c"].map encode⟩ := by
  have hparts : MountParts "disk1" 4 ["/mnt/a:b", "/mnt/c"] := by
    refine ⟨by decide, by decide, by decide, fun path hpath => ?_⟩
    rcases List.mem_pair.mp hpath with rfl | rfl <;> exact ⟨by decide, by decide, by decide⟩
  have hread : parseMountText " disk1 : +4 :/mnt/a:b,, /mnt/c " =
      .ok ⟨"disk1", 4, ["/mnt/a:b", "/mnt/c"].map encode⟩ := by decide +kernel
  obtain ⟨-, -, -, -, -, -, hback⟩ := mountTexts_read_back.2 _ _ hread
  exact ⟨mountTexts_read_back.1 _ _ _ hparts, hread, hback⟩

end MediaShelf.Settings
