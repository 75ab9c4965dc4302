import MediaShelf.Library.Media
import MediaShelf.Proofs.Files.Names
import MediaShelf.Proofs.Text.Decoding
import MediaShelf.Proofs.Text.Parts

/-!
# The names of media files

The catalog takes a file whose name ends in a dot and `mp4` or `m4v`, in large or small letters,
with something in front (`isMedia_iff`). The extension is compared as a text in small letters, by
the full mapping of Unicode; only letters of ASCII become those of the two extensions
(`small_eq_mediaLetter`).
-/

namespace MediaShelf.Library

open MediaShelf.Files

/-- A byte, a capital letter of ASCII being made small. -/
def smallByte (b : UInt8) : UInt8 := if 65 ≤ b ∧ b ≤ 90 then b + 32 else b

/-- The extensions `mp4` and `m4v`, in letters of any size. -/
def IsMediaExtension (extension : Name) : Prop :=
  extension.map smallByte = [109, 112, 52] ∨ extension.map smallByte = [109, 52, 118]

instance (extension : Name) : Decidable (IsMediaExtension extension) :=
  inferInstanceAs (Decidable (_ ∨ _))

/-- What the name of a media file looks like. -/
def IsMediaName (name : Name) : Prop :=
  ∃ stem extension, stem ≠ [] ∧ IsMediaExtension extension ∧ name = stem ++ dot :: extension

/-! ## Extensions -/

/-- A name is cut at its last dot, if there is something in front of it. -/
theorem splitExtension_append_dot {stem extension : Name} (hstem : stem ≠ [])
    (hdot : dot ∉ extension) :
    splitExtension (stem ++ dot :: extension) = (stem, some extension) := by
  have hreverse : (stem ++ dot :: extension).reverse =
      extension.reverse ++ dot :: stem.reverse := by simp
  have hdot' : dot ∉ extension.reverse := mt List.mem_reverse.mp hdot
  obtain ⟨first, rest, hrest⟩ := List.exists_cons_of_ne_nil (List.reverse_ne_nil_iff.mpr hstem)
  have hstem' : (first :: rest).reverse = stem := by rw [← hrest, List.reverse_reverse]
  rw [splitExtension, hreverse, Text.takeWhile_ne_append_cons hdot',
    Text.dropWhile_ne_append_cons hdot', hrest, List.reverse_reverse]
  exact congrArg (·, some extension) hstem'

theorem splitExtension_eq_some {name extension : Name} :
    (splitExtension name).2 = some extension ↔
      ∃ stem, stem ≠ [] ∧ dot ∉ extension ∧ name = stem ++ dot :: extension := by
  have hparts :=
    List.takeWhile_append_dropWhile (p := fun b => decide (b ≠ dot)) (l := name.reverse)
  constructor
  · intro h
    unfold splitExtension at h
    dsimp only at h
    split at h
    case h_1 => cases h
    case h_2 => cases h
    case h_3 d stem hshort hdrop =>
      obtain rfl := Option.some.inj h
      have hd : d = dot := by
        have hhead := List.head?_dropWhile_not (fun b => decide (b ≠ dot)) name.reverse
        rw [hdrop] at hhead
        simpa using hhead
      refine ⟨stem.reverse, fun hnil => hshort (List.reverse_eq_nil_iff.mp hnil), ?_, ?_⟩
      · intro hmem
        have := List.mem_takeWhile_imp (List.mem_reverse.mp hmem)
        simp at this
      · rw [hdrop, hd] at hparts
        have hname := congrArg List.reverse hparts
        rw [List.reverse_reverse, List.reverse_append, List.reverse_cons,
          List.append_assoc] at hname
        exact hname.symm
  · rintro ⟨stem, hstem, hdot, rfl⟩
    rw [splitExtension_append_dot hstem hdot]

theorem fileName?_joinNames {names : List Name} (hne : names ≠ [])
    (hnames : ∀ name ∈ names, IsName name) :
    fileName? (joinNames names) = some (names.getLast hne) := by
  rw [fileName?, steps_joinNames hnames, List.getLast?_map, List.getLast?_eq_some_getLast hne]
  rfl

/-! ## Letters -/

/-- The letters and the digit of the two extensions. -/
def mediaLetters : List Char := ['m', 'p', 'v', '4']

/-- The small form of a character beyond ASCII is one too, but for two letters. -/
theorem smallRuns_beyondAscii : ∀ run ∈ Text.smallRuns,
    0x80 ≤ run.2.2.2 ∨ run.2.2.2 = 0x6B ∧ run.1 = run.2.1 := by
  have h : ∀ run ∈ Text.smallRuns.toList,
      0x80 ≤ run.2.2.2 ∨ run.2.2.2 = 0x6B ∧ run.1 = run.2.1 := by decide +kernel
  exact fun run hrun => h run (Array.mem_toList_iff.mpr hrun)

theorem smallBeyondAscii_cases {n : Nat} (hn : 0x80 ≤ n) :
    Text.smallBeyondAscii n ≠ [] ∧
      ∀ k ∈ Text.smallBeyondAscii n, 0x80 ≤ k ∨ k = 0x69 ∨ k = 0x6B := by
  unfold Text.smallBeyondAscii
  split
  case isTrue =>
    refine ⟨by simp, ?_⟩
    decide
  case isFalse =>
    split
    case h_1 first last step small hfind =>
      have hrun := smallRuns_beyondAscii _ (Array.mem_of_find?_eq_some hfind)
      have hrange := Array.find?_some hfind
      simp only [Bool.and_eq_true, decide_eq_true_eq] at hrange
      refine ⟨by simp, fun k hk => ?_⟩
      rw [List.mem_singleton] at hk
      dsimp only at hrun
      omega
    case h_2 =>
      refine ⟨by simp, fun k hk => ?_⟩
      rw [List.mem_singleton] at hk
      omega

theorem ofNat_not_mediaLetter {k : Nat} (h : 0x80 ≤ k ∨ k = 0x69 ∨ k = 0x6B) :
    Char.ofNat k ∉ mediaLetters := by
  intro hmem
  have hletter : ∀ c ∈ mediaLetters, c.toNat ≠ 0 ∧ c.toNat < 0x80 ∧ c.toNat ≠ 0x69 ∧
      c.toNat ≠ 0x6B := by simp [mediaLetters]
  have hc := hletter _ hmem
  unfold Char.ofNat at hc
  split at hc
  · change k ≠ 0 ∧ k < 0x80 ∧ k ≠ 0x69 ∧ k ≠ 0x6B at hc
    omega
  · exact hc.1 rfl

theorem eq_or_toUpper_of_toLower {c t : Char} (ht : t ∈ mediaLetters) (h : c.toLower = t) :
    c = t ∨ c = t.toUpper := by
  unfold Char.toLower at h
  split at h
  case isFalse => exact .inl h
  case isTrue hc =>
    have hrange : 65 ≤ c.toNat ∧ c.toNat ≤ 90 := by
      simp only [ge_iff_le, UInt32.le_iff_toNat_le] at hc
      exact hc
    have hval := congrArg Char.val h
    rw [← UInt32.toNat_inj, UInt32.toNat_add] at hval
    simp only [mediaLetters, List.mem_cons, List.not_mem_nil, or_false] at ht
    rcases ht with rfl | rfl | rfl | rfl
    all_goals
      simp at hval
      try omega
    all_goals
      refine .inr (Char.ext (UInt32.toNat_inj.mp ?_))
      simp
      omega

/-- Only letters of ASCII become those of the extensions. -/
theorem small_eq_mediaLetter {c t : Char} (ht : t ∈ mediaLetters) (h : t ∈ Text.small c) :
    Text.small c = [t] ∧ (c = t ∨ c = t.toUpper) := by
  by_cases hc : c.toNat < 0x80
  · rw [Text.small_ascii hc, List.mem_singleton] at h
    exact ⟨by rw [Text.small_ascii hc, h], eq_or_toUpper_of_toLower ht h.symm⟩
  · rw [Text.small, if_neg hc] at h
    obtain ⟨k, hk, rfl⟩ := List.mem_map.mp h
    exact absurd ht (ofNat_not_mediaLetter ((smallBeyondAscii_cases (by omega)).2 k hk))

theorem small_ne_nil (c : Char) : Text.small c ≠ [] := by
  unfold Text.small
  split
  · simp
  · exact mt List.map_eq_nil_iff.mp (smallBeyondAscii_cases (by omega)).1

/-- A text whose small form is of such letters consists of them, small or large. -/
theorem of_smalls {s text : List Char} (htext : ∀ t ∈ text, t ∈ mediaLetters)
    (h : Text.smalls s = text) : List.Forall₂ (fun c t => c = t ∨ c = t.toUpper) s text := by
  induction s generalizing text with
  | nil =>
    obtain rfl : [] = text := h
    exact .nil
  | cons c rest ih =>
    obtain ⟨t, more, hsmall⟩ := List.exists_cons_of_ne_nil (small_ne_nil c)
    rw [Text.smalls, List.flatMap_cons, ← Text.smalls] at h
    have ht : t ∈ text := by
      rw [← h, hsmall]
      exact List.mem_append_left _ List.mem_cons_self
    obtain ⟨hone, hcase⟩ := small_eq_mediaLetter (htext t ht) (hsmall ▸ List.mem_cons_self)
    rw [hone, List.singleton_append] at h
    subst h
    exact .cons hcase (ih (List.forall_mem_cons.mp htext).2 rfl)

/-! ## Media files -/

theorem smallByte_eq {b t : UInt8} (h : smallByte b = t) :
    b = t ∨ b = t - 32 ∧ 97 ≤ t.toNat := by
  unfold smallByte at h
  split at h
  case isFalse => exact .inl h
  case isTrue hb =>
    have hrange : 65 ≤ b.toNat ∧ b.toNat ≤ 90 := by
      simp only [UInt8.le_iff_toNat_le] at hb
      exact hb
    refine .inr ⟨?_, ?_⟩
    · rw [← h, UInt8.add_sub_cancel]
    · rw [← h, UInt8.toNat_add]
      have h32 : (32 : UInt8).toNat = 32 := rfl
      omega

/-- The ways to spell the extension of a media file. -/
def mediaSpellings : List Name :=
  [[109, 112, 52], [109, 80, 52], [77, 112, 52], [77, 80, 52],
    [109, 52, 118], [109, 52, 86], [77, 52, 118], [77, 52, 86]]

theorem isMediaExtension_iff_mem {extension : Name} :
    IsMediaExtension extension ↔ extension ∈ mediaSpellings := by
  constructor
  · rintro (h | h) <;>
    · simp only [List.map_eq_cons_iff, List.map_eq_nil_iff] at h
      obtain ⟨a, _, rfl, ha, b, _, rfl, hb, c, _, rfl, hc, rfl⟩ := h
      rcases smallByte_eq ha with rfl | ⟨rfl, ha⟩ <;>
        rcases smallByte_eq hb with rfl | ⟨rfl, hb⟩ <;>
        rcases smallByte_eq hc with rfl | ⟨rfl, hc⟩ <;> revert ha hb hc <;> decide
  · intro h
    have hall : ∀ spelling ∈ mediaSpellings, IsMediaExtension spelling := by decide +kernel
    exact hall extension h

/-- The extension of a media file, as a text in small letters, is one of the two. -/
theorem isMediaExtension_iff {extension : Name} :
    IsMediaExtension extension ↔ ∃ text, Text.decode? extension = some text ∧
      mediaExtensions.contains (String.ofList (Text.smalls text.toList)) = true := by
  constructor
  · intro h
    have hall : ∀ spelling ∈ mediaSpellings, (Text.decode? spelling).any fun text =>
        mediaExtensions.contains (String.ofList (Text.smalls text.toList)) := by decide +kernel
    exact Option.any_eq_true _ _ |>.mp (hall extension (isMediaExtension_iff_mem.mp h))
  · rintro ⟨text, hdecode, hmedia⟩
    rw [isMediaExtension_iff_mem, Text.decode?_eq_some.mp hdecode, Text.encode_eq]
    have hsmalls : Text.smalls text.toList = ['m', 'p', '4'] ∨
        Text.smalls text.toList = ['m', '4', 'v'] := by
      rw [List.contains_iff_mem, mediaExtensions, List.mem_cons, List.mem_singleton] at hmedia
      refine hmedia.imp (fun h => ?_) fun h => ?_ <;>
        simpa using congrArg String.toList h
    rcases hsmalls with h | h <;>
    · have hletters := of_smalls (by simp [mediaLetters]) h
      simp only [List.forall₂_cons_right_iff, List.forall₂_nil_right_iff] at hletters
      obtain ⟨a, _, ha, ⟨b, _, hb, ⟨c, _, hc, rfl, rfl⟩, rfl⟩, htext⟩ := hletters
      rw [htext]
      rcases ha with rfl | rfl <;> rcases hb with rfl | rfl <;> rcases hc with rfl | rfl <;>
        decide +kernel

theorem isMediaName_iff {name : Name} : IsMediaName name ↔
    ∃ extension, (splitExtension name).2 = some extension ∧ IsMediaExtension extension := by
  symm
  constructor
  · rintro ⟨extension, hsplit, hextension⟩
    obtain ⟨stem, hstem, -, hname⟩ := splitExtension_eq_some.mp hsplit
    exact ⟨stem, extension, hstem, hextension, hname⟩
  · rintro ⟨stem, extension, hstem, hextension, hname⟩
    have hdot : dot ∉ extension := by
      have hall : ∀ spelling ∈ mediaSpellings, dot ∉ spelling := by decide
      exact hall extension (isMediaExtension_iff_mem.mp hextension)
    exact ⟨extension, splitExtension_eq_some.mpr ⟨stem, hstem, hdot, hname⟩, hextension⟩

/-- A file is a media file if the name that its path ends in looks like that of one. -/
theorem isMedia_iff {path : Bytes} :
    isMedia path = true ↔ ∃ name, fileName? path = some name ∧ IsMediaName name := by
  simp only [isMedia, extension?, isMediaName_iff]
  cases fileName? path with
  | none => simp
  | some name =>
    cases hsplit : (splitExtension name).2 with
    | none => simp [hsplit]
    | some extension =>
      simp only [Option.bind_some, Option.some.injEq, exists_eq_left', hsplit, isMediaExtension_iff]
      cases Text.decode? extension <;> simp

theorem isMedia_joinNames {names : List Name} (hne : names ≠ [])
    (hnames : ∀ name ∈ names, IsName name) :
    isMedia (joinNames names) = true ↔ IsMediaName (names.getLast hne) := by
  simp only [isMedia_iff, fileName?_joinNames hne hnames, Option.some.injEq, exists_eq_left']

end MediaShelf.Library
