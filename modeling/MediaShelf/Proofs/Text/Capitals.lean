import Mathlib
import MediaShelf.Proofs.Text.Parts
import MediaShelf.Text.Capital

/-!
What putting a text in capitals does to the characters that the readers look for. Blanks stay where
they are and no others appear (`trim_capitals`). Of the characters beyond ASCII some have capitals
in ASCII, but those are a few letters only (`mem_capital_ascii`), so digits and the letters of a
unit come from themselves and from small letters of ASCII.
-/

namespace MediaShelf.Text

/-! ## The tables -/

/-- The letters of ASCII that are capitals of characters beyond ASCII: A, F, H, I, J, L, N, S, T, W
and Y. -/
def strayCapitals : List Nat :=
  [0x41, 0x46, 0x48, 0x49, 0x4A, 0x4C, 0x4E, 0x53, 0x54, 0x57, 0x59]

/-- The blanks beyond ASCII. -/
def blankCodes : List Nat :=
  [0x85, 0xA0, 0x1680, 0x2000, 0x2001, 0x2002, 0x2003, 0x2004, 0x2005, 0x2006, 0x2007, 0x2008,
    0x2009, 0x200A, 0x2028, 0x2029, 0x202F, 0x205F, 0x3000]

/-- A letter, or a character beyond ASCII that is not blank. -/
def Lettered (k : Nat) : Prop := k ∈ strayCapitals ∨ 0x80 ≤ k ∧ k ∉ blankCodes

instance (k : Nat) : Decidable (Lettered k) := inferInstanceAs (Decidable (_ ∨ _))

theorem beyond_of_mem_blankCodes {k : Nat} (h : k ∈ blankCodes) : 0x80 ≤ k := by
  have hall : ∀ k ∈ blankCodes, 0x80 ≤ k := by decide
  exact hall k h

theorem isBlank_iff {c : Char} :
    isBlank c = true ↔ 9 ≤ c.toNat ∧ c.toNat ≤ 13 ∨ c.toNat = 0x20 ∨ c.toNat ∈ blankCodes := by
  simp only [isBlank, Bool.or_eq_true, Bool.and_eq_true, decide_eq_true_eq, beq_iff_eq, blankCodes,
    List.mem_cons, List.not_mem_nil, or_false]
  omega

theorem capitalLists_lettered : ∀ entry ∈ capitalLists,
    entry.2 ≠ [] ∧ entry.1 ∉ blankCodes ∧ ∀ k ∈ entry.2, Lettered k := by
  have h : ∀ entry ∈ capitalLists.toList,
      entry.2 ≠ [] ∧ entry.1 ∉ blankCodes ∧ ∀ k ∈ entry.2, Lettered k := by decide +kernel
  exact fun entry hentry => h entry (Array.mem_toList_iff.mpr hentry)

/-- A run of capitals has one stray letter, or lies beyond ASCII; there are no blanks in it, nor in
the run of letters that it belongs to. -/
theorem capitalRuns_lettered : ∀ run ∈ capitalRuns,
    (run.2.2.2 ∈ strayCapitals ∧ run.1 = run.2.1 ∨ 0x80 ≤ run.2.2.2) ∧
      ∀ b ∈ blankCodes, ¬(run.1 ≤ b ∧ b ≤ run.2.1) ∧
        ¬(run.2.2.2 ≤ b ∧ b ≤ run.2.2.2 + (run.2.1 - run.1)) := by
  have h : ∀ run ∈ capitalRuns.toList,
      (run.2.2.2 ∈ strayCapitals ∧ run.1 = run.2.1 ∨ 0x80 ≤ run.2.2.2) ∧
        ∀ b ∈ blankCodes, ¬(run.1 ≤ b ∧ b ≤ run.2.1) ∧
          ¬(run.2.2.2 ≤ b ∧ b ≤ run.2.2.2 + (run.2.1 - run.1)) := by decide +kernel
  exact fun run hrun => h run (Array.mem_toList_iff.mpr hrun)

theorem capitalBeyondAscii_cases {n : Nat} (hn : 0x80 ≤ n) :
    capitalBeyondAscii n = [n] ∨ n ∉ blankCodes ∧ capitalBeyondAscii n ≠ [] ∧
      ∀ k ∈ capitalBeyondAscii n, Lettered k := by
  unfold capitalBeyondAscii
  split
  case h_1 first capital hfind =>
    obtain ⟨hne, hblank, hletters⟩ := capitalLists_lettered _ (Array.mem_of_find?_eq_some hfind)
    have hfirst := Array.find?_some hfind
    obtain rfl : first = n := by simpa using hfirst
    exact .inr ⟨hblank, hne, hletters⟩
  case h_2 =>
    split
    case h_1 first last step capital hfind =>
      obtain ⟨hstart, hblank⟩ := capitalRuns_lettered _ (Array.mem_of_find?_eq_some hfind)
      have hrange := Array.find?_some hfind
      simp only [Bool.and_eq_true, decide_eq_true_eq] at hrange
      refine .inr ⟨fun hmem => (hblank n hmem).1 hrange.1, by simp, fun k hk => ?_⟩
      obtain rfl := List.mem_singleton.mp hk
      dsimp only at hstart hblank
      rcases hstart with ⟨hstray, hone⟩ | hbeyond
      · exact .inl (by rwa [show n - first = 0 by omega])
      · exact .inr ⟨by omega, fun hmem => (hblank _ hmem).2 (by omega)⟩
    case h_2 => exact .inl rfl

/-! ## Characters -/

/-- The capital of a character beyond ASCII: itself, or letters if it is not a blank. -/
theorem capital_cases {c : Char} (hc : 0x80 ≤ c.toNat) :
    capital c = [c] ∨ isBlank c = false ∧ capital c ≠ [] ∧
      ∀ d ∈ capital c, isBlank d = false ∧
        (0x80 ≤ d.toNat ∨ d.toNat = 0 ∨ d.toNat ∈ strayCapitals) := by
  rw [capital, if_neg (by omega)]
  rcases capitalBeyondAscii_cases hc with h | ⟨hblank, hne, hletters⟩
  · left
    rw [h, List.map_singleton, Char.ofNat_toNat]
  · right
    refine ⟨?_, by simpa using hne, fun d hd => ?_⟩
    · rw [← Bool.not_eq_true, isBlank_iff]
      rintro (h | h | h)
      · omega
      · omega
      · exact hblank h
    · obtain ⟨k, hk, rfl⟩ := List.mem_map.mp hd
      have hcode : (Char.ofNat k).toNat = k ∨ (Char.ofNat k).toNat = 0 := by
        unfold Char.ofNat
        split
        · exact .inl rfl
        · exact .inr rfl
      have hstray : ∀ k ∈ strayCapitals, 0x41 ≤ k ∧ k ≤ 0x59 := by decide
      rw [← Bool.not_eq_true, isBlank_iff]
      rcases hcode with hcode | hcode <;> rw [hcode]
      · rcases hletters k hk with hk | ⟨hk, hblank⟩
        · have := hstray k hk
          refine ⟨?_, .inr (.inr hk)⟩
          rintro (h | h | h)
          · omega
          · omega
          · have := beyond_of_mem_blankCodes h
            omega
        · refine ⟨?_, .inl hk⟩
          rintro (h | h | h)
          · omega
          · omega
          · exact hblank h
      · exact ⟨by decide, .inr (.inl rfl)⟩

theorem toUpper_cases (c : Char) :
    c.toUpper = c ∨ 97 ≤ c.toNat ∧ c.toNat ≤ 122 ∧ c.toUpper.toNat = c.toNat - 32 := by
  unfold Char.toUpper
  split
  case isFalse => exact .inl rfl
  case isTrue hc =>
    have hrange : 97 ≤ c.toNat ∧ c.toNat ≤ 122 := by
      simp only [UInt32.le_iff_toNat_le] at hc
      exact hc
    refine .inr ⟨hrange.1, hrange.2, ?_⟩
    change (c.val + _).toNat = _
    rw [UInt32.toNat_add]
    change (c.toNat + 4294967264) % 2 ^ 32 = _
    omega

/-- A character of ASCII that is no stray letter is the capital of characters of ASCII only. -/
theorem mem_capital_ascii {c d : Char} (h : d ∈ capital c) (hascii : d.toNat < 0x80)
    (hzero : d.toNat ≠ 0) (hstray : d.toNat ∉ strayCapitals) :
    capital c = [d] ∧ d = c.toUpper := by
  rcases Nat.lt_or_ge c.toNat 0x80 with hc | hc
  · rw [capital_ascii hc] at h ⊢
    obtain rfl := List.mem_singleton.mp h
    exact ⟨rfl, rfl⟩
  · rcases capital_cases hc with hself | ⟨-, -, hletters⟩
    · rw [hself, List.mem_singleton] at h
      subst h
      omega
    · rcases (hletters d h).2 with hd | hd | hd
      · omega
      · exact absurd hd hzero
      · exact absurd hd hstray

theorem capital_ne_nil (c : Char) : capital c ≠ [] := by
  rcases Nat.lt_or_ge c.toNat 0x80 with hc | hc
  · rw [capital_ascii hc]
    exact List.cons_ne_nil _ _
  · rcases capital_cases hc with hself | ⟨-, hne, -⟩
    · rw [hself]
      exact List.cons_ne_nil _ _
    · exact hne

theorem capital_of_isBlank {c : Char} (h : isBlank c = true) : capital c = [c] := by
  rcases Nat.lt_or_ge c.toNat 0x80 with hc | hc
  · rw [capital_ascii hc]
    have hblank := isBlank_iff.mp h
    rcases toUpper_cases c with hsame | hsmall
    · rw [hsame]
    · rcases hblank with hblank | hblank | hblank
      · omega
      · omega
      · have := beyond_of_mem_blankCodes hblank
        omega
  · rcases capital_cases hc with hself | ⟨hnot, -, -⟩
    · exact hself
    · rw [h] at hnot
      cases hnot

theorem isBlank_of_mem_capital {c d : Char} (h : d ∈ capital c) (hd : isBlank d = true) :
    isBlank c = true := by
  rcases Nat.lt_or_ge c.toNat 0x80 with hc | hc
  · rw [capital_ascii hc, List.mem_singleton] at h
    subst h
    rcases toUpper_cases c with hsame | ⟨hlow, hhigh, hcode⟩
    · rwa [hsame] at hd
    · rcases isBlank_iff.mp hd with hblank | hblank | hblank
      · omega
      · omega
      · have := beyond_of_mem_blankCodes hblank
        omega
  · rcases capital_cases hc with hself | ⟨-, -, hletters⟩
    · rw [hself, List.mem_singleton] at h
      exact h ▸ hd
    · rw [(hletters d h).1] at hd
      cases hd

/-! ## Texts -/

section flatMap

variable {p : Char → Bool} {f : Char → List Char}

/-- Characters that `f` keeps, and gives for no others, are kept in front. -/
theorem takeWhile_flatMap (hkeep : ∀ c, p c = true → f c = [c])
    (hother : ∀ c, p c = false → f c ≠ [] ∧ ∀ d ∈ f c, p d = false) (s : List Char) :
    (s.flatMap f).takeWhile p = s.takeWhile p ∧
      (s.flatMap f).dropWhile p = (s.dropWhile p).flatMap f := by
  induction s with
  | nil => simp
  | cons c rest ih =>
    rw [List.flatMap_cons]
    cases hc : p c with
    | true => simp [hkeep c hc, hc, ih.1, ih.2]
    | false =>
      obtain ⟨hne, hnot⟩ := hother c hc
      obtain ⟨d, more, hd⟩ := List.exists_cons_of_ne_nil hne
      have hpd : p d = false := hnot d (by simp [hd])
      simp [hc, hd, hpd]

end flatMap

theorem trim_capitals (s : List Char) : trim (capitals s) = capitals (trim s) := by
  have hleft : ∀ t, trimLeft (capitals t) = capitals (trimLeft t) := fun t =>
    (takeWhile_flatMap (fun c => capital_of_isBlank) (fun c hc => ⟨capital_ne_nil c, fun d hd => by
      by_contra hblank
      rw [Bool.not_eq_false] at hblank
      rw [isBlank_of_mem_capital hd hblank] at hc
      cases hc⟩) t).2
  have hright : ∀ t, trimRight (capitals t) = capitals (trimRight t) := by
    intro t
    rw [trimRight, trimRight, capitals, capitals, List.reverse_flatMap (l := t),
      List.flatMap_reverse (l := t.reverse.dropWhile isBlank), List.reverse_inj]
    refine (takeWhile_flatMap (fun c hc => ?_) (fun c hc => ⟨?_, fun d hd => ?_⟩) t.reverse).2
    · simp [capital_of_isBlank hc]
    · simpa using capital_ne_nil c
    · by_contra hblank
      rw [Bool.not_eq_false] at hblank
      rw [isBlank_of_mem_capital (by simpa using hd) hblank] at hc
      cases hc
  rw [trim, hleft, hright, trim]

theorem capitals_eq_nil_iff {s : List Char} : capitals s = [] ↔ s = [] := by
  rw [capitals, List.flatMap_eq_nil_iff]
  exact ⟨fun h => List.eq_nil_iff_forall_not_mem.mpr fun c hc => capital_ne_nil c (h c hc),
    fun h => by simp [h]⟩

/-- A text of ASCII without stray letters is the capitals of texts of ASCII only. -/
theorem capitals_eq_iff {s text : List Char}
    (htext : ∀ d ∈ text, d.toNat < 0x80 ∧ d.toNat ≠ 0 ∧ d.toNat ∉ strayCapitals) :
    capitals s = text ↔ s.map Char.toUpper = text := by
  induction s generalizing text with
  | nil => exact Iff.rfl
  | cons c rest ih =>
    rw [capitals, List.flatMap_cons, ← capitals, List.map_cons]
    constructor
    · intro h
      obtain ⟨d, more, hd⟩ := List.exists_cons_of_ne_nil (capital_ne_nil c)
      obtain ⟨hascii, hzero, hstray⟩ := htext d (by rw [← h, hd]; simp)
      obtain ⟨hone, rfl⟩ := mem_capital_ascii (hd ▸ List.mem_cons_self) hascii hzero hstray
      rw [hone, List.singleton_append] at h
      subst h
      rw [(ih (List.forall_mem_cons.mp htext).2).mp rfl]
    · rintro rfl
      rw [List.forall_mem_cons] at htext
      have hc : c.toNat < 0x80 := by
        rcases toUpper_cases c with hsame | hsmall
        · exact hsame ▸ htext.1.1
        · omega
      rw [capital_ascii hc, (ih htext.2).mpr rfl]
      rfl

end MediaShelf.Text
