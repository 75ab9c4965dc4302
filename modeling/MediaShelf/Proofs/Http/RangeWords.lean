import MediaShelf.Http.ByteRange
import MediaShelf.Proofs.Text.Numerals

/-!
# Ranges in words

The server works ranges out on 64-bit words, where a difference below zero or a sum past the
greatest word is a fault. `WordRange.parse?` and `WordRange.span?` do what `ByteRange.parse` and
`ByteRange.span` do on such words, and are `none` where one of their differences or sums is no word.
That never happens, whatever the header and the size of the file (`range_arithmetic_safe`): a
difference is only taken behind a test that makes it one.
-/

namespace MediaShelf.Http

open MediaShelf.Text

/-! ## Words -/

namespace Word

/-- The difference of two words, if it is a word. -/
def sub? (a b : UInt64) : Option UInt64 := if b ≤ a then some (a - b) else none

/-- The sum of two words, if it is a word. -/
def add? (a b : UInt64) : Option UInt64 :=
  if a.toNat + b.toNat ≤ word64Max then some (a + b) else none

/-- The difference of two words, or zero if there is none. -/
def subOrZero (a b : UInt64) : UInt64 := if b ≤ a then a - b else 0

/-- The word that a text of digits stands for. -/
def ofText? (s : List Char) : Option UInt64 := (unsigned? word64Max s).map UInt64.ofNat

variable {a b : UInt64}

theorem sub?_of_le (h : b ≤ a) : ∃ c, sub? a b = some c ∧ c.toNat = a.toNat - b.toNat :=
  ⟨a - b, if_pos h, UInt64.toNat_sub_of_le a b h⟩

theorem add?_of_le (h : a.toNat + b.toNat ≤ word64Max) :
    ∃ c, add? a b = some c ∧ c.toNat = a.toNat + b.toNat := by
  refine ⟨a + b, if_pos h, ?_⟩
  rw [UInt64.toNat_add, Nat.mod_eq_of_lt (le_word64Max_iff.mp h)]

/-- A word that is not zero has one before it. -/
theorem sub?_one (h : a ≠ 0) : ∃ c, sub? a 1 = some c ∧ c.toNat = a.toNat - 1 := by
  refine sub?_of_le (UInt64.le_iff_toNat_le.mpr ?_)
  have hne : a.toNat ≠ 0 := fun hzero => h (UInt64.toNat_inj.mp hzero)
  exact Nat.one_le_iff_ne_zero.mpr hne

theorem toNat_subOrZero (a b : UInt64) : (subOrZero a b).toNat = a.toNat - b.toNat := by
  unfold subOrZero
  split
  case isTrue h => exact UInt64.toNat_sub_of_le a b h
  case isFalse h =>
    rw [UInt64.le_iff_toNat_le] at h
    rw [UInt64.toNat_zero]
    omega

theorem toNat_min (a b : UInt64) : (min a b).toNat = min a.toNat b.toNat := by
  show (if a ≤ b then a else b).toNat = _
  split
  case isTrue h => exact (Nat.min_eq_left (UInt64.le_iff_toNat_le.mp h)).symm
  case isFalse h =>
    rw [UInt64.le_iff_toNat_le] at h
    exact (Nat.min_eq_right (by omega)).symm

/-- A number that is read is a word. -/
theorem unsigned?_eq (s : List Char) : unsigned? word64Max s = (ofText? s).map UInt64.toNat := by
  unfold ofText?
  rw [Option.map_map]
  cases hread : unsigned? word64Max s with
  | none => rfl
  | some n =>
    have hword : (UInt64.ofNat n).toNat = n :=
      UInt64.toNat_ofNat_of_lt' (le_word64Max_iff.mp (unsigned?_le hread))
    rw [Option.map_some, Function.comp_apply, hword]

end Word

/-- What a request asks for of a file, its bounds as words. -/
inductive WordRange where
  | full
  | part (first last : UInt64)
  | unsatisfiable

namespace WordRange

open Word

/-- The same range with its bounds as numbers. -/
def toRange : WordRange → ByteRange
  | full => .full
  | part first last => .part first.toNat last.toNat
  | unsatisfiable => .unsatisfiable

/-- The range of the bounds on the two sides of the dash, for a file of `size` bytes. -/
def ofBounds? (first last : List Char) (size : UInt64) : Option WordRange :=
  match first, last with
  | [], [] => some .full
  | [], last =>
    match ofText? last with
    | none => some .full
    | some length =>
      if length = 0 ∨ size = 0 then some .unsatisfiable
      else do return .part (subOrZero size length) (← sub? size 1)
  | first, [] =>
    match ofText? first with
    | none => some .full
    | some first =>
      if size ≤ first then some .unsatisfiable else do return .part first (← sub? size 1)
  | first, last =>
    match ofText? first, ofText? last with
    | some first, some last =>
      if last < first then some .full
      else if size ≤ first then some .unsatisfiable
      else do return .part first (min last (← sub? size 1))
    | _, _ => some .full

/-- The range that an optional header asks for, for a file of `size` bytes. -/
def parse? (header : Option String) (size : UInt64) : Option WordRange :=
  match header.bind fun value => ByteRange.sides? value.toList with
  | none => some .full
  | some (first, last) => ofBounds? (trim first) (trim last) size

/-- Offset and length of the bytes to serve of a file of `size` bytes. -/
def span? (size : UInt64) : WordRange → Option (Option (UInt64 × UInt64))
  | full => some (some (0, size))
  | part first last => do
    let beyond ← sub? last first
    let length ← add? beyond 1
    return some (first, length)
  | unsatisfiable => some none

/-! ## Ranges -/

theorem parse_eq_ofBounds (header : Option String) (size : Nat) :
    ByteRange.parse header size =
      match header.bind fun value => ByteRange.sides? value.toList with
      | none => .full
      | some (first, last) => ByteRange.ofBounds (trim first) (trim last) size := by
  cases header <;> rfl

/-- Where a byte of the file is asked for, the file is not empty. -/
theorem sub?_one_of_lt {first size : UInt64} (h : ¬ size ≤ first) :
    ∃ c, sub? size 1 = some c ∧ c.toNat = size.toNat - 1 := by
  refine sub?_one ?_
  rintro rfl
  exact h (UInt64.le_iff_toNat_le.mpr (Nat.zero_le _))

theorem ofBounds?_ending {last : List Char} (hlast : last ≠ []) (size : UInt64) :
    (ofBounds? [] last size).map toRange = some (ByteRange.ofBounds [] last size.toNat) := by
  obtain ⟨c, last, rfl⟩ := List.exists_cons_of_ne_nil hlast
  have hzero : ∀ a : UInt64, a = 0 ↔ a.toNat = 0 := fun a => UInt64.toNat_inj.symm
  simp only [ofBounds?, ByteRange.ofBounds, unsigned?_eq]
  cases ofText? (c :: last) with
  | none => rfl
  | some length =>
    simp only [Option.map_some, ← hzero]
    split
    case isTrue => rfl
    case isFalse hsome =>
      obtain ⟨final, hfinal, hnat⟩ := sub?_one (not_or.mp hsome).2
      simp [hfinal, toRange, toNat_subOrZero, hnat]

theorem ofBounds?_onward {first : List Char} (hfirst : first ≠ []) (size : UInt64) :
    (ofBounds? first [] size).map toRange = some (ByteRange.ofBounds first [] size.toNat) := by
  obtain ⟨c, first, rfl⟩ := List.exists_cons_of_ne_nil hfirst
  simp only [ofBounds?, ByteRange.ofBounds, unsigned?_eq]
  cases ofText? (c :: first) with
  | none => rfl
  | some first =>
    simp only [Option.map_some, ← UInt64.le_iff_toNat_le]
    split
    case isTrue => rfl
    case isFalse hbehind =>
      obtain ⟨final, hfinal, hnat⟩ := sub?_one_of_lt hbehind
      simp [hfinal, toRange, hnat]

theorem ofBounds?_between {first last : List Char} (hfirst : first ≠ []) (hlast : last ≠ [])
    (size : UInt64) :
    (ofBounds? first last size).map toRange =
      some (ByteRange.ofBounds first last size.toNat) := by
  obtain ⟨c, first, rfl⟩ := List.exists_cons_of_ne_nil hfirst
  obtain ⟨d, last, rfl⟩ := List.exists_cons_of_ne_nil hlast
  simp only [ofBounds?, ByteRange.ofBounds, unsigned?_eq]
  cases ofText? (c :: first) with
  | none => rfl
  | some first =>
    cases ofText? (d :: last) with
    | none => rfl
    | some last =>
      simp only [Option.map_some, ← UInt64.le_iff_toNat_le, ← UInt64.lt_iff_toNat_lt]
      split
      case isTrue => rfl
      case isFalse =>
        split
        case isTrue => rfl
        case isFalse hbehind =>
          obtain ⟨final, hfinal, hnat⟩ := sub?_one_of_lt hbehind
          simp [hfinal, toRange, toNat_min, hnat]

theorem ofBounds?_eq (first last : List Char) (size : UInt64) :
    (ofBounds? first last size).map toRange =
      some (ByteRange.ofBounds first last size.toNat) := by
  by_cases hfirst : first = []
  · by_cases hlast : last = []
    · rw [hfirst, hlast]
      rfl
    · rw [hfirst]
      exact ofBounds?_ending hlast size
  · by_cases hlast : last = []
    · rw [hlast]
      exact ofBounds?_onward hfirst size
    · exact ofBounds?_between hfirst hlast size

/-- In words the same range is found. -/
theorem exists_parse? (header : Option String) (size : UInt64) :
    ∃ range, parse? header size = some range ∧
      range.toRange = ByteRange.parse header size.toNat := by
  refine Option.map_eq_some_iff.mp ?_
  rw [parse_eq_ofBounds, parse?]
  cases header.bind fun value => ByteRange.sides? value.toList with
  | none => rfl
  | some sides => exact ofBounds?_eq (trim sides.1) (trim sides.2) size

/-! ## Spans -/

/-- A part of a file has a length, and ends where the file does or before. -/
theorem exists_span?_part {first last size : UInt64} (hle : first ≤ last) (hlt : last < size) :
    ∃ length, span? size (.part first last) = some (some (first, length)) ∧
      length.toNat = last.toNat - first.toNat + 1 := by
  obtain ⟨beyond, hbeyond, hnat⟩ := sub?_of_le hle
  have hword : beyond.toNat + (1 : UInt64).toNat ≤ word64Max := by
    have hsize := size.toNat_lt
    rw [UInt64.lt_iff_toNat_lt] at hlt
    rw [le_word64Max_iff, UInt64.toNat_one]
    omega
  obtain ⟨length, hlength, hsum⟩ := add?_of_le hword
  refine ⟨length, ?_, ?_⟩
  · simp [span?, hbeyond, hlength]
  · rw [hsum, hnat]
    rfl

-- bounds that are not in order, or hold more bytes than a word can count
example : span? 9 (.part 3 2) = none := by decide
example : span? 9 (.part 0 18446744073709551615) = none := by decide

/-- **Ranges stay within words.** Whatever a header says, and whatever size a file has, no
difference and no sum leaves the words while the range and its span are worked out, and both are
what they are in numbers without bound. A part of a file lies inside it and holds a byte, and its
span starts at its first byte and ends behind its last one. The whole file is spanned by its size,
and just a range that the file does not have has no span. -/
theorem range_arithmetic_safe (header : Option String) (size : UInt64) :
    ∃ range span, parse? header size = some range ∧ range.span? size = some span ∧
      range.toRange = ByteRange.parse header size.toNat ∧
      (span.map fun bytes => (bytes.1.toNat, bytes.2.toNat)) =
        (ByteRange.parse header size.toNat).span size.toNat ∧
      (∀ first last, range = .part first last → first ≤ last ∧ last < size ∧
        ∃ length, span = some (first, length) ∧ 1 ≤ length ∧
          first.toNat + length.toNat = last.toNat + 1 ∧ last.toNat + 1 ≤ size.toNat) ∧
      (range = .full → span = some (0, size)) ∧
      (span = none ↔ range = .unsatisfiable) := by
  obtain ⟨range, hparse, hrange⟩ := exists_parse? header size
  have hwithin : range.toRange.WithinFile size.toNat := hrange ▸ ByteRange.withinFile_parse _ _
  rw [← hrange]
  cases range with
  | full => exact ⟨_, _, hparse, rfl, rfl, rfl, nofun, fun _ => rfl, by simp⟩
  | unsatisfiable => exact ⟨_, _, hparse, rfl, rfl, rfl, nofun, nofun, by simp⟩
  | part first last =>
    have hle : first ≤ last := UInt64.le_iff_toNat_le.mpr hwithin.1
    have hlt : last < size := UInt64.lt_iff_toNat_lt.mpr hwithin.2
    obtain ⟨length, hspan, hlength⟩ := exists_span?_part hle hlt
    refine ⟨_, _, hparse, hspan, rfl, ?_, ?_, nofun, by simp⟩
    · rw [Option.map_some, hlength]
      rfl
    · rintro _ _ ⟨⟩
      have hone : 1 ≤ length := by
        rw [UInt64.le_iff_toNat_le, UInt64.toNat_one]
        omega
      have hends : first.toNat + length.toNat = last.toNat + 1 := by
        rw [UInt64.le_iff_toNat_le] at hle
        omega
      exact ⟨hle, hlt, length, rfl, hone, hends, UInt64.lt_iff_toNat_lt.mp hlt⟩

end WordRange

end MediaShelf.Http
