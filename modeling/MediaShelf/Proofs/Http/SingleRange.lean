import MediaShelf.Http.ByteRange
import MediaShelf.Proofs.Text.Numerals
import MediaShelf.Proofs.Text.Parts

/-!
# Headers that ask for one range

A header value asks for a range (`Asks`) if it is `bytes=` and the range in one of the forms `A-B`,
`A-` and `-N`, with blanks around the numbers and around the whole. Such a header gets the bytes of
the range that the file has, as long as its numbers are 64-bit words (`single_range_answered`). A
header of any other form is passed over, but a number may have a plus sign in front
(`taken_iff_asks`).
-/

namespace MediaShelf.Http

open MediaShelf.Text

/-- The bytes of a file that a header names. -/
inductive SingleRange where
  /-- From `first` to `last`, both included. -/
  | between (first last : Nat)
  /-- From `first` to the end. -/
  | onward (first : Nat)
  /-- The last `length` bytes. -/
  | ending (length : Nat)

namespace SingleRange

/-- What a file of `size` bytes has of a range. -/
def answer (size : Nat) : SingleRange → ByteRange
  | between first last => if size ≤ first then .unsatisfiable else .part first (min last (size - 1))
  | onward first => if size ≤ first then .unsatisfiable else .part first (size - 1)
  | ending length =>
    if length = 0 ∨ size = 0 then .unsatisfiable
    else .part (size - min length size) (size - 1)

/-- The first byte of a range is not behind its last one. -/
def Ordered : SingleRange → Prop
  | between first last => first ≤ last
  | _ => True

/-- The numbers of a range are at most `limit`. -/
def Within (limit : Nat) : SingleRange → Prop
  | between first last => first ≤ limit ∧ last ≤ limit
  | onward first => first ≤ limit
  | ending length => length ≤ limit

instance : DecidablePred Ordered
  | between first last => inferInstanceAs (Decidable (first ≤ last))
  | onward _ => inferInstanceAs (Decidable True)
  | ending _ => inferInstanceAs (Decidable True)

instance (limit : Nat) : DecidablePred (Within limit)
  | between first last => inferInstanceAs (Decidable (first ≤ limit ∧ last ≤ limit))
  | onward first => inferInstanceAs (Decidable (first ≤ limit))
  | ending length => inferInstanceAs (Decidable (length ≤ limit))

theorem answer_ne_full (range : SingleRange) (size : Nat) : range.answer size ≠ .full := by
  cases range <;> simp only [answer] <;> split <;> simp

end SingleRange

variable {Number : List Char → Nat → Prop}

/-- The forms of a range, its numbers written as `Number` says. -/
inductive Written (Number : List Char → Nat → Prop) : List Char → SingleRange → Prop where
  | between {s t : List Char} {first last : Nat} : PaddedNumber Number s first →
      PaddedNumber Number t last → Written Number (s ++ '-' :: t) (.between first last)
  | onward {s t : List Char} {first : Nat} : PaddedNumber Number s first → Blank t →
      Written Number (s ++ '-' :: t) (.onward first)
  | ending {s t : List Char} {length : Nat} : Blank s → PaddedNumber Number t length →
      Written Number (s ++ '-' :: t) (.ending length)

/-- A header value that asks for one range of bytes. -/
def Asks (Number : List Char → Nat → Prop) (value : List Char) (range : SingleRange) : Prop :=
  ∃ front spec, Blank front ∧ Written Number spec range ∧
    value = front ++ ['b', 'y', 't', 'e', 's', '='] ++ spec

theorem Asks.plus {value : List Char} {range : SingleRange} (h : Asks Numeral value range) :
    Asks PlusNumeral value range := by
  obtain ⟨front, spec, hfront, hwritten, rfl⟩ := h
  refine ⟨front, spec, hfront, ?_, rfl⟩
  cases hwritten with
  | between hs ht => exact .between hs.plus ht.plus
  | onward hs ht => exact .onward hs.plus ht
  | ending hs ht => exact .ending hs ht.plus

/-- In a range there are numbers, blanks and the dash. -/
theorem Written.not_mem {c : Char} {spec : List Char} {range : SingleRange}
    (h : Written Number spec range) (hblank : isBlank c = false)
    (hnumber : ∀ number n, Number number n → c ∉ number) (hdash : c ≠ '-') : c ∉ spec := by
  cases h <;> simp only [List.mem_append, List.mem_cons, not_or]
  case between hs ht => exact ⟨hs.not_mem hblank hnumber, hdash, ht.not_mem hblank hnumber⟩
  case onward hs ht => exact ⟨hs.not_mem hblank hnumber, hdash, ht.not_mem hblank⟩
  case ending hs ht => exact ⟨hs.not_mem hblank, hdash, ht.not_mem hblank hnumber⟩

namespace ByteRange

/-! ## The two sides of the dash -/

theorem after?_eq_some {lead s t : List Char} : after? lead s = some t ↔ s = lead ++ t := by
  unfold after?
  split
  · rename_i h
    obtain ⟨u, rfl⟩ := List.isPrefixOf_iff_prefix.mp h
    simp
  · rename_i h
    rw [List.isPrefixOf_iff_prefix] at h
    simp only [reduceCtorEq, false_iff]
    rintro rfl
    exact h (List.prefix_append _ _)

/-- A value without a comma is read by what stands on the two sides of its first dash. -/
theorem ofValue_eq {front s t : List Char} (hfront : Blank front) (hdash : '-' ∉ s)
    (hcomma : ',' ∉ s ++ '-' :: t) (size : Nat) :
    ofValue (front ++ ['b', 'y', 't', 'e', 's', '='] ++ (s ++ '-' :: t)) size =
      ofBounds (trim s) (trim t) size := by
  have htrim : trim (front ++ ['b', 'y', 't', 'e', 's', '='] ++ (s ++ '-' :: t)) =
      ['b', 'y', 't', 'e', 's', '='] ++ (s ++ '-' :: trimRight t) := by
    rw [trim, List.append_assoc, trimLeft_append hfront, List.cons_append,
      trimLeft_cons_of_not_isBlank (by decide), ← List.cons_append, ← List.append_assoc,
      trimRight_append_cons (by decide), List.append_assoc]
  obtain ⟨back, -, hback⟩ := exists_trimRight t
  have hcomma' : ',' ∉ s ++ '-' :: trimRight t := by
    intro hmem
    rw [hback, ← List.cons_append, ← List.append_assoc] at hcomma
    exact hcomma (List.mem_append_left _ hmem)
  have hsides : sides? (front ++ ['b', 'y', 't', 'e', 's', '='] ++ (s ++ '-' :: t)) =
      some (s, trimRight t) := by
    rw [sides?, htrim, after?_eq_some.mpr rfl]
    exact (if_neg (by simpa using hcomma')).trans (cutAt?_eq_some.mpr ⟨hdash, rfl⟩)
  rw [ofValue, hsides]
  exact congrArg (ofBounds (trim s) · size) (trim_trimRight t)

/-- A value that is not passed over has a lead and a dash. -/
theorem exists_sides {value : List Char} {size : Nat} (h : ofValue value size ≠ .full) :
    ∃ front s t, Blank front ∧
      value = front ++ ['b', 'y', 't', 'e', 's', '='] ++ (s ++ '-' :: t) ∧
      ofValue value size = ofBounds (trim s) (trim t) size := by
  obtain ⟨front, back, hfront, hback, hvalue⟩ := padded_trim value
  cases hsides : sides? value with
  | none => exact absurd (by rw [ofValue, hsides]) h
  | some sides =>
    obtain ⟨s, t⟩ := sides
    have hread : ofValue value size = ofBounds (trim s) (trim t) size := by rw [ofValue, hsides]
    unfold sides? at hsides
    split at hsides
    case h_1 => cases hsides
    case h_2 spec hafter =>
      split at hsides
      case isTrue => cases hsides
      case isFalse =>
        obtain ⟨-, rfl⟩ := cutAt?_eq_some.mp hsides
        rw [after?_eq_some.mp hafter] at hvalue
        refine ⟨front, s, t ++ back, hfront, by rw [hvalue]; simp, ?_⟩
        have htrim : trim (t ++ back) = trim t := by
          simpa using trim_append blank_nil hback t
        rw [hread, htrim]

/-! ## The numbers on the two sides -/

theorem ofBounds_between {s t : List Char} {first last : Nat} (hs : PlusNumeral s first)
    (ht : PlusNumeral t last) (size : Nat) :
    ofBounds s t size =
      if (SingleRange.between first last).Within word64Max ∧ first ≤ last then
        (SingleRange.between first last).answer size
      else .full := by
  obtain ⟨c, s', rfl⟩ := List.exists_cons_of_ne_nil hs.ne_nil
  obtain ⟨d, t', rfl⟩ := List.exists_cons_of_ne_nil ht.ne_nil
  simp only [ofBounds, unsigned?_plusNumeral hs, unsigned?_plusNumeral ht, SingleRange.Within,
    SingleRange.answer]
  by_cases hfirst : first ≤ word64Max <;> by_cases hlast : last ≤ word64Max <;>
    by_cases hle : first ≤ last <;> simp [hfirst, hlast, hle, Nat.lt_of_not_le]

theorem ofBounds_onward {s : List Char} {first : Nat} (hs : PlusNumeral s first) (size : Nat) :
    ofBounds s [] size =
      if first ≤ word64Max then (SingleRange.onward first).answer size else .full := by
  obtain ⟨c, s', rfl⟩ := List.exists_cons_of_ne_nil hs.ne_nil
  simp only [ofBounds, unsigned?_plusNumeral hs, SingleRange.answer]
  by_cases hfirst : first ≤ word64Max <;> simp [hfirst]

theorem ofBounds_ending {t : List Char} {length : Nat} (ht : PlusNumeral t length) (size : Nat) :
    ofBounds [] t size =
      if length ≤ word64Max then (SingleRange.ending length).answer size else .full := by
  obtain ⟨d, t', rfl⟩ := List.exists_cons_of_ne_nil ht.ne_nil
  have hstart : size - min length size = size - length := by omega
  simp only [ofBounds, unsigned?_plusNumeral ht, SingleRange.answer, hstart]
  by_cases hlength : length ≤ word64Max <;> simp [hlength]

/-- The sides of the dash that are not passed over: a number on both, or on one with nothing on the
other. -/
theorem exists_numbers {s t : List Char} {size : Nat} (h : ofBounds s t size ≠ .full) :
    (∃ first last, PlusNumeral s first ∧ PlusNumeral t last) ∨
      (∃ first, PlusNumeral s first ∧ t = []) ∨ ∃ length, s = [] ∧ PlusNumeral t length := by
  have hnumber : ∀ {u : List Char}, unsigned? word64Max u ≠ none → ∃ n, PlusNumeral u n := by
    intro u hu
    obtain ⟨n, hn⟩ := Option.ne_none_iff_exists'.mp hu
    exact ⟨n, (unsigned?_eq_some.mp hn).1⟩
  cases s with
  | nil =>
    cases t with
    | nil => exact absurd rfl h
    | cons d t' =>
      obtain ⟨n, hn⟩ := hnumber (u := d :: t') fun hnone => h (by simp only [ofBounds, hnone])
      exact .inr (.inr ⟨n, rfl, hn⟩)
  | cons c s' =>
    obtain ⟨n, hn⟩ := hnumber (u := c :: s') fun hnone => h (by
      cases t <;> simp only [ofBounds, hnone])
    cases t with
    | nil => exact .inr (.inl ⟨n, hn, rfl⟩)
    | cons d t' =>
      obtain ⟨k, hk⟩ := hnumber (u := d :: t') fun hnone => h (by
        simp only [ofBounds, hnone]
        split <;> simp_all)
      exact .inl ⟨n, k, hn, hk⟩

/-! ## Headers -/

/-- What is read for a header that asks for a range. -/
theorem parse_asks {value : String} {range : SingleRange} (h : Asks PlusNumeral value.toList range)
    (size : Nat) :
    parse (some value) size =
      if range.Within word64Max ∧ range.Ordered then range.answer size else .full := by
  obtain ⟨front, spec, hfront, hwritten, hvalue⟩ := h
  rw [parse, hvalue]
  have hcomma : ',' ∉ spec := hwritten.not_mem (by decide)
    (fun _ _ hnumber => hnumber.not_mem (by decide) (by decide)) (by decide)
  have hdash : ∀ {s : List Char} {n : Nat}, PaddedNumber PlusNumeral s n → '-' ∉ s := fun hs =>
    hs.not_mem (by decide) fun _ _ hnumber => hnumber.not_mem (by decide) (by decide)
  cases hwritten with
  | between hs ht =>
    rw [ofValue_eq hfront (hdash hs) hcomma, ofBounds_between hs.trim ht.trim]
    rfl
  | onward hs ht =>
    rw [ofValue_eq hfront (hdash hs) hcomma, trim_of_blank ht, ofBounds_onward hs.trim]
    simp [SingleRange.Within, SingleRange.Ordered]
  | ending hs ht =>
    rw [ofValue_eq hfront (hs.not_mem (by decide)) hcomma, trim_of_blank hs,
      ofBounds_ending ht.trim]
    simp [SingleRange.Within, SingleRange.Ordered]

/-- A header that is not passed over asks for a range. -/
theorem exists_asks {value : String} {size : Nat} (h : parse (some value) size ≠ .full) :
    ∃ range, Asks PlusNumeral value.toList range := by
  rw [parse] at h
  obtain ⟨front, s, t, hfront, hvalue, hread⟩ := exists_sides h
  rw [hread] at h
  rcases exists_numbers h with ⟨first, last, hs, ht⟩ | ⟨first, hs, ht⟩ | ⟨length, hs, ht⟩
  · exact ⟨_, front, _, hfront,
      .between (paddedNumber_of_trim hs) (paddedNumber_of_trim ht), hvalue⟩
  · exact ⟨_, front, _, hfront, .onward (paddedNumber_of_trim hs) (trim_eq_nil_iff.mp ht), hvalue⟩
  · exact ⟨_, front, _, hfront, .ending (trim_eq_nil_iff.mp hs) (paddedNumber_of_trim ht), hvalue⟩

/-- A header that asks for one range in digits gets what the file has of it if the numbers are
64-bit words. With a greater number in it the header is passed over. -/
theorem single_range_answered {value : String} {range : SingleRange}
    (h : Asks Numeral value.toList range) (hordered : range.Ordered) (size : Nat) :
    parse (some value) size =
      if range.Within word64Max then range.answer size else .full := by
  rw [parse_asks h.plus]
  simp only [hordered, and_true]

/-- The greatest word, with blanks around, is clamped to the end of the file; the number after it
is passed over. -/
theorem single_range_answered_atLimit :
    Asks Numeral "bytes= 5 - 18446744073709551615 ".toList (.between 5 (2 ^ 64 - 1)) ∧
      parse (some "bytes= 5 - 18446744073709551615 ") 1000 = .part 5 999 ∧
      Asks Numeral "bytes=5-18446744073709551616".toList (.between 5 (2 ^ 64)) ∧
      parse (some "bytes=5-18446744073709551616") 1000 = .full := by
  have hlast : Asks Numeral "bytes= 5 - 18446744073709551615 ".toList
      (.between 5 (2 ^ 64 - 1)) := by
    refine ⟨[], _, blank_nil, .between (s := [' ', '5', ' '])
      (t := " 18446744073709551615 ".toList) ⟨['5'], ?_, [' '], [' '], ?_⟩
      ⟨"18446744073709551615".toList, ?_, [' '], [' '], ?_⟩, ?_⟩
    all_goals decide +kernel
  have hbeyond : Asks Numeral "bytes=5-18446744073709551616".toList (.between 5 (2 ^ 64)) := by
    refine ⟨[], _, blank_nil, .between ⟨['5'], ?_, padded_self _⟩
      ⟨"18446744073709551616".toList, ?_, padded_self _⟩, ?_⟩
    all_goals decide +kernel
  refine ⟨hlast, ?_, hbeyond, ?_⟩
  · rw [single_range_answered hlast (by decide)]
    decide
  · rw [single_range_answered hbeyond (by decide)]
    decide

/-- Not every header that asks for one range gets what the file has of it. -/
theorem long_number_passed_over :
    ¬∀ (value : String) (range : SingleRange) (size : Nat), Asks Numeral value.toList range →
      range.Ordered → parse (some value) size = range.answer size := by
  intro h
  have hasks : Asks Numeral "bytes=18446744073709551616-".toList (.onward (2 ^ 64)) := by
    refine ⟨[], _, blank_nil, .onward ⟨"18446744073709551616".toList, ?_, padded_self _⟩
      blank_nil, ?_⟩
    all_goals decide +kernel
  exact absurd (h _ _ 1000 hasks (by decide)) (by decide)

/-- A header is taken exactly if it asks for one range with the numbers in order and below `2^64`;
a plus sign may stand in front of a number. -/
theorem taken_iff_asks (header : Option String) (size : Nat) :
    parse header size ≠ .full ↔
      ∃ value range, header = some value ∧ Asks PlusNumeral value.toList range ∧ range.Ordered ∧
        range.Within word64Max := by
  constructor
  · intro h
    cases header with
    | none => exact absurd rfl h
    | some value =>
      obtain ⟨range, hasks⟩ := exists_asks h
      rw [parse_asks hasks] at h
      by_cases hgood : range.Within word64Max ∧ range.Ordered
      · exact ⟨value, range, rfl, hasks, hgood.2, hgood.1⟩
      · exact absurd (if_neg hgood) h
  · rintro ⟨value, range, rfl, hasks, hordered, hwithin⟩
    rw [parse_asks hasks, if_pos ⟨hwithin, hordered⟩]
    exact range.answer_ne_full size

/-- A header is taken whose first number is not a text of digits. -/
theorem plus_sign_taken :
    ¬∀ (value : String) (size : Nat), parse (some value) size ≠ .full →
      ∃ range, Asks Numeral value.toList range ∧ range.Ordered := by
  intro h
  obtain ⟨range, ⟨front, spec, hfront, hwritten, hvalue⟩, -⟩ := h "bytes=+0-5" 1000 (by decide)
  have hspec : '+' ∉ spec := hwritten.not_mem (by decide)
    (fun _ _ hnumber hmem => absurd (hnumber.2.1 _ hmem) (by decide)) (by decide)
  have hmem : '+' ∈ "bytes=+0-5".toList := by decide
  rw [hvalue] at hmem
  simp only [List.mem_append] at hmem
  rcases hmem with (hmem | hmem) | hmem
  · exact hfront.not_mem (by decide) hmem
  · exact absurd hmem (by decide)
  · exact hspec hmem

end ByteRange

end MediaShelf.Http
