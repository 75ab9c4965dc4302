import Mathlib
import MediaShelf.Catalog.EntryId

/-!
# Identifiers as texts

An identifier is written with 32 digits and four hyphens, and read back from this text
(`parse?_toText`).
-/

namespace MediaShelf.Catalog.EntryId

open MediaShelf.Text

theorem hexValue?_digitChar : ∀ d < 16, hexValue? (Nat.digitChar d) = some d := by decide

theorem length_hexDigits (count n : Nat) : (hexDigits count n).length = count := by
  induction count generalizing n with
  | zero => rfl
  | succ count ih => rw [hexDigits, List.length_append, ih, List.length_singleton]

theorem length_digits (id : EntryId) : id.digits.length = 32 := length_hexDigits 32 _

theorem hexNumber?_concat {front : List Char} {c : Char} {n d : Nat}
    (hfront : hexNumber? front = some n) (hc : hexValue? c = some d) :
    hexNumber? (front ++ [c]) = some (n * 16 + d) := by
  unfold hexNumber? at hfront ⊢
  rw [List.foldl_append, hfront]
  simp only [List.foldl_cons, List.foldl_nil, hc]

/-- Digits stand for the rest of the number that they were taken from. -/
theorem hexNumber?_hexDigits (count n : Nat) :
    hexNumber? (hexDigits count n) = some (n % 16 ^ count) := by
  induction count generalizing n with
  | zero => rw [pow_zero, Nat.mod_one]; rfl
  | succ count ih =>
    have hlast : n % 16 < 16 := Nat.mod_lt _ (by decide)
    have hsplit : n % 16 ^ (count + 1) = n / 16 % 16 ^ count * 16 + n % 16 := by
      rw [pow_succ', Nat.mod_mul, Nat.add_comm, Nat.mul_comm]
    rw [hexDigits, hexNumber?_concat (ih (n / 16)) (hexValue?_digitChar _ hlast), hsplit]

theorem ofDigits?_digits (id : EntryId) : ofDigits? id.digits = some id := by
  have hbits : BitVec.ofNat 128 (id.bits.toNat % 16 ^ 32) = id.bits := by
    have hlt : id.bits.toNat < 16 ^ 32 := id.bits.isLt
    rw [Nat.mod_eq_of_lt hlt, BitVec.ofNat_toNat, BitVec.setWidth_eq]
  rw [ofDigits?, if_pos (length_digits id), digits, hexNumber?_hexDigits, Option.map_some, hbits]

theorem hyphenatedDigits?_parts {a b c d e : List Char} (ha : a.length = 8) (hb : b.length = 4)
    (hc : c.length = 4) (hd : d.length = 4) (he : e.length = 12) :
    hyphenatedDigits? (a ++ ['-'] ++ b ++ ['-'] ++ c ++ ['-'] ++ d ++ ['-'] ++ e) =
      some (a ++ b ++ c ++ d ++ e) := by
  unfold hyphenatedDigits?
  rw [if_pos (by simp [ha, hb, hc, hd, he])]
  simp (disch := omega) [List.drop_append, List.drop_eq_nil_of_le, ha, hb, hc, hd]

theorem toList_toText (id : EntryId) : id.toText.toList =
    id.digits.take 8 ++ ['-'] ++ (id.digits.drop 8).take 4 ++ ['-'] ++
      (id.digits.drop 12).take 4 ++ ['-'] ++ (id.digits.drop 16).take 4 ++ ['-'] ++
      id.digits.drop 20 := String.toList_ofList

theorem digits_split (id : EntryId) : id.digits.take 8 ++ (id.digits.drop 8).take 4 ++
    (id.digits.drop 12).take 4 ++ (id.digits.drop 16).take 4 ++ id.digits.drop 20 = id.digits := by
  have hdrop : ∀ n, (id.digits.drop n).take 4 ++ id.digits.drop (n + 4) = id.digits.drop n := by
    intro n
    rw [← List.drop_drop, List.take_append_drop]
  rw [List.append_assoc, hdrop 16, List.append_assoc, hdrop 12, List.append_assoc, hdrop 8,
    List.take_append_drop]

/-- An identifier is read back from its text. -/
theorem parse?_toText (id : EntryId) : parse? id.toText = some id := by
  have hlength := length_digits id
  have hread : hyphenatedDigits? id.toText.toList = some id.digits := by
    rw [toList_toText, hyphenatedDigits?_parts, digits_split] <;> simp [hlength]
  have hlong : id.toText.toList.length = 36 := by
    rw [toList_toText]
    simp [hlength]
  unfold parse?
  dsimp only
  rw [hlong, if_neg (by decide), if_pos rfl, hread, Option.bind_some, ofDigits?_digits]

theorem mem_hexDigits {count n : Nat} {c : Char} (h : c ∈ hexDigits count n) :
    ∃ d < 16, c = Nat.digitChar d := by
  induction count generalizing n with
  | zero => cases h
  | succ count ih =>
    rcases List.mem_append.mp h with hfront | hlast
    · exact ih hfront
    · exact ⟨n % 16, Nat.mod_lt _ (by decide), List.mem_singleton.mp hlast⟩

theorem toText_subset (id : EntryId) : id.toText.toList ⊆ '-' :: id.digits := by
  have hmiddle : ∀ n, (id.digits.drop n).take 4 ⊆ id.digits := fun n =>
    List.Subset.trans (List.take_subset _ _) (List.drop_subset _ _)
  rw [toList_toText]
  simp [List.append_subset, List.subset_cons_of_subset, List.take_subset, List.drop_subset, hmiddle]

theorem forall_mem_toText {p : Char → Prop} (hhyphen : p '-')
    (hdigits : ∀ d < 16, p (Nat.digitChar d)) (id : EntryId) : ∀ c ∈ id.toText.toList, p c := by
  intro c hc
  rcases List.mem_cons.mp (toText_subset id hc) with rfl | hdigit
  · exact hhyphen
  · obtain ⟨d, hd, rfl⟩ := mem_hexDigits hdigit
    exact hdigits d hd

end MediaShelf.Catalog.EntryId
