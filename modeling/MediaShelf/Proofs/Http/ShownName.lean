import MediaShelf.Http.Disposition
import MediaShelf.Proofs.Text.Ascii
import MediaShelf.Proofs.Text.Parts

/-!
# Names in a header

The `Content-Disposition` header shows the name of a file between quotes. Characters that could end
the quotes, or that a header may not hold, are replaced one by one; the bytes of all others are
those that a header may hold, whatever the name is (`disposition_safe`).
-/

namespace MediaShelf.Http

open MediaShelf.Text

/-- The byte of a quote. -/
def quoteByte : UInt8 := 0x22

/-- The byte of a backslash. -/
def backslashByte : UInt8 := 0x5C

/-- A quote, a backslash or a control character. -/
def IsUnsafe (c : Char) : Prop :=
  c = '"' ∨ c = '\\' ∨ c.toNat < 0x20 ∨ 0x7F ≤ c.toNat ∧ c.toNat ≤ 0x9F

instance (c : Char) : Decidable (IsUnsafe c) := inferInstanceAs (Decidable (_ ∨ _))

/-- What stands between the first two quotes of a value. -/
def quotedPart (value : Bytes) : Bytes :=
  ((value.dropWhile (· ≠ quoteByte)).drop 1).takeWhile (· ≠ quoteByte)

/-! ## Characters -/

theorem safeChar_eq (c : Char) : safeChar c = if IsUnsafe c then '_' else c := by
  have hunsafe : (c = '"' ∨ c = '\\' ∨ isControl c) ↔ IsUnsafe c := by
    simp only [IsUnsafe, isControl, Bool.or_eq_true, Bool.and_eq_true, decide_eq_true_eq]
  exact if_congr hunsafe rfl rfl

theorem not_isUnsafe_safeChar (c : Char) : ¬IsUnsafe (safeChar c) := by
  rw [safeChar_eq]
  split
  · decide
  · assumption

theorem safeChar_eq_self_iff {c : Char} : safeChar c = c ↔ ¬IsUnsafe c := by
  refine ⟨fun h => h ▸ not_isUnsafe_safeChar c, fun h => ?_⟩
  rw [safeChar_eq, if_neg h]

theorem toList_safeName (name : String) : (safeName name).toList = name.toList.map safeChar :=
  String.toList_ofList

theorem not_isUnsafe_of_mem_safeName {name : String} {c : Char} (h : c ∈ (safeName name).toList) :
    ¬IsUnsafe c := by
  rw [toList_safeName] at h
  obtain ⟨original, -, rfl⟩ := List.mem_map.mp h
  exact not_isUnsafe_safeChar original

/-- A name is shown as it is if nothing in it is unsafe. -/
theorem safeName_eq_self_iff {name : String} :
    safeName name = name ↔ ∀ c ∈ name.toList, ¬IsUnsafe c := by
  rw [← String.toList_inj, toList_safeName]
  nth_rewrite 2 [← List.map_id name.toList]
  rw [List.map_inj_left]
  exact forall₂_congr fun c _ => safeChar_eq_self_iff

/-! ## The value -/

section Value

variable (name : String)

theorem disposition_eq :
    disposition name = "inline; filename=" ++ "\"" ++ safeName name ++ "\"" := by
  have hlead : "inline; filename=\"" = "inline; filename=" ++ "\"" := by simp
  exact congrArg (· ++ safeName name ++ "\"") hlead

theorem toList_disposition : (disposition name).toList =
    "inline; filename=".toList ++ '"' :: ((safeName name).toList ++ ['"']) := by
  have hquoted : ∀ front inner : String, (front ++ "\"" ++ inner ++ "\"").toList =
      front.toList ++ '"' :: (inner.toList ++ ['"']) := by simp
  rw [disposition_eq, hquoted]

/-- The quotes are the only unsafe characters of the value. -/
theorem not_isUnsafe_of_mem_disposition {c : Char} (h : c ∈ (disposition name).toList) :
    c = '"' ∨ ¬IsUnsafe c := by
  have hlead : ∀ c ∈ "inline; filename=".toList, ¬IsUnsafe c := by simp [IsUnsafe]
  rw [toList_disposition, List.mem_append, List.mem_cons, List.mem_append, List.mem_singleton] at h
  rcases h with h | rfl | h | rfl
  · exact .inr (hlead c h)
  · exact .inl rfl
  · exact .inr (not_isUnsafe_of_mem_safeName h)
  · exact .inl rfl

/-- No byte of the value is a control character, in whatever character it stands. -/
theorem visible_of_mem_disposition {b : UInt8} (h : b ∈ encode (disposition name)) :
    0x20 ≤ b.toNat ∧ b.toNat ≠ 0x7F := by
  by_cases hb : b.toNat < 0x80
  · rw [mem_encode hb] at h
    rcases not_isUnsafe_of_mem_disposition name h with hquote | hsafe
    · have hnat := congrArg Char.toNat hquote
      rw [toNat_ofNat_of_lt hb] at hnat
      rw [hnat]
      decide
    · unfold IsUnsafe at hsafe
      rw [toNat_ofNat_of_lt hb] at hsafe
      omega
  · omega

/-- Every name has a value. -/
theorem disposition?_eq : disposition? name = some (encode (disposition name)) := by
  refine if_pos (List.all_eq_true.mpr fun b hb => ?_)
  obtain ⟨hleast, hdelete⟩ := visible_of_mem_disposition name hb
  have hne : b ≠ 0x7F := fun heq => hdelete (congrArg UInt8.toNat heq)
  simp only [isValueByte, Bool.or_eq_true, Bool.and_eq_true, decide_eq_true_eq, bne_iff_ne]
  exact .inl ⟨UInt8.le_iff_toNat_le.mpr hleast, hne⟩

theorem quote_not_mem_safeName : '"' ∉ (safeName name).toList := fun h =>
  not_isUnsafe_of_mem_safeName h (by decide)

theorem count_quote_disposition : (encode (disposition name)).count quoteByte = 2 := by
  have hname := List.count_eq_zero_of_not_mem (quote_not_mem_safeName name)
  rw [count_encode (by decide), show Char.ofNat quoteByte.toNat = '"' from rfl, toList_disposition,
    List.count_append, List.count_cons_self, List.count_append, hname]
  decide

theorem backslash_not_mem_disposition : backslashByte ∉ encode (disposition name) := by
  rw [mem_encode (by decide), show Char.ofNat backslashByte.toNat = '\\' from rfl]
  intro h
  rcases not_isUnsafe_of_mem_disposition name h with h | h <;> exact absurd h (by decide)

theorem quotedPart_disposition :
    quotedPart (encode (disposition name)) = encode (safeName name) := by
  have hquoted : ∀ front inner : String, encode (front ++ "\"" ++ inner ++ "\"") =
      encode front ++ quoteByte :: (encode inner ++ [quoteByte]) := by
    have hquote : encode "\"" = [quoteByte] := by decide +kernel
    simp [encode_append, hquote]
  have hlead : quoteByte ∉ encode "inline; filename=" := by
    rw [mem_encode (by decide)]
    decide
  have hname : quoteByte ∉ encode (safeName name) := by
    rw [mem_encode (by decide)]
    exact quote_not_mem_safeName name
  rw [disposition_eq, hquoted, quotedPart, dropWhile_ne_append_cons hlead, List.drop_one,
    List.tail_cons, takeWhile_ne_append_cons hname]

end Value

/-- **No name breaks the header.** Every name has a value. No byte of it is a control character, it
has two quotes and no backslash, and what stands between the quotes has as many characters as the
name: an underscore for each quote, backslash and control character, and every other character as it
is. So a name is shown as it is exactly if it has none of these. -/
theorem disposition_safe (name : String) :
    ∃ value shown, disposition? name = some value ∧
      (∀ b ∈ value, 0x20 ≤ b.toNat ∧ b.toNat ≠ 0x7F) ∧
      value.count quoteByte = 2 ∧ backslashByte ∉ value ∧
      quotedPart value = encode shown ∧
      shown.length = name.length ∧
      shown.toList = name.toList.map (fun c => if IsUnsafe c then '_' else c) ∧
      (shown = name ↔ ∀ c ∈ name.toList, ¬IsUnsafe c) := by
  refine ⟨encode (disposition name), safeName name, disposition?_eq name,
    fun b => visible_of_mem_disposition name, count_quote_disposition name,
    backslash_not_mem_disposition name, quotedPart_disposition name, ?_, ?_, safeName_eq_self_iff⟩
  · rw [← String.length_toList, toList_safeName, List.length_map, String.length_toList]
  · rw [toList_safeName]
    exact List.map_congr_left fun c _ => safeChar_eq c

/-- A quote and a line end in a name are replaced; a letter beyond ASCII is not. -/
example : disposition? "é\"\r.mp4" = some (encode "inline; filename=\"é__.mp4\"") := by
  decide +kernel

end MediaShelf.Http
