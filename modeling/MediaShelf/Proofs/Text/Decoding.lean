import Mathlib
import MediaShelf.Text.Utf8

/-!
# Reading UTF-8 back

The bytes of a text are those of its characters, one after the other (`encode_eq`), and decoding
them gives the text again: `decodeLossy_encode`. A character takes one byte to four; the first tells
how many follow, and what it asks of the next is met.
-/

namespace MediaShelf.Text

/-! ## Bytes of a text -/

theorem byteArray_loop_eq (bytes : ByteArray) (i : Nat) (out : List UInt8) :
    ByteArray.toList.loop bytes i out = out.reverse ++ bytes.data.toList.drop i := by
  fun_induction ByteArray.toList.loop bytes i out with
  | case1 i out h ih =>
    have hi : i < bytes.data.toList.length := h
    have hget : bytes.get! i = bytes.data.toList[i] := getElem!_pos bytes.data i h
    rw [ih, List.drop_eq_getElem_cons hi, hget, List.reverse_cons, List.append_assoc,
      List.singleton_append]
  | case2 i out h =>
    rw [List.drop_eq_nil_of_le (Nat.le_of_not_lt h), List.append_nil]

theorem encode_eq_data (s : String) : encode s = s.toByteArray.data.toList :=
  byteArray_loop_eq s.toUTF8 0 []

/-- The bytes of a text are those of its characters. -/
theorem encode_eq (s : String) : encode s = s.toList.flatMap String.utf8EncodeChar := by
  rw [encode_eq_data, ← String.utf8Encode_toList, List.utf8Encode, List.toList_data_toByteArray]

theorem encode_append (s t : String) : encode (s ++ t) = encode s ++ encode t := by
  rw [encode_eq, encode_eq, encode_eq, String.toList_append, List.flatMap_append]

/-! ## One byte -/

variable {out : List Char} {b : UInt8}

theorem step_ascii (h : b.toNat < 0x80) :
    DecodeState.between.step out b = (Char.ofNat b.toNat :: out, .between) := by
  have hb : b < 0x80 := h
  simp [DecodeState.step, hb]

theorem step_lead (h : 0x80 ≤ b.toNat) {lead : Lead} (hlead : lead? b = some lead) :
    DecodeState.between.step out b =
      (out, .inside lead.tails lead.least lead.greatest lead.bits) := by
  have hb : ¬b < 0x80 := not_lt.mpr h
  simp [DecodeState.step, hb, hlead]

/-- The last byte of a character. -/
theorem step_last {least greatest : UInt8} {bits : Nat} (hleast : least ≤ b)
    (hgreatest : b ≤ greatest) :
    (DecodeState.inside 1 least greatest bits).step out b =
      (Char.ofNat (bits * 64 + b.toNat % 64) :: out, .between) := by
  simp [DecodeState.step, tailBits, hleast, hgreatest]

/-- A byte of a character after which there are more. -/
theorem step_more {missing : Nat} {least greatest : UInt8} {bits : Nat} (hleast : least ≤ b)
    (hgreatest : b ≤ greatest) :
    (DecodeState.inside (missing + 2) least greatest bits).step out b =
      (out, .inside (missing + 1) 0x80 0xBF (bits * 64 + b.toNat % 64)) := by
  simp [DecodeState.step, tailBits, hleast, hgreatest]

/-! ## First bytes -/

/-- What the first of two bytes asks for. -/
theorem lead?_two (h : 0xC2 ≤ b.toNat) (hb : b.toNat ≤ 0xDF) :
    lead? b = some ⟨1, 0x80, 0xBF, b.toNat - 0xC0⟩ := by
  simp only [lead?, Bool.and_eq_true, decide_eq_true_eq, UInt8.le_iff_toNat_le]
  exact if_pos ⟨h, hb⟩

/-- What the first of three bytes asks for: no overlong form and no surrogate. -/
theorem lead?_three (h : 0xE0 ≤ b.toNat) (hb : b.toNat ≤ 0xEF) :
    ∃ least greatest, lead? b = some ⟨2, least, greatest, b.toNat - 0xE0⟩ ∧
      least.toNat = (if b.toNat = 0xE0 then 0xA0 else 0x80) ∧
      greatest.toNat = (if b.toNat = 0xED then 0x9F else 0xBF) := by
  simp only [lead?, Bool.and_eq_true, decide_eq_true_eq, beq_iff_eq, UInt8.le_iff_toNat_le,
    ← UInt8.toNat_inj, UInt8.reduceToNat]
  rw [if_neg (by omega)]
  by_cases hfirst : b.toNat = 0xE0
  · exact ⟨0xA0, 0xBF, by simp [hfirst]⟩
  · by_cases hsurrogate : b.toNat = 0xED
    · exact ⟨0x80, 0x9F, by simp [hsurrogate]⟩
    · refine ⟨0x80, 0xBF, ?_⟩
      rw [if_neg hfirst, if_neg hsurrogate, if_pos (by omega), if_neg hfirst, if_neg hsurrogate]
      exact ⟨rfl, rfl, rfl⟩

/-- What the first of four bytes asks for: no overlong form and nothing past the last character. -/
theorem lead?_four (h : 0xF0 ≤ b.toNat) (hb : b.toNat ≤ 0xF4) :
    ∃ least greatest, lead? b = some ⟨3, least, greatest, b.toNat - 0xF0⟩ ∧
      least.toNat = (if b.toNat = 0xF0 then 0x90 else 0x80) ∧
      greatest.toNat = (if b.toNat = 0xF4 then 0x8F else 0xBF) := by
  simp only [lead?, Bool.and_eq_true, decide_eq_true_eq, beq_iff_eq, UInt8.le_iff_toNat_le,
    ← UInt8.toNat_inj, UInt8.reduceToNat]
  rw [if_neg (by omega), if_neg (by omega), if_neg (by omega), if_neg (by omega)]
  by_cases hfirst : b.toNat = 0xF0
  · exact ⟨0x90, 0xBF, by simp [hfirst]⟩
  · by_cases hlast : b.toNat = 0xF4
    · exact ⟨0x80, 0x8F, by simp [hlast]⟩
    · refine ⟨0x80, 0xBF, ?_⟩
      rw [if_neg hfirst, if_pos (by omega), if_neg hfirst, if_neg hlast]
      exact ⟨rfl, rfl, rfl⟩

/-! ## Characters -/

variable {rest : Bytes} {n : Nat} {b₁ b₂ b₃ b₄ : UInt8}

theorem decodeFrom_cons (out : List Char) (state : DecodeState) (b : UInt8) (rest : Bytes) :
    decodeFrom out state (b :: rest) =
      decodeFrom (state.step out b).1 (state.step out b).2 rest := rfl

theorem decodeFrom_two (hn : 0x80 ≤ n ∧ n ≤ 0x7FF) (h₁ : b₁.toNat = n / 64 + 0xC0)
    (h₂ : b₂.toNat = n % 64 + 0x80) :
    decodeFrom out .between (b₁ :: b₂ :: rest) =
      decodeFrom (Char.ofNat n :: out) .between rest := by
  have hbits : (b₁.toNat - 0xC0) * 64 + b₂.toNat % 64 = n := by omega
  rw [decodeFrom_cons, step_lead (by omega) (lead?_two (by omega) (by omega)), decodeFrom_cons,
    step_last, hbits]
  · exact UInt8.le_iff_toNat_le.mpr (by simp; omega)
  · exact UInt8.le_iff_toNat_le.mpr (by simp; omega)

theorem decodeFrom_three (hn : 0x800 ≤ n ∧ n ≤ 0xFFFF) (hvalid : n < 0xD800 ∨ 0xDFFF < n)
    (h₁ : b₁.toNat = n / 4096 + 0xE0) (h₂ : b₂.toNat = n / 64 % 64 + 0x80)
    (h₃ : b₃.toNat = n % 64 + 0x80) :
    decodeFrom out .between (b₁ :: b₂ :: b₃ :: rest) =
      decodeFrom (Char.ofNat n :: out) .between rest := by
  have hbits : ((b₁.toNat - 0xE0) * 64 + b₂.toNat % 64) * 64 + b₃.toNat % 64 = n := by omega
  obtain ⟨least, greatest, hlead, hleast, hgreatest⟩ := @lead?_three b₁ (by omega) (by omega)
  rw [decodeFrom_cons, step_lead (by omega) hlead, decodeFrom_cons, step_more, decodeFrom_cons,
    step_last, hbits]
  · exact UInt8.le_iff_toNat_le.mpr (by simp; omega)
  · exact UInt8.le_iff_toNat_le.mpr (by simp; omega)
  · rw [UInt8.le_iff_toNat_le, hleast]
    split <;> omega
  · rw [UInt8.le_iff_toNat_le, hgreatest]
    split <;> omega

theorem decodeFrom_four (hn : 0x10000 ≤ n ∧ n ≤ 0x10FFFF)
    (h₁ : b₁.toNat = n / 262144 + 0xF0) (h₂ : b₂.toNat = n / 4096 % 64 + 0x80)
    (h₃ : b₃.toNat = n / 64 % 64 + 0x80) (h₄ : b₄.toNat = n % 64 + 0x80) :
    decodeFrom out .between (b₁ :: b₂ :: b₃ :: b₄ :: rest) =
      decodeFrom (Char.ofNat n :: out) .between rest := by
  have hbits : (((b₁.toNat - 0xF0) * 64 + b₂.toNat % 64) * 64 + b₃.toNat % 64) * 64 +
      b₄.toNat % 64 = n := by omega
  obtain ⟨least, greatest, hlead, hleast, hgreatest⟩ := @lead?_four b₁ (by omega) (by omega)
  rw [decodeFrom_cons, step_lead (by omega) hlead, decodeFrom_cons, step_more, decodeFrom_cons,
    step_more, decodeFrom_cons, step_last, hbits]
  · exact UInt8.le_iff_toNat_le.mpr (by simp; omega)
  · exact UInt8.le_iff_toNat_le.mpr (by simp; omega)
  · exact UInt8.le_iff_toNat_le.mpr (by simp; omega)
  · exact UInt8.le_iff_toNat_le.mpr (by simp; omega)
  · rw [UInt8.le_iff_toNat_le, hleast]
    split <;> omega
  · rw [UInt8.le_iff_toNat_le, hgreatest]
    split <;> omega

/-- The bytes of a character are read as that character. -/
theorem decodeFrom_char (out : List Char) (c : Char) (rest : Bytes) :
    decodeFrom out .between (String.utf8EncodeChar c ++ rest) =
      decodeFrom (c :: out) .between rest := by
  have hvalid : c.toNat < 0xD800 ∨ 0xDFFF < c.toNat ∧ c.toNat < 0x110000 := c.valid
  have hval : c.val.toNat = c.toNat := rfl
  suffices h : decodeFrom out .between (String.utf8EncodeChar c ++ rest) =
      decodeFrom (Char.ofNat c.toNat :: out) .between rest by rwa [Char.ofNat_toNat] at h
  unfold String.utf8EncodeChar
  dsimp only
  rw [hval]
  split_ifs with h₁ h₂ h₃
  · have hb : (UInt8.ofNat c.toNat).toNat = c.toNat := by
      rw [UInt8.toNat_ofNat', Nat.mod_eq_of_lt (by omega)]
    rw [List.singleton_append, decodeFrom_cons, step_ascii (by omega), hb]
  · have htwo : 0x80 ≤ c.toNat ∧ c.toNat ≤ 0x7FF := by omega
    exact decodeFrom_two htwo (by simp; omega) (by simp; omega)
  · have hthree : 0x800 ≤ c.toNat ∧ c.toNat ≤ 0xFFFF := by omega
    exact decodeFrom_three hthree (by omega) (by simp; omega) (by simp; omega) (by simp; omega)
  · have hfour : 0x10000 ≤ c.toNat ∧ c.toNat ≤ 0x10FFFF := by omega
    exact decodeFrom_four hfour (by simp; omega) (by simp; omega) (by simp; omega)
      (by simp; omega)

/-- A text is read back from its bytes. -/
theorem decodeLossy_encode (s : String) : decodeLossy (encode s) = s := by
  have hall : ∀ (chars out : List Char),
      decodeFrom out .between (chars.flatMap String.utf8EncodeChar) = out.reverse ++ chars := by
    intro chars
    induction chars with
    | nil => intro out; exact (List.append_nil _).symm
    | cons c chars ih =>
      intro out
      rw [List.flatMap_cons, decodeFrom_char, ih, List.reverse_cons, List.append_assoc,
        List.singleton_append]
  rw [decodeLossy, encode_eq, hall, List.reverse_nil, List.nil_append, String.ofList_toList]

/-- Bytes that are read as a text without replacement are those of the text. -/
theorem decode?_eq_some {bytes : Bytes} {text : String} :
    decode? bytes = some text ↔ bytes = encode text := by
  rw [encode_eq_data]
  constructor
  · intro h
    unfold decode? String.fromUTF8? at h
    split at h
    · rw [← Option.some.inj h]
      rfl
    · cases h
  · rintro rfl
    rw [decode?, Array.toArray_toList, String.fromUTF8?, dif_pos text.isValidUTF8]
    rfl

/-- Different texts have different bytes. -/
theorem encode_injective : Function.Injective encode :=
  Function.LeftInverse.injective decodeLossy_encode

end MediaShelf.Text
