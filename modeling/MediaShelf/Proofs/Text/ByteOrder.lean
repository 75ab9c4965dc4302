import MediaShelf.Proofs.Text.Decoding

/-!
# The order of texts

Texts are ordered by their characters, one after the other. Their bytes are in the same order
(`encode_lt_encode`): a greater character has a greater first byte, or the same one and then a
greater byte where the two first differ, so it does not matter what follows.
-/

namespace MediaShelf.Text

/-! ## Characters -/

/-- Some bytes come before others, whatever follows either. -/
def FirmlyBefore (a b : Bytes) : Prop := ∀ more more' : Bytes, a ++ more < b ++ more'

section Bytes

variable {a b : UInt8} {rest rest' : Bytes}

theorem firmlyBefore_of_lt (h : a.toNat < b.toNat) : FirmlyBefore (a :: rest) (b :: rest') := by
  intro more more'
  exact List.cons_lt_cons_iff.mpr (.inl (UInt8.lt_iff_toNat_lt.mpr h))

theorem firmlyBefore_cons (h : a.toNat ≤ b.toNat)
    (hrest : a.toNat = b.toNat → FirmlyBefore rest rest') :
    FirmlyBefore (a :: rest) (b :: rest') := by
  rcases Nat.lt_or_eq_of_le h with hlt | heq
  · exact firmlyBefore_of_lt hlt
  · intro more more'
    exact List.cons_lt_cons_iff.mpr (.inr ⟨UInt8.toNat_inj.mp heq, hrest heq more more'⟩)

end Bytes

/-- The bytes of a character by how many there are. -/
theorem utf8EncodeChar_cases (c : Char) :
    (c.toNat < 0x80 ∧ ∃ b : UInt8, String.utf8EncodeChar c = [b] ∧ b.toNat = c.toNat) ∨
    (0x80 ≤ c.toNat ∧ c.toNat < 0x800 ∧ ∃ b₁ b₂ : UInt8, String.utf8EncodeChar c = [b₁, b₂] ∧
      b₁.toNat = c.toNat / 64 + 0xC0 ∧ b₂.toNat = c.toNat % 64 + 0x80) ∨
    (0x800 ≤ c.toNat ∧ c.toNat < 0x10000 ∧ ∃ b₁ b₂ b₃ : UInt8,
      String.utf8EncodeChar c = [b₁, b₂, b₃] ∧ b₁.toNat = c.toNat / 4096 + 0xE0 ∧
      b₂.toNat = c.toNat / 64 % 64 + 0x80 ∧ b₃.toNat = c.toNat % 64 + 0x80) ∨
    (0x10000 ≤ c.toNat ∧ ∃ b₁ b₂ b₃ b₄ : UInt8,
      String.utf8EncodeChar c = [b₁, b₂, b₃, b₄] ∧ b₁.toNat = c.toNat / 262144 + 0xF0 ∧
      b₂.toNat = c.toNat / 4096 % 64 + 0x80 ∧ b₃.toNat = c.toNat / 64 % 64 + 0x80 ∧
      b₄.toNat = c.toNat % 64 + 0x80) := by
  have hvalid : c.toNat < 0xD800 ∨ 0xDFFF < c.toNat ∧ c.toNat < 0x110000 := c.valid
  have hval : c.val.toNat = c.toNat := rfl
  unfold String.utf8EncodeChar
  dsimp only
  rw [hval]
  split_ifs with h₁ h₂ h₃
  · refine .inl ⟨by omega, _, rfl, ?_⟩
    simp
    omega
  · refine .inr (.inl ⟨by omega, by omega, _, _, rfl, ?_, ?_⟩) <;> simp <;> omega
  · refine .inr (.inr (.inl ⟨by omega, by omega, _, _, _, rfl, ?_, ?_, ?_⟩)) <;> simp <;> omega
  · refine .inr (.inr (.inr ⟨by omega, _, _, _, _, rfl, ?_, ?_, ?_, ?_⟩)) <;> simp <;> omega

/-- The bytes of a lesser character come first. -/
theorem firmlyBefore_of_char_lt {c d : Char} (h : c < d) :
    FirmlyBefore (String.utf8EncodeChar c) (String.utf8EncodeChar d) := by
  have hlt : c.toNat < d.toNat := h
  rcases utf8EncodeChar_cases c with ⟨hc, b, hcode, hb⟩ | ⟨hc, hc', b₁, b₂, hcode, h₁, h₂⟩ |
    ⟨hc, hc', b₁, b₂, b₃, hcode, h₁, h₂, h₃⟩ | ⟨hc, b₁, b₂, b₃, b₄, hcode, h₁, h₂, h₃, h₄⟩ <;>
  rcases utf8EncodeChar_cases d with ⟨hd, e, hcode', he⟩ | ⟨hd, hd', e₁, e₂, hcode', h₁', h₂'⟩ |
    ⟨hd, hd', e₁, e₂, e₃, hcode', h₁', h₂', h₃'⟩ | ⟨hd, e₁, e₂, e₃, e₄, hcode', h₁', h₂', h₃', h₄'⟩ <;>
  rw [hcode, hcode']
  -- As many bytes: they are the digits of the two numbers, the highest first.
  case inl.inl => exact firmlyBefore_of_lt (by omega)
  case inr.inl.inr.inl =>
    exact firmlyBefore_cons (by omega) fun heq => firmlyBefore_of_lt (by omega)
  case inr.inr.inl.inr.inr.inl =>
    exact firmlyBefore_cons (by omega) fun heq => firmlyBefore_cons (by omega) fun heq' =>
      firmlyBefore_of_lt (by omega)
  case inr.inr.inr.inr.inr.inr =>
    exact firmlyBefore_cons (by omega) fun heq => firmlyBefore_cons (by omega) fun heq' =>
      firmlyBefore_cons (by omega) fun heq'' => firmlyBefore_of_lt (by omega)
  -- Otherwise the first byte tells how many there are, and more bytes are for greater numbers.
  all_goals first | omega | exact firmlyBefore_of_lt (by omega)

/-! ## Texts -/

theorem flatMap_lt {s t : List Char} (h : s < t) :
    s.flatMap String.utf8EncodeChar < t.flatMap String.utf8EncodeChar := by
  induction s generalizing t with
  | nil =>
    cases t with
    | nil => exact absurd h (List.lt_irrefl [])
    | cons d t =>
      obtain ⟨b, rest, hcode⟩ :=
        List.exists_cons_of_ne_nil (String.utf8EncodeChar_ne_nil (c := d))
      rw [List.flatMap_nil, List.flatMap_cons, hcode]
      exact List.nil_lt_cons _ _
  | cons c s ih =>
    cases t with
    | nil => exact absurd h (List.not_lt_nil _)
    | cons d t =>
      rw [List.flatMap_cons, List.flatMap_cons]
      rcases List.cons_lt_cons_iff.mp h with hlt | ⟨rfl, hrest⟩
      · exact firmlyBefore_of_char_lt hlt _ _
      · exact List.append_left_lt (ih hrest)

/-- Texts are in the order of their bytes. -/
theorem encode_lt_encode {s t : String} : encode s < encode t ↔ s < t := by
  have hmono : ∀ {s t : String}, s < t → encode s < encode t := by
    intro s t h
    rw [encode_eq, encode_eq]
    exact flatMap_lt (String.lt_iff_toList_lt.mp h)
  refine ⟨fun h => ?_, hmono⟩
  rcases lt_trichotomy s t with hlt | rfl | hgt
  · exact hlt
  · exact absurd h (List.lt_irrefl _)
  · exact absurd h (List.lt_asymm (hmono hgt))

end MediaShelf.Text
