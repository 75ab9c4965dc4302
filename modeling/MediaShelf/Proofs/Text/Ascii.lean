import MediaShelf.Proofs.Text.Decoding

/-!
# ASCII among bytes

The bytes of characters beyond ASCII are beyond ASCII too, so an ASCII byte stands for itself: in
the bytes of a text (`count_encode`), and where bytes are read that need not be UTF-8. There it ends
what was begun before it (`decodeLossy_append_cons`), and everything else is read as characters
beyond ASCII (`exists_steps`). So bytes that are read as an ASCII text are that text
(`encode_decodeLossy_of_ascii`).
-/

namespace MediaShelf.Text

/-! ## The bytes of a text -/

theorem toNat_ofNat_of_lt {n : Nat} (h : n < 0x80) : (Char.ofNat n).toNat = n := by
  rw [Char.toNat_ofNat, if_pos (.inl (by omega))]

theorem utf8EncodeChar_of_lt {c : Char} (h : c.toNat < 0x80) :
    String.utf8EncodeChar c = [UInt8.ofNat c.toNat] := by
  have hval : c.val.toNat = c.toNat := rfl
  unfold String.utf8EncodeChar
  dsimp only
  rw [hval, if_pos (by omega)]

theorem le_of_mem_utf8EncodeChar {c : Char} (h : 0x80 ≤ c.toNat) {b : UInt8}
    (hb : b ∈ String.utf8EncodeChar c) : 0x80 ≤ b.toNat := by
  have hvalid : c.toNat < 0xD800 ∨ 0xDFFF < c.toNat ∧ c.toNat < 0x110000 := c.valid
  have hval : c.val.toNat = c.toNat := rfl
  unfold String.utf8EncodeChar at hb
  dsimp only at hb
  rw [hval, if_neg (by omega)] at hb
  split_ifs at hb <;> simp only [List.mem_cons, List.not_mem_nil, or_false] at hb
  · rcases hb with rfl | rfl <;> simp <;> omega
  · rcases hb with rfl | rfl | rfl <;> simp <;> omega
  · rcases hb with rfl | rfl | rfl | rfl <;> simp <;> omega

variable {b : UInt8}

theorem count_utf8EncodeChar (h : b.toNat < 0x80) (c : Char) :
    (String.utf8EncodeChar c).count b = [c].count (Char.ofNat b.toNat) := by
  by_cases hc : c.toNat < 0x80
  · have hsame : UInt8.ofNat c.toNat = b ↔ c = Char.ofNat b.toNat := by
      rw [← UInt8.toNat_inj, UInt8.toNat_ofNat', Nat.mod_eq_of_lt (by omega), ← Char.toNat_inj,
        toNat_ofNat_of_lt h]
    rw [utf8EncodeChar_of_lt hc, List.count_singleton, List.count_singleton]
    simp only [beq_iff_eq, hsame]
  · have hbytes : b ∉ String.utf8EncodeChar c := fun hb =>
      absurd (le_of_mem_utf8EncodeChar (by omega) hb) (by omega)
    have hchar : Char.ofNat b.toNat ∉ [c] := by
      rw [List.mem_singleton]
      rintro rfl
      rw [toNat_ofNat_of_lt h] at hc
      exact hc h
    rw [List.count_eq_zero_of_not_mem hbytes, List.count_eq_zero_of_not_mem hchar]

/-- A byte of ASCII is in the bytes of a text as often as its character is in the text. -/
theorem count_encode (h : b.toNat < 0x80) (s : String) :
    (encode s).count b = s.toList.count (Char.ofNat b.toNat) := by
  have hall : ∀ chars : List Char, (chars.flatMap String.utf8EncodeChar).count b =
      chars.count (Char.ofNat b.toNat) := by
    intro chars
    induction chars with
    | nil => rfl
    | cons c rest ih =>
      rw [List.flatMap_cons, List.count_append, count_utf8EncodeChar h, ih, ← List.count_append,
        List.singleton_append]
  rw [encode_eq, hall]

/-- Only ASCII characters have ASCII bytes alone. -/
theorem ascii_of_encode {s : String} (h : ∀ b ∈ encode s, b.toNat < 0x80) :
    ∀ c ∈ s.toList, c.toNat < 0x80 := by
  intro c hc
  by_contra hbeyond
  obtain ⟨b, rest, hbytes⟩ := List.exists_cons_of_ne_nil (List.ne_nil_of_length_pos
    (String.length_utf8EncodeChar c ▸ c.utf8Size_pos))
  have hb : b ∈ String.utf8EncodeChar c := hbytes ▸ List.mem_cons_self
  have hge := le_of_mem_utf8EncodeChar (not_lt.mp hbeyond) hb
  have hlt := h b (encode_eq s ▸ List.mem_flatMap.mpr ⟨c, hc, hb⟩)
  omega

theorem mem_encode (h : b.toNat < 0x80) {s : String} :
    b ∈ encode s ↔ Char.ofNat b.toNat ∈ s.toList := by
  rw [← List.count_pos_iff, ← List.count_pos_iff, count_encode h]

/-! ## Characters that were begun -/

/-- The numbers from `low` on and below `high` are those of characters beyond ASCII. -/
def BeyondAscii (low high : Nat) : Prop :=
  0x80 ≤ low ∧ (high ≤ 0xD800 ∨ 0xE000 ≤ low ∧ high ≤ 0x110000)

theorem BeyondAscii.mono {low high low' high' : Nat} (h : BeyondAscii low high) (hlow : low ≤ low')
    (hhigh : high' ≤ high) : BeyondAscii low' high' := by
  unfold BeyondAscii at *
  omega

theorem BeyondAscii.toNat_ofNat {n : Nat} (h : BeyondAscii n (n + 1)) :
    (Char.ofNat n).toNat = n := by
  unfold BeyondAscii at h
  rw [Char.toNat_ofNat, if_pos]
  unfold Nat.isValidChar
  omega

namespace DecodeState

/-- Whatever bytes may follow, a character that was begun becomes one beyond ASCII. -/
def Sound : DecodeState → Prop
  | .between => True
  | .inside missing least greatest bits => ∃ more, missing = more + 1 ∧
      0x80 ≤ least.toNat ∧ greatest.toNat ≤ 0xBF ∧
      BeyondAscii ((bits * 64 + least.toNat % 64) * 64 ^ more)
        ((bits * 64 + greatest.toNat % 64 + 1) * 64 ^ more)

theorem sound_between : Sound .between := trivial

/-- What stands for a character that is cut off. -/
def pending : DecodeState → List Char
  | .between => []
  | .inside .. => [replacement]

theorem le_toNat_replacement : 0x80 ≤ replacement.toNat := by decide

theorem le_of_mem_pending (state : DecodeState) {c : Char} (h : c ∈ state.pending) :
    0x80 ≤ c.toNat := by
  cases state with
  | between => exact absurd h List.not_mem_nil
  | inside =>
    obtain rfl := List.mem_singleton.mp h
    exact le_toNat_replacement

end DecodeState

open DecodeState

theorem sound_lead {lead : Lead} (h : lead? b = some lead) :
    (DecodeState.inside lead.tails lead.least lead.greatest lead.bits).Sound := by
  simp only [lead?, Bool.and_eq_true, decide_eq_true_eq, beq_iff_eq, UInt8.le_iff_toNat_le,
    ← UInt8.toNat_inj, UInt8.reduceToNat] at h
  unfold DecodeState.Sound BeyondAscii
  split_ifs at h <;> obtain rfl := Option.some.inj h <;> refine ⟨_, rfl, ?_⟩ <;>
    simp only [UInt8.reduceToNat] <;> omega

/-- A byte that cannot go on with a character is read as if nothing had been begun. -/
theorem step_inside_of_not {missing : Nat} {least greatest : UInt8} {bits : Nat}
    (h : ¬(least ≤ b ∧ b ≤ greatest)) (out : List Char) :
    (DecodeState.inside missing least greatest bits).step out b =
      DecodeState.between.step (replacement :: out) b := by
  simp [DecodeState.step, h]

/-- What one byte makes. An ASCII byte ends what was begun and stands for itself. Any other makes
characters beyond ASCII, or none if it is a part of one. -/
structure Steps (state : DecodeState) (b : UInt8) (more : List Char) (next : DecodeState) :
    Prop where
  step_eq : ∀ out, state.step out b = (more ++ out, next)
  sound : next.Sound
  ascii : b.toNat < 0x80 → more = Char.ofNat b.toNat :: state.pending ∧ next = .between
  beyond : 0x80 ≤ b.toNat → (∀ c ∈ more, 0x80 ≤ c.toNat) ∧ (more = [] → next ≠ .between)

theorem steps_between (b : UInt8) : ∃ more next, Steps .between b more next := by
  by_cases hb : b.toNat < 0x80
  · exact ⟨[Char.ofNat b.toNat], .between, fun out => step_ascii hb, trivial,
      fun _ => ⟨rfl, rfl⟩, fun hge => absurd hb (not_lt.mpr hge)⟩
  · cases hlead : lead? b with
    | some lead =>
      refine ⟨[], .inside lead.tails lead.least lead.greatest lead.bits, fun out => ?_,
        sound_lead hlead, fun hlt => absurd hlt hb, fun _ => ⟨by simp, fun _ => nofun⟩⟩
      exact step_lead (not_lt.mp hb) hlead
    | none =>
      have hbyte : ¬b < 0x80 := hb
      refine ⟨[replacement], .between, fun out => ?_, trivial, fun hlt => absurd hlt hb,
        fun _ => ⟨List.forall_mem_singleton.mpr le_toNat_replacement, by simp⟩⟩
      simp [DecodeState.step, hbyte, hlead]

/-- Every byte makes such a step, and a character that was begun stays sound. -/
theorem exists_steps {state : DecodeState} (h : state.Sound) (b : UInt8) :
    ∃ more next, Steps state b more next := by
  cases state with
  | between => exact steps_between b
  | inside missing least greatest bits =>
    by_cases hrange : least ≤ b ∧ b ≤ greatest
    case neg =>
      obtain ⟨more, next, hstep⟩ := steps_between b
      refine ⟨more ++ [replacement], next, fun out => ?_, hstep.sound, fun hlt => ?_, fun hge => ?_⟩
      · rw [step_inside_of_not hrange, hstep.step_eq, List.append_assoc, List.singleton_append]
      · rw [(hstep.ascii hlt).1]
        exact ⟨rfl, (hstep.ascii hlt).2⟩
      · refine ⟨fun c hc => ?_, by simp⟩
        rcases List.mem_append.mp hc with hc | hc
        · exact (hstep.beyond hge).1 c hc
        · exact le_of_mem_pending (.inside missing least greatest bits) hc
    case pos =>
      obtain ⟨more, rfl, hleast, hgreatest, hbeyond⟩ := h
      have hle := UInt8.le_iff_toNat_le.mp hrange.1
      have hle' := UInt8.le_iff_toNat_le.mp hrange.2
      have hnot : ¬b.toNat < 0x80 := by omega
      -- The numbers that are left are some of those that were possible.
      have hnext : BeyondAscii ((bits * 64 + b.toNat % 64) * 64 ^ more)
          ((bits * 64 + b.toNat % 64 + 1) * 64 ^ more) :=
        hbeyond.mono (Nat.mul_le_mul_right _ (by omega)) (Nat.mul_le_mul_right _ (by omega))
      cases more with
      | zero =>
        rw [Nat.pow_zero, Nat.mul_one, Nat.mul_one] at hnext
        refine ⟨[Char.ofNat (bits * 64 + b.toNat % 64)], .between,
          fun out => step_last hrange.1 hrange.2, trivial, fun hlt => absurd hlt hnot,
          fun _ => ⟨?_, by simp⟩⟩
        rw [List.forall_mem_singleton, hnext.toNat_ofNat]
        exact hnext.1
      | succ more =>
        refine ⟨[], _, fun out => step_more hrange.1 hrange.2, ⟨more, rfl, le_rfl, le_rfl, ?_⟩,
          fun hlt => absurd hlt hnot, fun _ => ⟨by simp, fun _ => nofun⟩⟩
        rw [Nat.pow_succ', ← Nat.mul_assoc, ← Nat.mul_assoc] at hnext
        exact hnext.mono le_rfl (Nat.mul_le_mul_right _ (by simp; omega))

/-! ## Bytes that need not be UTF-8 -/

section

variable {state : DecodeState}

theorem decodeFrom_nil (out : List Char) (state : DecodeState) :
    decodeFrom out state [] = out.reverse ++ state.pending := by
  cases state with
  | between => exact (List.append_nil _).symm
  | inside => exact List.reverse_cons

/-- What was read so far stays. -/
theorem decodeFrom_eq (h : state.Sound) (out : List Char) (bytes : Bytes) :
    decodeFrom out state bytes = out.reverse ++ decodeFrom [] state bytes := by
  induction bytes generalizing state out with
  | nil => rw [decodeFrom_nil, decodeFrom_nil, List.reverse_nil, List.nil_append]
  | cons b rest ih =>
    obtain ⟨more, next, hstep⟩ := exists_steps h b
    rw [decodeFrom_cons, decodeFrom_cons, hstep.step_eq, hstep.step_eq, ih hstep.sound,
      ih hstep.sound (more ++ []), List.reverse_append, List.append_assoc, List.append_nil]

theorem Steps.decodeFrom_cons {b : UInt8} {more : List Char} {next : DecodeState}
    (h : Steps state b more next) (rest : Bytes) :
    decodeFrom [] state (b :: rest) = more.reverse ++ decodeFrom [] next rest := by
  rw [Text.decodeFrom_cons, h.step_eq, decodeFrom_eq h.sound, List.append_nil]

theorem decodeFrom_ascii_cons (h : state.Sound) (hb : b.toNat < 0x80) (rest : Bytes) :
    decodeFrom [] state (b :: rest) =
      state.pending ++ Char.ofNat b.toNat :: decodeFrom [] .between rest := by
  obtain ⟨more, next, hstep⟩ := exists_steps h b
  obtain ⟨rfl, rfl⟩ := hstep.ascii hb
  have hreverse : state.pending.reverse = state.pending := by cases state <;> rfl
  rw [hstep.decodeFrom_cons, List.reverse_cons, hreverse, List.append_assoc, List.singleton_append]

/-- An ASCII byte ends what was begun before it. -/
theorem decodeFrom_append_cons (h : state.Sound) (hb : b.toNat < 0x80) (front rest : Bytes) :
    decodeFrom [] state (front ++ b :: rest) =
      decodeFrom [] state front ++ Char.ofNat b.toNat :: decodeFrom [] .between rest := by
  induction front generalizing state with
  | nil =>
    rw [List.nil_append, decodeFrom_ascii_cons h hb, decodeFrom_nil, List.reverse_nil,
      List.nil_append]
  | cons first front ih =>
    obtain ⟨more, next, hstep⟩ := exists_steps h first
    rw [List.cons_append, hstep.decodeFrom_cons, hstep.decodeFrom_cons, ih hstep.sound,
      List.append_assoc]

theorem ofNat_not_mem_of_beyond (hb : b.toNat < 0x80) {chars : List Char}
    (h : ∀ c ∈ chars, 0x80 ≤ c.toNat) : Char.ofNat b.toNat ∉ chars := by
  intro hmem
  have := h _ hmem
  rw [toNat_ofNat_of_lt hb] at this
  omega

theorem mem_decodeFrom (h : state.Sound) (hb : b.toNat < 0x80) (bytes : Bytes) :
    Char.ofNat b.toNat ∈ decodeFrom [] state bytes ↔ b ∈ bytes := by
  induction bytes generalizing state with
  | nil =>
    rw [decodeFrom_nil, List.reverse_nil, List.nil_append]
    exact iff_of_false (ofNat_not_mem_of_beyond hb fun c => le_of_mem_pending state) List.not_mem_nil
  | cons first rest ih =>
    obtain ⟨more, next, hstep⟩ := exists_steps h first
    rw [hstep.decodeFrom_cons, List.mem_append, List.mem_reverse, ih hstep.sound, List.mem_cons]
    refine or_congr_left ?_
    by_cases hfirst : first.toNat < 0x80
    · have hpending := ofNat_not_mem_of_beyond hb fun c => le_of_mem_pending state
      rw [(hstep.ascii hfirst).1, List.mem_cons, or_iff_left hpending, ← Char.toNat_inj,
        toNat_ofNat_of_lt hb, toNat_ofNat_of_lt hfirst, UInt8.toNat_inj]
    · have hbeyond := (hstep.beyond (not_lt.mp hfirst)).1
      refine iff_of_false (ofNat_not_mem_of_beyond hb hbeyond) ?_
      rintro rfl
      exact hfirst hb

theorem eq_between_of_pending (h : ∀ c ∈ state.pending, c.toNat < 0x80) : state = .between := by
  cases state with
  | between => rfl
  | inside => exact absurd (h replacement List.mem_cons_self) (by decide)

/-- Only ASCII bytes between characters are read as ASCII characters alone. -/
theorem ascii_of_decodeFrom (h : state.Sound) {bytes : Bytes}
    (hascii : ∀ c ∈ decodeFrom [] state bytes, c.toNat < 0x80) :
    state = .between ∧ ∀ b ∈ bytes, b.toNat < 0x80 := by
  induction bytes generalizing state with
  | nil =>
    rw [decodeFrom_nil, List.reverse_nil, List.nil_append] at hascii
    exact ⟨eq_between_of_pending hascii, by simp⟩
  | cons first rest ih =>
    obtain ⟨more, next, hstep⟩ := exists_steps h first
    rw [hstep.decodeFrom_cons] at hascii
    simp only [List.mem_append, List.mem_reverse] at hascii
    obtain ⟨hnext, hrest⟩ := ih hstep.sound fun c hc => hascii c (.inr hc)
    by_cases hfirst : first.toNat < 0x80
    case pos =>
      rw [(hstep.ascii hfirst).1] at hascii
      exact ⟨eq_between_of_pending fun c hc => hascii c (.inl (List.mem_cons_of_mem _ hc)),
        List.forall_mem_cons.mpr ⟨hfirst, hrest⟩⟩
    case neg =>
      -- What this byte makes is beyond ASCII, or a part of a character that the rest must finish.
      obtain ⟨hbeyond, hpart⟩ := hstep.beyond (not_lt.mp hfirst)
      cases more with
      | nil => exact absurd hnext (hpart rfl)
      | cons c _ =>
        have hc := hascii c (.inl List.mem_cons_self)
        have hc' := hbeyond c List.mem_cons_self
        omega

end

/-! ## Bytes read as a text -/

theorem toList_decodeLossy (bytes : Bytes) :
    (decodeLossy bytes).toList = decodeFrom [] .between bytes := String.toList_ofList

/-- Bytes are read in two parts, in front of an ASCII byte and behind it. -/
theorem decodeLossy_append_cons (hb : b.toNat < 0x80) (front rest : Bytes) :
    (decodeLossy (front ++ b :: rest)).toList =
      (decodeLossy front).toList ++ Char.ofNat b.toNat :: (decodeLossy rest).toList := by
  simp only [toList_decodeLossy]
  exact decodeFrom_append_cons sound_between hb front rest

theorem mem_decodeLossy (hb : b.toNat < 0x80) (bytes : Bytes) :
    Char.ofNat b.toNat ∈ (decodeLossy bytes).toList ↔ b ∈ bytes := by
  rw [toList_decodeLossy]
  exact mem_decodeFrom sound_between hb bytes

theorem mem_encode_decodeLossy (hb : b.toNat < 0x80) (bytes : Bytes) :
    b ∈ encode (decodeLossy bytes) ↔ b ∈ bytes := by
  rw [mem_encode hb, mem_decodeLossy hb]

/-- ASCII bytes are those of a text. -/
theorem exists_encode_of_ascii {bytes : Bytes} (h : ∀ b ∈ bytes, b.toNat < 0x80) :
    ∃ text, bytes = encode text := by
  refine ⟨String.ofList (bytes.map fun b => Char.ofNat b.toNat), ?_⟩
  have hbyte : ∀ b ∈ bytes, String.utf8EncodeChar (Char.ofNat b.toNat) = [b] := by
    intro b hb
    rw [utf8EncodeChar_of_lt (by rw [toNat_ofNat_of_lt (h b hb)]; exact h b hb),
      toNat_ofNat_of_lt (h b hb), UInt8.ofNat_toNat]
  rw [encode_eq, String.toList_ofList, List.flatMap_map, List.flatMap_congr hbyte,
    List.flatMap_singleton']

/-- Bytes that are read as an ASCII text are those of that text. -/
theorem encode_decodeLossy_of_ascii {bytes : Bytes}
    (h : ∀ c ∈ (decodeLossy bytes).toList, c.toNat < 0x80) :
    encode (decodeLossy bytes) = bytes := by
  rw [toList_decodeLossy] at h
  obtain ⟨text, rfl⟩ := exists_encode_of_ascii (ascii_of_decodeFrom sound_between h).2
  rw [decodeLossy_encode]

end MediaShelf.Text
