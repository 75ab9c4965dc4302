import MediaShelf.Proofs.Resource.Refinement

/-!
# Reading a file that changes

A file may shrink, grow or be written anew between any two reads, and a reader with a buffer may
give bytes that it has read before. In every case the reader goes on from where it stands, and gives
bytes that stood there in one of the contents that it has come across (`Reader.StandsAt.read`).
-/

namespace MediaShelf.Resource

/-- Each of some bytes stood in its place, from a position on, in one of the contents. -/
def StoodAt (contents : List Bytes) (position : Nat) (bytes : Bytes) : Prop :=
  ∀ i byte, bytes[i]? = some byte → ∃ content ∈ contents, content[position + i]? = some byte

section StoodAt

variable {contents : List Bytes} {position : Nat} {bytes more : Bytes}

theorem stoodAt_nil (contents : List Bytes) (position : Nat) : StoodAt contents position [] :=
  fun _ _ h => by cases h

theorem StoodAt.mono (h : StoodAt contents position bytes) (content : Bytes) :
    StoodAt (contents ++ [content]) position bytes := by
  intro i byte hbyte
  obtain ⟨old, hold, hstood⟩ := h i byte hbyte
  exact ⟨old, List.mem_append_left _ hold, hstood⟩

theorem StoodAt.take (h : StoodAt contents position bytes) (n : Nat) :
    StoodAt contents position (bytes.take n) := by
  intro i byte hbyte
  rw [List.getElem?_take] at hbyte
  split at hbyte
  · exact h i byte hbyte
  · cases hbyte

theorem StoodAt.drop (h : StoodAt contents position bytes) (n : Nat) :
    StoodAt contents (position + n) (bytes.drop n) := by
  intro i byte hbyte
  rw [List.getElem?_drop] at hbyte
  rw [Nat.add_assoc]
  exact h (n + i) byte hbyte

theorem StoodAt.append (h : StoodAt contents position bytes)
    (hmore : StoodAt contents (position + bytes.length) more) :
    StoodAt contents position (bytes ++ more) := by
  intro i byte hbyte
  rw [List.getElem?_append] at hbyte
  split at hbyte
  case isTrue => exact h i byte hbyte
  case isFalse hbehind =>
    obtain ⟨content, hmem, hstood⟩ := hmore (i - bytes.length) byte hbyte
    have hplace : position + bytes.length + (i - bytes.length) = position + i := by omega
    rw [hplace] at hstood
    exact ⟨content, hmem, hstood⟩

/-- What a descriptor reads stands in the content. -/
theorem stoodAt_read (contents : List Bytes) (content : Bytes) (position n : Nat) :
    StoodAt (contents ++ [content]) position ((content.drop position).take n) := by
  refine StoodAt.take (fun i byte hbyte => ?_) n
  rw [List.getElem?_drop] at hbyte
  exact ⟨content, List.mem_append_right _ (List.mem_singleton_self _), hbyte⟩

end StoodAt

/-- A reader with a buffer stands at a position, and the unread bytes stood there. -/
structure Buffered.StandsAt (contents : List Bytes) (position : Nat) (b : Buffered) : Prop where
  ahead : b.descriptor.position = position + b.unread.length
  stood : StoodAt contents position b.unread

/-- A reader stands at a position, and what it has read ahead stood there. -/
def Reader.StandsAt (contents : List Bytes) (position : Nat) : Reader → Prop
  | .direct d => d.position = position
  | .buffered b => b.StandsAt contents position

variable {contents : List Bytes} {position : Nat}

/-- Unread bytes that are passed over are still unread bytes of the place behind them. -/
theorem Buffered.StandsAt.skip {b : Buffered} (h : b.StandsAt contents position) {n : Nat}
    (hn : n ≤ b.unread.length) :
    ({ b with unread := b.unread.drop n }).StandsAt contents (position + n) where
  ahead := by
    have hahead := h.ahead
    simp only [List.length_drop]
    omega
  stood := h.stood.drop n

/-- Unread bytes are handed out from where the reader stands. -/
theorem Buffered.StandsAt.handOut {b : Buffered} (h : b.StandsAt contents position) (n : Nat) :
    (b.handOut n).1.length ≤ n ∧ StoodAt contents position (b.handOut n).1 ∧
      (b.handOut n).2.StandsAt contents (position + (b.handOut n).1.length) := by
  have hskip := h.skip (List.length_take_le' n b.unread)
  rw [Buffered.drop_length_take] at hskip
  exact ⟨List.length_take_le _ _, h.stood.take n, hskip⟩

/-- A reader with a buffer reads on from where it stands. -/
theorem Buffered.StandsAt.read {b : Buffered} (h : b.StandsAt contents position) (content : Bytes)
    (n : Nat) : (b.read content n).1.length ≤ n ∧
      StoodAt (contents ++ [content]) position (b.read content n).1 ∧
      (b.read content n).2.StandsAt (contents ++ [content])
        (position + (b.read content n).1.length) := by
  have hlater : b.StandsAt (contents ++ [content]) position := ⟨h.ahead, h.stood.mono content⟩
  unfold Buffered.read
  split
  case isTrue => exact ⟨Nat.zero_le n, stoodAt_nil _ _, hlater⟩
  case isFalse =>
    split
    case isFalse => exact hlater.handOut n
    case isTrue hunread =>
      have hat : b.descriptor.position = position := by
        rw [h.ahead, hunread]
        rfl
      split
      case isTrue =>
        -- past the buffer
        refine ⟨List.length_take_le _ _, ?_, ?_, ?_⟩
        · show StoodAt _ _ ((content.drop b.descriptor.position).take n)
          rw [hat]
          exact stoodAt_read _ _ _ _
        · show b.descriptor.position + (b.descriptor.read content n).1.length =
            position + (b.descriptor.read content n).1.length + b.unread.length
          rw [hat, hunread, List.length_nil, Nat.add_zero]
        · show StoodAt _ _ b.unread
          rw [hunread]
          exact stoodAt_nil _ _
      case isFalse =>
        refine Buffered.StandsAt.handOut ⟨?_, ?_⟩ n
        · exact congrArg (· + _) hat
        · show StoodAt _ _ ((content.drop b.descriptor.position).take b.capacity)
          rw [hat]
          exact stoodAt_read _ _ _ _

/-- A reader reads on from where it stands. -/
theorem Reader.StandsAt.read {r : Reader} (h : r.StandsAt contents position) (content : Bytes)
    (n : Nat) : (r.read content n).1.length ≤ n ∧
      StoodAt (contents ++ [content]) position (r.read content n).1 ∧
      (r.read content n).2.StandsAt (contents ++ [content])
        (position + (r.read content n).1.length) := by
  cases r with
  | buffered b => exact Buffered.StandsAt.read h content n
  | direct d =>
    have hat : d.position = position := h
    refine ⟨List.length_take_le _ _, ?_, ?_⟩
    · show StoodAt _ _ ((content.drop d.position).take n)
      rw [hat]
      exact stoodAt_read _ _ _ _
    · exact congrArg (· + _) hat

theorem standsAt_openIn (mode : Mode) (capacity : Nat) (metadata : Metadata) :
    (openIn mode capacity metadata).reader.StandsAt [] 0 := by
  cases mode with
  | direct => rfl
  | buffered => exact ⟨rfl, stoodAt_nil _ _⟩

/-- A seek from the start of a file drops what was read ahead, unless no file is so long. -/
theorem Reader.seek_start (r : Reader) (size offset : Nat) :
    r.seek size (.start offset) = .error .invalidArgument ∨
      ∃ r', r.seek size (.start offset) = .ok (offset, r') ∧ r'.StandsAt [] offset := by
  have hdescriptor : ∀ d : Descriptor, d.seek size (.start offset) = .error .invalidArgument ∨
      d.seek size (.start offset) = .ok ⟨offset⟩ := by
    intro d
    cases hsought : d.seek size (.start offset) with
    | error fault => exact .inl (congrArg _ (Descriptor.seek_error hsought))
    | ok e =>
      have hgoal : (offset : Int) = e.position := (Descriptor.seek_eq_ok hsought).1
      have hat : e = ⟨offset⟩ := congrArg Descriptor.mk (by omega)
      exact .inr (congrArg _ hat)
  cases r with
  | direct d =>
    rcases hdescriptor d with hfault | hat
    · simp only [Reader.seek, hfault]
      exact .inl rfl
    · simp only [Reader.seek, hat]
      exact .inr ⟨_, rfl, rfl⟩
  | buffered b =>
    rcases hdescriptor b.descriptor with hfault | hat
    · simp only [Reader.seek, Buffered.seek, Buffered.moveTo, hfault]
      exact .inl rfl
    · simp only [Reader.seek, Buffered.seek, Buffered.moveTo, hat]
      exact .inr ⟨_, rfl, rfl, stoodAt_nil _ _⟩

end MediaShelf.Resource
