import MediaShelf.Proofs.Resource.Cursor

/-!
# Open files refine a cursor

A plain file and a file with bytes read ahead both behave as a cursor over the content
(`resource_refines_cursor`). The position of a file that reads ahead is nowhere stored: it is that
of the descriptor less the unread bytes. `Reader.Sound` says that these bytes are the ones that
stand between the two; every operation keeps that, and so does growth of the file.
-/

namespace MediaShelf.Resource

/-! ## The descriptor -/

namespace Descriptor

variable {size : Nat} {target : SeekTarget} {d e : Descriptor}

theorem seek_eq_ok (h : d.seek size target = .ok e) :
    d.goal size target = e.position ∧ e.position ≤ maxPosition := by
  simp only [seek] at h
  split at h
  · cases h
    simp only
    omega
  · cases h

theorem seek_of_goal {p : Nat} (hp : p ≤ maxPosition) (h : d.goal size target = p) :
    d.seek size target = .ok ⟨p⟩ := by
  simp only [seek, h]
  rw [if_pos (by omega)]
  rfl

theorem seek_error {fault : Fault} (h : d.seek size target = .error fault) :
    fault = .invalidArgument := by
  simp only [seek] at h
  split at h <;> cases h
  rfl

theorem seek_congr {size' : Nat} {target' : SeekTarget}
    (h : d.goal size target = e.goal size' target') :
    d.seek size target = e.seek size' target' := by
  simp only [seek, h]

/-- What the descriptor gives is served there. -/
theorem served_read (content : Bytes) (n : Nat) (d : Descriptor) :
    Served content d.position n (d.read content n).1 where
  here := List.take_prefix n _
  length_le := List.length_take_le n _
  of_nil h := by
    have hl := congrArg List.length h
    simp only [read_fst, List.length_take, List.length_drop, List.length_nil] at hl
    omega

theorem read_position_le {content : Bytes} (hc : content.length ≤ maxPosition) {n : Nat}
    (hd : d.position ≤ maxPosition) : (d.read content n).2.position ≤ maxPosition := by
  simp only [read_position, read_fst, List.length_take, List.length_drop]
  omega

end Descriptor

/-! ## Reading ahead -/

namespace Buffered

/-- The unread bytes are the ones in front of the descriptor. -/
structure Ahead (content : Bytes) (b : Buffered) : Prop where
  length_le : b.unread.length ≤ b.descriptor.position
  position_le : b.descriptor.position ≤ maxPosition
  unread_here : b.unread <+: content.drop b.position

variable {content : Bytes} {b : Buffered}

theorem Ahead.position_add (h : b.Ahead content) :
    b.position + b.unread.length = b.descriptor.position :=
  Nat.sub_add_cancel h.length_le

theorem Ahead.grow (h : b.Ahead content) (more : Bytes) : b.Ahead (content ++ more) where
  length_le := h.length_le
  position_le := h.position_le
  unread_here := h.unread_here.trans ((List.prefix_append content more).drop _)

theorem ahead_of_unread_nil (hb : b.unread = []) (hp : b.descriptor.position ≤ maxPosition) :
    b.Ahead content := by
  refine ⟨by simp [hb], hp, by simp [hb]⟩

theorem position_of_unread_nil (hb : b.unread = []) : b.position = b.descriptor.position := by
  simp [position, hb]

/-- Giving away the first `n` unread bytes moves the reader past them. -/
theorem Ahead.drop_unread (h : b.Ahead content) {n : Nat} (hn : n ≤ b.unread.length) :
    ({ b with unread := b.unread.drop n }).position = b.position + n ∧
      ({ b with unread := b.unread.drop n }).Ahead content := by
  have hp := h.position_add
  have hmove : ({ b with unread := b.unread.drop n }).position = b.position + n := by
    simp only [position, List.length_drop] at hp ⊢
    omega
  refine ⟨hmove, ⟨?_, h.position_le, ?_⟩⟩
  · have := h.length_le
    simp only [List.length_drop]
    omega
  · rw [hmove, ← List.drop_drop]
    exact h.unread_here.drop n

/-- Behind the first `n` bytes, or all if there are fewer, is what is left without them. -/
theorem drop_length_take (bytes : Bytes) (n : Nat) :
    bytes.drop (bytes.take n).length = bytes.drop n := by
  rw [List.length_take]
  rcases Nat.le_total n bytes.length with hle | hle
  · rw [Nat.min_eq_left hle]
  · rw [Nat.min_eq_right hle, List.drop_length, List.drop_of_length_le hle]

/-- Unread bytes that are handed out are served, and the reader moves past them. -/
theorem Ahead.handOut {n : Nat} (h : b.Ahead content)
    (hnil : b.unread = [] → n = 0 ∨ content.length ≤ b.position) :
    Served content b.position n (b.handOut n).1 ∧
      (b.handOut n).2.position = b.position + (b.handOut n).1.length ∧
      (b.handOut n).2.Ahead content := by
  have hmoved := h.drop_unread (List.length_take_le' n b.unread)
  rw [drop_length_take] at hmoved
  refine ⟨⟨(List.take_prefix n _).trans h.unread_here, List.length_take_le n _, ?_⟩, hmoved⟩
  intro hempty
  rcases List.take_eq_nil_iff.mp hempty with h0 | h0
  · exact Or.inl h0
  · exact hnil h0

/-- A file over an empty buffer is ahead by what its descriptor gives. -/
theorem ahead_fill (hc : content.length ≤ maxPosition) (hp : b.descriptor.position ≤ maxPosition)
    (n : Nat) :
    let filled := { b with descriptor := (b.descriptor.read content n).2
                           unread := (b.descriptor.read content n).1 }
    filled.position = b.descriptor.position ∧ filled.Ahead content := by
  intro filled
  have hat : filled.position = b.descriptor.position := by simp [filled, position]
  refine ⟨hat, ⟨by simp [filled], Descriptor.read_position_le hc hp, ?_⟩⟩
  rw [hat]
  exact List.take_prefix n _

/-- Reading serves bytes from the reader's position on and moves past them. -/
theorem Ahead.read (h : b.Ahead content) (hc : content.length ≤ maxPosition) (n : Nat) :
    Served content b.position n (b.read content n).1 ∧
      (b.read content n).2.position = b.position + (b.read content n).1.length ∧
      (b.read content n).2.Ahead content := by
  unfold Buffered.read
  split
  case isTrue h0 =>
    exact ⟨⟨List.nil_prefix, Nat.zero_le n, fun _ => Or.inl h0⟩, rfl, h⟩
  case isFalse h0 =>
    split
    case isFalse hunread => exact h.handOut fun hnil => absurd hnil hunread
    case isTrue hunread =>
      have hat := position_of_unread_nil hunread
      split
      case isTrue =>
        -- past the buffer: the descriptor is where the reader is, before and after
        refine ⟨hat ▸ Descriptor.served_read content n b.descriptor, ?_, ?_⟩
        · rw [hat]
          exact position_of_unread_nil hunread
        · exact ahead_of_unread_nil hunread (Descriptor.read_position_le hc h.position_le)
      case isFalse =>
        obtain ⟨hfilled, hahead⟩ := ahead_fill (b := b) hc h.position_le b.capacity
        rw [hat, ← hfilled]
        refine hahead.handOut fun hnil => Or.inr ?_
        have hserved := Descriptor.served_read content b.capacity b.descriptor
        have := b.capacity_pos
        rw [hfilled]
        rcases hserved.of_nil hnil with hcap | hend
        · omega
        · exact hend

end Buffered

/-! ## Readers -/

namespace Reader

/-- The position that a client of a reader is at. -/
def position : Reader → Nat
  | .direct d => d.position
  | .buffered b => b.position

/-- What every reader over a content keeps. -/
def Sound (content : Bytes) : Reader → Prop
  | .direct d => d.position ≤ maxPosition
  | .buffered b => b.Ahead content

variable {content : Bytes} {r : Reader}

theorem Sound.grow (h : r.Sound content) (more : Bytes) : r.Sound (content ++ more) := by
  cases r with
  | direct d => exact h
  | buffered b => exact Buffered.Ahead.grow h more

end Reader

/-- A reader was moved as a plain descriptor would have been, or refused with a fault of the same
kind. -/
inductive Sought (content : Bytes) : Except Fault Nat → Except Fault (Nat × Reader) → Prop
  | moved {q : Nat} {r : Reader} (hat : r.position = q) (hs : r.Sound content) :
      Sought content (.ok q) (.ok (q, r))
  | refused {fault fault' : Fault} (hk : fault'.kind = fault.kind) :
      Sought content (.error fault) (.error fault')

/-- A result of a buffered file as one of a reader. -/
def ofBuffered (outcome : Except Fault (Nat × Buffered)) : Except Fault (Nat × Reader) :=
  outcome.map fun (at_, b) => (at_, .buffered b)

section Seek

variable {content : Bytes} {b : Buffered}

theorem plainSeek_of_goal {p q : Nat} {target : SeekTarget} (hq : q ≤ maxPosition)
    (h : (Descriptor.mk p).goal content.length target = q) : plainSeek content p target = .ok q := by
  rw [plainSeek, Descriptor.seek_of_goal hq h]
  rfl

/-- Asking for the position is a seek by nothing. -/
theorem Cursor.Step.position_of_seek {p : Nat} {a : Answer} {d : Cursor} (hp : p ≤ maxPosition)
    (h : Step content (.opened p) (.seek (.current 0)) a d) :
    Step content (.opened p) .position a d := by
  have hplain : plainSeek content p (.current 0) = .ok p :=
    plainSeek_of_goal hp (by simp [Descriptor.goal])
  cases h with
  | seek hq => cases hplain.symm.trans hq; exact .position
  | seekFailed hq => cases hplain.symm.trans hq

/-- Dropping the unread bytes and moving the descriptor, to where the reader is to go. -/
theorem sought_moveTo {target target' : SeekTarget}
    (h : b.descriptor.goal content.length target' =
      (Descriptor.mk b.position).goal content.length target) :
    Sought content (plainSeek content b.position target)
      (ofBuffered (b.moveTo content.length target')) := by
  rw [plainSeek, ← Descriptor.seek_congr h, Buffered.moveTo]
  cases hseek : b.descriptor.seek content.length target' with
  | error fault => exact .refused rfl
  | ok d =>
    exact .moved (Buffered.position_of_unread_nil rfl)
      (Buffered.ahead_of_unread_nil rfl (Descriptor.seek_eq_ok hseek).2)

/-- A relative seek that is refused for its offset alone would lead below the start. -/
theorem sought_overflow (h : b.Ahead content) {offset : Int}
    (hlow : offset - b.unread.length < minOffset) :
    Sought content (plainSeek content b.position (.current offset))
      (ofBuffered (.error .seekOverflow)) := by
  have hp := h.position_add
  have hle := h.position_le
  cases hplain : (Descriptor.mk b.position).seek content.length (.current offset) with
  | ok d =>
    have hgoal := (Descriptor.seek_eq_ok hplain).1
    simp only [Descriptor.goal, minOffset, maxPosition] at hgoal hlow hle
    omega
  | error fault =>
    cases Descriptor.seek_error hplain
    rw [plainSeek, hplain]
    exact .refused rfl

theorem sought_buffered (h : b.Ahead content) (target : SeekTarget) :
    Sought content (plainSeek content b.position target)
      (ofBuffered (b.seek content.length target)) := by
  have hp := h.position_add
  have hle := h.position_le
  unfold Buffered.seek
  cases target with
  | start offset => exact sought_moveTo rfl
  | finish offset => exact sought_moveTo rfl
  | current offset =>
    dsimp only
    split
    case isTrue h0 =>
      rw [plainSeek_of_goal (q := b.position) (by omega) (by simp [Descriptor.goal, h0])]
      exact .moved rfl h
    split
    case isTrue hnear =>
      -- inside the unread bytes
      obtain ⟨hat, hahead⟩ := h.drop_unread (n := offset.toNat) (by omega)
      rw [plainSeek_of_goal (q := b.position + offset.toNat) (by omega)
        (by simp only [Descriptor.goal]; omega), ← hat]
      exact .moved rfl hahead
    split
    case isTrue hlow => exact sought_overflow h hlow
    case isFalse => exact sought_moveTo (by simp only [Descriptor.goal]; omega)

end Seek

namespace Reader

variable {content : Bytes} {r : Reader}

theorem Sound.position_le (h : r.Sound content) : r.position ≤ maxPosition := by
  cases r with
  | direct d => exact h
  | buffered b => exact (Nat.sub_le _ _).trans (Buffered.Ahead.position_le h)

theorem Sound.seek (h : r.Sound content) (target : SeekTarget) :
    Sought content (plainSeek content r.position target) (r.seek content.length target) := by
  cases r with
  | buffered b => exact sought_buffered h target
  | direct d =>
    rw [Reader.seek, plainSeek, position]
    cases hseek : d.seek content.length target with
    | error fault => exact .refused rfl
    | ok e => exact .moved rfl (Descriptor.seek_eq_ok hseek).2

theorem Sound.read (h : r.Sound content) (hc : content.length ≤ maxPosition) (n : Nat) :
    Served content r.position n (r.read content n).1 ∧
      (r.read content n).2.position = r.position + (r.read content n).1.length ∧
      (r.read content n).2.Sound content := by
  cases r with
  | buffered b => exact Buffered.Ahead.read h hc n
  | direct d => exact ⟨Descriptor.served_read content n d, rfl, Descriptor.read_position_le hc h⟩

theorem Sound.remaining (h : r.Sound content) :
    r.remaining content = content.length - r.position := by
  cases r with
  | direct d => rfl
  | buffered b =>
    have hp := Buffered.Ahead.position_add h
    have hle := (Buffered.Ahead.unread_here h).length_le
    rw [List.length_drop] at hle
    simp only [Reader.remaining, Reader.position]
    omega

end Reader

/-! ## Reading on and on -/

namespace Served

variable {content bytes : Bytes} {p n : Nat}

/-- Served bytes and what stands behind them are what stands at the position. -/
theorem append_drop (h : Served content p n bytes) :
    bytes ++ content.drop (p + bytes.length) = content.drop p := by
  rw [← List.drop_drop]
  exact List.prefix_iff_eq_append.mp h.here

theorem add_length_le (h : Served content p n bytes) (hne : bytes ≠ []) :
    p + bytes.length ≤ content.length := by
  have hle := h.here.length_le
  have := List.length_pos_iff.mpr hne
  rw [List.length_drop] at hle
  omega

end Served

/-- What reading exactly `n` bytes at a position gives, and the position then. -/
inductive ReadExactly (content : Bytes) (p n : Nat) : Except Fault Bytes → Nat → Prop
  | enough (h : n = 0 ∨ p + n ≤ content.length) :
      ReadExactly content p n (.ok ((content.drop p).take n)) (p + n)
  | short (hn : n ≠ 0) (h : content.length < p + n) :
      ReadExactly content p n (.error .shortRead) (max p content.length)

/-- Bytes that were served in front of the rest of an exact read. -/
theorem ReadExactly.after_served {content bytes : Bytes} {p n q : Nat} {outcome : Except Fault Bytes}
    (hs : Served content p n bytes) (hne : bytes ≠ [])
    (h : ReadExactly content (p + bytes.length) (n - bytes.length) outcome q) :
    ReadExactly content p n (outcome.map (bytes ++ ·)) q := by
  have hle := hs.length_le
  have hend := hs.add_length_le hne
  have hpos := List.length_pos_iff.mpr hne
  cases h with
  | enough h =>
    have htake : bytes ++ (content.drop (p + bytes.length)).take (n - bytes.length) =
        (content.drop p).take n := by
      rw [← hs.append_drop, List.take_append, List.take_of_length_le hle]
    have hq : p + bytes.length + (n - bytes.length) = p + n := by omega
    simp only [Except.map, htake, hq]
    exact .enough (by omega)
  | short hn h =>
    have hq : max (p + bytes.length) content.length = max p content.length := by omega
    simp only [Except.map, hq]
    exact .short (by omega) (by omega)

namespace Reader

variable {content : Bytes}

/-- Every round reads something until nothing is left, so that a round for each byte is enough. -/
theorem readToEnd_sound (hc : content.length ≤ maxPosition) :
    ∀ (fuel : Nat) (soFar : List Bytes) (r : Reader), r.Sound content →
      content.length - r.position < fuel →
        (r.readToEnd content soFar fuel).1 = soFar.reverse.flatten ++ content.drop r.position ∧
        (r.readToEnd content soFar fuel).2.position = max r.position content.length ∧
        (r.readToEnd content soFar fuel).2.Sound content := by
  intro fuel
  induction fuel with
  | zero => intro _ _ _ hlt; omega
  | succ fuel ih =>
    intro soFar r h hlt
    obtain ⟨hserved, hat, hsound⟩ := h.read hc (r.remaining content + 1)
    unfold Reader.readToEnd
    dsimp only
    split
    case isTrue hnil =>
      have hend : content.length ≤ r.position := (hserved.of_nil hnil).resolve_left (by omega)
      refine ⟨by rw [List.drop_of_length_le hend, List.append_nil], ?_, hsound⟩
      rw [hat, hnil, List.length_nil]
      omega
    case isFalse hne =>
      have hle := hserved.add_length_le hne
      have hpos := List.length_pos_iff.mpr hne
      obtain ⟨hbytes, hmax, hkept⟩ := ih ((r.read content (r.remaining content + 1)).1 :: soFar) _
        hsound (by omega)
      refine ⟨?_, by rw [hmax, hat]; omega, hkept⟩
      rw [hbytes, hat, List.reverse_cons, List.flatten_append, List.flatten_singleton,
        List.append_assoc, hserved.append_drop]

/-- Every round reads something until `n` bytes have come or nothing is left. -/
theorem readExact_sound (hc : content.length ≤ maxPosition) :
    ∀ (fuel n : Nat) (soFar : List Bytes) (r : Reader), r.Sound content → n ≤ fuel →
      ∃ outcome, (r.readExact content soFar fuel n).1 = outcome.map (soFar.reverse.flatten ++ ·) ∧
        ReadExactly content r.position n outcome (r.readExact content soFar fuel n).2.position ∧
        (r.readExact content soFar fuel n).2.Sound content := by
  intro fuel
  induction fuel with
  | zero =>
    intro n soFar r h hn
    obtain rfl : n = 0 := by omega
    exact ⟨.ok [], by simp [Reader.readExact, Except.map], .enough (Or.inl rfl), h⟩
  | succ fuel ih =>
    intro n soFar r h hn
    unfold Reader.readExact
    dsimp only
    split
    case isTrue h0 =>
      subst h0
      exact ⟨.ok [], by simp [Except.map], .enough (Or.inl rfl), h⟩
    case isFalse h0 =>
      obtain ⟨hserved, hat, hsound⟩ := h.read hc n
      split
      case isTrue hnil =>
        have hend : content.length ≤ r.position := (hserved.of_nil hnil).resolve_left h0
        refine ⟨.error .shortRead, rfl, ?_, hsound⟩
        have hmax : (r.read content n).2.position = max r.position content.length := by
          rw [hat, hnil, List.length_nil]
          omega
        rw [hmax]
        exact .short h0 (by omega)
      case isFalse hne =>
        have hpos := List.length_pos_iff.mpr hne
        obtain ⟨outcome, hout, hexact, hkept⟩ := ih (n - (r.read content n).1.length)
          ((r.read content n).1 :: soFar) _ hsound (by omega)
        rw [hat] at hexact
        refine ⟨_, ?_, hexact.after_served hserved hne, hkept⟩
        rw [hout]
        cases outcome <;> simp [Except.map]

end Reader

/-! ## Resources -/

/-- What a client sees of a resource. -/
def cursor (r : Resource) : Cursor := if r.isClosed then .closed else .opened r.reader.position

/-- What every resource over a content keeps until it is closed. -/
def Sound (content : Bytes) (r : Resource) : Prop := r.isClosed = false → r.reader.Sound content

variable {content : Bytes} {r : Resource}

theorem sound_openIn (content : Bytes) (mode : Mode) (capacity : Nat) (metadata : Metadata) :
    (openIn mode capacity metadata).Sound content := by
  intro _
  cases mode with
  | direct => exact Nat.zero_le _
  | buffered => exact Buffered.ahead_of_unread_nil rfl (Nat.zero_le _)

theorem openIn_zero (mode : Mode) (metadata : Metadata) :
    openIn mode 0 metadata = openIn mode 1 metadata := by
  cases mode <;> rfl

theorem cursor_openIn (mode : Mode) (capacity : Nat) (metadata : Metadata) :
    (openIn mode capacity metadata).cursor = .opened 0 := by
  cases mode <;> rfl

theorem Sound.grow (h : r.Sound content) (more : Bytes) : r.Sound (content ++ more) :=
  fun hopen => (h hopen).grow more

theorem cursor_of_open (h : r.isClosed = false) : r.cursor = .opened r.reader.position := by
  simp [cursor, h]

theorem cursor_of_closed (h : r.isClosed = true) : r.cursor = .closed := by
  simp [cursor, h]

/-- A seek that fails leaves the resource as it was. -/
theorem seek_of_error {target : SeekTarget} {fault : Fault}
    (h : (r.seek content target).1 = .error fault) : (r.seek content target).2 = r := by
  unfold Resource.seek at h ⊢
  repeat' split
  · rfl
  · rfl
  · simp_all

section Closed

variable (content) (h : r.isClosed = true)

include h

theorem read_of_closed (n : Nat) : r.read content n = (.error .closed, r) := if_pos h

theorem readToEnd_of_closed : r.readToEnd content = (.error .closed, r) := if_pos h

theorem readExact_of_closed {n : Nat} (hn : n ≠ 0) :
    r.readExact content n = (.error .closed, r) := by
  rw [Resource.readExact, if_neg hn, if_pos h]

theorem seek_of_closed (target : SeekTarget) : r.seek content target = (.error .closed, r) :=
  if_pos h

/-- A closed resource answers as a closed cursor does. -/
theorem perform_closed (op : Operation) :
    Cursor.Step content .closed op (r.perform content op).1 .closed ∧
      (r.perform content op).2.isClosed = true := by
  cases op with
  | read n => rw [perform, read_of_closed content h]; exact ⟨.readClosed, h⟩
  | readToEnd => rw [perform, readToEnd_of_closed content h]; exact ⟨.readToEndClosed, h⟩
  | seek target => rw [perform, seek_of_closed content h]; exact ⟨.seekClosed, h⟩
  | position => rw [perform, Resource.position, seek_of_closed content h]; exact ⟨.positionClosed, h⟩
  | close => exact ⟨.close, rfl⟩
  | readExact n =>
    rw [perform]
    by_cases hn : n = 0
    · rw [Resource.readExact, if_pos hn, hn]
      exact ⟨.readNothingClosed, h⟩
    · rw [readExact_of_closed content h hn]
      exact ⟨.readExactClosed hn, h⟩

end Closed

section Open

variable (h : r.isClosed = false)

include h

theorem read_of_open (n : Nat) :
    r.read content n =
      (.ok (r.reader.read content n).1, { r with reader := (r.reader.read content n).2 }) :=
  if_neg (by simp [h])

theorem readToEnd_of_open :
    r.readToEnd content =
      (.ok (r.reader.readToEnd content [] (r.reader.remaining content + 1)).1,
        { r with reader := (r.reader.readToEnd content [] (r.reader.remaining content + 1)).2 }) :=
  if_neg (by simp [h])

theorem readExact_of_open {n : Nat} (hn : n ≠ 0) :
    r.readExact content n =
      ((r.reader.readExact content [] n n).1,
        { r with reader := (r.reader.readExact content [] n n).2 }) := by
  rw [Resource.readExact, if_neg hn, if_neg (by simp [h])]

theorem cursor_with_reader (reader : Reader) :
    ({ r with reader := reader } : Resource).cursor = .opened reader.position :=
  cursor_of_open h

/-- An open resource seeks as a plain descriptor at its position would. -/
theorem step_seek (hs : r.reader.Sound content) (target : SeekTarget) :
    Cursor.Step content (.opened r.reader.position) (.seek target)
        (.ofPosition (r.seek content target).1) (r.seek content target).2.cursor ∧
      (r.seek content target).2.Sound content := by
  rw [Resource.seek, if_neg (by simp [h])]
  have hsought := hs.seek target
  generalize hplain : plainSeek content r.reader.position target = plain at hsought
  generalize r.reader.seek content.length target = outcome at hsought
  cases hsought with
  | refused hk =>
    refine ⟨?_, fun _ => hs⟩
    rw [cursor_of_open h, Answer.ofPosition, hk]
    exact .seekFailed hplain
  | moved hat hsound =>
    refine ⟨?_, fun _ => hsound⟩
    rw [cursor_with_reader h, hat]
    exact .seek hplain

theorem step_readExact (hs : r.reader.Sound content) (hc : content.length ≤ maxPosition) (n : Nat) :
    Cursor.Step content (.opened r.reader.position) (.readExact n)
        (.ofBytes (r.readExact content n).1) (r.readExact content n).2.cursor ∧
      (r.readExact content n).2.Sound content := by
  by_cases hn : n = 0
  · subst hn
    rw [Resource.readExact, if_pos rfl, cursor_of_open h]
    exact ⟨.readExact (Or.inl rfl), fun _ => hs⟩
  · rw [readExact_of_open h hn, cursor_with_reader h]
    obtain ⟨outcome, hout, hexact, hsound⟩ := Reader.readExact_sound hc n n [] r.reader hs (Nat.le_refl n)
    refine ⟨?_, fun _ => hsound⟩
    rw [hout]
    revert hexact
    generalize (r.reader.readExact content [] n n).2.position = q
    rintro (hend | ⟨hn, hend⟩)
    · exact .readExact hend
    · exact .readShort hn hend

theorem perform_open (hs : r.reader.Sound content) (hc : content.length ≤ maxPosition)
    (op : Operation) :
    Cursor.Step content (.opened r.reader.position) op (r.perform content op).1
        (r.perform content op).2.cursor ∧ (r.perform content op).2.Sound content := by
  cases op with
  | seek target => exact step_seek h hs target
  | readExact n => exact step_readExact h hs hc n
  | close => exact ⟨.close, fun hopen => by simp [perform, close] at hopen⟩
  | read n =>
    obtain ⟨hserved, hat, hsound⟩ := hs.read hc n
    rw [perform, read_of_open h, cursor_with_reader h, hat]
    exact ⟨.read hserved, fun _ => hsound⟩
  | readToEnd =>
    obtain ⟨hbytes, hat, hsound⟩ := Reader.readToEnd_sound hc (r.reader.remaining content + 1) []
      r.reader hs (by rw [hs.remaining]; omega)
    rw [perform, readToEnd_of_open h, cursor_with_reader h, hat, hbytes]
    exact ⟨.readToEnd, fun _ => hsound⟩
  | position =>
    obtain ⟨hstep, hsound⟩ := step_seek h hs (.current 0)
    exact ⟨hstep.position_of_seek hs.position_le, hsound⟩

end Open

/-- One operation on a resource is one step of the cursor. -/
theorem Sound.perform (hs : r.Sound content) (hc : content.length ≤ maxPosition) (op : Operation) :
    Cursor.Step content r.cursor op (r.perform content op).1 (r.perform content op).2.cursor ∧
      (r.perform content op).2.Sound content := by
  cases h : r.isClosed with
  | false =>
    rw [cursor_of_open h]
    exact perform_open h (hs h) hc op
  | true =>
    obtain ⟨hstep, hclosed⟩ := perform_closed content h op
    rw [cursor_of_closed h, cursor_of_closed hclosed]
    exact ⟨hstep, fun hopen => by simp [hclosed] at hopen⟩

/-- A script on a resource is a run of the cursor. -/
theorem Sound.run (script : List Move) :
    ∀ (content : Bytes) (r : Resource), r.Sound content →
      (finalContent content script).length ≤ maxPosition →
        Cursor.Run content r.cursor script (r.run content script).1
          (r.run content script).2.cursor ∧
        (r.run content script).2.Sound (finalContent content script) := by
  induction script with
  | nil => intro content r hs _; exact ⟨.nil, by simpa [Resource.run] using hs⟩
  | cons move script ih =>
    intro content r hs hc
    rw [finalContent_cons] at hc ⊢
    have hlen := (length_le_finalContent (content ++ move.appended) script).trans hc
    obtain ⟨hstep, hkept⟩ := (hs.grow move.appended).perform hlen move.operation
    obtain ⟨hrun, hfinal⟩ := ih _ _ hkept hc
    exact ⟨.cons hstep hrun, hfinal⟩

/-- **Refinement.** Whatever its mode and the size of its buffer, where none counts as one byte, an
open file behaves as a cursor over the content, for every script and while the file grows. A seek
that fails leaves it as it was. After any two scripts, two resources over the same content that
show the same cursor answer every operation alike, short reads apart. -/
theorem resource_refines_cursor (mode : Mode) (capacity : Nat) (metadata : Metadata)
    (content : Bytes) (script : List Move)
    (hlen : (finalContent content script).length ≤ maxPosition) :
    let now := finalContent content script
    let (answers, r) := (openIn mode capacity metadata).run content script
    Cursor.Run content (.opened 0) script answers r.cursor ∧
      openIn mode 0 metadata = openIn mode 1 metadata ∧
      (∀ target fault, (r.seek now target).1 = .error fault → (r.seek now target).2 = r) ∧
      ∀ mode' capacity' metadata' content' script', finalContent content' script' = now →
        let (_, r') := (openIn mode' capacity' metadata').run content' script'
        r'.cursor = r.cursor → ∀ op : Operation, ¬ op.IsRead →
          (r'.perform now op).1 = (r.perform now op).1 ∧
          (r'.perform now op).2.cursor = (r.perform now op).2.cursor := by
  obtain ⟨hrun, hs⟩ := Sound.run script content _ (sound_openIn content mode capacity metadata) hlen
  rw [cursor_openIn] at hrun
  refine ⟨hrun, openIn_zero mode metadata, fun target fault => seek_of_error, ?_⟩
  intro mode' capacity' metadata' content' script' hsame
  obtain ⟨-, hs'⟩ := Sound.run script' content' _
    (sound_openIn content' mode' capacity' metadata') (hsame ▸ hlen)
  rw [hsame] at hs'
  intro hcursor op hop
  have hstep := (hs.perform hlen op).1
  have hstep' := (hs'.perform hlen op).1
  rw [hcursor] at hstep'
  exact hstep'.unique hop hstep

/-- A file of three bytes behind a buffer of two, lengthened on the way: a seek below the least
offset is refused and loses nothing that was read ahead. -/
theorem small_buffer_refines_cursor :
    let script : List Move :=
      [⟨[], .read 1⟩, ⟨[4, 5], .seek (.current minOffset)⟩, ⟨[], .seek (.start (2 ^ 64 - 1))⟩,
        ⟨[], .position⟩, ⟨[], .readExact 3⟩, ⟨[6], .readToEnd⟩, ⟨[], .close⟩, ⟨[], .read 0⟩]
    (finalContent [1, 2, 3] script).length ≤ maxPosition ∧
      Cursor.Run [1, 2, 3] (.opened 0) script
        [.bytes [1], .failed .invalidInput, .failed .invalidInput, .moved 1, .bytes [2, 3, 4],
          .bytes [5, 6], .closed, .failed .other] .closed :=
  ⟨by decide, (resource_refines_cursor .buffered 2 ⟨"a.mp4", ⟨0⟩, 3⟩ [1, 2, 3] _ (by decide)).1⟩

end MediaShelf.Resource
