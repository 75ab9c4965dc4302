import MediaShelf.Proofs.Resource.Changing

/-!
# Reckoning the position

A file that is read through a buffer may be cut, lengthened or written anew by others at any time.
The bytes that a reader is given may then be old, but its position is not: it is where the last seek
went, and as many bytes further as the reader was given since (`position_reckoned`). Nothing is ever
read ahead but what lies between the reader and the descriptor, and no more than the buffer holds
(`Buffered.Holds`), whatever became of the file since.
-/

namespace MediaShelf.Resource

/-! ## What is asked and answered -/

/-- Where a seek from a position goes, in a file of `size` bytes. -/
def SeekTarget.goal (size : Nat) (position : Int) : SeekTarget → Int
  | start offset => offset
  | current offset => position + offset
  | finish offset => size + offset

namespace Buffered

/-- What is asked of an open file. -/
inductive Request where
  | read (n : Nat)
  | seek (target : SeekTarget)
  deriving DecidableEq, Repr

/-- Asking for the position is a seek by nothing. -/
def Request.query : Request := .seek (.current 0)

/-- A request, and what is in the file by then, which others may have changed in any way. -/
structure Turn where
  content : Bytes
  request : Request

/-- What a request is answered with. -/
inductive Reply where
  | given (bytes : Bytes)
  | moved (position : Nat)
  | refused (fault : Fault)
  deriving DecidableEq, Repr

/-- Serves a request: the answer, and the file as it is then. -/
def serve (content : Bytes) (b : Buffered) : Request → Reply × Buffered
  | .read n => let (bytes, b) := b.read content n; (.given bytes, b)
  | .seek target =>
    match b.seek content.length target with
    | .ok (position, b) => (.moved position, b)
    | .error fault => (.refused fault, b)

/-- Serves requests, one after the other. -/
def serveAll (b : Buffered) : List Turn → List Reply × Buffered
  | [] => ([], b)
  | turn :: rest =>
    let (reply, b) := b.serve turn.content turn.request
    let (replies, b) := b.serveAll rest
    (reply :: replies, b)

/-- The position after a request, by what was asked and answered: the goal of a seek that was not
refused, and the place behind the bytes that were given. -/
def reckon (position : Int) (turn : Turn) : Reply → Int
  | .given bytes => position + bytes.length
  | .refused _ => position
  | .moved _ =>
    match turn.request with
    | .seek target => target.goal turn.content.length position
    | .read _ => position

/-- The position after requests that were answered. -/
def reckonAll (position : Int) (turns : List (Turn × Reply)) : Int :=
  turns.foldl (fun position turn => reckon position turn.1 turn.2) position

/-! ## One request -/

variable {contents : List Bytes} {capacity position : Nat} {b : Buffered}

theorem StandsAt.position_eq (h : b.StandsAt contents position) : b.position = position := by
  rw [Buffered.position, h.ahead, Nat.add_sub_cancel]

/-- A reader that stands at a position, with no more read ahead than its buffer holds. -/
structure Holds (contents : List Bytes) (capacity position : Nat) (b : Buffered) : Prop
    extends b.StandsAt contents position where
  capacity_eq : b.capacity = capacity
  fits : b.unread.length ≤ capacity

theorem holds_open (capacity : Nat) : (open_ capacity).Holds [] (max capacity 1) 0 where
  ahead := rfl
  stood := stoodAt_nil _ _
  capacity_eq := rfl
  fits := Nat.zero_le _

/-- A read fills the buffer at most once, and then as far as it goes. -/
theorem fits_read (content : Bytes) (n : Nat) (hfits : b.unread.length ≤ b.capacity) :
    (b.read content n).2.capacity = b.capacity ∧
      (b.read content n).2.unread.length ≤ b.capacity := by
  unfold Buffered.read
  split
  case isTrue => exact ⟨rfl, hfits⟩
  case isFalse =>
    split
    case isFalse =>
      refine ⟨rfl, ?_⟩
      simp only [handOut, List.length_drop]
      omega
    case isTrue =>
      split
      case isTrue => exact ⟨rfl, hfits⟩
      case isFalse =>
        have hread := List.length_take_le b.capacity (content.drop b.descriptor.position)
        refine ⟨rfl, ?_⟩
        simp only [handOut, Descriptor.read_fst, List.length_drop] at hread ⊢
        omega

theorem Holds.read (h : b.Holds contents capacity position) (content : Bytes) (n : Nat) :
    (b.read content n).2.Holds (contents ++ [content]) capacity
      (position + (b.read content n).1.length) := by
  obtain ⟨hcapacity, hfits⟩ := fits_read content n (h.capacity_eq ▸ h.fits)
  rw [h.capacity_eq] at hcapacity hfits
  exact ⟨(h.toStandsAt.read content n).2.2, hcapacity, hfits⟩

/-- The descriptor goes where the target says, and nothing is read ahead there. -/
theorem Holds.moveTo (h : b.Holds contents capacity position) {size p : Nat} {target : SeekTarget}
    {b' : Buffered} (hmoved : b.moveTo size target = .ok (p, b')) :
    (p : Int) = b.descriptor.goal size target ∧ b'.Holds contents capacity p := by
  rw [Buffered.moveTo] at hmoved
  cases hsought : b.descriptor.seek size target with
  | error fault => rw [hsought] at hmoved; cases hmoved
  | ok d =>
    rw [hsought] at hmoved
    cases hmoved
    exact ⟨(Descriptor.seek_eq_ok hsought).1.symm, ⟨rfl, stoodAt_nil _ _⟩, h.capacity_eq,
      Nat.zero_le _⟩

/-- A seek that is not refused ends at its goal, whichever way it takes: by nothing, over unread
bytes, or with the descriptor, whose own offset is then the shorter one. -/
theorem Holds.seek (h : b.Holds contents capacity position) {size p : Nat} {target : SeekTarget}
    {b' : Buffered} (hmoved : b.seek size target = .ok (p, b')) :
    (p : Int) = target.goal size position ∧ b'.Holds contents capacity p := by
  have hahead := h.ahead
  unfold Buffered.seek at hmoved
  cases target with
  | start offset => exact h.moveTo hmoved
  | finish offset => exact h.moveTo hmoved
  | current offset =>
    dsimp only at hmoved
    split at hmoved
    case isTrue hzero =>
      cases hmoved
      rw [h.position_eq]
      exact ⟨by rw [SeekTarget.goal, hzero, Int.add_zero], h⟩
    split at hmoved
    case isTrue hnear =>
      cases hmoved
      have hskip := h.skip (n := offset.toNat) (by omega)
      rw [hskip.position_eq]
      refine ⟨?_, hskip, h.capacity_eq, ?_⟩
      · simp only [SeekTarget.goal]
        omega
      · have hfits := h.fits
        simp only [List.length_drop]
        omega
    split at hmoved
    case isTrue => cases hmoved
    case isFalse =>
      obtain ⟨hgoal, hholds⟩ := h.moveTo hmoved
      refine ⟨?_, hholds⟩
      simp only [hgoal, Descriptor.goal, SeekTarget.goal]
      omega

theorem Holds.mono (h : b.Holds contents capacity position) (content : Bytes) :
    b.Holds (contents ++ [content]) capacity position :=
  { h with stood := h.stood.mono content }

/-- Asking for the position changes nothing, whatever became of the file. -/
theorem serve_query (content : Bytes) (b : Buffered) :
    b.serve content .query = (.moved b.position, b) := rfl

/-- After a request the reader stands where its answer says, by the reckoning. -/
theorem Holds.serve (h : b.Holds contents capacity position) (turn : Turn) :
    let (reply, b') := b.serve turn.content turn.request
    ∃ p : Nat, (p : Int) = reckon position turn reply ∧
      b'.Holds (contents ++ [turn.content]) capacity p ∧ ∀ q, reply = .moved q → q = p := by
  obtain ⟨content, request⟩ := turn
  cases request with
  | read n => exact ⟨_, rfl, h.read content n, nofun⟩
  | seek target =>
    dsimp only [Buffered.serve]
    cases hsought : b.seek content.length target with
    | error fault => exact ⟨position, rfl, h.mono content, nofun⟩
    | ok moved =>
      obtain ⟨hgoal, hholds⟩ := h.seek hsought
      refine ⟨moved.1, hgoal, hholds.mono content, ?_⟩
      rintro q ⟨⟩
      rfl

/-! ## Requests, one after the other -/

theorem length_serveAll (script : List Turn) :
    ∀ b : Buffered, (b.serveAll script).1.length = script.length := by
  induction script with
  | nil => exact fun _ => rfl
  | cons turn script ih => exact fun b => congrArg (· + 1) (ih _)

/-- The reckoning holds after every request, and so do the bounds on what is read ahead. -/
theorem Holds.serveAll (script : List Turn) : ∀ {contents : List Bytes} {position : Nat}
    {b : Buffered}, b.Holds contents capacity position →
      let (replies, b') := b.serveAll script
      let turns := script.zip replies
      (∃ p : Nat, (p : Int) = reckonAll position turns ∧
        b'.Holds (contents ++ script.map (·.content)) capacity p) ∧
      ∀ before turn (q : Nat) after, turns = before ++ (turn, .moved q) :: after →
        (q : Int) = reckonAll position (before ++ [(turn, .moved q)]) := by
  induction script with
  | nil =>
    intro contents position b h
    refine ⟨⟨position, rfl, by simpa using h⟩, ?_⟩
    intro before turn q after hsplit
    cases before <;> cases hsplit
  | cons turn script ih =>
    intro contents position b h
    obtain ⟨p, hp, hstep, hreply⟩ := h.serve turn
    obtain ⟨⟨p', hp', hrest⟩, hreplies⟩ := ih hstep
    refine ⟨⟨p', ?_, by simpa using hrest⟩, ?_⟩
    · rw [hp'.trans (by rw [hp])]
      rfl
    · intro before turn' q after hsplit
      cases before with
      | nil =>
        obtain ⟨hfirst, -⟩ := List.cons.inj hsplit
        obtain ⟨rfl, hmoved⟩ := Prod.mk.inj hfirst
        rw [hreply q hmoved, hp, hmoved]
        rfl
      | cons first before =>
        obtain ⟨rfl, hbehind⟩ := List.cons.inj hsplit
        rw [hreplies before turn' q after hbehind, hp]
        rfl

/-- Leaving out what asks for the position leaves all the other answers as they are. -/
theorem serveAll_without_queries (script : List Turn) : ∀ b : Buffered,
    b.serveAll (script.filter (·.request ≠ .query)) =
      (((script.zip (b.serveAll script).1).filter (·.1.request ≠ .query)).map (·.2),
        (b.serveAll script).2) := by
  induction script with
  | nil => exact fun _ => rfl
  | cons turn script ih =>
    intro b
    obtain ⟨content, request⟩ := turn
    by_cases hquery : request = .query
    · subst hquery
      simpa [Buffered.serveAll, serve_query] using ih b
    · have hkept : decide (request ≠ .query) = true := decide_eq_true hquery
      have hrest := ih (b.serve content request).2
      simp only [List.filter_cons_of_pos, hkept, Buffered.serveAll, List.zip_cons_cons,
        List.map_cons, hrest]

/-- **The position, while others change the file.** For every capacity, every script of reads and
seeks and every content of the file at each of them: no more is read ahead than the buffer holds and
than the descriptor has passed, so that the difference of the two is a position; the position, asked
for at any time, is the goal of the last seek that was not refused with the bytes that were given
since, and this is what every seek was answered with. Asking changes nothing in the file: without
it, every other request is answered alike, and leaves the file alike. -/
theorem position_reckoned (capacity : Nat) (script : List Turn) :
    let (replies, b) := (open_ capacity).serveAll script
    let turns := script.zip replies
    replies.length = script.length ∧
      b.capacity = max capacity 1 ∧ b.unread.length ≤ b.capacity ∧
      b.unread.length ≤ b.descriptor.position ∧
      (∃ p : Nat, p = reckonAll 0 turns ∧ p + b.unread.length = b.descriptor.position ∧
        ∀ content, b.serve content .query = (.moved p, b)) ∧
      (∀ before turn (q : Nat) after, turns = before ++ (turn, .moved q) :: after →
        q = reckonAll 0 (before ++ [(turn, .moved q)])) ∧
      (open_ capacity).serveAll (script.filter (·.request ≠ .query)) =
        ((turns.filter (·.1.request ≠ .query)).map (·.2), b) := by
  obtain ⟨⟨p, hp, hholds⟩, hreplies⟩ := (holds_open capacity).serveAll script
  have hahead := hholds.ahead
  refine ⟨length_serveAll script _, hholds.capacity_eq, ?_, ?_,
    ⟨p, hp, hahead.symm, ?_⟩, hreplies, serveAll_without_queries script _⟩
  · rw [hholds.capacity_eq]
    exact hholds.fits
  · rw [hahead]
    exact Nat.le_add_left _ _
  · intro content
    rw [serve_query, hholds.position_eq]

/-- The file is cut while bytes are unread, which are given nevertheless; a seek over the rest of
them reckons with the old descriptor, and a seek from the end with the new length. -/
example :
    ((open_ 4).serveAll
      [⟨[0, 1, 2, 3, 4, 5], .read 1⟩, ⟨[9], .query⟩, ⟨[9], .seek (.current 2)⟩, ⟨[], .read 8⟩,
        ⟨[7, 7], .seek (.current (-5))⟩, ⟨[7, 7], .seek (.finish (-1))⟩, ⟨[7, 8], .read 8⟩,
        ⟨[7, 8], .query⟩]).1 =
      [.given [0], .moved 1, .moved 3, .given [3], .refused .invalidArgument, .moved 1, .given [8],
        .moved 2] := by
  decide

end Buffered

end MediaShelf.Resource
