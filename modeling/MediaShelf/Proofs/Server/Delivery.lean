import MediaShelf.Proofs.Resource.Refinement
import MediaShelf.Server.Schedule

/-!
# Spans are delivered

A span of a file is read piece by piece and queued, while the client takes the pieces from the queue.
As long as the file stays as it is, what the client has taken, the queue behind it and the piece that
the reader holds are at every moment the first bytes of the span, and the reader stands right behind
them (`Delivering`). So nothing is lost, doubled or broken off at the seam of two pieces, whatever the
mode and the size of the buffer.
-/

namespace MediaShelf.Server

open MediaShelf.Files
open MediaShelf.Resource

/-! ## Reading from a position on -/

/-- An open file that is read from a position on. -/
structure ReadsFrom (content : Bytes) (resource : Resource) (position : Nat) : Prop where
  isOpen : resource.isClosed = false
  sound : resource.reader.Sound content
  position : resource.reader.position = position

section Reading

variable {content : Bytes} {resource : Resource} {position : Nat}

theorem readsFrom_openIn (content : Bytes) (mode : Mode) (capacity : Nat) (metadata : Metadata) :
    ReadsFrom content (openIn mode capacity metadata) 0 where
  isOpen := by cases mode <;> rfl
  sound := sound_openIn content mode capacity metadata (by cases mode <;> rfl)
  position := by cases mode <;> rfl

theorem ReadsFrom.seek (h : ReadsFrom content resource position) {offset : Nat}
    (hoffset : offset ≤ maxPosition) :
    (resource.seek content (.start offset)).1 = .ok offset ∧
      ReadsFrom content (resource.seek content (.start offset)).2 offset := by
  have hsought := h.sound.seek (.start offset)
  rw [plainSeek_of_goal hoffset rfl] at hsought
  have hopen : ¬ resource.isClosed := by simp [h.isOpen]
  unfold Resource.seek
  rw [if_neg hopen]
  generalize resource.reader.seek content.length (.start offset) = outcome at hsought ⊢
  cases hsought with
  | moved hat hsound => exact ⟨rfl, h.isOpen, hsound, hat⟩

/-- Before the end of the file a read gives at least one byte. -/
theorem ReadsFrom.read (h : ReadsFrom content resource position) (hc : content.length ≤ maxPosition)
    {n : Nat} (hn : 0 < n) (hbefore : position < content.length) :
    ∃ bytes, (resource.read content n).1 = .ok bytes ∧ bytes ≠ [] ∧ bytes.length ≤ n ∧
      bytes <+: content.drop position ∧
      ReadsFrom content (resource.read content n).2 (position + bytes.length) := by
  obtain ⟨hserved, hat, hsound⟩ := h.sound.read hc n
  rw [h.position] at hserved hat
  rw [read_of_open h.isOpen]
  refine ⟨_, rfl, fun hnil => ?_, hserved.length_le, hserved.here, h.isOpen, hsound, hat⟩
  rcases hserved.of_nil hnil with hzero | hend
  · omega
  · omega

end Reading

/-! ## A transfer -/

/-- What a piece carries. -/
def Piece.carried : Piece → Bytes
  | .bytes got => got
  | .broken _ => []

/-- What the reader of a transfer is about to do, with `left` bytes to go from a position on. -/
inductive Ready (content : Bytes) (resource : Resource) (position left : Nat) : Stage → Prop
  | reading (hleft : 0 < left) (hreads : ReadsFrom content resource position) :
      Ready content resource position left .reading
  | holding {bytes : Bytes} (hne : bytes ≠ []) (hle : bytes.length ≤ left)
      (hhere : bytes <+: content.drop position)
      (hreads : ReadsFrom content resource (position + bytes.length)) :
      Ready content resource position left (.holding (.bytes bytes))
  | finished (hleft : left = 0) : Ready content resource position left .over

/-- A span of a file is being delivered, of which the client has taken some bytes. -/
structure Delivering (content : Bytes) (offset length : Nat) (taken : Bytes) (resource : Resource)
    (t : Transfer) : Prop where
  listening : t.listening = true
  left_le : t.left ≤ length
  unbroken : ∀ piece ∈ t.queue, ∃ bytes, piece = .bytes bytes
  /-- What was queued so far is the first part of the span. -/
  queued : taken ++ (t.queue.map Piece.carried).flatten =
    (content.drop offset).take (length - t.left)
  ready : Ready content resource (offset + (length - t.left)) t.left t.stage

section Transfers

variable {content : Bytes} {offset length : Nat} {taken : Bytes} {resource : Resource} {t : Transfer}

theorem ready_stageAfter {position left : Nat} (h : ReadsFrom content resource position) :
    Ready content resource position left (Transfer.stageAfter left) := by
  unfold Transfer.stageAfter
  split
  case isTrue hzero => exact .finished hzero
  case isFalse hne => exact .reading (by omega) h

/-- The bytes behind those that were taken. -/
theorem take_append_of_prefix {bytes rest : Bytes} {n : Nat} (h : bytes <+: rest.drop n) :
    rest.take n ++ bytes = rest.take (n + bytes.length) := by
  rw [List.take_add, List.append_cancel_left_eq]
  exact List.prefix_iff_eq_take.mp h

theorem delivering_start {file : OpenFile} (h : ReadsFrom content file.resource 0)
    (hspan : offset + length ≤ content.length) (hc : content.length ≤ maxPosition) :
    Delivering content offset length []
      (Service.startTransfer content file offset length).1.resource
      (Service.startTransfer content file offset length).2 := by
  have hstart : ∀ {resource : Resource}, ReadsFrom content resource offset →
      Delivering content offset length [] resource (.ofLength length) := by
    intro resource hreads
    refine ⟨rfl, Nat.le_refl _, nofun, ?_, ?_⟩
    · simp [Transfer.ofLength]
    · simp only [Transfer.ofLength, Nat.sub_self, Nat.add_zero]
      exact ready_stageAfter hreads
  unfold Service.startTransfer
  split
  case isTrue hzero =>
    subst hzero
    exact hstart h
  case isFalse =>
    obtain ⟨hok, hreads⟩ := h.seek (show offset ≤ maxPosition by omega)
    generalize file.resource.seek content (.start offset) = sought at hok hreads ⊢
    obtain ⟨outcome, resource⟩ := sought
    simp only at hok hreads
    subst hok
    exact hstart hreads

/-- A reader that reads gets a piece, and holds it. -/
theorem Delivering.reads (h : Delivering content offset length taken resource t)
    (hspan : offset + length ≤ content.length) (hc : content.length ≤ maxPosition)
    (hstage : t.stage = .reading) :
    ∃ piece, t.onRead (resource.read content t.wanted).1 = { t with stage := .holding piece } ∧
      Ready content (resource.read content t.wanted).2 (offset + (length - t.left)) t.left
        (.holding piece) := by
  have hready := h.ready
  rw [hstage] at hready
  cases hready with
  | reading hleft hreads =>
    have hle := h.left_le
    have hwanted : 0 < t.wanted := by
      unfold Transfer.wanted pieceSize
      omega
    obtain ⟨bytes, hok, hne, hlength, hhere, hnext⟩ := hreads.read hc hwanted (by omega)
    obtain ⟨first, rest, rfl⟩ := List.exists_cons_of_ne_nil hne
    refine ⟨.bytes (first :: rest), ?_, .holding hne ?_ hhere hnext⟩
    · simp only [Transfer.onRead, hstage, hok]
    · exact Nat.le_trans hlength (Nat.min_le_left _ _)

theorem Delivering.onRead (h : Delivering content offset length taken resource t)
    (hspan : offset + length ≤ content.length) (hc : content.length ≤ maxPosition)
    (hstage : t.stage = .reading) :
    Delivering content offset length taken (resource.read content t.wanted).2
      (t.onRead (resource.read content t.wanted).1) := by
  obtain ⟨piece, honRead, hready⟩ := h.reads hspan hc hstage
  rw [honRead]
  exact ⟨h.listening, h.left_le, h.unbroken, h.queued, hready⟩

theorem enqueue_of_holding {bytes : Bytes} (hstage : t.stage = .holding (.bytes bytes))
    (hlistening : t.listening = true) :
    t.enqueue = if t.queue.length < queueDepth then
      { t with
        left := t.left - bytes.length
        stage := Transfer.stageAfter (t.left - bytes.length)
        queue := t.queue ++ [.bytes bytes] } else t := by
  simp only [Transfer.enqueue, hstage, hlistening, not_true_eq_false, if_false]

/-- The reader puts the piece that it holds into the queue, if there is room. -/
theorem Delivering.enqueue (h : Delivering content offset length taken resource t) :
    Delivering content offset length taken resource t.enqueue := by
  have hready := h.ready
  have hle := h.left_le
  rcases hstage : t.stage with _ | piece | _
  · rwa [Transfer.enqueue, hstage]
  · rw [hstage] at hready
    cases hready with
    | @holding bytes hne hbytes hhere hreads =>
      rw [enqueue_of_holding hstage h.listening]
      split
      case isFalse => exact h
      case isTrue =>
        have hdone : length - (t.left - bytes.length) = length - t.left + bytes.length := by omega
        rw [← List.drop_drop] at hhere
        refine ⟨h.listening, by simp only; omega, ?_, ?_, ?_⟩
        · intro piece hpiece
          rcases List.mem_append.mp hpiece with hold | hnew
          · exact h.unbroken piece hold
          · exact ⟨bytes, List.mem_singleton.mp hnew⟩
        · simp only [List.map_append, List.map_singleton, List.flatten_append, List.flatten_singleton,
            Piece.carried]
          rw [← List.append_assoc, h.queued, hdone, take_append_of_prefix hhere]
        · simp only [hdone]
          rw [← Nat.add_assoc]
          exact ready_stageAfter hreads
  · rwa [Transfer.enqueue, hstage]

/-- The client takes a piece. -/
theorem Delivering.receive {piece : Piece} {rest : List Piece}
    (h : Delivering content offset length taken resource t) (hqueue : t.queue = piece :: rest) :
    ∃ bytes, t.receive = (some (.bytes bytes), { t with queue := rest }) ∧
      Delivering content offset length (taken ++ bytes) resource { t with queue := rest } := by
  have hreceive : t.receive = (some piece, { t with queue := rest }) := by
    rw [Transfer.receive, hqueue]
  have hunbroken := h.unbroken
  have hqueued := h.queued
  rw [hqueue] at hunbroken hqueued
  obtain ⟨bytes, rfl⟩ := hunbroken piece List.mem_cons_self
  refine ⟨bytes, hreceive, h.listening, h.left_le, fun other hother => ?_, ?_, h.ready⟩
  · exact hunbroken other (List.mem_cons_of_mem _ hother)
  · rw [← hqueued, List.map_cons, List.flatten_cons, List.append_assoc]
    rfl

/-- When the reader is done and the queue is empty, the client has the whole span. -/
theorem Delivering.whole (h : Delivering content offset length taken resource t)
    (hover : t.stage = .over) (hqueue : t.queue = []) : taken = (content.drop offset).take length := by
  have hready := h.ready
  rw [hover] at hready
  cases hready with
  | finished hleft =>
    have hqueued := h.queued
    rwa [hqueue, hleft, List.map_nil, List.flatten_nil, List.append_nil, Nat.sub_zero] at hqueued

end Transfers

/-! ## The reader of a file -/

namespace Sending

/-- A file is closed when its transfer is over. -/
def settled (x : Sending) : Sending :=
  if x.transfer.isOver then { x with file := { x.file with resource := x.file.resource.close } }
  else x

/-- One thing that the reader does. -/
def worked (tree : Tree) (x : Sending) : Sending :=
  match x.transfer.stage with
  | .over => x
  | .reading =>
    settled { x with
      file := { x.file with
        resource := (x.file.resource.read (tree.contentOf x.file.number) x.transfer.wanted).2 }
      transfer := x.transfer.onRead
        (x.file.resource.read (tree.contentOf x.file.number) x.transfer.wanted).1 }
  | .holding _ => settled { x with transfer := x.transfer.enqueue }

/-- The bytes of a span of a file with some number are being delivered. -/
structure Delivers (number : FileNumber) (content : Bytes) (offset length : Nat) (taken : Bytes)
    (x : Sending) : Prop where
  number : x.file.number = number
  delivering : Delivering content offset length taken x.file.resource x.transfer

variable {number : FileNumber} {content : Bytes} {offset length : Nat} {taken : Bytes} {tree : Tree}
  {x : Sending}

@[simp] theorem settled_transfer (x : Sending) : x.settled.transfer = x.transfer := by
  unfold settled
  split <;> rfl

theorem Delivers.settled (h : x.Delivers number content offset length taken) :
    x.settled.Delivers number content offset length taken := by
  unfold Sending.settled
  split
  case isFalse => exact h
  case isTrue hover =>
    have hready := h.delivering.ready
    have hstage : x.transfer.stage = .over := by simpa [Transfer.isOver] using hover
    refine ⟨h.number, h.delivering.listening, h.delivering.left_le, h.delivering.unbroken,
      h.delivering.queued, ?_⟩
    rw [hstage] at hready ⊢
    cases hready with
    | finished hleft => exact .finished hleft

theorem Delivers.worked (h : x.Delivers number content offset length taken)
    (hspan : offset + length ≤ content.length) (hc : content.length ≤ maxPosition)
    (htree : tree.contentOf number = content) :
    (x.worked tree).Delivers number content offset length taken := by
  unfold Sending.worked
  rcases hstage : x.transfer.stage with _ | piece | _
  · refine Delivers.settled ⟨h.number, ?_⟩
    rw [h.number, htree]
    exact h.delivering.onRead hspan hc hstage
  · exact Delivers.settled ⟨h.number, h.delivering.enqueue⟩
  · exact h

/-! ## Working until there is something to take -/

/-- How many pieces the client may still get, at most. -/
def pending (x : Sending) : Nat := x.transfer.left + x.transfer.queue.length

/-- The reader works until it is over or waits for room. -/
def workedOn (tree : Tree) : (fuel : Nat) → Sending → Sending
  | 0, x => x
  | fuel + 1, x => if x.transfer.canWork then workedOn tree fuel (x.worked tree) else x

theorem worked_of_reading (hstage : x.transfer.stage = .reading) :
    (x.worked tree).transfer = x.transfer.onRead
      (x.file.resource.read (tree.contentOf x.file.number) x.transfer.wanted).1 := by
  simp only [Sending.worked, hstage, settled_transfer]

theorem worked_of_holding {piece : Piece} (hstage : x.transfer.stage = .holding piece) :
    (x.worked tree).transfer = x.transfer.enqueue := by
  simp only [Sending.worked, hstage, settled_transfer]

/-- A piece that the reader holds is queued behind the others, if there is room. -/
theorem Delivers.worked_holding (h : x.Delivers number content offset length taken) (tree : Tree)
    {piece : Piece} (hstage : x.transfer.stage = .holding piece) :
    (x.worked tree).pending ≤ x.pending ∧
      (x.worked tree).transfer.queue =
        if x.transfer.queue.length < queueDepth then x.transfer.queue ++ [piece]
        else x.transfer.queue := by
  have hready := h.delivering.ready
  rw [hstage] at hready
  cases hready with
  | @holding bytes hne hle hhere hreads =>
    have hpos := List.length_pos_iff.mpr hne
    unfold pending
    rw [worked_of_holding hstage, enqueue_of_holding hstage h.delivering.listening]
    split
    · refine ⟨?_, rfl⟩
      simp only [List.length_append, List.length_singleton]
      omega
    · exact ⟨Nat.le_refl _, rfl⟩

/-- A piece that is read is held, and waits for the queue. -/
theorem Delivers.worked_reading (h : x.Delivers number content offset length taken)
    (hspan : offset + length ≤ content.length) (hc : content.length ≤ maxPosition)
    (htree : tree.contentOf number = content) (hstage : x.transfer.stage = .reading) :
    (x.worked tree).pending = x.pending ∧ (x.worked tree).transfer.queue = x.transfer.queue ∧
      ∃ piece, (x.worked tree).transfer.stage = .holding piece := by
  obtain ⟨piece, honRead, -⟩ := h.delivering.reads hspan hc hstage
  have hworked : (x.worked tree).transfer = { x.transfer with stage := .holding piece } := by
    rw [worked_of_reading hstage, h.number, htree, honRead]
  unfold pending
  rw [hworked]
  exact ⟨rfl, rfl, piece, rfl⟩

/-- Work makes the queue no shorter, and what is pending no more. -/
theorem Delivers.worked_le (h : x.Delivers number content offset length taken)
    (hspan : offset + length ≤ content.length) (hc : content.length ≤ maxPosition)
    (htree : tree.contentOf number = content) :
    (x.worked tree).pending ≤ x.pending ∧
      x.transfer.queue.length ≤ (x.worked tree).transfer.queue.length := by
  rcases hstage : x.transfer.stage with _ | piece | _
  · obtain ⟨hpending, hqueue, -⟩ := h.worked_reading hspan hc htree hstage
    rw [hpending, hqueue]
    exact ⟨Nat.le_refl _, Nat.le_refl _⟩
  · have hholding := h.worked_holding tree hstage
    refine ⟨hholding.1, ?_⟩
    rw [hholding.2]
    split
    · simp
    · exact Nat.le_refl _
  · unfold Sending.worked
    rw [hstage]
    exact ⟨Nat.le_refl _, Nat.le_refl _⟩

theorem Delivers.workedOn (h : x.Delivers number content offset length taken)
    (hspan : offset + length ≤ content.length) (hc : content.length ≤ maxPosition)
    (htree : tree.contentOf number = content) (fuel : Nat) :
    (x.workedOn tree fuel).Delivers number content offset length taken ∧
      (x.workedOn tree fuel).pending ≤ x.pending ∧
      x.transfer.queue.length ≤ (x.workedOn tree fuel).transfer.queue.length := by
  induction fuel generalizing x with
  | zero => exact ⟨h, Nat.le_refl _, Nat.le_refl _⟩
  | succ fuel ih =>
    unfold Sending.workedOn
    split
    case isFalse => exact ⟨h, Nat.le_refl _, Nat.le_refl _⟩
    case isTrue =>
      obtain ⟨hpending, hqueue⟩ := h.worked_le hspan hc htree
      obtain ⟨hkept, hpending', hqueue'⟩ := ih (h.worked hspan hc htree)
      exact ⟨hkept, Nat.le_trans hpending' hpending, Nat.le_trans hqueue hqueue'⟩

/-- A reader that works twice has something for the client, unless it is done. -/
theorem Delivers.workedOn_takes (h : x.Delivers number content offset length taken)
    (hspan : offset + length ≤ content.length) (hc : content.length ≤ maxPosition)
    (htree : tree.contentOf number = content) (fuel : Nat) :
    (x.workedOn tree (fuel + 2)).transfer.queue ≠ [] ∨
      (x.workedOn tree (fuel + 2)).transfer.stage = .over := by
  have hfull : ∀ {y : Sending} (rounds : Nat), y.Delivers number content offset length taken →
      y.transfer.queue ≠ [] → (y.workedOn tree rounds).transfer.queue ≠ [] := by
    intro y rounds hy hne
    have hle := (hy.workedOn hspan hc htree rounds).2.2
    have hpos := List.length_pos_iff.mpr hne
    exact List.length_pos_iff.mp (by omega)
  -- a piece that is held goes into an empty queue at once
  have hheld : ∀ {y : Sending} (rounds : Nat) (piece : Piece),
      y.Delivers number content offset length taken → y.transfer.stage = .holding piece →
      (y.workedOn tree (rounds + 1)).transfer.queue ≠ [] := by
    intro y rounds piece hy hstage
    by_cases hempty : y.transfer.queue = []
    · have hcan : y.transfer.canWork = true := by
        simp [Transfer.canWork, hstage, hempty, queueDepth]
      rw [Sending.workedOn, if_pos hcan]
      refine hfull rounds (hy.worked hspan hc htree) ?_
      rw [(hy.worked_holding tree hstage).2, hempty, if_pos (by decide)]
      exact List.cons_ne_nil _ _
    · exact hfull _ hy hempty
  rcases hstage : x.transfer.stage with _ | piece | _
  · have hcan : x.transfer.canWork = true := by simp [Transfer.canWork, hstage]
    obtain ⟨-, -, piece, hholding⟩ := h.worked_reading hspan hc htree hstage
    rw [Sending.workedOn, if_pos hcan]
    exact .inl (hheld fuel piece (h.worked hspan hc htree) hholding)
  · exact .inl (hheld (fuel + 1) piece h hstage)
  · have hcannot : ¬ x.transfer.canWork = true := by simp [Transfer.canWork, hstage]
    rw [Sending.workedOn, if_neg hcannot]
    exact .inr hstage

end Sending

end MediaShelf.Server
