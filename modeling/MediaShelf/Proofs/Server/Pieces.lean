import MediaShelf.Proofs.Http.ExactAnswer
import MediaShelf.Proofs.Resource.Changing
import MediaShelf.Proofs.Server.Phases

/-!
# Bodies that break off

While a file is sent anything may become of it: it changes between two reads, reads give less than
was asked for, are interrupted or fail, and the client takes pieces or goes away at any time. The
pieces that are sent are nevertheless what the reads gave, one after the other, and how far a
transfer has come tells how they relate to the length that was announced (`Feed.Reached`). So a
client that stays gets all the bytes that it was told of, or the news that there will not be any
more.

There is one defect in this. The reader tells a client that has gone away by the kind of the fault,
a broken pipe, and asks for the kind only. A read that fails with this kind is therefore mistaken
for a client that has gone away, and a client that is still there gets a body that ends short
without a word (`Feed.broken_pipe_untold`). What is promised of the end of a body needs that no read
failed so (`Feed.PipeHeld`).
-/

namespace MediaShelf.Server

open MediaShelf.Catalog
open MediaShelf.Files
open MediaShelf.Http
open MediaShelf.Resource

/-- What may happen to a file that is being sent. -/
inductive Beat where
  /-- The reader reads from the file as it is then, and gets at most `limit + 1` bytes. A read that
  fills only a part of a buffer is one of a content that ends there. -/
  | read (content : Bytes) (limit : Nat)
  /-- The reader cannot read. -/
  | fail (fault : Fault)
  /-- The reader puts the piece that it holds into the queue. -/
  | enqueue
  /-- The client takes a piece. -/
  | receive
  | hangUp

/-- A file that is being sent, and what has happened so far. -/
structure Feed where
  sending : Sending
  /-- What the file held whenever it was read. -/
  contents : List Bytes
  /-- What the reads gave. -/
  reads : List Bytes
  /-- Why reads failed. -/
  faults : List Fault
  /-- What was put into the queue. -/
  sent : List Piece
  /-- What the client took. -/
  taken : List Piece

namespace Feed

/-- A span of a file that was just opened is about to be sent. -/
def start (content : Bytes) (file : OpenFile) (volume : VolumeId) (ticket : Admission.Ticket)
    (offset length : Nat) : Feed :=
  let (file, transfer) := Service.startTransfer content file offset length
  ⟨Sending.settled ⟨volume, ticket, file, transfer⟩, [], [], [], [], []⟩

/-- The next thing happens. -/
def beat (f : Feed) : Beat → Feed
  | .read content limit =>
    let x := f.sending
    if x.transfer.stage = .reading then
      let (outcome, resource) := x.file.resource.read content (min x.transfer.wanted (limit + 1))
      { f with
        sending := Sending.settled { x with
          file := { x.file with resource := resource }
          transfer := x.transfer.onRead outcome }
        contents := f.contents ++ [content]
        reads := f.reads ++ outcome.toOption.toList }
    else f
  | .fail fault =>
    let x := f.sending
    if x.transfer.stage = .reading then
      { f with
        sending := Sending.settled { x with transfer := x.transfer.onRead (.error fault) }
        faults := f.faults ++ [fault] }
    else f
  | .enqueue =>
    let x := f.sending
    { f with
      sending := Sending.settled { x with transfer := x.transfer.enqueue }
      sent := f.sent ++ x.transfer.enqueue.queue.drop x.transfer.queue.length }
  | .receive =>
    let x := f.sending
    let (piece, transfer) := x.transfer.receive
    { f with sending := { x with transfer := transfer }, taken := f.taken ++ piece.toList }
  | .hangUp =>
    let x := f.sending
    { f with sending := { x with transfer := x.transfer.hangUp } }

/-- What becomes of it after some beats. -/
def after (f : Feed) (beats : List Beat) : Feed := beats.foldl beat f

/-! ## How far a transfer has come -/

/-- No read failed with a broken pipe, which is mistaken for a client that has gone away. -/
def PipeHeld (f : Feed) : Prop := ∀ fault ∈ f.faults, fault.kind ≠ .brokenPipe

/-- The reader stands right behind what it has read. -/
structure Stands (f : Feed) (offset : Nat) : Prop where
  isOpen : f.sending.file.resource.isClosed = false
  at_ : f.sending.file.resource.reader.StandsAt f.contents (offset + f.reads.flatten.length)

/-- What was read and sent at a stage, and whether the client was told that the transfer broke
off. -/
inductive Reached (f : Feed) (offset : Nat) (chunks : List Bytes) : Option Fault → Stage → Prop
  | reading (left : 0 < f.sending.transfer.left) (reads : f.reads = chunks) (held : f.PipeHeld)
      (stands : f.Stands offset) : Reached f offset chunks none .reading
  | holding {bytes : Bytes} (ne : bytes ≠ [])
      (le : bytes.length ≤ min f.sending.transfer.left pieceSize)
      (reads : f.reads = chunks ++ [bytes]) (held : f.PipeHeld) (stands : f.Stands offset) :
      Reached f offset chunks none (.holding (.bytes bytes))
  /-- The file ended too early, or could not be read. -/
  | breaking {fault : Fault} {last : List Bytes} (left : 0 < f.sending.transfer.left)
      (reads : f.reads = chunks ++ last) (short : last.length ≤ 1) (empty : last.flatten = [])
      (held : f.PipeHeld) : Reached f offset chunks none (.holding (.broken fault))
  /-- Everything was sent. -/
  | whole (left : f.sending.transfer.left = 0) (reads : f.reads = chunks) (held : f.PipeHeld) :
      Reached f offset chunks none .over
  /-- The client was told that there is no more. -/
  | told {fault : Fault} {last : List Bytes} (left : 0 < f.sending.transfer.left)
      (reads : f.reads = chunks ++ last) (short : last.length ≤ 1) (empty : last.flatten = [])
      (held : f.PipeHeld) : Reached f offset chunks (some fault) .over
  /-- The client had gone away. -/
  | gone {last : List Bytes} (listening : f.sending.transfer.listening = false)
      (reads : f.reads = chunks ++ last) (short : last.length ≤ 1) :
      Reached f offset chunks none .over
  /-- A read failed with a broken pipe. -/
  | mistaken {fault : Fault} (fails : fault ∈ f.faults) (kind : fault.kind = .brokenPipe)
      (left : 0 < f.sending.transfer.left) (reads : f.reads = chunks) :
      Reached f offset chunks none .over

/-- What was sent are pieces of a span, and then perhaps that the transfer broke off. -/
structure Fed (f : Feed) (offset length : Nat) (chunks : List Bytes) (broken : Option Fault) :
    Prop where
  sent : f.sent = chunks.map .bytes ++ (broken.map Piece.broken).toList
  pieces : ∀ chunk ∈ chunks, chunk ≠ [] ∧ chunk.length ≤ pieceSize
  total : chunks.flatten.length + f.sending.transfer.left = length
  stood : StoodAt f.contents offset f.reads.flatten
  kept : f.taken ++ f.sending.transfer.queue <+: f.sent
  queued : f.sending.transfer.listening = true → f.taken ++ f.sending.transfer.queue = f.sent
  reached : f.Reached offset chunks broken f.sending.transfer.stage

variable {f : Feed} {offset length : Nat} {chunks : List Bytes} {broken : Option Fault}

theorem settled_of_not_over {x : Sending} (h : x.transfer.stage ≠ .over) : x.settled = x := by
  unfold Sending.settled
  rw [if_neg]
  simpa [Transfer.isOver] using h

/-! ## Reading -/

section Outcomes

variable {t : Transfer} {fault : Fault}

/-- A read that gives nothing finds that the file has ended. -/
theorem onRead_nil (hstage : t.stage = .reading) :
    t.onRead (.ok []) = { t with stage := .holding (.broken .shrank) } := by
  rw [Transfer.onRead, hstage]
  rfl

theorem onRead_cons (hstage : t.stage = .reading) (first : UInt8) (rest : Bytes) :
    t.onRead (.ok (first :: rest)) = { t with stage := .holding (.bytes (first :: rest)) } := by
  simp only [Transfer.onRead, hstage]

theorem onRead_interrupted (hstage : t.stage = .reading) (hkind : fault.kind = .interrupted) :
    t.onRead (.error fault) = t := by
  simp only [Transfer.onRead, hstage, if_pos hkind]

theorem onRead_brokenPipe (hstage : t.stage = .reading) (hkind : fault.kind = .brokenPipe) :
    t.onRead (.error fault) = { t with stage := .over } := by
  have hother : fault.kind ≠ .interrupted := by
    rw [hkind]
    decide
  simp only [Transfer.onRead, hstage, if_neg hother, Transfer.onFault, if_pos hkind]

theorem onRead_fault (hstage : t.stage = .reading) (hinterrupted : fault.kind ≠ .interrupted)
    (hpipe : fault.kind ≠ .brokenPipe) :
    t.onRead (.error fault) = { t with stage := .holding (.broken fault) } := by
  simp only [Transfer.onRead, hstage, if_neg hinterrupted, Transfer.onFault, if_neg hpipe]

end Outcomes

/-- What the reader does before it sends leaves alone what was sent. -/
theorem Fed.of_stage (h : f.Fed offset length chunks broken) {g : Feed} (stage : Stage)
    (hsent : g.sent = f.sent) (htaken : g.taken = f.taken)
    (htransfer : g.sending.transfer = { f.sending.transfer with stage := stage })
    (hstood : StoodAt g.contents offset g.reads.flatten)
    (hreached : g.Reached offset chunks broken stage) : g.Fed offset length chunks broken := by
  have htotal := h.total
  have hkept := h.kept
  have hqueued := h.queued
  refine ⟨hsent.trans h.sent, h.pieces, ?_, hstood, ?_, ?_, ?_⟩
  all_goals rw [htransfer]
  · exact htotal
  · rw [hsent, htaken]
    exact hkept
  · rw [hsent, htaken]
    exact hqueued
  · exact hreached

/-- A read gives a piece, or finds that the file has ended. -/
theorem Fed.read (h : f.Fed offset length chunks broken) (content : Bytes) (limit : Nat) :
    (f.beat (.read content limit)).Fed offset length chunks broken := by
  unfold beat
  simp only
  split
  case isFalse => exact h
  case isTrue hstage =>
    have hreached := h.reached
    rw [hstage] at hreached
    cases hreached with
    | reading hleft hreads hheld hstands =>
      rw [read_of_open hstands.isOpen]
      have hbytes := hstands.at_.read content (min f.sending.transfer.wanted (limit + 1))
      have hmore := h.stood.mono content
      generalize f.sending.file.resource.reader.read content
        (min f.sending.transfer.wanted (limit + 1)) = outcome at hbytes
      obtain ⟨bytes, reader⟩ := outcome
      obtain ⟨hlength, hstood, hnext⟩ := hbytes
      have hboth : StoodAt (f.contents ++ [content]) offset (f.reads ++ [bytes]).flatten := by
        rw [List.flatten_append, List.flatten_singleton]
        exact hmore.append hstood
      have hreads' : f.reads ++ [bytes] = chunks ++ [bytes] := congrArg (· ++ [bytes]) hreads
      cases bytes with
      | nil =>
        have honRead := onRead_nil hstage
        refine h.of_stage _ rfl rfl ((Sending.settled_transfer _).trans honRead) hboth
          (.breaking ?_ hreads' (Nat.le_refl 1) rfl hheld)
        rw [Sending.settled_transfer]
        exact honRead ▸ hleft
      | cons first rest =>
        have honRead := onRead_cons hstage first rest
        have hsettled : ∀ x : Sending, x.transfer = { f.sending.transfer with
            stage := .holding (.bytes (first :: rest)) } → x.settled = x := by
          intro x hx
          refine settled_of_not_over fun hover => ?_
          rw [hx] at hover
          cases hover
        refine h.of_stage _ rfl rfl ((Sending.settled_transfer _).trans honRead) hboth
          (.holding (List.cons_ne_nil _ _) ?_ hreads' hheld ⟨?_, ?_⟩)
        · rw [Sending.settled_transfer]
          have hwanted := Nat.le_trans hlength (Nat.min_le_left _ _)
          exact honRead ▸ hwanted
        · rw [hsettled _ honRead]
          exact hstands.isOpen
        · rw [hsettled _ honRead]
          show reader.StandsAt (f.contents ++ [content])
            (offset + (f.reads ++ [first :: rest]).flatten.length)
          rw [List.flatten_append, List.flatten_singleton, List.length_append, ← Nat.add_assoc]
          exact hnext

/-- A read that is interrupted is made again, and any other fault ends the transfer. -/
theorem Fed.fail (h : f.Fed offset length chunks broken) (fault : Fault) :
    (f.beat (.fail fault)).Fed offset length chunks broken := by
  unfold beat
  simp only
  split
  case isFalse => exact h
  case isTrue hstage =>
    have hreached := h.reached
    rw [hstage] at hreached
    cases hreached with
    | reading hleft hreads hheld hstands =>
      have hfails : fault ∈ f.faults ++ [fault] :=
        List.mem_append_right _ (List.mem_singleton_self _)
      have hheld' : fault.kind ≠ .brokenPipe →
          ∀ other ∈ f.faults ++ [fault], other.kind ≠ .brokenPipe := by
        intro hkind other hother
        rcases List.mem_append.mp hother with hold | hnew
        · exact hheld other hold
        · rwa [List.mem_singleton.mp hnew]
      by_cases hinterrupted : fault.kind = .interrupted
      · have hsettled : (Sending.settled { f.sending with
            transfer := f.sending.transfer.onRead (.error fault) }) = f.sending := by
          rw [onRead_interrupted hstage hinterrupted]
          refine settled_of_not_over fun hover => ?_
          rw [hstage] at hover
          cases hover
        have hkind : fault.kind ≠ .brokenPipe := by
          rw [hinterrupted]
          decide
        rw [hsettled]
        exact h.of_stage _ rfl rfl (by rw [← hstage]) h.stood
          (.reading hleft hreads (hheld' hkind) ⟨hstands.isOpen, hstands.at_⟩)
      · by_cases hpipe : fault.kind = .brokenPipe
        · have honRead := onRead_brokenPipe hstage hpipe
          refine h.of_stage _ rfl rfl ((Sending.settled_transfer _).trans honRead) h.stood
            (.mistaken hfails hpipe ?_ hreads)
          rw [Sending.settled_transfer]
          exact honRead ▸ hleft
        · have honRead := onRead_fault hstage hinterrupted hpipe
          refine h.of_stage _ rfl rfl ((Sending.settled_transfer _).trans honRead) h.stood
            (.breaking ?_ (hreads.trans (List.append_nil _).symm) (Nat.zero_le 1) rfl
              (hheld' hpipe))
          rw [Sending.settled_transfer]
          exact honRead ▸ hleft

/-! ## Sending -/

/-- What the reader has read does not change when it sends nothing. -/
theorem Reached.congr {stage : Stage} (h : f.Reached offset chunks broken stage) {g : Feed}
    (hcontents : g.contents = f.contents) (hreads : g.reads = f.reads)
    (hfaults : g.faults = f.faults)
    (hleft : g.sending.transfer.left = f.sending.transfer.left)
    (hlistening : f.sending.transfer.listening = false → g.sending.transfer.listening = false)
    (hfile : stage ≠ .over → g.sending.file = f.sending.file) :
    g.Reached offset chunks broken stage := by
  have hheld : f.PipeHeld → g.PipeHeld := fun hheld => by
    unfold PipeHeld
    rwa [hfaults]
  have hstands : stage ≠ .over → f.Stands offset → g.Stands offset := by
    intro hstage hstands
    have hopen := hstands.isOpen
    have hat := hstands.at_
    rw [← hfile hstage] at hopen hat
    rw [← hcontents, ← hreads] at hat
    exact ⟨hopen, hat⟩
  cases h with
  | reading left reads held stands =>
    exact .reading (hleft ▸ left) (hreads.trans reads) (hheld held) (hstands nofun stands)
  | holding ne le reads held stands =>
    exact .holding ne (hleft ▸ le) (hreads.trans reads) (hheld held) (hstands nofun stands)
  | breaking left reads short empty held =>
    exact .breaking (hleft ▸ left) (hreads.trans reads) short empty (hheld held)
  | whole left reads held => exact .whole (hleft.trans left) (hreads.trans reads) (hheld held)
  | told left reads short empty held =>
    exact .told (hleft ▸ left) (hreads.trans reads) short empty (hheld held)
  | gone listening reads short => exact .gone (hlistening listening) (hreads.trans reads) short
  | mistaken fails kind left reads =>
    exact .mistaken (hfaults ▸ fails) kind (hleft ▸ left) (hreads.trans reads)

/-- Nothing is put into the queue. -/
theorem Fed.enqueue_same (h : f.Fed offset length chunks broken)
    (hsame : f.sending.transfer.enqueue = f.sending.transfer) :
    (f.beat .enqueue).Fed offset length chunks broken := by
  unfold beat
  simp only
  rw [hsame, List.drop_length, List.append_nil]
  have hfile : f.sending.transfer.stage ≠ .over →
      (Sending.settled { f.sending with transfer := f.sending.transfer }).file = f.sending.file :=
    fun hstage => congrArg Sending.file (settled_of_not_over hstage)
  refine h.of_stage f.sending.transfer.stage rfl rfl (Sending.settled_transfer _) h.stood ?_
  exact h.reached.congr rfl rfl rfl (congrArg Transfer.left (Sending.settled_transfer _))
    (fun hgone => (congrArg Transfer.listening (Sending.settled_transfer _)).trans hgone) hfile

/-- The client has gone away before the reader could send its piece. -/
theorem Fed.enqueue_gone (h : f.Fed offset length chunks broken) {piece : Piece}
    (hstage : f.sending.transfer.stage = .holding piece)
    (hgone : f.sending.transfer.listening = false) :
    (f.beat .enqueue).Fed offset length chunks broken := by
  have henqueue : f.sending.transfer.enqueue = { f.sending.transfer with stage := .over } := by
    simp only [Transfer.enqueue, hstage, if_pos (Bool.eq_false_iff.mp hgone)]
    rfl
  unfold beat
  simp only
  rw [henqueue, List.drop_length, List.append_nil]
  have hlistening : ∀ x : Sending, x.transfer = { f.sending.transfer with stage := .over } →
      x.settled.transfer.listening = false := by
    intro x hx
    rw [Sending.settled_transfer, hx]
    exact hgone
  have hreached := h.reached
  rw [hstage] at hreached
  refine h.of_stage .over rfl rfl (Sending.settled_transfer _) h.stood ?_
  cases hreached with
  | holding ne le reads held stands => exact .gone (hlistening _ rfl) reads (Nat.le_refl 1)
  | breaking left reads short empty held => exact .gone (hlistening _ rfl) reads short

/-- What is put into the queue is sent. -/
theorem Fed.of_queued (h : f.Fed offset length chunks broken)
    (hlistening : f.sending.transfer.listening = true) {g : Feed} {piece : Piece}
    {chunks' : List Bytes} {broken' : Option Fault} {left : Nat} {stage : Stage}
    (hsent : g.sent = f.sent ++ [piece]) (htaken : g.taken = f.taken)
    (htransfer : g.sending.transfer = { f.sending.transfer with
      left := left, stage := stage, queue := f.sending.transfer.queue ++ [piece] })
    (hshape : f.sent ++ [piece] = chunks'.map .bytes ++ (broken'.map Piece.broken).toList)
    (hpieces : ∀ chunk ∈ chunks', chunk ≠ [] ∧ chunk.length ≤ pieceSize)
    (htotal : chunks'.flatten.length + left = length)
    (hstood : StoodAt g.contents offset g.reads.flatten)
    (hreached : g.Reached offset chunks' broken' stage) : g.Fed offset length chunks' broken' := by
  have hqueued : g.taken ++ g.sending.transfer.queue = g.sent := by
    rw [htaken, htransfer, hsent, ← h.queued hlistening, List.append_assoc]
  refine ⟨hsent.trans hshape, hpieces, ?_, hstood, hqueued ▸ List.prefix_refl _,
    fun _ => hqueued, ?_⟩
  · rw [htransfer]
    exact htotal
  · rw [htransfer]
    exact hreached

/-- The reader puts its piece into the queue. -/
theorem Fed.enqueue_room (h : f.Fed offset length chunks broken) {piece : Piece}
    (hstage : f.sending.transfer.stage = .holding piece)
    (hlistening : f.sending.transfer.listening = true)
    (hroom : f.sending.transfer.queue.length < queueDepth) :
    ∃ chunks' broken', (f.beat .enqueue).Fed offset length chunks' broken' := by
  have hreached := h.reached
  have hsent := h.sent
  have htotal := h.total
  rw [hstage] at hreached
  unfold beat
  simp only
  cases hreached with
  | @holding bytes hne hle hreads hheld hstands =>
    rw [Option.map_none, Option.toList_none, List.append_nil] at hsent
    have henqueue := enqueue_of_holding hstage hlistening
    rw [if_pos hroom] at henqueue
    rw [henqueue, List.drop_left]
    have hless : bytes.length ≤ f.sending.transfer.left := Nat.le_trans hle (Nat.min_le_left _ _)
    refine ⟨chunks ++ [bytes], none, h.of_queued hlistening rfl rfl (Sending.settled_transfer _) ?_
      ?_ ?_ h.stood ?_⟩
    · rw [hsent, List.map_append, List.map_singleton, Option.map_none, Option.toList_none,
        List.append_nil]
    · intro chunk hchunk
      rcases List.mem_append.mp hchunk with hold | hnew
      · exact h.pieces chunk hold
      · rw [List.mem_singleton.mp hnew]
        exact ⟨hne, Nat.le_trans hle (Nat.min_le_right _ _)⟩
    · rw [List.flatten_append, List.flatten_singleton, List.length_append]
      omega
    · unfold Transfer.stageAfter
      split
      case isTrue hzero =>
        refine .whole ?_ hreads hheld
        rw [Sending.settled_transfer]
        exact hzero
      case isFalse hmore =>
        rw [settled_of_not_over]
        · exact .reading (Nat.pos_of_ne_zero hmore) hreads hheld ⟨hstands.isOpen, hstands.at_⟩
        · nofun
  | @breaking fault last hleft hreads hshort hempty hheld =>
    rw [Option.map_none, Option.toList_none, List.append_nil] at hsent
    have henqueue : f.sending.transfer.enqueue = { f.sending.transfer with
        stage := .over, queue := f.sending.transfer.queue ++ [.broken fault] } := by
      simp only [Transfer.enqueue, hstage, hlistening, not_true_eq_false, if_false, if_pos hroom]
    rw [henqueue, List.drop_left]
    refine ⟨chunks, some fault, h.of_queued hlistening rfl rfl (Sending.settled_transfer _) ?_
      h.pieces htotal h.stood (.told ?_ hreads hshort hempty hheld)⟩
    · rw [hsent]
      rfl
    · rw [Sending.settled_transfer]
      exact hleft

theorem Fed.enqueue (h : f.Fed offset length chunks broken) :
    ∃ chunks' broken', (f.beat .enqueue).Fed offset length chunks' broken' := by
  rcases hstage : f.sending.transfer.stage with _ | piece | _
  · exact ⟨chunks, broken, h.enqueue_same (by simp only [Transfer.enqueue, hstage])⟩
  · cases hlistening : f.sending.transfer.listening with
    | false => exact ⟨chunks, broken, h.enqueue_gone hstage hlistening⟩
    | true =>
      by_cases hroom : f.sending.transfer.queue.length < queueDepth
      · exact h.enqueue_room hstage hlistening hroom
      · refine ⟨chunks, broken, h.enqueue_same ?_⟩
        simp only [Transfer.enqueue, hstage, hlistening, not_true_eq_false, if_false, if_neg hroom]
  · exact ⟨chunks, broken, h.enqueue_same (by simp only [Transfer.enqueue, hstage])⟩

/-! ## The client -/

/-- The client takes the oldest piece. -/
theorem Fed.receive (h : f.Fed offset length chunks broken) :
    (f.beat .receive).Fed offset length chunks broken := by
  have hkept := h.kept
  have hqueued := h.queued
  unfold beat
  simp only
  cases hqueue : f.sending.transfer.queue with
  | nil =>
    rw [Transfer.receive_nil hqueue]
    simp only [Option.toList_none, List.append_nil]
    exact h
  | cons piece rest =>
    have hreceive : f.sending.transfer.receive =
        (some piece, { f.sending.transfer with queue := rest }) := by
      rw [Transfer.receive, hqueue]
    rw [hreceive]
    rw [hqueue, ← List.singleton_append, ← List.append_assoc] at hkept hqueued
    exact ⟨h.sent, h.pieces, h.total, h.stood, hkept, hqueued,
      h.reached.congr rfl rfl rfl rfl id fun _ => rfl⟩

/-- The client goes away, and what is still queued is lost. -/
theorem Fed.hangUp (h : f.Fed offset length chunks broken) :
    (f.beat .hangUp).Fed offset length chunks broken := by
  refine ⟨h.sent, h.pieces, h.total, h.stood, ?_, nofun,
    h.reached.congr rfl rfl rfl rfl (fun _ => rfl) fun _ => rfl⟩
  show f.taken ++ [] <+: f.sent
  rw [List.append_nil]
  exact (List.prefix_append _ _).trans h.kept

/-! ## Runs -/

/-- Whatever happens next, the pieces tell how far the transfer has come. -/
theorem Fed.beat (h : f.Fed offset length chunks broken) (b : Beat) :
    ∃ chunks' broken', (f.beat b).Fed offset length chunks' broken' := by
  cases b with
  | read content limit => exact ⟨chunks, broken, h.read content limit⟩
  | fail fault => exact ⟨chunks, broken, h.fail fault⟩
  | enqueue => exact h.enqueue
  | receive => exact ⟨chunks, broken, h.receive⟩
  | hangUp => exact ⟨chunks, broken, h.hangUp⟩

theorem Fed.after (h : f.Fed offset length chunks broken) (beats : List Beat) :
    ∃ chunks' broken', (f.after beats).Fed offset length chunks' broken' := by
  induction beats generalizing f chunks broken with
  | nil => exact ⟨chunks, broken, h⟩
  | cons b rest ih =>
    obtain ⟨chunks', broken', hnext⟩ := h.beat b
    exact ih hnext

/-- No bytes are announced but from the start of a file. -/
theorem offset_of_span {header : Option String} {size : Nat}
    (h : (ByteRange.parse header size).span size = some (offset, length)) (hlength : length = 0) :
    offset = 0 := by
  subst hlength
  cases hrange : ByteRange.parse header size with
  | full =>
    rw [hrange] at h
    cases h
    rfl
  | part first last =>
    rw [hrange] at h
    cases h
  | unsatisfiable =>
    rw [hrange] at h
    cases h

theorem fed_ofLength {r : Resource} (hopen : r.isClosed = false)
    (hat : r.reader.StandsAt [] offset) (number : FileNumber) (volume : VolumeId)
    (ticket : Admission.Ticket) (length : Nat) :
    (⟨Sending.settled ⟨volume, ticket, ⟨number, r⟩, .ofLength length⟩, [], [], [], [], []⟩ :
      Feed).Fed offset length [] none := by
  have htransfer := Sending.settled_transfer ⟨volume, ticket, ⟨number, r⟩, .ofLength length⟩
  refine ⟨rfl, nofun, ?_, stoodAt_nil _ _, ?_, fun _ => ?_, ?_⟩
  all_goals simp only [htransfer]
  · exact Nat.zero_add length
  · exact List.prefix_refl _
  · rfl
  · show Reached _ offset [] none (Transfer.stageAfter length)
    unfold Transfer.stageAfter
    split
    case isTrue hzero =>
      refine .whole ?_ rfl nofun
      simp only [htransfer]
      exact hzero
    case isFalse hmore =>
      have hsettled : (Sending.settled ⟨volume, ticket, ⟨number, r⟩, .ofLength length⟩) =
          ⟨volume, ticket, ⟨number, r⟩, .ofLength length⟩ := by
        refine settled_of_not_over ?_
        show Transfer.stageAfter length ≠ .over
        unfold Transfer.stageAfter
        rw [if_neg hmore]
        nofun
      rw [hsettled]
      exact .reading (Nat.pos_of_ne_zero hmore) rfl nofun ⟨hopen, hat⟩

theorem fed_start (content : Bytes) (number : FileNumber) (mode : Mode) (capacity : Nat)
    (metadata : Metadata) (volume : VolumeId) (ticket : Admission.Ticket)
    (hoffset : length = 0 → offset = 0) :
    (start content ⟨number, openIn mode capacity metadata⟩ volume ticket offset length).Fed offset
      length [] none := by
  have hat := standsAt_openIn mode capacity metadata
  have hopen : (openIn mode capacity metadata).isClosed = false := by
    unfold openIn
    split <;> rfl
  unfold start Service.startTransfer
  by_cases hzero : offset = 0
  case pos =>
    rw [if_pos hzero]
    subst hzero
    exact fed_ofLength hopen hat number volume ticket length
  case neg =>
    rw [if_neg hzero]
    unfold Resource.seek
    rw [if_neg (Bool.eq_false_iff.mp hopen)]
    rcases (openIn mode capacity metadata).reader.seek_start content.length offset with
      hfault | ⟨reader, hok, hthere⟩
    · -- no file is so long, and the client will be told
      have hleft : 0 < length := Nat.pos_of_ne_zero fun hlength => hzero (hoffset hlength)
      have hempty : ([] : List Bytes) = [] ++ [] := rfl
      simp only [hfault]
      refine ⟨rfl, nofun, Nat.zero_add length, stoodAt_nil _ _, List.prefix_refl _,
        fun _ => rfl, ?_⟩
      exact .breaking hleft hempty (Nat.zero_le 1) rfl nofun
    · simp only [hok]
      exact fed_ofLength (r := { openIn mode capacity metadata with reader := reader }) hopen hthere
        number volume ticket length

/-! ## Clients that stay -/

theorem listening_onRead (t : Transfer) (outcome : Except Fault Bytes) :
    (t.onRead outcome).listening = t.listening := by
  unfold Transfer.onRead Transfer.onFault
  repeat' split
  all_goals rfl

theorem listening_enqueue (t : Transfer) : t.enqueue.listening = t.listening := by
  unfold Transfer.enqueue
  repeat' split
  all_goals rfl

theorem listening_beat {b : Beat} (hb : b ≠ .hangUp) :
    (f.beat b).sending.transfer.listening = f.sending.transfer.listening := by
  cases b with
  | read content limit =>
    unfold beat
    simp only
    split
    · rw [Sending.settled_transfer]
      exact listening_onRead _ _
    · rfl
  | fail fault =>
    unfold beat
    simp only
    split
    · rw [Sending.settled_transfer]
      exact listening_onRead _ _
    · rfl
  | enqueue =>
    unfold beat
    simp only
    rw [Sending.settled_transfer]
    exact listening_enqueue _
  | receive =>
    show f.sending.transfer.receive.2.listening = _
    unfold Transfer.receive
    split <;> rfl
  | hangUp => exact absurd rfl hb

theorem listening_after {beats : List Beat} (hbeats : Beat.hangUp ∉ beats) :
    (f.after beats).sending.transfer.listening = f.sending.transfer.listening := by
  induction beats generalizing f with
  | nil => rfl
  | cons b rest ih =>
    obtain ⟨hb, hrest⟩ := List.ne_and_not_mem_of_not_mem_cons hbeats
    exact (ih hrest).trans (listening_beat hb.symm)

theorem listening_start (content : Bytes) (file : OpenFile) (volume : VolumeId)
    (ticket : Admission.Ticket) (offset length : Nat) :
    (start content file volume ticket offset length).sending.transfer.listening = true := by
  have htransfer : (Service.startTransfer content file offset length).2.listening = true := by
    unfold Service.startTransfer Transfer.onFault
    repeat' split
    all_goals rfl
  show (Sending.settled _).transfer.listening = true
  rw [Sending.settled_transfer]
  exact htransfer

/-! ## Services -/

/-- What the reader of a service does is a beat. -/
theorem worked_beat (f : Feed) (tree : Tree) :
    f.sending.worked tree = f.sending ∨ ∃ b, f.sending.worked tree = (f.beat b).sending := by
  unfold Sending.worked
  rcases hstage : f.sending.transfer.stage with _ | piece | _
  · refine .inr ⟨.read (tree.contentOf f.sending.file.number) pieceSize, ?_⟩
    have hwanted : min f.sending.transfer.wanted (pieceSize + 1) = f.sending.transfer.wanted := by
      unfold Transfer.wanted
      omega
    unfold beat
    simp only [hstage, if_true, hwanted]
  · exact .inr ⟨.enqueue, rfl⟩
  · exact .inl rfl

/-- Whatever happens to a service, a file that is being sent by it goes on by a beat, or stays as it
is, or its transfer is over and the client goes away. -/
theorem step_beat {s : Service} {key : RequestKey} {response : Response} (tree : Tree)
    (here : Place) (hphase : s.phase? key = some (.sending response f.sending)) (event : Event) :
    (Service.step tree here s event).phase? key = some (.sending response f.sending) ∨
    (∃ b, (Service.step tree here s event).phase? key =
      some (.sending response (f.beat b).sending)) ∨
    f.sending.transfer.isOver = true ∧ (Service.step tree here s event).phase? key = none := by
  by_cases hkey : event.key? = some key
  case neg => exact .inl ((Service.phase?_step_of_ne hkey).trans hphase)
  cases event with
  | arrive other request =>
    cases hkey
    refine .inl ?_
    simp only [Service.step, hphase, Option.isSome_some, if_true]
  | poll other =>
    cases hkey
    refine .inl ?_
    rw [Service.step, Service.poll_of_sending hphase, hphase]
  | expire other =>
    cases hkey
    refine .inl ?_
    rw [Service.step, Service.expire_of_sending hphase, hphase]
  | work other =>
    cases hkey
    have hwork : (Service.work tree s key).phase? key =
        some (.sending response (f.sending.worked tree)) := Service.phase?_work hphase
    rcases worked_beat f tree with hsame | ⟨b, hb⟩
    · exact .inl (hsame ▸ hwork)
    · exact .inr (.inl ⟨b, hb ▸ hwork⟩)
  | receive other =>
    cases hkey
    exact .inr (.inl ⟨.receive, (Service.receive_sending hphase).2⟩)
  | hangUp other =>
    cases hkey
    show (s.hangUp key).phase? key = _ ∨ (∃ b, (s.hangUp key).phase? key = _) ∨ _ ∧
      (s.hangUp key).phase? key = none
    unfold Service.hangUp
    rw [hphase]
    simp only
    split
    case isTrue hover =>
      exact .inr (.inr ⟨hover, Service.phase?_forget_self⟩)
    case isFalse => exact .inr (.inl ⟨.hangUp, Service.phase?_setPhase_self _⟩)
  | stop => cases hkey
  | attempt name volume => cases hkey
  | giveBack name => cases hkey

theorem span_of_ofFile? {calendar : Calendar} {request : Request} {name : String} {size : Nat}
    {modified : Moment} {response : Response}
    (h : Response.ofFile? calendar request name size modified = some response)
    (hspan : response.body = .span offset length) :
    (ByteRange.parse (request.fields.text? "range") size).span size = some (offset, length) := by
  have hbody := (body_of_ofFile? h).symm.trans hspan
  split at hbody
  case h_1 => cases hbody
  case h_2 first count hfound =>
    split at hbody
    · cases hbody
    · rw [Body.span.injEq] at hbody
      rw [hfound, hbody.1, hbody.2]

/-- Every file that a service starts to send was just opened, and the span was announced. -/
theorem serve_start {s : Service} {key : RequestKey} {call : Call} {tree : Tree} {here : Place}
    {response : Response} {x : Sending}
    (hphase : (Service.serve tree here s key call).phase? key = some (.sending response x)) :
    ∃ header size offset length number mode capacity metadata,
      (ByteRange.parse header size).span size = some (offset, length) ∧
      response.body = .span offset length ∧
      x = (start (tree.contentOf number) ⟨number, openIn mode capacity metadata⟩ call.entry.volume
        call.ticket offset length).sending := by
  have hanswered : ∀ (s : Service) request response',
      (s.answer key request response').phase? key ≠ some (.sending response x) := by
    intro s request response'
    rw [Service.phase?_answer_self]
    nofun
  unfold Service.serve at hphase
  simp only at hphase
  split at hphase
  case h_1 => exact absurd hphase (hanswered _ _ _)
  case h_2 file hfile =>
    split at hphase
    case h_1 =>
      rw [Service.phase?_release, Service.phase?_setPhase_self] at hphase
      cases hphase
    case h_2 answer hanswer =>
      split at hphase
      case h_1 => exact absurd hphase (hanswered _ _ _)
      case h_2 offset length hbody =>
        obtain ⟨number, metadata, -, rfl⟩ := Files.openEntry_eq hfile
        rw [Service.phase?_setSending_self, Option.some.injEq, Phase.sending.injEq] at hphase
        obtain ⟨rfl, rfl⟩ := hphase
        exact ⟨_, _, offset, length, number, _, _, metadata, span_of_ofFile? hanswer hbody, hbody,
          rfl⟩

/-! ## Pieces -/

/-- How much of the span was sent tells whether the client was told that the transfer broke off. -/
theorem Fed.broken_iff (h : f.Fed offset length chunks broken)
    (hlistening : f.sending.transfer.listening = true) (hover : f.sending.transfer.isOver = true) :
    (f.PipeHeld → (broken = none ↔ chunks.flatten.length = length)) ∧
      (¬ f.PipeHeld → broken = none ∧ chunks.flatten.length < length) := by
  have htotal := h.total
  have hreached := h.reached
  have hstage : f.sending.transfer.stage = .over := by simpa [Transfer.isOver] using hover
  rw [hstage] at hreached
  cases hreached with
  | whole left reads held =>
    exact ⟨fun _ => ⟨fun _ => by omega, fun _ => rfl⟩, fun hnot => absurd held hnot⟩
  | told left reads short empty held =>
    exact ⟨fun _ => ⟨fun hnone => absurd hnone (Option.some_ne_none _), fun _ => by omega⟩,
      fun hnot => absurd held hnot⟩
  | gone listening reads short =>
    rw [hlistening] at listening
    cases listening
  | mistaken fails kind left reads =>
    exact ⟨fun held => absurd kind (held _ fails), fun _ => ⟨rfl, by omega⟩⟩

/-- Every piece is what one read gave, and at most the last read was not sent. -/
theorem Fed.reads_eq (h : f.Fed offset length chunks broken) :
    ∃ last, f.reads = chunks ++ last ∧ last.length ≤ 1 ∧
      (f.sending.transfer.listening = true → f.sending.transfer.isOver = true →
        last.flatten = []) := by
  have hreached := h.reached
  generalize hstage : f.sending.transfer.stage = stage at hreached
  have hnil : f.reads = chunks → f.reads = chunks ++ [] := fun reads =>
    reads.trans (List.append_nil _).symm
  cases hreached with
  | reading left reads held stands => exact ⟨[], hnil reads, Nat.zero_le 1, fun _ _ => rfl⟩
  | holding ne le reads held stands =>
    refine ⟨_, reads, Nat.le_refl 1, fun _ hover => ?_⟩
    rw [Transfer.isOver, hstage] at hover
    cases hover
  | breaking left reads short empty held => exact ⟨_, reads, short, fun _ _ => empty⟩
  | whole left reads held => exact ⟨[], hnil reads, Nat.zero_le 1, fun _ _ => rfl⟩
  | told left reads short empty held => exact ⟨_, reads, short, fun _ _ => empty⟩
  | gone listening reads short =>
    refine ⟨_, reads, short, fun hlistening => ?_⟩
    rw [hlistening] at listening
    cases listening
  | mistaken fails kind left reads => exact ⟨[], hnil reads, Nat.zero_le 1, fun _ _ => rfl⟩

/-- **Bodies that break off say so, but for a broken pipe.** A span of a file that was just opened
is announced and sent, while the file changes, reads give less than was asked for, are interrupted
or fail, and the client takes pieces or goes away, in any way and any order. Then the pieces that
were sent are what the reads gave, one after the other, and all that was read stood from the offset
on in the file as the reads found it; only the last read may not have been sent. No piece is empty
or too long, and together they are never longer than was announced. If the transfer breaks off, this
is told last. A client that stays is told all this. Once the transfer is over, and no read failed
with a broken pipe, it was told that the transfer broke off unless everything was sent; after such a
read the body is short and nothing was told. -/
theorem pieces_consecutive {header : Option String} {size offset length : Nat}
    (hannounced : (ByteRange.parse header size).span size = some (offset, length)) (content : Bytes)
    (number : FileNumber) (mode : Mode) (capacity : Nat) (metadata : Metadata) (volume : VolumeId)
    (ticket : Admission.Ticket) (beats : List Beat) {f : Feed}
    (hafter : (start content ⟨number, openIn mode capacity metadata⟩ volume ticket offset
      length).after beats = f) :
    (∃ chunks broken, f.sent = chunks.map .bytes ++ (broken.map Piece.broken).toList ∧
      (∃ last, f.reads = chunks ++ last ∧ last.length ≤ 1 ∧
        (.hangUp ∉ beats → f.sending.transfer.isOver = true → last.flatten = [])) ∧
      StoodAt f.contents offset f.reads.flatten ∧
      (∀ chunk ∈ chunks, chunk ≠ [] ∧ chunk.length ≤ 64 * 1024) ∧
      chunks.flatten.length ≤ length ∧
      f.taken <+: f.sent ∧
      (.hangUp ∉ beats → f.taken ++ f.sending.transfer.queue = f.sent ∧
        (f.sending.transfer.isOver = true →
          (f.PipeHeld → (broken = none ↔ chunks.flatten.length = length)) ∧
          (¬ f.PipeHeld → broken = none ∧ chunks.flatten.length < length)))) ∧
    (∀ (s : Service) (key : RequestKey) (response : Response) (tree : Tree) (here : Place)
      (event : Event), s.phase? key = some (.sending response f.sending) →
        (Service.step tree here s event).phase? key = some (.sending response f.sending) ∨
        (∃ b, (Service.step tree here s event).phase? key =
          some (.sending response (f.beat b).sending)) ∨
        f.sending.transfer.isOver = true ∧ (Service.step tree here s event).phase? key = none) ∧
    ∀ (s : Service) (key : RequestKey) (call : Call) (response : Response) (x : Sending)
      (tree : Tree) (here : Place),
        (Service.serve tree here s key call).phase? key = some (.sending response x) →
        ∃ header size offset length number mode capacity metadata,
          (ByteRange.parse header size).span size = some (offset, length) ∧
          response.body = .span offset length ∧
          x = (start (tree.contentOf number) ⟨number, openIn mode capacity metadata⟩
            call.entry.volume call.ticket offset length).sending := by
  subst hafter
  refine ⟨?_, fun s key response tree here event hphase => step_beat tree here hphase event,
    fun s key call response x tree here => serve_start⟩
  have hstart := fed_start content number mode capacity metadata volume ticket
    (offset_of_span hannounced)
  obtain ⟨chunks, broken, hfed⟩ := hstart.after beats
  obtain ⟨last, hreads, hshort, hlast⟩ := hfed.reads_eq
  have htotal := hfed.total
  have hlistens : Beat.hangUp ∉ beats → ((start content ⟨number, openIn mode capacity metadata⟩
      volume ticket offset length).after beats).sending.transfer.listening = true := by
    intro hstays
    exact (listening_after hstays).trans (listening_start _ _ _ _ _ _)
  exact ⟨chunks, broken, hfed.sent, ⟨last, hreads, hshort, fun hstays => hlast (hlistens hstays)⟩,
    hfed.stood, hfed.pieces, by omega, (List.prefix_append _ _).trans hfed.kept, fun hstays =>
      ⟨hfed.queued (hlistens hstays), hfed.broken_iff (hlistens hstays)⟩⟩

/-- A file of three bytes, of which the last two were announced. The first read gives one of them,
the next one is interrupted, and then the file has shrunk. -/
def shrunk : Feed :=
  (start [1, 2, 3] ⟨0, openIn .direct 1 ⟨"f", ⟨0⟩, 3⟩⟩ "v" 0 1 2).after
    [.read [1, 2, 3] 0, .enqueue, .fail ⟨.interrupted, ""⟩, .receive, .read [1] 9, .enqueue,
      .receive]

theorem pieces_consecutive_shrunk :
    shrunk.taken = [.bytes [2], .broken .shrank] ∧
    ∃ (chunks : List Bytes) (broken : Option Fault),
      shrunk.sent = chunks.map .bytes ++ (broken.map Piece.broken).toList ∧
        (broken = none ↔ chunks.flatten.length = 2) := by
  have hannounced : (ByteRange.parse (some "bytes=1-") 3).span 3 = some (1, 2) := by decide +kernel
  refine ⟨by decide +kernel, ?_⟩
  obtain ⟨⟨chunks, broken, hsent, -, -, -, -, -, hstays⟩, -, -⟩ :=
    pieces_consecutive hannounced [1, 2, 3] 0 .direct 1 ⟨"f", ⟨0⟩, 3⟩ "v" 0 _ (rfl : _ = shrunk)
  obtain ⟨-, hover⟩ := hstays (by simp)
  have hheld : shrunk.PipeHeld := by
    unfold PipeHeld
    decide +kernel
  exact ⟨chunks, broken, hsent, (hover (by decide +kernel)).1 hheld⟩

/-- A file of three bytes is announced whole. The first read gives one byte, the next one fails with
a broken pipe, and the client takes what there is. -/
def cutShort : Feed :=
  (start [1, 2, 3] ⟨0, openIn .direct 1 ⟨"f", ⟨0⟩, 3⟩⟩ "v" 0 0 3).after
    [.read [1, 2, 3] 0, .enqueue, .fail ⟨.brokenPipe, "Broken pipe (os error 32)"⟩, .receive]

/-- The client is there, has taken all that was sent, and was not told that two bytes are missing.
-/
theorem broken_pipe_untold :
    (ByteRange.parse none 3).span 3 = some (0, 3) ∧
    cutShort.sending.transfer.isOver = true ∧ cutShort.sending.transfer.listening = true ∧
    cutShort.sent = [.bytes [1]] ∧ cutShort.taken = cutShort.sent := by
  decide +kernel

end Feed

end MediaShelf.Server
