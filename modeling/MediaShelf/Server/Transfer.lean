import MediaShelf.Failure

/-!
Sending a span of a file, piece by piece. A reader takes one piece after the other from the file
and puts it into a short queue, from which the client takes it; while the queue is full the reader
holds its piece and waits. The file may change all the while, so a transfer is told what each read
gave. If the file ends too early, or a read fails, the client is told so behind the pieces that
came before; a client that has gone away ends the transfer.
-/

namespace MediaShelf.Server

/-- The greatest length of a piece. -/
def pieceSize : Nat := 64 * 1024

/-- How many pieces the queue holds. -/
def queueDepth : Nat := 4

/-- What a client receives. -/
inductive Piece where
  | bytes (bytes : Bytes)
  /-- The transfer broke off. -/
  | broken (fault : Fault)
  deriving DecidableEq

/-- What the reader does next. -/
inductive Stage where
  | reading
  /-- A piece waits for room in the queue. -/
  | holding (piece : Piece)
  | over
  deriving DecidableEq

/-- A span that is being sent. -/
structure Transfer where
  /-- The bytes that have not been queued yet. -/
  left : Nat
  stage : Stage
  /-- The pieces that the client has not received yet, the oldest first. -/
  queue : List Piece
  /-- Whether the client is still there. -/
  listening : Bool
  deriving DecidableEq

namespace Transfer

/-- What comes after a piece was queued and `left` bytes remain. -/
def stageAfter (left : Nat) : Stage := if left = 0 then .over else .reading

/-- The transfer of `length` bytes. -/
def ofLength (length : Nat) : Transfer := ⟨length, stageAfter length, [], true⟩

/-- How many bytes the next read asks for. -/
def wanted (t : Transfer) : Nat := min t.left pieceSize

/-- A fault ends a transfer. The client is told, unless the fault is that the client went away. -/
def onFault (fault : Fault) (t : Transfer) : Transfer :=
  if fault.kind = .brokenPipe then { t with stage := .over }
  else { t with stage := .holding (.broken fault) }

/-- Takes in what a read gave. No bytes mean that the file ended too early; an interrupted read
is made again. -/
def onRead (outcome : Except Fault Bytes) (t : Transfer) : Transfer :=
  match t.stage with
  | .reading =>
    match outcome with
    | .ok [] => t.onFault .shrank
    | .ok bytes => { t with stage := .holding (.bytes bytes) }
    | .error fault => if fault.kind = .interrupted then t else t.onFault fault
  | _ => t

/-- Puts the piece that waits into the queue, if there is room. That the client is gone is a fault.
-/
def enqueue (t : Transfer) : Transfer :=
  match t.stage with
  | .holding piece =>
    if ¬ t.listening then t.onFault .bodyDropped
    else if t.queue.length < queueDepth then
      match piece with
      | .bytes bytes =>
        let left := t.left - bytes.length
        { t with left := left, stage := stageAfter left, queue := t.queue ++ [piece] }
      | .broken _ => { t with stage := .over, queue := t.queue ++ [piece] }
    else t
  | _ => t

/-- The client takes the oldest piece. -/
def receive (t : Transfer) : Option Piece × Transfer :=
  match t.queue with
  | [] => (none, t)
  | piece :: rest => (some piece, { t with queue := rest })

/-- The client goes away. -/
def hangUp (t : Transfer) : Transfer := { t with queue := [], listening := false }

/-- Whether the reader has nothing more to do. -/
def isOver (t : Transfer) : Bool := t.stage == .over

/-- Whether the reader can do something now. -/
def canWork (t : Transfer) : Bool :=
  match t.stage with
  | .reading => true
  | .holding _ => ! t.listening || t.queue.length < queueDepth
  | .over => false

@[simp] theorem receive_nil {t : Transfer} (h : t.queue = []) : t.receive = (none, t) := by
  simp [receive, h]

end Transfer

end MediaShelf.Server
