import Mathlib
import MediaShelf.Resource.Basic

/-!
# A cursor over a file

What a client knows of an open file: how far it was read, or that it was closed. `Cursor.Step`
says what each operation may answer and where it leaves the cursor, in terms of the content of the
file alone; how bytes are read ahead does not show in it. A short read may give any part of what
was asked for, all else is determined (`Cursor.Step.unique`). `Resource.run` runs a script of
operations on an open file that others append to in between.
-/

namespace MediaShelf.Resource

/-- What a client asks of an open file. -/
inductive Operation where
  | read (n : Nat)
  | readExact (n : Nat)
  | readToEnd
  | seek (target : SeekTarget)
  | position
  | close
  deriving DecidableEq, Repr

/-- Reads may be short, so that their answer is not determined. -/
def Operation.IsRead : Operation → Prop
  | .read _ => True
  | _ => False

/-- What a client is told. Of a failure only the kind counts. -/
inductive Answer where
  | bytes (bytes : Bytes)
  | moved (position : Nat)
  | closed
  | failed (kind : FaultKind)
  deriving DecidableEq, Repr

namespace Answer

/-- The answer to a read. -/
def ofBytes : Except Fault Bytes → Answer
  | .ok got => .bytes got
  | .error fault => .failed fault.kind

/-- The answer to a seek. -/
def ofPosition : Except Fault Nat → Answer
  | .ok reached => .moved reached
  | .error fault => .failed fault.kind

end Answer

/-! ## The cursor -/

/-- An open file as its client sees it. -/
inductive Cursor where
  | opened (position : Nat)
  | closed
  deriving DecidableEq, Repr

/-- Bytes that a read of up to `n` bytes may give at a position: some of those that stand there,
and none only if none are asked for or left. -/
structure Served (content : Bytes) (position n : Nat) (bytes : Bytes) : Prop where
  here : bytes <+: content.drop position
  length_le : bytes.length ≤ n
  of_nil : bytes = [] → n = 0 ∨ content.length ≤ position

/-- Seeking goes where a plain descriptor at the same position would go. -/
def plainSeek (content : Bytes) (position : Nat) (target : SeekTarget) : Except Fault Nat :=
  ((Descriptor.mk position).seek content.length target).map (·.position)

/-- What an operation may answer, and where it leaves the cursor. -/
inductive Cursor.Step (content : Bytes) : Cursor → Operation → Answer → Cursor → Prop
  | read {p n : Nat} {bytes : Bytes} (h : Served content p n bytes) :
      Step content (.opened p) (.read n) (.bytes bytes) (.opened (p + bytes.length))
  | readExact {p n : Nat} (h : n = 0 ∨ p + n ≤ content.length) :
      Step content (.opened p) (.readExact n) (.bytes ((content.drop p).take n)) (.opened (p + n))
  | readShort {p n : Nat} (hn : n ≠ 0) (h : content.length < p + n) :
      Step content (.opened p) (.readExact n) (.failed .unexpectedEof)
        (.opened (max p content.length))
  | readToEnd {p : Nat} :
      Step content (.opened p) .readToEnd (.bytes (content.drop p)) (.opened (max p content.length))
  | seek {p q : Nat} {target : SeekTarget} (h : plainSeek content p target = .ok q) :
      Step content (.opened p) (.seek target) (.moved q) (.opened q)
  | seekFailed {p : Nat} {target : SeekTarget} {fault : Fault}
      (h : plainSeek content p target = .error fault) :
      Step content (.opened p) (.seek target) (.failed fault.kind) (.opened p)
  | position {p : Nat} : Step content (.opened p) .position (.moved p) (.opened p)
  | close {c : Cursor} : Step content c .close .closed .closed
  | readClosed {n : Nat} : Step content .closed (.read n) (.failed .other) .closed
  | readExactClosed {n : Nat} (hn : n ≠ 0) :
      Step content .closed (.readExact n) (.failed .other) .closed
  /-- No bytes are read without touching the file. -/
  | readNothingClosed : Step content .closed (.readExact 0) (.bytes []) .closed
  | readToEndClosed : Step content .closed .readToEnd (.failed .other) .closed
  | seekClosed {target : SeekTarget} : Step content .closed (.seek target) (.failed .other) .closed
  | positionClosed : Step content .closed .position (.failed .other) .closed

/-- Every operation but a short read is determined by the content and the cursor. -/
theorem Cursor.Step.unique {content : Bytes} {c d d' : Cursor} {op : Operation} {a a' : Answer}
    (hop : ¬ op.IsRead) (h : Step content c op a d) (h' : Step content c op a' d') :
    a = a' ∧ d = d' := by
  cases h with
  | read | readClosed => exact absurd trivial hop
  | seek h =>
    cases h' with
    | seek h' => cases h.symm.trans h'; exact ⟨rfl, rfl⟩
    | seekFailed h' => cases h.symm.trans h'
  | seekFailed h =>
    cases h' with
    | seek h' => cases h.symm.trans h'
    | seekFailed h' => cases h.symm.trans h'; exact ⟨rfl, rfl⟩
  | readExact h =>
    cases h' with
    | readExact => exact ⟨rfl, rfl⟩
    | readShort hn hlt => omega
  | readShort hn hlt =>
    cases h' with
    | readExact h => omega
    | readShort => exact ⟨rfl, rfl⟩
  | readExactClosed hn =>
    cases h' with
    | readExactClosed => exact ⟨rfl, rfl⟩
    | readNothingClosed => exact absurd rfl hn
  | readNothingClosed =>
    cases h' with
    | readExactClosed hn => exact absurd rfl hn
    | readNothingClosed => exact ⟨rfl, rfl⟩
  | readToEnd | position | close | readToEndClosed | seekClosed | positionClosed =>
    cases h'; exact ⟨rfl, rfl⟩

/-! ## Scripts -/

/-- One move of a script: what others have appended to the file by then, and what is asked. -/
structure Move where
  appended : Bytes
  operation : Operation
  deriving DecidableEq, Repr

/-- The content of a file at the end of a script. -/
def finalContent (content : Bytes) (script : List Move) : Bytes :=
  content ++ script.flatMap (·.appended)

@[simp] theorem finalContent_nil (content : Bytes) : finalContent content [] = content :=
  List.append_nil content

@[simp] theorem finalContent_cons (content : Bytes) (move : Move) (script : List Move) :
    finalContent content (move :: script) = finalContent (content ++ move.appended) script := by
  simp [finalContent]

theorem length_le_finalContent (content : Bytes) (script : List Move) :
    content.length ≤ (finalContent content script).length := by
  simp [finalContent]

/-- The runs of a cursor over a file that grows. -/
inductive Cursor.Run : Bytes → Cursor → List Move → List Answer → Cursor → Prop
  | nil {content : Bytes} {c : Cursor} : Run content c [] [] c
  | cons {content : Bytes} {move : Move} {script : List Move} {c d e : Cursor} {a : Answer}
      {answers : List Answer}
      (step : Step (content ++ move.appended) c move.operation a d)
      (run : Run (content ++ move.appended) d script answers e) :
      Run content c (move :: script) (a :: answers) e

/-- An operation on an open file. -/
def perform (content : Bytes) (r : Resource) : Operation → Answer × Resource
  | .read n => ((.ofBytes (r.read content n).1), (r.read content n).2)
  | .readExact n => ((.ofBytes (r.readExact content n).1), (r.readExact content n).2)
  | .readToEnd => ((.ofBytes (r.readToEnd content).1), (r.readToEnd content).2)
  | .seek target => ((.ofPosition (r.seek content target).1), (r.seek content target).2)
  | .position => ((.ofPosition (r.position content).1), (r.position content).2)
  | .close => (.closed, r.close)

/-- A script on an open file: what each move was answered, and the file then. -/
def run (content : Bytes) (r : Resource) : List Move → List Answer × Resource
  | [] => ([], r)
  | move :: script =>
    let content := content ++ move.appended
    let (answer, r) := r.perform content move.operation
    let (answers, r) := run content r script
    (answer :: answers, r)

end MediaShelf.Resource
