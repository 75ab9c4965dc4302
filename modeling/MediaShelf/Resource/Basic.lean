import MediaShelf.Http.Date
import MediaShelf.Resource.Buffered
import MediaShelf.Text.Blank
import MediaShelf.Text.Small

/-!
An open media file: read plainly or with a buffer, together with the name, size and time of change
that it had when it was opened. Closing it may be repeated; afterwards nothing can be read.
-/

namespace MediaShelf.Resource

/-- How files are read. -/
inductive Mode where
  | direct
  | buffered
  deriving DecidableEq, Repr

namespace Mode

/-- The name of a mode. -/
def name : Mode → String
  | .direct => "direct"
  | .buffered => "buffered"

/-- Reads the name of a mode; blanks around it and large letters do not matter. -/
def parse (text : String) : Except Failure Mode :=
  let small := Text.smalls (Text.trim text.toList)
  if small = "direct".toList then .ok .direct
  else if small = "buffered".toList then .ok .buffered
  else .error (.unsupportedMode text)

end Mode

/-- What is known of a file from its opening. -/
structure Metadata where
  name : String
  modified : Http.Moment
  size : Nat
  deriving DecidableEq

/-- How an open file is read. -/
inductive Reader where
  | direct (descriptor : Descriptor)
  | buffered (buffered : Buffered)

namespace Reader

/-- The mode of a reader. -/
def mode : Reader → Mode
  | .direct _ => .direct
  | .buffered _ => .buffered

/-- Reads up to `n` bytes. -/
def read (content : Bytes) (n : Nat) : Reader → Bytes × Reader
  | .direct d => let (bytes, d) := d.read content n; (bytes, .direct d)
  | .buffered b => let (bytes, b) := b.read content n; (bytes, .buffered b)

/-- Moves the position. -/
def seek (size : Nat) (target : SeekTarget) : Reader → Except Fault (Nat × Reader)
  | .direct d => (d.seek size target).map fun d => (d.position, .direct d)
  | .buffered b => (b.seek size target).map fun (at_, b) => (at_, .buffered b)

/-- How many bytes are left of a content, those that were read ahead included. -/
def remaining (content : Bytes) : Reader → Nat
  | .direct d => content.length - d.position
  | .buffered b => b.unread.length + (content.length - b.descriptor.position)

/-- Reads until nothing more comes, asking for more than there is each time. -/
def readToEnd (content : Bytes) (soFar : List Bytes) (fuel : Nat) (r : Reader) :
    Bytes × Reader :=
  match fuel with
  | 0 => (soFar.reverse.flatten, r)
  | fuel + 1 =>
    let (bytes, r) := r.read content (r.remaining content + 1)
    if bytes = [] then (soFar.reverse.flatten, r)
    else readToEnd content (bytes :: soFar) fuel r

/-- Reads until `n` bytes have come or nothing more comes. -/
def readExact (content : Bytes) (soFar : List Bytes) (fuel n : Nat) (r : Reader) :
    Except Fault Bytes × Reader :=
  if n = 0 then (.ok soFar.reverse.flatten, r)
  else
    match fuel with
    | 0 => (.error .shortRead, r)
    | fuel + 1 =>
      let (bytes, r) := r.read content n
      if bytes = [] then (.error .shortRead, r)
      else readExact content (bytes :: soFar) fuel (n - bytes.length) r

/-- Drops what was read ahead. -/
def discard : Reader → Reader
  | .direct d => .direct d
  | .buffered b => .buffered b.discard

end Reader

end MediaShelf.Resource

namespace MediaShelf

/-- An open media file. -/
structure Resource where
  metadata : Resource.Metadata
  reader : Resource.Reader
  isClosed : Bool

namespace Resource

/-- Whether a file can be opened in a mode, with a buffer of a capacity if the mode has one. Asking
memory for more than it gives out in one piece is a panic. -/
def canOpen (mode : Mode) (capacity : Nat) : Bool :=
  match mode with
  | .direct => true
  | .buffered => capacity ≤ maxCapacity

/-- Opens a file in a mode. -/
def openIn (mode : Mode) (capacity : Nat) (metadata : Metadata) : Resource :=
  match mode with
  | .direct => ⟨metadata, .direct .atStart, false⟩
  | .buffered => ⟨metadata, .buffered (.open_ capacity), false⟩

/-- The mode of a resource. -/
def mode (r : Resource) : Mode := r.reader.mode

/-- Reads up to `n` bytes. -/
def read (content : Bytes) (n : Nat) (r : Resource) : Except Fault Bytes × Resource :=
  if r.isClosed then (.error .closed, r)
  else
    let (bytes, reader) := r.reader.read content n
    (.ok bytes, { r with reader := reader })

/-- Reads exactly `n` bytes; the bytes before an early end are used up. -/
def readExact (content : Bytes) (n : Nat) (r : Resource) : Except Fault Bytes × Resource :=
  if n = 0 then (.ok [], r)
  else if r.isClosed then (.error .closed, r)
  else
    let (outcome, reader) := r.reader.readExact content [] n n
    (outcome, { r with reader := reader })

/-- Reads everything that is left. -/
def readToEnd (content : Bytes) (r : Resource) : Except Fault Bytes × Resource :=
  if r.isClosed then (.error .closed, r)
  else
    let (bytes, reader) := r.reader.readToEnd content [] (r.reader.remaining content + 1)
    (.ok bytes, { r with reader := reader })

/-- Moves the position; a seek that fails changes nothing. -/
def seek (content : Bytes) (target : SeekTarget) (r : Resource) : Except Fault Nat × Resource :=
  if r.isClosed then (.error .closed, r)
  else
    match r.reader.seek content.length target with
    | .error fault => (.error fault, r)
    | .ok (at_, reader) => (.ok at_, { r with reader := reader })

/-- The position, which asking for does not change. -/
def position (content : Bytes) (r : Resource) : Except Fault Nat × Resource :=
  r.seek content (.current 0)

/-- Closes a resource and drops what was read ahead. -/
def close (r : Resource) : Resource := { r with reader := r.reader.discard, isClosed := true }

end Resource

end MediaShelf
