import MediaShelf.Resource.Descriptor

/-!
Reading ahead. The descriptor is ahead of what the reader has seen by exactly the unread bytes, so
the reader's position is the descriptor's less their number. A short step forward is taken inside
the unread bytes; every other seek drops them.
-/

namespace MediaShelf.Resource

/-- The greatest number of bytes that memory gives out in one piece. -/
def maxCapacity : Nat := Nat.pow 2 63 - 1

/-- An open file with bytes read ahead. -/
structure Buffered where
  descriptor : Descriptor
  /-- How many bytes are read ahead at once. -/
  capacity : Nat
  /-- The bytes that were read ahead and not yet handed out. -/
  unread : Bytes
  capacity_pos : 0 < capacity

namespace Buffered

/-- A file that was just opened; a capacity of 0 counts as 1. -/
def open_ (capacity : Nat) : Buffered :=
  ⟨.atStart, max capacity 1, [], by omega⟩

/-- The position that the reader is at. -/
def position (b : Buffered) : Nat := b.descriptor.position - b.unread.length

/-- Drops the unread bytes. -/
def discard (b : Buffered) : Buffered := { b with unread := [] }

/-- Hands out up to `n` of the unread bytes. -/
def handOut (n : Nat) (b : Buffered) : Bytes × Buffered :=
  (b.unread.take n, { b with unread := b.unread.drop n })

/-- Reads up to `n` bytes. A reader that wants at least a whole buffer is served past it. -/
def read (content : Bytes) (n : Nat) (b : Buffered) : Bytes × Buffered :=
  if n = 0 then ([], b)
  else if b.unread = [] then
    if b.capacity ≤ n then
      let (bytes, descriptor) := b.descriptor.read content n
      (bytes, { b with descriptor := descriptor })
    else
      let (ahead, descriptor) := b.descriptor.read content b.capacity
      handOut n { b with descriptor := descriptor, unread := ahead }
  else handOut n b

/-- Moves the descriptor and drops the unread bytes, if the descriptor can be moved. -/
def moveTo (size : Nat) (target : SeekTarget) (b : Buffered) : Except Fault (Nat × Buffered) :=
  match b.descriptor.seek size target with
  | .error fault => .error fault
  | .ok descriptor => .ok (descriptor.position, { b with descriptor := descriptor, unread := [] })

/-- Moves the position: the new one and the file as it is then. -/
def seek (size : Nat) (target : SeekTarget) (b : Buffered) : Except Fault (Nat × Buffered) :=
  match target with
  | .current offset =>
    if offset = 0 then .ok (b.position, b)
    else if 0 < offset ∧ offset ≤ b.unread.length then
      let b := { b with unread := b.unread.drop offset.toNat }
      .ok (b.position, b)
    else if offset - b.unread.length < minOffset then .error .seekOverflow
    else b.moveTo size (.current (offset - b.unread.length))
  | target => b.moveTo size target

end Buffered

end MediaShelf.Resource
