import MediaShelf.Failure

/-!
An open file as the system keeps it: a position. Reading takes the bytes from the position on as
far as there are any; seeking moves the position anywhere from 0 to `maxPosition`, also past the
end. The content is given to every operation, because others may change it in between.
-/

namespace MediaShelf.Resource

/-- The greatest position in a file. -/
def maxPosition : Nat := Nat.pow 2 63 - 1

/-- The least offset of a relative seek. -/
def minOffset : Int := -(Nat.pow 2 63 : Int)

/-- Where a seek goes. -/
inductive SeekTarget where
  | start (offset : Nat)
  | current (offset : Int)
  | finish (offset : Int)
  deriving DecidableEq, Repr

/-- An open file. -/
structure Descriptor where
  position : Nat
  deriving DecidableEq, Repr

namespace Descriptor

/-- A file that was just opened. -/
def atStart : Descriptor := ⟨0⟩

/-- Reads up to `n` bytes. -/
def read (content : Bytes) (n : Nat) (d : Descriptor) : Bytes × Descriptor :=
  let bytes := (content.drop d.position).take n
  (bytes, ⟨d.position + bytes.length⟩)

/-- Where a seek would end, which may be a position that a file cannot have. -/
def goal (size : Nat) (d : Descriptor) : SeekTarget → Int
  | .start offset => offset
  | .current offset => d.position + offset
  | .finish offset => size + offset

/-- Moves the position. -/
def seek (size : Nat) (target : SeekTarget) (d : Descriptor) : Except Fault Descriptor :=
  let goal := d.goal size target
  if 0 ≤ goal ∧ goal ≤ maxPosition then .ok ⟨goal.toNat⟩ else .error .invalidArgument

@[simp] theorem read_fst (content : Bytes) (n : Nat) (d : Descriptor) :
    (d.read content n).1 = (content.drop d.position).take n := rfl

@[simp] theorem read_position (content : Bytes) (n : Nat) (d : Descriptor) :
    (d.read content n).2.position = d.position + (d.read content n).1.length := rfl

end Descriptor

end MediaShelf.Resource
