import MediaShelf.Proofs.Files.Stations
import MediaShelf.Shelf.Opening

/-!
# Opening a file and reading it whole

An entry whose path leads past no link opens the file at that place, unless the path of the file is
too long for the system (`openEntry_plain`). Whatever the mode, a file that was just opened gives
its whole content to whoever reads to the end (`readToEnd_openIn`).
-/

namespace MediaShelf

open MediaShelf.Files

/-! ## Reading -/

namespace Resource

variable {content : Bytes}

@[simp] theorem openIn_mode (mode : Mode) (capacity : Nat) (metadata : Metadata) :
    (openIn mode capacity metadata).mode = mode := by
  cases mode <;> rfl

@[simp] theorem openIn_metadata (mode : Mode) (capacity : Nat) (metadata : Metadata) :
    (openIn mode capacity metadata).metadata = metadata := by
  cases mode <;> rfl

@[simp] theorem openIn_isClosed (mode : Mode) (capacity : Nat) (metadata : Metadata) :
    (openIn mode capacity metadata).isClosed = false := by
  cases mode <;> rfl

/-- A reader that has handed out all there is. -/
def Reader.Spent (content : Bytes) : Reader → Prop
  | .direct d => d.position = content.length
  | .buffered b => b.unread = [] ∧ b.descriptor.position = content.length

theorem Descriptor.read_atStart {n : Nat} (h : content.length ≤ n) :
    Descriptor.atStart.read content n = (content, ⟨content.length⟩) := by
  simp [Descriptor.read, Descriptor.atStart, List.take_of_length_le h]

theorem Descriptor.read_spent {d : Descriptor} (h : d.position = content.length) (n : Nat) :
    (d.read content n).1 = [] := by
  rw [Descriptor.read_fst, h, List.drop_length, List.take_nil]

theorem Buffered.read_spent {b : Buffered} (hunread : b.unread = [])
    (h : b.descriptor.position = content.length) (n : Nat) : (b.read content n).1 = [] := by
  rw [Buffered.read, if_pos hunread]
  split
  · rfl
  · split
    · exact Descriptor.read_spent h n
    · simp only [Buffered.handOut, Descriptor.read_spent h, List.take_nil]

/-- Whoever asks a buffer that was just opened for more than there is, is given it all. -/
theorem Buffered.read_open {n : Nat} (h : content.length < n) (capacity : Nat) :
    ∃ b, (Buffered.open_ capacity).read content n = (content, b) ∧ b.unread = [] ∧
      b.descriptor.position = content.length := by
  have hn : n ≠ 0 := by omega
  unfold Buffered.read
  rw [if_neg hn, if_pos (show (Buffered.open_ capacity).unread = [] from rfl)]
  split
  case isTrue =>
    simp only [Buffered.open_, Descriptor.read_atStart h.le]
    exact ⟨_, rfl, rfl, rfl⟩
  case isFalse hcapacity =>
    have hfill : content.length ≤ (Buffered.open_ capacity).capacity := by omega
    have hread : (Buffered.open_ capacity).descriptor.read content
        (Buffered.open_ capacity).capacity = (content, ⟨content.length⟩) :=
      Descriptor.read_atStart hfill
    simp only [hread, Buffered.handOut, List.take_of_length_le h.le]
    exact ⟨_, rfl, List.drop_of_length_le h.le, rfl⟩

theorem Reader.read_spent {r : Reader} (h : r.Spent content) (n : Nat) :
    (r.read content n).1 = [] := by
  cases r with
  | direct d => exact Descriptor.read_spent h n
  | buffered b => exact Buffered.read_spent h.1 h.2 n

theorem read_openIn {n : Nat} (h : content.length < n) (mode : Mode) (capacity : Nat)
    (metadata : Metadata) : ∃ r, (openIn mode capacity metadata).reader.read content n =
      (content, r) ∧ r.Spent content := by
  cases mode with
  | direct =>
    refine ⟨.direct ⟨content.length⟩, ?_, rfl⟩
    simp only [openIn, Reader.read, Descriptor.read_atStart h.le]
  | buffered =>
    obtain ⟨b, hread, hspent⟩ := Buffered.read_open h capacity
    refine ⟨.buffered b, ?_, hspent⟩
    simp only [openIn, Reader.read, hread]

theorem remaining_openIn (mode : Mode) (capacity : Nat) (metadata : Metadata) :
    (openIn mode capacity metadata).reader.remaining content = content.length := by
  cases mode <;> simp [openIn, Reader.remaining, Buffered.open_, Descriptor.atStart]

/-- A file that was just opened is read whole. -/
theorem readToEnd_openIn (mode : Mode) (capacity : Nat) (metadata : Metadata) :
    ((openIn mode capacity metadata).readToEnd content).1 = .ok content := by
  obtain ⟨r, hread, hspent⟩ := read_openIn (Nat.lt_succ_self content.length) mode capacity metadata
  simp only [Resource.readToEnd, openIn_isClosed, Bool.false_eq_true, if_false, remaining_openIn,
    Reader.readToEnd, hread]
  split
  case isTrue hnil => rw [hnil]; rfl
  case isFalse hne =>
    -- The second read finds nothing, and ends the loop.
    obtain ⟨k, hk⟩ := Nat.exists_eq_succ_of_ne_zero (mt List.length_eq_zero_iff.mp hne)
    simp only [hk, Reader.readToEnd, Reader.read_spent hspent, if_true]
    simp

end Resource

/-! ## Opening -/

section Opening

variable {tree : Tree} {here r : Place} {root : Bytes} {names : List Name} {number : FileNumber}
  (hw : tree.WellFormed) (hn : tree.Spelled) (hne : names ≠ [])
  (hnames : ∀ name ∈ names, IsName name)
  (hr : tree.canonical here root = .ok r) (hnode : tree.node? (r ++ names) = some (.file number))

include hw hn hne hnames hr hnode

theorem openInRoot_plain : tree.openInRoot here root (joinNames names) =
    if placeLength (r ++ names) ≤ maxPath then .ok (.file number)
    else .error (.fault .nameTooLong) := by
  have hresolve := Tree.resolveInRoot_plain hw hn (normalize?_joinNames hnames) hne hr hnode nofun
  rw [Files.Tree.openInRoot, hresolve]
  by_cases hlen : placeLength (r ++ names) ≤ maxPath
  · simp only [if_pos hlen, Tree.probe_of_node? hw hn hnode hlen]
  · simp only [if_neg hlen]

/-- An entry of a file past no link opens it, unless the path of the file is too long or there is no
such buffer. -/
theorem openEntry_plain {shelf : Shelf} {entry : Catalog.Entry} {mount : Mount} {body : FileBody}
    (hmount : shelf.mount entry.volume = .ok mount) (hroot : mount.root = root)
    (hpath : entry.path = joinNames names) (hbody : tree.body? number = some body) :
    shelf.openEntry tree here entry =
      if placeLength (r ++ names) ≤ maxPath then
        if Resource.canOpen shelf.mode shelf.bufferSize then
          .ok ⟨number, Resource.openIn shelf.mode shelf.bufferSize
            ⟨fileNameText entry.path, body.modified, body.size⟩⟩
        else .error (.panicked "capacity overflow")
      else .error (.failed (.fault .nameTooLong)) := by
  have hopen := openInRoot_plain hw hn hne hnames hr hnode
  simp only [Shelf.openEntry, hmount, hroot, hpath, hopen]
  by_cases hlen : placeLength (r ++ names) ≤ maxPath
  · simp only [if_pos hlen, hbody]
  · simp only [if_neg hlen]

end Opening

end MediaShelf
