/-!
The slots of a volume. Everyone who wants a slot has a ticket. A slot that is given back goes to
the oldest waiting ticket at once, and is free only if nobody waits; who waits takes the slot when
next asking for it, unless the wait was called off by then.
-/

namespace MediaShelf.Admission

/-- What tells the askers apart. -/
abbrev Ticket := Nat

/-- The greatest number of slots. -/
def maxSlots : Nat := Nat.pow 2 61 - 1

/-- The slots of a volume and who has or wants one. -/
structure Limiter where
  capacity : Nat
  /-- The slots that nobody has and nobody was handed. -/
  free : Nat
  /-- Tickets without a slot, the oldest first. -/
  queue : List Ticket
  /-- Tickets that were handed a slot and have not taken it yet. -/
  assigned : List Ticket
  /-- Tickets that have a slot. -/
  holders : List Ticket
  /-- The ticket that is drawn next. -/
  next : Ticket
  deriving DecidableEq, Repr

/-- What asking for a slot gives. -/
inductive Reply where
  | granted
  | cancelled
  | waiting
  deriving DecidableEq, Repr

namespace Limiter

/-- A limiter with every slot free; a capacity of 0 counts as 1. -/
def ofCapacity (capacity : Nat) : Limiter :=
  ⟨max capacity 1, max capacity 1, [], [], [], 0⟩

/-- A limiter with every slot free, if there can be so many slots. -/
def ofCapacity? (capacity : Nat) : Option Limiter :=
  if capacity ≤ maxSlots then some (ofCapacity capacity) else none

/-- Takes a slot if one is free. -/
def tryAcquire (l : Limiter) : Option Ticket × Limiter :=
  if 0 < l.free then
    (some l.next,
      { l with free := l.free - 1, holders := l.holders ++ [l.next], next := l.next + 1 })
  else (none, l)

/-- Draws a ticket: it is handed a free slot if there is one, and else put behind all others. -/
def enter (l : Limiter) : Ticket × Limiter :=
  if 0 < l.free then
    (l.next,
      { l with free := l.free - 1, assigned := l.assigned ++ [l.next], next := l.next + 1 })
  else (l.next, { l with queue := l.queue ++ [l.next], next := l.next + 1 })

/-- Hands one slot on to the oldest waiting ticket; it becomes free if nobody waits. -/
def handOn (l : Limiter) : Limiter :=
  match l.queue with
  | [] => { l with free := l.free + 1 }
  | oldest :: rest => { l with queue := rest, assigned := l.assigned ++ [oldest] }

/-- Gives the slot of a ticket back. -/
def release (l : Limiter) (ticket : Ticket) : Limiter :=
  if ticket ∈ l.holders then { l with holders := l.holders.erase ticket }.handOn else l

/-- Takes a waiting ticket away; a slot that it was handed goes on to the next one. -/
def leave (l : Limiter) (ticket : Ticket) : Limiter :=
  if ticket ∈ l.queue then { l with queue := l.queue.erase ticket }
  else if ticket ∈ l.assigned then { l with assigned := l.assigned.erase ticket }.handOn
  else l

/-- Asks for the slot of a waiting ticket. A wait that was called off fails even if the ticket
was handed a slot. -/
def poll (l : Limiter) (ticket : Ticket) (cancelled : Bool) : Reply × Limiter :=
  if cancelled then (.cancelled, l.leave ticket)
  else if ticket ∈ l.assigned then
    (.granted, { l with assigned := l.assigned.erase ticket, holders := l.holders ++ [ticket] })
  else (.waiting, l)

/-- The slots that are had or handed out, and the free ones, are all the slots. -/
def Balanced (l : Limiter) : Prop :=
  l.free + l.assigned.length + l.holders.length = l.capacity

/-- A slot is free only if nobody waits. -/
def Served (l : Limiter) : Prop := l.free = 0 ∨ l.queue = []

theorem balanced_ofCapacity (n : Nat) : (ofCapacity n).Balanced := by
  simp [Balanced, ofCapacity]

theorem served_ofCapacity (n : Nat) : (ofCapacity n).Served := Or.inr rfl

theorem Balanced.tryAcquire {l : Limiter} (h : l.Balanced) : l.tryAcquire.2.Balanced := by
  unfold Limiter.tryAcquire
  split
  · simp only [Balanced, List.length_append, List.length_singleton] at *
    omega
  · exact h

theorem Balanced.enter {l : Limiter} (h : l.Balanced) : l.enter.2.Balanced := by
  unfold Limiter.enter
  split
  · simp only [Balanced, List.length_append, List.length_singleton] at *
    omega
  · exact h

end Limiter

end MediaShelf.Admission
