import MediaShelf.Admission.Limiter
import MediaShelf.Failure

/-!
A limiter together with those who use it, by name. An asker may be called off by a token, or give
up. After every event each of those who wait asks for a slot once, the oldest first.
-/

namespace MediaShelf.Admission

/-- One who waits for a slot. -/
structure Waiter where
  name : String
  /-- The token that calls the wait off. -/
  token : String
  ticket : Ticket
  deriving DecidableEq, Repr

/-- A limiter and those who use it. -/
structure Desk where
  limiter : Limiter
  /-- The tokens that have fired. -/
  fired : List String
  /-- Those who wait, the oldest first. -/
  waiters : List Waiter
  /-- Those who have a slot. -/
  permits : List (String × Ticket)
  deriving DecidableEq, Repr

/-- What happens at a desk. -/
inductive DeskEvent where
  /-- Someone takes a slot if one is free. -/
  | attempt (name : String)
  /-- Someone starts to wait for a slot, until a token fires. -/
  | acquire (name token : String)
  /-- A slot is given back. -/
  | release (name : String)
  | cancel (token : String)
  /-- One who waits gives up. -/
  | abandon (name : String)
  deriving DecidableEq, Repr

/-- What an event is answered with. -/
inductive DeskReply where
  | granted
  | refused
  | started
  | released
  | cancelled
  | abandoned
  | unknown
  deriving DecidableEq, Repr

/-- What those who wait were told after an event, the oldest first. -/
structure Tidings where
  granted : List String
  failed : List (String × Failure)
  deriving DecidableEq, Repr

namespace Desk

/-- A desk with every slot free. -/
def ofLimiter (limiter : Limiter) : Desk := ⟨limiter, [], [], []⟩

/-- Gives the slot of a name back. -/
def giveBack (d : Desk) (name : String) : Desk :=
  match d.permits.lookup name with
  | none => d
  | some ticket =>
    { d with limiter := d.limiter.release ticket, permits := d.permits.erase (name, ticket) }

/-- Notes that a name has the slot of a ticket; a slot it had before is given back. -/
def keep (d : Desk) (name : String) (ticket : Ticket) : Desk :=
  let d := d.giveBack name
  { d with permits := (name, ticket) :: d.permits }

/-- Takes note of an event. A wait whose token has fired already draws no ticket. -/
def note (d : Desk) : DeskEvent → DeskReply × Tidings × Desk
  | .attempt name =>
    match d.limiter.tryAcquire with
    | (some ticket, limiter) => (.granted, ⟨[], []⟩, { d with limiter := limiter }.keep name ticket)
    | (none, _) => (.refused, ⟨[], []⟩, d)
  | .acquire name token =>
    if token ∈ d.fired then (.started, ⟨[], [(name, .admissionCancelled)]⟩, d)
    else
      let (ticket, limiter) := d.limiter.enter
      (.started, ⟨[], []⟩,
        { d with limiter := limiter, waiters := d.waiters ++ [⟨name, token, ticket⟩] })
  | .release name =>
    match d.permits.lookup name with
    | none => (.unknown, ⟨[], []⟩, d)
    | some _ => (.released, ⟨[], []⟩, d.giveBack name)
  | .cancel token => (.cancelled, ⟨[], []⟩, { d with fired := token :: d.fired })
  | .abandon name =>
    match d.waiters.find? (·.name = name) with
    | none => (.unknown, ⟨[], []⟩, d)
    | some waiter =>
      (.abandoned, ⟨[], []⟩,
        { d with
          limiter := d.limiter.leave waiter.ticket
          waiters := d.waiters.erase waiter })

/-- Lets one who waits ask for a slot. -/
def ask (d : Desk) (waiter : Waiter) : Tidings × Desk :=
  match d.limiter.poll waiter.ticket (waiter.token ∈ d.fired) with
  | (.granted, limiter) =>
    (⟨[waiter.name], []⟩,
      { d with limiter := limiter, waiters := d.waiters.erase waiter }.keep waiter.name
        waiter.ticket)
  | (.cancelled, limiter) =>
    (⟨[], [(waiter.name, .admissionCancelled)]⟩,
      { d with limiter := limiter, waiters := d.waiters.erase waiter })
  | (.waiting, _) => (⟨[], []⟩, d)

/-- Lets some of those who wait ask for a slot, one after the other. -/
def askAll (d : Desk) : List Waiter → Tidings × Desk
  | [] => (⟨[], []⟩, d)
  | waiter :: rest =>
    let (first, d) := d.ask waiter
    let (others, d) := askAll d rest
    (⟨first.granted ++ others.granted, first.failed ++ others.failed⟩, d)

/-- Takes note of an event, and lets everyone who waits ask for a slot. -/
def step (d : Desk) (event : DeskEvent) : DeskReply × Tidings × Desk :=
  let (reply, own, d) := d.note event
  let (tidings, d) := d.askAll d.waiters
  (reply, ⟨tidings.granted ++ own.granted, tidings.failed ++ own.failed⟩, d)

end Desk

end MediaShelf.Admission
