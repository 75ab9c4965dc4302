import MediaShelf.Server.Service
import MediaShelf.Shelf.Rescan

/-!
Running a service in time. Whatever can go on without the clock goes on first; then the clock
moves to the next moment at which a wait is given up or a scan is due. Scans of every mount are
made at the start of the scanner and then at a fixed interval.
-/

namespace MediaShelf.Server

open MediaShelf.Files
open MediaShelf.Http

/-- The background scanner: when it scans next. -/
structure Scanner where
  next : Nat
  deriving DecidableEq, Repr

/-- A service that runs in time, perhaps with a scanner. -/
structure Running where
  service : Service
  scanner : Option Scanner

namespace Service

/-- Lets the reader of a request work until it is over or waits for room. -/
def workOn (tree : Tree) (key : RequestKey) : (fuel : Nat) → Service → Service
  | 0, s => s
  | fuel + 1, s =>
    match s.phase? key with
    | some (.sending _ sending) =>
      if sending.transfer.canWork then workOn tree key fuel (work tree s key) else s
    | _ => s

/-- How often a reader can work before it waits for room: it fills the queue, twice one step for
each piece, and then reads once more, or gives up. -/
def workBound : Nat := 2 * queueDepth + 4

/-- Lets one request go on as far as it can. -/
def goOn (tree : Tree) (here : Place) (s : Service) (key : RequestKey) : Service :=
  workOn tree key workBound (poll tree here s key)

/-- Lets every request go on once, the oldest first. -/
def goRound (tree : Tree) (here : Place) (s : Service) : Service :=
  (s.requests.map (·.1)).foldl (goOn tree here) s

/-- Lets every request go on a number of times. -/
def goRounds (tree : Tree) (here : Place) : (rounds : Nat) → Service → Service
  | 0, s => s
  | rounds + 1, s => goRounds tree here rounds (goRound tree here s)

/-- Lets every request go on as far as it can without the clock. Each round that changes anything
ends a wait or a transfer, so there are at most two rounds for each request. -/
def settle (tree : Tree) (here : Place) (s : Service) : Service :=
  goRounds tree here (2 * s.requests.length + 1) s

/-- When the wait of a request is given up. -/
def deadline? : Phase → Option Nat
  | .waiting call => some call.deadline
  | _ => none

/-- The first moment at which a wait is given up. -/
def nextDeadline? (s : Service) : Option Nat :=
  (s.requests.filterMap fun (_, phase) => deadline? phase).min?

/-- Lets every request look at the clock. -/
def expireAll (tree : Tree) (here : Place) (s : Service) : Service :=
  (s.requests.map (·.1)).foldl (expire tree here) s

/-- Moves the clock to `goal`, stopping at each moment at which a wait is given up. -/
def advanceTo (tree : Tree) (here : Place) (goal : Nat) : (moments : Nat) → Service → Service
  | 0, s => { s with now := goal }
  | moments + 1, s =>
    match s.nextDeadline? with
    | none => { s with now := goal }
    | some moment =>
      if moment ≤ goal then
        let s := expireAll tree here { s with now := max s.now moment }
        advanceTo tree here goal moments (settle tree here s)
      else { s with now := goal }

/-- The pieces that a client gets when it takes one after the other until nothing more comes. -/
def drain (tree : Tree) (here : Place) (key : RequestKey) (soFar : List Bytes) :
    (fuel : Nat) → Service → Except Fault Bytes × Service
  | 0, s => (.ok soFar.reverse.flatten, s)
  | fuel + 1, s =>
    match (workOn tree key workBound s).receive key with
    | (none, s) => (.ok soFar.reverse.flatten, s)
    | (some (.bytes bytes), s) => drain tree here key (bytes :: soFar) fuel s
    | (some (.broken fault), s) => (.error fault, s)

/-- The body of an answer, read to its end; the request is then forgotten. Every piece but the
last one, which may tell of a fault, has at least one byte. -/
def takeBody (tree : Tree) (here : Place) (s : Service) (key : RequestKey) :
    Except Fault Bytes × Service :=
  match s.phase? key with
  | some (.sending _ sending) =>
    let transfer := sending.transfer
    let (outcome, s) :=
      drain tree here key [] (transfer.left + transfer.queue.length + 2) s
    (outcome, s.forget key)
  | some (.answered response) =>
    match response.body with
    | .whole bytes => (.ok bytes, s.forget key)
    | .span .. => (.ok [], s.forget key)
  | _ => (.ok [], s)

/-- The answer of a request, once there is one. -/
def response? (s : Service) (key : RequestKey) : Option Response :=
  match s.phase? key with
  | some (.answered response) => some response
  | some (.sending response _) => some response
  | _ => none

end Service

namespace Running

/-- A service without a scanner. -/
def ofService (service : Service) : Running := ⟨service, none⟩

/-- Changes the service. -/
def mapService (r : Running) (change : Service → Service) : Running :=
  { r with service := change r.service }

/-- The interval of the scanner: that of the shelf, but at least a millisecond. -/
def period (r : Running) : Nat := max r.service.shelf.rescanInterval 1

/-- Starts a scanner; its first scan is due at once. -/
def startScanning (r : Running) : Running := { r with scanner := some ⟨r.service.now⟩ }

/-- Stops the scanner; a scan that is due is not made any more. -/
def stopScanning (r : Running) : Running := { r with scanner := none }

/-- The first moment after `goal` at which a scan is due, given one at which it is. -/
def nextScan (period due goal : Nat) : Nat := due + ((goal - due) / period + 1) * period

/-- Makes the scans that are due up to `goal`. Those after the first would find what the first one
found, and change nothing, so one scan stands for them all. -/
def scanUpTo (tree : Tree) (here : Place) (goal : Nat) (r : Running) : Running :=
  match r.scanner with
  | none => r
  | some scanner =>
    if scanner.next ≤ goal then
      let (_, shelf) := r.service.shelf.scanAll tree here none
      { service := { r.service with shelf := shelf }
        scanner := some ⟨nextScan r.period scanner.next goal⟩ }
    else r

/-- Lets everything go on that needs no clock. -/
def settle (tree : Tree) (here : Place) (r : Running) : Running :=
  (scanUpTo tree here r.service.now r).mapService (Service.settle tree here)

/-- Lets time pass up to a moment. -/
def advanceTo (tree : Tree) (here : Place) (goal : Nat) (r : Running) : Running :=
  let r := (settle tree here r).mapService fun s =>
    Service.advanceTo tree here goal (s.requests.length + 1) s
  settle tree here (scanUpTo tree here goal r)

/-- Lets `milliseconds` pass. -/
def advance (tree : Tree) (here : Place) (milliseconds : Nat) (r : Running) : Running :=
  advanceTo tree here (r.service.now + milliseconds) r

/-- Lets time pass until a request has its answer, which is when its wait is given up at the
latest. -/
def await (tree : Tree) (here : Place) (key : RequestKey) (r : Running) : Running :=
  let r := settle tree here r
  match r.service.phase? key with
  | some (.waiting call) => advanceTo tree here (max call.deadline r.service.now) r
  | _ => r

end Running

end MediaShelf.Server
