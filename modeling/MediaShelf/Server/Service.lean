import MediaShelf.Server.Routes
import MediaShelf.Server.Transfer
import MediaShelf.Shelf.Opening

/-!
The requests that are under way. A request for a file waits for a slot of its volume, is answered,
and keeps the slot until its file was read to the end of the span or the client is gone. The
service changes by events, which may come in any order; the tree of files is given to each event,
because it may change in between.
-/

namespace MediaShelf.Server

open MediaShelf.Admission
open MediaShelf.Catalog
open MediaShelf.Files
open MediaShelf.Http

/-- What tells the requests apart. -/
abbrev RequestKey := Nat

/-- A request for a file that waits for a slot. -/
structure Call where
  request : Request
  entry : Entry
  ticket : Ticket
  /-- When the wait is given up. -/
  deadline : Nat

/-- A file that is being sent. -/
structure Sending where
  volume : VolumeId
  /-- The slot, which is had until the transfer is over. -/
  ticket : Ticket
  file : OpenFile
  transfer : Transfer

/-- How far a request has come. -/
inductive Phase where
  | waiting (call : Call)
  | answered (response : Response)
  | sending (response : Response) (sending : Sending)
  /-- It panicked, and the client was cut off without an answer. -/
  | crashed

/-- Someone else who has a slot. -/
structure Permit where
  name : String
  volume : VolumeId
  ticket : Ticket
  deriving DecidableEq

/-- What the server is run on. -/
structure Runtime where
  /-- The library that dates come from. -/
  calendar : Calendar
  /-- What is reported of a task that panicked with a message. -/
  panicText : String → String

/-- The answer to a request whose file is not opened. Files are opened by a task of their own, so
a panic there is a fault of the server to the request. -/
def Runtime.refusalOf (runtime : Runtime) : OpenFault → Response
  | .failed failure => .ofRefusal (.ofFailure failure)
  | .panicked message =>
    .ofRefusal (.internal ("spawn_blocking join error: " ++ runtime.panicText message))

/-- The server and what it has under way. -/
structure Service where
  runtime : Runtime
  shelf : Shelf
  /-- What the server calls itself where a client does not say. -/
  address : String
  /-- How long a request waits for a slot, in milliseconds. -/
  patience : Nat
  /-- The time, in milliseconds. -/
  now : Nat
  /-- Whether the server is shutting down. -/
  stopping : Bool
  requests : List (RequestKey × Phase)
  permits : List Permit

/-- What happens to a service. -/
inductive Event where
  | arrive (key : RequestKey) (request : Request)
  /-- A waiting request asks for its slot. -/
  | poll (key : RequestKey)
  /-- A waiting request looks at the clock. -/
  | expire (key : RequestKey)
  /-- The reader of a request does one thing. -/
  | work (key : RequestKey)
  /-- The client takes a piece. -/
  | receive (key : RequestKey)
  /-- The client goes away. -/
  | hangUp (key : RequestKey)
  | stop
  /-- Someone else takes a slot if one is free. -/
  | attempt (name : String) (volume : VolumeId)
  /-- Someone else gives a slot back. -/
  | giveBack (name : String)

namespace Service

/-- A service with nothing under way. -/
def ofShelf (runtime : Runtime) (shelf : Shelf) (address : String) (patience : Nat) : Service :=
  ⟨runtime, shelf, address, patience, 0, false, [], []⟩

/-- How far a request has come. -/
def phase? (s : Service) (key : RequestKey) : Option Phase := s.requests.lookup key

/-- Notes how far a request has come. -/
def setPhase (s : Service) (key : RequestKey) (phase : Phase) : Service :=
  if (s.phase? key).isSome then
    { s with
      requests := s.requests.map fun request =>
        if request.1 = key then (key, phase) else request }
  else { s with requests := s.requests ++ [(key, phase)] }

/-- Forgets a request. -/
def forget (s : Service) (key : RequestKey) : Service :=
  { s with requests := s.requests.filter (·.1 ≠ key) }

/-- Changes the limiter of a volume. -/
def changeLimiter (s : Service) (volume : VolumeId) (change : Limiter → Limiter) : Service :=
  { s with shelf := s.shelf.changeLimiter volume change }

/-- Gives a slot of a volume back. -/
def release (s : Service) (volume : VolumeId) (ticket : Ticket) : Service :=
  s.changeLimiter volume (·.release ticket)

/-- Answers a request. -/
def answer (s : Service) (key : RequestKey) (request : Request) (response : Response) : Service :=
  s.setPhase key (.answered (if request.isHead then response.withoutBody else response))

/-- The answer to a request that failed. -/
def refuse (s : Service) (key : RequestKey) (request : Request) (failure : Failure) : Service :=
  s.answer key request (.ofRefusal (.ofFailure failure))

/-- A request arrives. It is answered at once, or draws a ticket for a slot. Nobody draws a ticket
while the server is shutting down. -/
def arrive (s : Service) (key : RequestKey) (request : Request) : Service :=
  match judge s.shelf s.address request with
  | .answer response => s.answer key request response
  | .stream entry mount =>
    if s.stopping then s.refuse key request .admissionCancelled
    else
      let (ticket, limiter) := mount.limiter.enter
      (s.changeLimiter entry.volume fun _ => limiter).setPhase key
        (.waiting ⟨request, entry, ticket, s.now + s.patience⟩)

/-- Gets ready to send a span of a file: the reader goes to where the span starts. -/
def startTransfer (content : Bytes) (file : OpenFile) (offset length : Nat) :
    OpenFile × Transfer :=
  if offset = 0 then (file, .ofLength length)
  else
    match file.resource.seek content (.start offset) with
    | (.ok _, resource) => ({ file with resource := resource }, .ofLength length)
    | (.error fault, resource) =>
      ({ file with resource := resource }, (Transfer.ofLength length).onFault fault)

/-- Notes the state of a transfer; once it is over the file is closed and the slot given back. -/
def setSending (s : Service) (key : RequestKey) (response : Response) (sending : Sending) :
    Service :=
  if sending.transfer.isOver then
    let file := { sending.file with resource := sending.file.resource.close }
    (s.setPhase key (.sending response { sending with file := file })).release sending.volume
      sending.ticket
  else s.setPhase key (.sending response sending)

/-- Answers a request that has got its slot. The slot is kept only to send a file. A request that
panics gets no answer, and its slot falls free. -/
def serve (tree : Tree) (here : Place) (s : Service) (key : RequestKey) (call : Call) : Service :=
  let volume := call.entry.volume
  match s.shelf.openEntry tree here call.entry with
  | .error fault =>
    (s.answer key call.request (s.runtime.refusalOf fault)).release volume call.ticket
  | .ok file =>
    let metadata := file.resource.metadata
    match Response.ofFile? s.runtime.calendar call.request metadata.name metadata.size
        metadata.modified with
    | none => (s.setPhase key .crashed).release volume call.ticket
    | some response =>
      match response.body with
      | .whole _ => (s.answer key call.request response).release volume call.ticket
      | .span offset length =>
        let (file, transfer) := startTransfer (tree.contentOf file.number) file offset length
        s.setSending key response ⟨volume, call.ticket, file, transfer⟩

/-- A waiting request asks for its slot. -/
def poll (tree : Tree) (here : Place) (s : Service) (key : RequestKey) : Service :=
  match s.phase? key with
  | some (.waiting call) =>
    match s.shelf.mounts.find? call.entry.volume with
    | none => s
    | some mount =>
      match mount.limiter.poll call.ticket s.stopping with
      | (.granted, limiter) =>
        serve tree here (s.changeLimiter call.entry.volume fun _ => limiter) key call
      | (.cancelled, limiter) =>
        (s.changeLimiter call.entry.volume fun _ => limiter).refuse key call.request
          .admissionCancelled
      | (.waiting, _) => s
  | _ => s

/-- A waiting request that does not get its slot even now is turned away if its time is up. -/
def expire (tree : Tree) (here : Place) (s : Service) (key : RequestKey) : Service :=
  let s := poll tree here s key
  match s.phase? key with
  | some (.waiting call) =>
    if call.deadline ≤ s.now then
      (s.changeLimiter call.entry.volume (·.leave call.ticket)).answer key call.request
        (.ofRefusal .busy)
    else s
  | _ => s

/-- The reader of a request reads a piece, or puts the piece that it holds into the queue. -/
def work (tree : Tree) (s : Service) (key : RequestKey) : Service :=
  match s.phase? key with
  | some (.sending response sending) =>
    let transfer := sending.transfer
    match transfer.stage with
    | .over => s
    | .reading =>
      let file := sending.file
      let (outcome, resource) :=
        file.resource.read (tree.contentOf file.number) transfer.wanted
      s.setSending key response
        { sending with
          file := { file with resource := resource }
          transfer := transfer.onRead outcome }
    | .holding _ => s.setSending key response { sending with transfer := transfer.enqueue }
  | _ => s

/-- The client takes a piece of its answer. -/
def receive (s : Service) (key : RequestKey) : Option Piece × Service :=
  match s.phase? key with
  | some (.sending response sending) =>
    let (piece, transfer) := sending.transfer.receive
    (piece, s.setPhase key (.sending response { sending with transfer := transfer }))
  | _ => (none, s)

/-- The client goes away. A request that still waits gives its place up. -/
def hangUp (s : Service) (key : RequestKey) : Service :=
  match s.phase? key with
  | some (.waiting call) =>
    (s.changeLimiter call.entry.volume (·.leave call.ticket)).forget key
  | some (.answered _) => s.forget key
  | some .crashed => s.forget key
  | some (.sending response sending) =>
    if sending.transfer.isOver then s.forget key
    else
      s.setPhase key (.sending response { sending with transfer := sending.transfer.hangUp })
  | none => s

/-- Gives back the slot that someone has under a name. -/
def giveBack (s : Service) (name : String) : Service :=
  match s.permits.find? (·.name = name) with
  | none => s
  | some permit =>
    { s with permits := s.permits.erase permit }.release permit.volume permit.ticket

/-- Someone takes a slot if one is free; a slot had under the same name is given back then. -/
def attempt (s : Service) (name : String) (volume : VolumeId) : Bool × Service :=
  match s.shelf.mounts.find? volume with
  | none => (false, s)
  | some mount =>
    match mount.limiter.tryAcquire with
    | (none, _) => (false, s)
    | (some ticket, limiter) =>
      let s := (s.changeLimiter volume fun _ => limiter).giveBack name
      (true, { s with permits := s.permits ++ [⟨name, volume, ticket⟩] })

/-- The service after an event. A key is used for one request only. -/
def step (tree : Tree) (here : Place) (s : Service) : Event → Service
  | .arrive key request => if (s.phase? key).isSome then s else s.arrive key request
  | .poll key => poll tree here s key
  | .expire key => expire tree here s key
  | .work key => work tree s key
  | .receive key => (s.receive key).2
  | .hangUp key => s.hangUp key
  | .stop => { s with stopping := true }
  | .attempt name volume => (s.attempt name volume).2
  | .giveBack name => s.giveBack name

end Service

end MediaShelf.Server
