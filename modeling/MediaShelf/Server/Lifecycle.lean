import MediaShelf.Server.Address
import MediaShelf.Shelf.Scanner

/-!
The run of a server from its start to its end. The scanner is started before the port is bound;
from then on the run ends when binding fails, when the server task ends, or when open connections
have had their time after a shutdown. A run that ends in good order calls the scanner off and waits
for it.
-/

namespace MediaShelf.Server

open MediaShelf.Files

/-- Why a run of the server fails. -/
inductive RunFault where
  | badAddress
  | cannotBind (address : SocketAddress) (fault : Fault)
  | serverFailed (fault : Fault)
  | serverPanicked
  deriving DecidableEq

/-- The outermost message of a fault. -/
def RunFault.message : RunFault → String
  | badAddress => "Invalid server address"
  | cannotBind address _ => "Failed to bind to " ++ address.toText
  | serverFailed fault => fault.text
  | serverPanicked => "Server task failed"

/-- How far a run has come. -/
inductive RunStage where
  | binding (address : SocketAddress)
  | serving
  /-- The server has ended, and the scanner is waited for. -/
  | winding
  | returned (outcome : Except RunFault Unit)

/-- A run of the server. -/
structure Run where
  stage : RunStage
  /-- Whether the shutdown token has been cancelled. -/
  cancelled : Bool
  scanner : ScannerPhase
  shelf : Shelf

/-- How the server task ends. -/
inductive ServerEnd where
  /-- Every connection has come to its end after a shutdown. -/
  | drained
  | failed (fault : Fault)
  | panicked

/-- What happens in a run. -/
inductive RunEvent where
  | bound
  | bindFailed (fault : Fault)
  /-- A signal, or someone outside, cancels the token. -/
  | cancel
  | scanner (event : ScannerEvent)
  | serverEnds (ending : ServerEnd)
  /-- Open connections have had their time. -/
  | graceOver

namespace Run

/-- The start of a run: the address is read, and the scanner is started. -/
def start (shelf : Shelf) (cancelled : Bool) (address : String) : Run :=
  match SocketAddress.parse? address with
  | none => ⟨.returned (.error .badAddress), cancelled, .unstarted, shelf⟩
  | some address => ⟨.binding address, cancelled, .resting, shelf⟩

/-- Whether a run has ended. -/
def isOver (r : Run) : Bool :=
  match r.stage with
  | .returned _ => true
  | _ => false

/-- A run that has waited for the scanner returns. -/
def settle (r : Run) : Run :=
  match r.stage, r.scanner with
  | .winding, .stopped => { r with stage := .returned (.ok ()) }
  | _, _ => r

/-- Ends a run whose server has ended in good order: the token is cancelled, and the run returns
once the scanner has stopped. -/
def windDown (r : Run) : Run := { r with cancelled := true, stage := .winding }.settle

/-- Ends a run at once. -/
def fail (r : Run) (fault : RunFault) : Run := { r with stage := .returned (.error fault) }

/-- The run after an event. Events that cannot happen at a stage change nothing. -/
def step (r : Run) : RunEvent → Run
  | .cancel => { r with cancelled := true }
  | .scanner event =>
    let (scanner, shelf) := r.scanner.step r.cancelled r.shelf event
    { r with scanner := scanner, shelf := shelf }.settle
  | .bound =>
    match r.stage with
    | .binding _ => { r with stage := .serving }
    | _ => r
  | .bindFailed fault =>
    match r.stage with
    | .binding address => r.fail (.cannotBind address fault)
    | _ => r
  | .serverEnds ending =>
    match r.stage, ending with
    | .serving, .drained => r.windDown
    | .serving, .failed fault => r.fail (.serverFailed fault)
    | .serving, .panicked => r.fail .serverPanicked
    | _, _ => r
  | .graceOver =>
    match r.stage with
    | .serving => if r.cancelled then r.windDown else r
    | _ => r

/-- The run after some events. -/
def after (r : Run) (events : List RunEvent) : Run := events.foldl step r

end Run

end MediaShelf.Server
