import MediaShelf.Proofs.Server.Phases

/-!
# Requests that open their files

In a service a request that gets its slot opens its file and is answered at once. Here these are two
moves, between which other things may happen: others ask for slots, the server shuts down, or the
client goes away; and opening and reading may fail in any way. Every event of a service is some of
these moves, one right after the other (`Handling.after_eventMoves`), so that what holds after any
moves holds after any events.
-/

namespace MediaShelf.Server

open MediaShelf.Admission
open MediaShelf.Catalog
open MediaShelf.Files
open MediaShelf.Http

/-- A service, some of whose waiting requests have their slots already. -/
structure Handling where
  service : Service
  /-- The requests that have their slots and have not opened their files yet. -/
  opening : List RequestKey

namespace Handling

/-- What may happen next. -/
inductive Move where
  /-- Something happens as in a service, but a request that gets its slot does nothing more. -/
  | event (event : Event)
  /-- A request that has its slot opens its file, and is answered. -/
  | openFile (key : RequestKey)
  /-- Its file cannot be opened. -/
  | openFails (key : RequestKey) (failure : Failure)
  /-- A file that is being sent cannot be read. -/
  | readFails (key : RequestKey) (fault : Fault)
  /-- Others change the catalog in some way. -/
  | recatalog (registry : Registry) (ids : IdSource)
  /-- Time passes, in milliseconds. -/
  | pass (time : Nat)

/-- Changes the service. -/
def mapService (h : Handling) (change : Service → Service) : Handling :=
  { h with service := change h.service }

/-- The call of a request that waits for its slot. -/
def waiting? (h : Handling) (key : RequestKey) : Option Call :=
  match h.service.phase? key with
  | some (.waiting call) => if key ∈ h.opening then none else some call
  | _ => none

/-- The call of a request that has its slot and has not opened its file yet. -/
def opening? (h : Handling) (key : RequestKey) : Option Call :=
  match h.service.phase? key with
  | some (.waiting call) => if key ∈ h.opening then some call else none
  | _ => none

/-- A waiting request asks for its slot. -/
def ask (h : Handling) (key : RequestKey) : Handling :=
  match h.waiting? key with
  | none => h
  | some call =>
    match h.service.shelf.mounts.find? call.entry.volume with
    | none => h
    | some mount =>
      match mount.limiter.poll call.ticket h.service.stopping with
      | (.granted, limiter) =>
        ⟨h.service.changeLimiter call.entry.volume fun _ => limiter, key :: h.opening⟩
      | (.cancelled, limiter) => h.mapService fun s =>
        (s.changeLimiter call.entry.volume fun _ => limiter).refuse key call.request
          .admissionCancelled
      | (.waiting, _) => h

/-- A waiting request that does not get its slot even now is turned away if its time is up. -/
def expire (h : Handling) (key : RequestKey) : Handling :=
  let h := h.ask key
  match h.waiting? key with
  | none => h
  | some call =>
    if call.deadline ≤ h.service.now then h.mapService fun s =>
      (s.changeLimiter call.entry.volume (·.leave call.ticket)).answer key call.request
        (.ofRefusal .busy)
    else h

/-- The client goes away. A request that has its slot but not its file gives the slot back. -/
def hangUp (h : Handling) (key : RequestKey) : Handling :=
  match h.opening? key with
  | none => h.mapService (·.hangUp key)
  | some call =>
    ⟨(h.service.release call.entry.volume call.ticket).forget key, h.opening.filter (· ≠ key)⟩

/-- Notes what came of opening the file of a request. -/
def finish (h : Handling) (key : RequestKey) (serve : Call → Service) : Handling :=
  match h.opening? key with
  | none => h
  | some call => ⟨serve call, h.opening.filter (· ≠ key)⟩

/-- A file that is being sent cannot be read. -/
def readFails (s : Service) (key : RequestKey) (fault : Fault) : Service :=
  match s.phase? key with
  | some (.sending response sending) =>
    if sending.transfer.isOver then s
    else
      s.setSending key response { sending with transfer := sending.transfer.onRead (.error fault) }
  | _ => s

/-- The next thing happens. -/
def move (tree : Tree) (here : Place) (h : Handling) : Move → Handling
  | .event (.poll key) => h.ask key
  | .event (.expire key) => h.expire key
  | .event (.hangUp key) => h.hangUp key
  | .event event => h.mapService fun s => Service.step tree here s event
  | .openFile key => h.finish key (Service.serve tree here h.service key)
  | .openFails key failure => h.finish key fun call =>
    (h.service.refuse key call.request failure).release call.entry.volume call.ticket
  | .readFails key fault => h.mapService (readFails · key fault)
  | .recatalog registry ids => h.mapService fun s =>
    { s with shelf := { s.shelf with registry := registry, ids := ids } }
  | .pass time => h.mapService fun s => { s with now := s.now + time }

/-- What becomes of it after some moves, and the tree that there is at each. -/
def after (here : Place) (h : Handling) : List (Tree × Move) → Handling
  | [] => h
  | (tree, m) :: rest => after here (h.move tree here m) rest

/-- The moves that an event of a service consists of. -/
def eventMoves : Event → List Move
  | .poll key => [.event (.poll key), .openFile key]
  | .expire key => [.event (.expire key), .openFile key]
  | event => [.event event]

/-! ## Events are moves -/

section Calls

variable {h : Handling} {key : RequestKey} {call : Call}

theorem waiting?_eq_some : h.waiting? key = some call ↔
    h.service.phase? key = some (.waiting call) ∧ key ∉ h.opening := by
  unfold waiting?
  split
  case h_1 other hphase =>
    rw [hphase]
    split
    · simp [*]
    · simp [*]
  case h_2 hnot =>
    exact iff_of_false nofun fun hwaits => hnot call hwaits.1

theorem opening?_eq_some : h.opening? key = some call ↔
    h.service.phase? key = some (.waiting call) ∧ key ∈ h.opening := by
  unfold opening?
  split
  case h_1 other hphase =>
    rw [hphase]
    split
    · simp [*]
    · simp [*]
  case h_2 hnot =>
    exact iff_of_false nofun fun hwaits => hnot call hwaits.1

theorem opening?_of_not_mem (hnot : key ∉ h.opening) : h.opening? key = none :=
  Option.eq_none_iff_forall_ne_some.mpr fun _ hsome => hnot (opening?_eq_some.mp hsome).2

theorem finish_of_not_mem (hnot : key ∉ h.opening) (serve : Call → Service) :
    h.finish key serve = h := by
  unfold finish
  rw [opening?_of_not_mem hnot]

theorem finish_of_opening (hopening : h.opening? key = some call) (serve : Call → Service) :
    h.finish key serve = ⟨serve call, h.opening.filter (· ≠ key)⟩ := by
  unfold finish
  rw [hopening]

end Calls

section Events

variable {tree : Tree} {here : Place} {s : Service} {key : RequestKey}

/-- With nobody opening a file, those wait who are noted to wait. -/
theorem not_waiting_of_nobody (h : (⟨s, []⟩ : Handling).waiting? key = none) (call : Call) :
    s.phase? key ≠ some (.waiting call) := by
  intro hphase
  rw [waiting?_eq_some.mpr ⟨hphase, List.not_mem_nil⟩] at h
  cases h

/-- In a service with nobody opening a file, asking for a slot leaves all as it is, gets the slot,
or is refused. -/
theorem ask_cases (tree : Tree) (here : Place) (s : Service) (key : RequestKey) :
    ((⟨s, []⟩ : Handling).ask key = ⟨s, []⟩ ∧ Service.poll tree here s key = s) ∨
    (∃ next call, next.phase? key = some (.waiting call) ∧
      (⟨s, []⟩ : Handling).ask key = ⟨next, [key]⟩ ∧
      Service.poll tree here s key = Service.serve tree here next key call) ∨
    ∃ next response, next.phase? key = some (.answered response) ∧
      (⟨s, []⟩ : Handling).ask key = ⟨next, []⟩ ∧ Service.poll tree here s key = next := by
  cases hwaits : (⟨s, []⟩ : Handling).waiting? key with
  | none =>
    refine .inl ⟨by simp only [ask, hwaits], ?_⟩
    unfold Service.poll
    split
    case h_1 call hphase => exact absurd hphase (not_waiting_of_nobody hwaits call)
    case h_2 => rfl
  | some call =>
    have hphase : s.phase? key = some (.waiting call) := (waiting?_eq_some.mp hwaits).1
    simp only [ask, hwaits, Service.poll, hphase]
    cases hmount : s.shelf.mounts.find? call.entry.volume with
    | none => exact .inl ⟨rfl, rfl⟩
    | some mount =>
      simp only
      obtain ⟨admission, limiter⟩ := mount.limiter.poll call.ticket s.stopping
      cases admission with
      | granted =>
        refine .inr (.inl ⟨s.changeLimiter call.entry.volume fun _ => limiter, call, ?_, rfl, rfl⟩)
        exact hphase
      | cancelled => exact .inr (.inr ⟨_, _, Service.phase?_answer_self _ _, rfl, rfl⟩)
      | waiting => exact .inl ⟨rfl, rfl⟩

theorem finish_opened {call : Call} (hphase : s.phase? key = some (.waiting call))
    (serve : Call → Service) : (⟨s, [key]⟩ : Handling).finish key serve = ⟨serve call, []⟩ := by
  have hopening : (⟨s, [key]⟩ : Handling).opening? key = some call :=
    opening?_eq_some.mpr ⟨hphase, List.mem_singleton_self key⟩
  rw [finish_of_opening hopening, List.filter_cons_of_neg (by simp)]
  rfl

theorem finish_expire : ((⟨s, []⟩ : Handling).expire key).finish key
    (Service.serve tree here ((⟨s, []⟩ : Handling).expire key).service key) =
      ⟨Service.expire tree here s key, []⟩ := by
  have hnone : ∀ s' serve, (⟨s', []⟩ : Handling).finish key serve = ⟨s', []⟩ :=
    fun _ serve => finish_of_not_mem List.not_mem_nil serve
  rcases ask_cases tree here s key with ⟨hask, hpoll⟩ | ⟨next, call, hphase, hask, hpoll⟩ |
    ⟨next, response, hphase, hask, hpoll⟩
  · -- the request is where it was, and looks at the clock
    simp only [expire, hask, Service.expire, hpoll]
    cases hwaits : (⟨s, []⟩ : Handling).waiting? key with
    | none =>
      simp only [hnone]
      split
      case h_1 call hphase => exact absurd hphase (not_waiting_of_nobody hwaits call)
      case h_2 => rfl
    | some call =>
      have hphase : s.phase? key = some (.waiting call) := (waiting?_eq_some.mp hwaits).1
      simp only [hphase]
      by_cases hlate : call.deadline ≤ s.now
      · rw [if_pos hlate, if_pos hlate]
        exact hnone _ _
      · rw [if_neg hlate, if_neg hlate]
        exact hnone _ _
  · have hwaits : (⟨next, [key]⟩ : Handling).waiting? key = none :=
      Option.eq_none_iff_forall_ne_some.mpr fun _ hsome =>
        (waiting?_eq_some.mp hsome).2 (List.mem_singleton_self key)
    simp only [expire, hask, hwaits, Service.expire, hpoll, finish_opened hphase]
    split
    case h_1 other hother => exact absurd hother (Service.serve_not_waiting call other)
    case h_2 => rfl
  · have hwaits : (⟨next, []⟩ : Handling).waiting? key = none := by
      refine Option.eq_none_iff_forall_ne_some.mpr fun call hsome => ?_
      have hwaiting : next.phase? key = some (.waiting call) := (waiting?_eq_some.mp hsome).1
      rw [hphase] at hwaiting
      cases hwaiting
    simp only [expire, hask, hwaits, Service.expire, hpoll, hphase, hnone]

/-- An event of a service is some moves. -/
theorem after_eventMoves (tree : Tree) (here : Place) (s : Service) (event : Event) :
    (⟨s, []⟩ : Handling).after here ((eventMoves event).map fun m => (tree, m)) =
      ⟨Service.step tree here s event, []⟩ := by
  cases event with
  | poll key =>
    show ((⟨s, []⟩ : Handling).ask key).finish key
      (Service.serve tree here ((⟨s, []⟩ : Handling).ask key).service key) =
        ⟨Service.poll tree here s key, []⟩
    rcases ask_cases tree here s key with ⟨hask, hpoll⟩ | ⟨next, call, hphase, hask, hpoll⟩ |
      ⟨next, response, hphase, hask, hpoll⟩
    · rw [hask, hpoll]
      exact finish_of_not_mem List.not_mem_nil _
    · rw [hask, hpoll]
      exact finish_opened hphase _
    · rw [hask, hpoll]
      exact finish_of_not_mem List.not_mem_nil _
  | expire key => exact finish_expire
  | hangUp key =>
    show (⟨s, []⟩ : Handling).hangUp key = ⟨s.hangUp key, []⟩
    unfold hangUp
    rw [opening?_of_not_mem List.not_mem_nil]
    rfl
  | arrive | work | receive | stop | attempt | giveBack => rfl

end Events

end Handling

end MediaShelf.Server
