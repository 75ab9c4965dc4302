import MediaShelf.Proofs.Http.ExactAnswer
import MediaShelf.Proofs.Server.Phases

/-!
# An answer under way

A request that has its answer keeps it through all that happens to the service, and the pieces that its
client takes make up the first part of the bytes that belong to the answer (`Underway.after`). A client
that takes one piece after the other gets the rest of them and then the end (`Underway.takeBody`).
-/

namespace MediaShelf.Server

open MediaShelf.Catalog
open MediaShelf.Files
open MediaShelf.Http
open MediaShelf.Resource

namespace Service

/-! ## Runs -/

/-- A service after some actions, and the tree that there is at each. -/
def after (here : Place) (s : Service) : List (Tree × Action) → Service
  | [] => s
  | (tree, action) :: rest => after here (perform tree here s action).2 rest

/-- The pieces that the client of a request takes by an action. -/
def piecesOf (s : Service) (key : RequestKey) : Action → List Piece
  | .event (.receive other) => if other = key then (s.receive key).1.toList else []
  | _ => []

/-- The pieces that the client of a request takes by some actions. -/
def taken (here : Place) (s : Service) (key : RequestKey) : List (Tree × Action) → List Piece
  | [] => []
  | (tree, action) :: rest =>
    s.piecesOf key action ++ taken here (perform tree here s action).2 key rest

variable {tree : Tree} {here : Place} {s : Service} {key : RequestKey} {action : Action}

/-- What is not done to a request leaves it as it is. -/
theorem phase?_perform_of_ne (h : ∀ event, action = .event event → event.key? ≠ some key) :
    (perform tree here s action).2.phase? key = s.phase? key := by
  cases action with
  | event event => exact phase?_step_of_ne (h event rfl)
  | add | scanAll | listFiles | openFile | pass => rfl

theorem piecesOf_of_ne (h : ∀ event, action = .event event → event.key? ≠ some key) :
    s.piecesOf key action = [] := by
  cases action with
  | event event =>
    cases event with
    | receive other =>
      unfold piecesOf
      exact if_neg fun heq => h _ rfl (congrArg some heq)
    | arrive | poll | expire | work | hangUp | stop | attempt | giveBack => rfl
  | add | scanAll | listFiles | openFile | pass => rfl

/-! ## Waiting -/

theorem went_perform (hsome : (s.phase? key).isSome) (hstays : action ≠ .event (.hangUp key)) :
    s.Went (perform tree here s action).2 key := by
  cases action with
  | event event => exact went_step hsome fun heq => hstays (congrArg Action.event heq)
  | add | scanAll | listFiles | openFile | pass => exact .inl rfl

/-- A request that waits at the end has waited from the start. -/
theorem waiting_of_after {moves : List (Tree × Action)} (hsome : (s.phase? key).isSome)
    (hstays : ∀ move ∈ moves, move.2 ≠ .event (.hangUp key)) {call : Call}
    (hwaits : (s.after here moves).phase? key = some (.waiting call)) :
    s.phase? key = some (.waiting call) := by
  induction moves generalizing s with
  | nil => exact hwaits
  | cons move rest ih =>
    obtain ⟨tree, action⟩ := move
    rw [List.forall_mem_cons] at hstays
    have hwent : s.Went (perform tree here s action).2 key := went_perform hsome hstays.1
    rcases hwent with hsame | ⟨phase, hphase, hnot⟩
    · rw [← hsame] at hsome ⊢
      exact ih hsome hstays.2 hwaits
    · have hnext : (perform tree here s action).2.phase? key = some (.waiting call) :=
        ih (by rw [hphase]; rfl) hstays.2 hwaits
      rw [hphase] at hnext
      exact absurd (Option.some.inj hnext) (hnot call)

/-- A service that is run on the same, opens files alike and has the same volumes. -/
structure SameGround (s s' : Service) : Prop where
  runtime : s'.runtime = s.runtime
  mode : s'.shelf.mode = s.shelf.mode
  bufferSize : s'.shelf.bufferSize = s.shelf.bufferSize
  volumes : s'.shelf.mounts.map (·.volume) = s.shelf.mounts.map (·.volume)

theorem SameGround.refl (s : Service) : s.SameGround s := ⟨rfl, rfl, rfl, rfl⟩

theorem SameGround.trans {s' s'' : Service} (h : s.SameGround s') (h' : s'.SameGround s'') :
    s.SameGround s'' :=
  ⟨h'.runtime.trans h.runtime, h'.mode.trans h.mode, h'.bufferSize.trans h.bufferSize,
    h'.volumes.trans h.volumes⟩

theorem Keeps.sameGround {s' : Service} (h : s.Keeps s') : s.SameGround s' :=
  ⟨h.runtime, h.shelf.opens_eq.1, h.shelf.opens_eq.2, h.shelf.volumes_eq⟩

/-- Files may be added and the shelf scanned. -/
theorem sameGround_perform (action : Action) :
    s.SameGround (perform tree here s action).2 := by
  cases action with
  | event event => exact (keeps_step event).sameGround
  | add | scanAll | listFiles | openFile | pass => exact ⟨rfl, rfl, rfl, rfl⟩

theorem sameGround_after (moves : List (Tree × Action)) : s.SameGround (s.after here moves) := by
  induction moves generalizing s with
  | nil => exact .refl s
  | cons move rest ih => exact (sameGround_perform move.2).trans ih

end Service

/-! ## While a file is sent -/

/-- A request has its answer, and of the bytes that belong to it the client has taken some. -/
inductive Underway (number : FileNumber) (content bytes : Bytes) (response : Response)
    (key : RequestKey) (s : Service) (got : Bytes) : Prop
  | answered (hphase : s.phase? key = some (.answered response)) (hbody : response.body = .whole [])
      (hbytes : bytes = []) (hgot : got = [])
  | sending {x : Sending} {offset length : Nat} (hphase : s.phase? key = some (.sending response x))
      (hdelivers : x.Delivers number content offset length got)
      (hspan : offset + length ≤ content.length)
      (hbytes : bytes = (content.drop offset).take length)

section Underway

variable {number : FileNumber} {content bytes got : Bytes} {response : Response} {key : RequestKey}
  {s next : Service} {tree : Tree} {here : Place}

theorem Underway.response?_eq (h : Underway number content bytes response key s got) :
    s.response? key = some response := by
  cases h with
  | answered hphase => simp only [Service.response?, hphase]
  | sending hphase => simp only [Service.response?, hphase]

theorem Underway.congr (h : Underway number content bytes response key s got)
    (hphase : next.phase? key = s.phase? key) :
    Underway number content bytes response key next got := by
  cases h with
  | answered hanswered hbody hbytes hgot =>
    exact .answered (hphase.trans hanswered) hbody hbytes hgot
  | sending hsending hdelivers hspan hbytes =>
    exact .sending (hphase.trans hsending) hdelivers hspan hbytes

/-- The client may take nothing. -/
theorem Underway.idle (h : Underway number content bytes response key s got) :
    ∃ more : List Bytes, [] = more.map Piece.bytes ∧
      Underway number content bytes response key s (got ++ more.flatten) := by
  refine ⟨[], rfl, ?_⟩
  rw [List.flatten_nil, List.append_nil]
  exact h

/-- The client takes a piece of the file, if there is one for it. -/
theorem underway_receive {x : Sending} {offset length : Nat}
    (hphase : s.phase? key = some (.sending response x))
    (hdelivers : x.Delivers number content offset length got)
    (hspan : offset + length ≤ content.length) :
    ∃ more : List Bytes, (s.receive key).1.toList = more.map .bytes ∧
      Underway number content ((content.drop offset).take length) response key (s.receive key).2
        (got ++ more.flatten) := by
  obtain ⟨hpiece, hnext⟩ := Service.receive_sending hphase
  rw [hpiece]
  cases hqueue : x.transfer.queue with
  | nil =>
    rw [Transfer.receive_nil hqueue] at hnext ⊢
    exact (Underway.sending hnext hdelivers hspan rfl).idle
  | cons piece rest =>
    obtain ⟨first, hreceive, hrest⟩ := hdelivers.delivering.receive hqueue
    rw [hreceive] at hnext ⊢
    refine ⟨[first], rfl, .sending hnext ⟨hdelivers.number, ?_⟩ hspan rfl⟩
    rw [List.flatten_singleton]
    exact hrest

/-- What happens to a request that has its answer. -/
theorem Underway.event (h : Underway number content bytes response key s got)
    (hc : content.length ≤ maxPosition) (htree : tree.contentOf number = content) {event : Event}
    (hkey : event.key? = some key) (hstays : event ≠ .hangUp key) :
    ∃ more : List Bytes, s.piecesOf key (.event event) = more.map .bytes ∧
      Underway number content bytes response key (Service.step tree here s event)
        (got ++ more.flatten) := by
  cases h with
  | answered hphase hbody hbytes hgot =>
    have hpieces : s.piecesOf key (.event event) = [] := by
      cases event with
      | receive other =>
        cases hkey
        simp only [Service.piecesOf, if_true, Service.receive, hphase, Option.toList_none]
      | arrive | poll | expire | work | hangUp | stop | attempt | giveBack => rfl
    rw [hpieces, Service.step_of_answered hphase hkey hstays]
    exact (Underway.answered hphase hbody hbytes hgot).idle
  | @sending x offset length hphase hdelivers hspan hbytes =>
    subst hbytes
    have hsame : Underway number content ((content.drop offset).take length) response key s got :=
      .sending hphase hdelivers hspan rfl
    cases event with
    | arrive other request =>
      cases hkey
      simp only [Service.step, hphase, Option.isSome_some, if_true]
      exact hsame.idle
    | poll other =>
      cases hkey
      rw [Service.step, Service.poll_of_sending hphase]
      exact hsame.idle
    | expire other =>
      cases hkey
      rw [Service.step, Service.expire_of_sending hphase]
      exact hsame.idle
    | work other =>
      cases hkey
      have hworked : (x.worked tree).Delivers number content offset length got :=
        hdelivers.worked hspan hc htree
      exact (Underway.sending (Service.phase?_work hphase) hworked hspan rfl).idle
    | receive other =>
      cases hkey
      simp only [Service.piecesOf, if_true]
      exact underway_receive hphase hdelivers hspan
    | hangUp other =>
      cases hkey
      exact absurd rfl hstays
    | stop => cases hkey
    | attempt name volume => cases hkey
    | giveBack name => cases hkey

/-- Whatever is done, the client of a request takes bytes that belong to its answer. -/
theorem Underway.perform (h : Underway number content bytes response key s got)
    (hc : content.length ≤ maxPosition) (htree : tree.contentOf number = content) {action : Action}
    (hstays : action ≠ .event (.hangUp key)) :
    ∃ more : List Bytes, s.piecesOf key action = more.map .bytes ∧
      Underway number content bytes response key (Service.perform tree here s action).2
        (got ++ more.flatten) := by
  by_cases hother : ∀ event, action = .event event → event.key? ≠ some key
  · rw [Service.piecesOf_of_ne hother]
    exact (h.congr (Service.phase?_perform_of_ne hother)).idle
  · push Not at hother
    obtain ⟨event, rfl, hkey⟩ := hother
    exact h.event hc htree hkey fun heq => hstays (congrArg Action.event heq)

/-- And so it goes on. -/
theorem Underway.after (h : Underway number content bytes response key s got)
    (hc : content.length ≤ maxPosition) {moves : List (Tree × Action)}
    (htrees : ∀ move ∈ moves, move.1.contentOf number = content)
    (hstays : ∀ move ∈ moves, move.2 ≠ .event (.hangUp key)) :
    ∃ more : List Bytes, s.taken here key moves = more.map .bytes ∧
      Underway number content bytes response key (s.after here moves) (got ++ more.flatten) := by
  induction moves generalizing s got with
  | nil => exact h.idle
  | cons move rest ih =>
    obtain ⟨tree, action⟩ := move
    rw [List.forall_mem_cons] at htrees hstays
    obtain ⟨first, hfirst, hnext⟩ : ∃ first : List Bytes, s.piecesOf key action = first.map .bytes ∧
        Underway number content bytes response key (Service.perform tree here s action).2
          (got ++ first.flatten) := h.perform hc htrees.1 hstays.1
    obtain ⟨more, hmore, hlast⟩ := ih hnext htrees.2 hstays.2
    refine ⟨first ++ more, ?_, ?_⟩
    · rw [Service.taken, hfirst, hmore, List.map_append]
    · rw [List.flatten_append, ← List.append_assoc]
      exact hlast

/-! ## Taking the rest -/

/-- A client that takes all that there is gets the rest of the span. -/
theorem drain_delivers {x : Sending} {offset length fuel : Nat} (soFar : List Bytes)
    (hphase : s.phase? key = some (.sending response x))
    (hdelivers : x.Delivers number content offset length got)
    (hspan : offset + length ≤ content.length) (hc : content.length ≤ maxPosition)
    (htree : tree.contentOf number = content) (hfuel : x.pending < fuel) :
    ∃ rest, (Service.drain tree here key soFar fuel s).1 = .ok (soFar.reverse.flatten ++ rest) ∧
      got ++ rest = (content.drop offset).take length := by
  induction fuel generalizing s x got soFar with
  | zero => exact absurd hfuel (Nat.not_lt_zero _)
  | succ fuel ih =>
    have hworked : (Service.workOn tree key Service.workBound s).phase? key =
        some (.sending response (x.workedOn tree Service.workBound)) :=
      Service.phase?_workOn hphase _
    obtain ⟨hkept, hpending, -⟩ := hdelivers.workedOn hspan hc htree Service.workBound
    have htakes : (x.workedOn tree Service.workBound).transfer.queue ≠ [] ∨
        (x.workedOn tree Service.workBound).transfer.stage = .over :=
      hdelivers.workedOn_takes hspan hc htree (Service.workBound - 2)
    obtain ⟨hpiece, hnext⟩ := Service.receive_sending hworked
    generalize x.workedOn tree Service.workBound = y at hkept hpending htakes hpiece hnext
    unfold Service.drain
    generalize (Service.workOn tree key Service.workBound s).receive key = received at hpiece hnext
    obtain ⟨piece?, next⟩ := received
    simp only at hpiece hnext
    cases hqueue : y.transfer.queue with
    | nil =>
      rw [Transfer.receive_nil hqueue] at hpiece
      subst hpiece
      refine ⟨[], by rw [List.append_nil], ?_⟩
      have hover : y.transfer.stage = .over := htakes.resolve_left fun hne => hne hqueue
      rw [List.append_nil]
      exact hkept.delivering.whole hover hqueue
    | cons piece queue =>
      obtain ⟨first, hreceive, hrest⟩ := hkept.delivering.receive hqueue
      rw [hreceive] at hpiece hnext
      subst hpiece
      have hless : y.transfer.left + queue.length < fuel := by
        unfold Sending.pending at hpending hfuel
        rw [hqueue, List.length_cons] at hpending
        omega
      obtain ⟨rest, hdrain, hwhole⟩ := ih (first :: soFar) hnext ⟨hkept.number, hrest⟩ hless
      refine ⟨first ++ rest, ?_, ?_⟩
      · rw [hdrain, List.reverse_cons, List.flatten_append, List.flatten_singleton, List.append_assoc]
      · rw [← List.append_assoc]
        exact hwhole

/-- A client that takes all that there is gets the rest of the bytes that belong to its answer. -/
theorem Underway.takeBody (h : Underway number content bytes response key s got)
    (hc : content.length ≤ maxPosition) (htree : tree.contentOf number = content) :
    ∃ rest, (Service.takeBody tree here s key).1 = .ok rest ∧ got ++ rest = bytes := by
  cases h with
  | answered hphase hbody hbytes hgot =>
    subst hbytes hgot
    refine ⟨[], ?_, rfl⟩
    simp only [Service.takeBody, hphase, hbody]
  | @sending x offset length hphase hdelivers hspan hbytes =>
    subst hbytes
    have hfuel : x.pending < x.transfer.left + x.transfer.queue.length + 2 := by
      unfold Sending.pending
      omega
    obtain ⟨rest, hdrain, hwhole⟩ :=
      drain_delivers [] hphase hdelivers hspan hc htree hfuel
    refine ⟨rest, ?_, hwhole⟩
    simp only [Service.takeBody, hphase]
    exact hdrain

end Underway

end MediaShelf.Server
