import MediaShelf.Proofs.Server.Delivery
import MediaShelf.Proofs.Server.Isolation

/-!
# What becomes of a request

What is done to one request leaves the others as they are (`Service.phase?_step_of_ne`). A request waits,
is answered, or is being sent a file; once it does not wait any more it never will again
(`Service.went_step`), and an answer stays as it is until the client goes away.
-/

namespace MediaShelf.Server

open MediaShelf.Files
open MediaShelf.Http

/-- The request that an event is about. -/
def Event.key? : Event → Option RequestKey
  | .arrive key _ | .poll key | .expire key | .work key | .receive key | .hangUp key => some key
  | .stop | .attempt .. | .giveBack _ => none

namespace Service

variable {tree : Tree} {here : Place} {s : Service} {key other : RequestKey}

/-! ## Notes -/

theorem lookup_map_of_ne {requests : List (RequestKey × Phase)} (h : key ≠ other) (phase : Phase) :
    (requests.map fun request => if request.1 = other then (other, phase) else request).lookup key =
      requests.lookup key := by
  induction requests with
  | nil => rfl
  | cons request rest ih =>
    obtain ⟨first, old⟩ := request
    rw [List.map_cons, List.lookup_cons, ih]
    by_cases hfirst : first = other
    · rw [if_pos hfirst, hfirst, List.lookup_cons, beq_false_of_ne h]
    · rw [if_neg hfirst, List.lookup_cons]

theorem lookup_map_self {requests : List (RequestKey × Phase)} (h : (requests.lookup key).isSome)
    (phase : Phase) :
    (requests.map fun request => if request.1 = key then (key, phase) else request).lookup key =
      some phase := by
  induction requests with
  | nil => cases h
  | cons request rest ih =>
    obtain ⟨first, old⟩ := request
    rw [List.map_cons]
    by_cases hfirst : first = key
    · rw [if_pos hfirst, List.lookup_cons, beq_self_eq_true]
    · rw [List.lookup_cons, beq_false_of_ne (Ne.symm hfirst)] at h
      rw [if_neg hfirst, List.lookup_cons, beq_false_of_ne (Ne.symm hfirst)]
      exact ih h

@[simp] theorem phase?_setPhase_self (phase : Phase) :
    (s.setPhase key phase).phase? key = some phase := by
  unfold setPhase
  split
  case isTrue hsome => exact lookup_map_self hsome phase
  case isFalse hnone =>
    rw [Option.not_isSome_iff_eq_none, phase?] at hnone
    rw [phase?, List.lookup_append, hnone, Option.none_or, List.lookup_cons_self]

theorem phase?_setPhase_of_ne (h : key ≠ other) (phase : Phase) :
    (s.setPhase other phase).phase? key = s.phase? key := by
  unfold setPhase
  split
  · exact lookup_map_of_ne h phase
  · unfold phase?
    rw [List.lookup_append, List.lookup_cons, beq_false_of_ne h, List.lookup_nil, Option.or_none]

@[simp] theorem phase?_release (volume : Catalog.VolumeId) (ticket : Admission.Ticket) :
    (s.release volume ticket).phase? key = s.phase? key := rfl

theorem phase?_answer_self (request : Request) (response : Response) :
    (s.answer key request response).phase? key =
      some (.answered (if request.isHead then response.withoutBody else response)) :=
  phase?_setPhase_self _

theorem phase?_forget_of_ne (h : key ≠ other) : (s.forget other).phase? key = s.phase? key := by
  unfold forget phase?
  induction s.requests with
  | nil => rfl
  | cons request rest ih =>
    obtain ⟨first, phase⟩ := request
    by_cases hfirst : first = other
    · rw [List.filter_cons_of_neg (by simpa using hfirst), ih, List.lookup_cons, hfirst,
        beq_false_of_ne h]
    · rw [List.filter_cons_of_pos (by simpa using hfirst), List.lookup_cons, List.lookup_cons, ih]

@[simp] theorem phase?_forget_self : (s.forget key).phase? key = none := by
  refine List.lookup_eq_none_iff.mpr fun request hrequest => ?_
  have hne : request.1 ≠ key := of_decide_eq_true (List.mem_filter.mp hrequest).2
  simpa using hne.symm

@[simp] theorem phase?_giveBack (name : String) : (s.giveBack name).phase? key = s.phase? key := by
  unfold giveBack
  split <;> rfl

@[simp] theorem phase?_attempt (name : String) (volume : Catalog.VolumeId) :
    (s.attempt name volume).2.phase? key = s.phase? key := by
  unfold attempt
  split
  · rfl
  · split
    · rfl
    · exact phase?_giveBack name

/-! ## Sending -/

theorem phase?_setSending_self (response : Response) (x : Sending) :
    (s.setSending key response x).phase? key = some (.sending response x.settled) := by
  unfold setSending Sending.settled
  split
  · rw [phase?_release, phase?_setPhase_self]
  · rw [phase?_setPhase_self]

theorem phase?_setSending_of_ne (h : key ≠ other) (response : Response) (x : Sending) :
    (s.setSending other response x).phase? key = s.phase? key := by
  unfold setSending
  split
  · rw [phase?_release, phase?_setPhase_of_ne h]
  · rw [phase?_setPhase_of_ne h]

theorem phase?_serve_of_ne (h : key ≠ other) (call : Call) :
    (serve tree here s other call).phase? key = s.phase? key := by
  unfold serve
  simp only
  split
  · exact phase?_setPhase_of_ne h _
  · split
    · exact phase?_setPhase_of_ne h _
    · split
      · exact phase?_setPhase_of_ne h _
      · exact phase?_setSending_of_ne h _ _

theorem phase?_poll_of_ne (h : key ≠ other) :
    (poll tree here s other).phase? key = s.phase? key := by
  unfold poll
  split
  · split
    · rfl
    · split
      · exact phase?_serve_of_ne h _
      · exact phase?_setPhase_of_ne h _
      · rfl
  · rfl

/-- What happens to one request leaves the others as they are. -/
theorem phase?_step_of_ne {event : Event} (h : event.key? ≠ some key) :
    (step tree here s event).phase? key = s.phase? key := by
  have hne : ∀ other, event.key? = some other → key ≠ other := by
    intro other hother heq
    exact h (hother.trans (congrArg some heq.symm))
  cases event with
  | arrive other request =>
    simp only [step]
    split
    · rfl
    · unfold arrive
      split
      · exact phase?_setPhase_of_ne (hne other rfl) _
      · split
        · exact phase?_setPhase_of_ne (hne other rfl) _
        · exact phase?_setPhase_of_ne (hne other rfl) _
  | poll other => exact phase?_poll_of_ne (hne other rfl)
  | expire other =>
    simp only [step, expire]
    split
    · split
      · exact (phase?_setPhase_of_ne (hne other rfl) _).trans (phase?_poll_of_ne (hne other rfl))
      · exact phase?_poll_of_ne (hne other rfl)
    · exact phase?_poll_of_ne (hne other rfl)
  | work other =>
    simp only [step, work]
    split
    · split
      · rfl
      · exact phase?_setSending_of_ne (hne other rfl) _ _
      · exact phase?_setSending_of_ne (hne other rfl) _ _
    · rfl
  | receive other =>
    simp only [step, receive]
    split
    · exact phase?_setPhase_of_ne (hne other rfl) _
    · rfl
  | hangUp other =>
    simp only [step, hangUp]
    split
    · exact phase?_forget_of_ne (hne other rfl)
    · exact phase?_forget_of_ne (hne other rfl)
    · exact phase?_forget_of_ne (hne other rfl)
    · split
      · exact phase?_forget_of_ne (hne other rfl)
      · exact phase?_setPhase_of_ne (hne other rfl) _
    · rfl
  | stop => rfl
  | attempt name volume => exact phase?_attempt name volume
  | giveBack name => exact phase?_giveBack name

/-! ## A request that waits -/

/-- A request is where it was, or it has stopped waiting. -/
def Went (s next : Service) (key : RequestKey) : Prop :=
  next.phase? key = s.phase? key ∨
    ∃ phase, next.phase? key = some phase ∧ ∀ call, phase ≠ .waiting call

theorem Went.trans {s' s'' : Service} (h : s.Went s' key) (h' : s'.Went s'' key) :
    s.Went s'' key := by
  rcases h' with hsame | hmoved
  · rcases h with hsame' | ⟨phase, hphase, hnot⟩
    · exact .inl (hsame.trans hsame')
    · exact .inr ⟨phase, hsame.trans hphase, hnot⟩
  · exact .inr hmoved

theorem went_answer (request : Request) (response : Response) :
    s.Went (s.answer key request response) key :=
  .inr ⟨_, phase?_answer_self request response, nofun⟩

theorem went_setSending (response : Response) (x : Sending) :
    s.Went (s.setSending key response x) key :=
  .inr ⟨_, phase?_setSending_self response x, nofun⟩

theorem went_setPhase_sending (response : Response) (x : Sending) :
    s.Went (s.setPhase key (.sending response x)) key :=
  .inr ⟨_, phase?_setPhase_self _, nofun⟩

/-- A request that has got its slot stops waiting. -/
theorem phase?_serve_self (call : Call) :
    ∃ phase, (serve tree here s key call).phase? key = some phase ∧
      ∀ other, phase ≠ .waiting other := by
  unfold serve
  simp only
  split
  · exact ⟨_, phase?_answer_self _ _, nofun⟩
  · split
    · exact ⟨_, phase?_setPhase_self _, nofun⟩
    · split
      · exact ⟨_, phase?_answer_self _ _, nofun⟩
      · exact ⟨_, phase?_setSending_self _ _, nofun⟩

theorem serve_not_waiting (call other : Call) :
    (serve tree here s key call).phase? key ≠ some (.waiting other) := by
  obtain ⟨phase, hphase, hnot⟩ : ∃ phase, (serve tree here s key call).phase? key = some phase ∧
      ∀ other, phase ≠ .waiting other := phase?_serve_self call
  rw [hphase]
  exact fun heq => hnot other (Option.some.inj heq)

theorem went_poll : s.Went (poll tree here s key) key := by
  unfold poll
  split
  · split
    · exact .inl rfl
    · split
      · exact .inr (phase?_serve_self (s := s.changeLimiter _ _) _)
      · exact went_answer (s := s.changeLimiter _ _) _ _
      · exact .inl rfl
  · exact .inl rfl

/-- An event leaves a request where it is or ends its wait, unless the client goes away. -/
theorem went_step {event : Event} (hsome : (s.phase? key).isSome) (hstays : event ≠ .hangUp key) :
    s.Went (step tree here s event) key := by
  by_cases hkey : event.key? = some key
  case neg => exact .inl (phase?_step_of_ne hkey)
  cases event with
  | arrive other request =>
    cases hkey
    simp only [step, if_pos hsome]
    exact .inl rfl
  | poll other =>
    cases hkey
    exact went_poll
  | expire other =>
    cases hkey
    refine went_poll.trans (?_ : (poll tree here s key).Went (expire tree here s key) key)
    unfold expire
    simp only
    split
    · split
      · exact went_answer (s := (poll tree here s key).changeLimiter _ _) _ _
      · exact .inl rfl
    · exact .inl rfl
  | work other =>
    cases hkey
    simp only [step, work]
    split
    · split
      · exact .inl rfl
      · exact went_setSending _ _
      · exact went_setSending _ _
    · exact .inl rfl
  | receive other =>
    cases hkey
    simp only [step, receive]
    split
    · exact went_setPhase_sending _ _
    · exact .inl rfl
  | hangUp other =>
    cases hkey
    exact absurd rfl hstays
  | stop => exact .inl rfl
  | attempt name volume => cases hkey
  | giveBack name => cases hkey

/-! ## A request that does not wait any more -/

/-- An answered request stays answered. -/
theorem step_of_answered {response : Response} (h : s.phase? key = some (.answered response))
    {event : Event} (hkey : event.key? = some key) (hstays : event ≠ .hangUp key) :
    step tree here s event = s := by
  have hpoll : poll tree here s key = s := by simp only [poll, h]
  cases event with
  | arrive other request =>
    cases hkey
    simp only [step, h, Option.isSome_some, if_true]
  | poll other =>
    cases hkey
    exact hpoll
  | expire other =>
    cases hkey
    simp only [step, expire, hpoll, h]
  | work other =>
    cases hkey
    simp only [step, work, h]
  | receive other =>
    cases hkey
    simp only [step, receive, h]
  | hangUp other =>
    cases hkey
    exact absurd rfl hstays
  | stop => cases hkey
  | attempt name volume => cases hkey
  | giveBack name => cases hkey

section Sending

variable {response : Response} {x : Sending} (h : s.phase? key = some (.sending response x))

include h

theorem phase?_work : (work tree s key).phase? key = some (.sending response (x.worked tree)) := by
  unfold work Sending.worked
  rw [h]
  simp only
  rcases hstage : x.transfer.stage with _ | piece | _
  · exact phase?_setSending_self _ _
  · exact phase?_setSending_self _ _
  · exact h

theorem receive_sending : (s.receive key).1 = x.transfer.receive.1 ∧
    (s.receive key).2.phase? key =
      some (.sending response { x with transfer := x.transfer.receive.2 }) := by
  unfold receive
  rw [h]
  exact ⟨rfl, phase?_setPhase_self _⟩

theorem poll_of_sending : poll tree here s key = s := by simp only [poll, h]

theorem expire_of_sending : expire tree here s key = s := by
  simp only [expire, poll_of_sending h, h]

theorem phase?_workOn (fuel : Nat) : (workOn tree key fuel s).phase? key =
    some (.sending response (x.workedOn tree fuel)) := by
  induction fuel generalizing s x with
  | zero => exact h
  | succ fuel ih =>
    unfold workOn Sending.workedOn
    rw [h]
    simp only
    split
    · exact ih (phase?_work h)
    · exact h

end Sending

end Service

end MediaShelf.Server
