import MediaShelf.Admission.Desk
import MediaShelf.Proofs.Admission.Books

/-!
# Slots are given out in order

At a desk anything may happen in any order: events are noted, and those who wait ask for their slots
(`Desk.Move`). The books of the limiter agree with those of the desk all the time
(`Desk.Kept.move`). Whenever nobody who waits would be told anything, nobody waits while a slot is
free, and those who have come before any other who was admitted were admitted too, unless they were
called off or gave up (`admission_in_order`).
-/

namespace MediaShelf.Admission

namespace Desk

/-! ## Moves -/

/-- What may happen next at a desk. -/
inductive Move where
  /-- An event is noted. -/
  | note (event : DeskEvent)
  /-- One who waits asks for a slot. -/
  | ask (waiter : Waiter)

/-- The next thing happens: what is told to those who wait, or wanted to. -/
def move (d : Desk) : Move → Tidings × Desk
  | .note event => (d.note event).2
  | .ask waiter => if waiter ∈ d.waiters then d.ask waiter else (⟨[], []⟩, d)

/-- Nobody who waits would be told anything. -/
def Settled (d : Desk) : Prop := ∀ waiter ∈ d.waiters, d.ask waiter = (⟨[], []⟩, d)

instance (d : Desk) : Decidable d.Settled :=
  inferInstanceAs (Decidable (∀ waiter ∈ d.waiters, d.ask waiter = (⟨[], []⟩, d)))

/-- The limiter agrees with those who wait and those who have a slot. -/
def Kept (d : Desk) : Prop :=
  d.limiter.Books (d.waiters.map (·.ticket)) (d.permits.map (·.2))

/-- What a move does to those who wait. -/
inductive Moved (d : Desk) (m : Move) : Tidings → Desk → Prop
  | stayed {tidings : Tidings} {next : Desk} (waiters : next.waiters = d.waiters)
      (nobody : tidings.granted = []) : Moved d m tidings next
  | joined {tidings : Tidings} {next : Desk} (x : Waiter) (ticket : x.ticket = d.limiter.next)
      (drawn : d.limiter.next < next.limiter.next) (waiters : next.waiters = d.waiters ++ [x])
      (nobody : tidings.granted = []) : Moved d m tidings next
  | admitted {tidings : Tidings} {next : Desk} (x : Waiter) (mem : x ∈ d.waiters)
      (handed : x.ticket ∈ d.limiter.assigned) (waiters : next.waiters = d.waiters.erase x)
      (told : tidings.granted = [x.name]) : Moved d m tidings next
  | left {tidings : Tidings} {next : Desk} (x : Waiter) (mem : x ∈ d.waiters)
      (why : x.token ∈ d.fired ∨ m = .note (.abandon x.name))
      (waiters : next.waiters = d.waiters.erase x) (permits : next.permits = d.permits)
      (limiter : next.limiter = d.limiter.leave x.ticket) (nobody : tidings.granted = []) :
      Moved d m tidings next

variable {d : Desk} {name : String}

theorem kept_ofLimiter (capacity : Nat) : (ofLimiter (.ofCapacity capacity)).Kept :=
  Limiter.books_ofCapacity capacity

theorem Kept.cons_erase (h : d.Kept) {x : Waiter} (hx : x ∈ d.waiters) :
    d.limiter.Books (x.ticket :: (d.waiters.erase x).map (·.ticket)) (d.permits.map (·.2)) :=
  h.of_perm ((List.perm_cons_erase hx).map Waiter.ticket).symm (.refl _)

/-- Tickets tell those who wait apart. -/
theorem Kept.nodup_waiters (h : d.Kept) : d.waiters.Nodup :=
  (List.nodup_append.mp h.nodup).1.of_map _

/-- A slot is given back, while others have slots that are not noted yet. -/
theorem books_giveBack {waiting : List Ticket} (others : List Ticket)
    (h : d.limiter.Books waiting (others ++ d.permits.map (·.2))) (name : String) :
    (d.giveBack name).limiter.Books waiting (others ++ (d.giveBack name).permits.map (·.2)) := by
  unfold giveBack
  split
  case h_1 => exact h
  case h_2 ticket hlookup =>
    obtain ⟨front, back, heq, -⟩ := List.lookup_eq_some_iff.mp hlookup
    have hmem : (name, ticket) ∈ d.permits := by
      rw [heq]
      exact List.mem_append_right _ List.mem_cons_self
    have hperm : (ticket :: (others ++ (d.permits.erase (name, ticket)).map (·.2))).Perm
        (others ++ d.permits.map (·.2)) :=
      List.perm_middle.symm.trans (((List.perm_cons_erase hmem).map (·.2)).symm.append_left _)
    exact (h.of_perm (.refl _) hperm).release

theorem later_giveBack (d : Desk) (name : String) : d.limiter.Later (d.giveBack name).limiter := by
  unfold giveBack
  split
  · exact .refl _
  · exact d.limiter.later_release _

@[simp] theorem waiters_giveBack (d : Desk) (name : String) :
    (d.giveBack name).waiters = d.waiters := by
  unfold giveBack
  split <;> rfl

theorem Kept.giveBack (h : d.Kept) (name : String) : (d.giveBack name).Kept := by
  unfold Kept
  rw [waiters_giveBack]
  exact books_giveBack [] h name

/-- Someone who has a slot is noted. -/
theorem kept_keep {ticket : Ticket}
    (h : d.limiter.Books (d.waiters.map (·.ticket)) (ticket :: d.permits.map (·.2)))
    (name : String) : (d.keep name ticket).Kept := by
  have hkept := books_giveBack [ticket] h name
  rw [← waiters_giveBack d name] at hkept
  exact hkept

theorem later_keep (d : Desk) (name : String) (ticket : Ticket) :
    d.limiter.Later (d.keep name ticket).limiter := later_giveBack d name

@[simp] theorem waiters_keep (d : Desk) (name : String) (ticket : Ticket) :
    (d.keep name ticket).waiters = d.waiters := waiters_giveBack d name

/-! ## What a move does -/

section Cases

variable {x : Waiter} {token : String}

theorem note_attempt_of_free (h : 0 < d.limiter.free) : d.note (.attempt name) =
    (.granted, ⟨[], []⟩,
      { d with limiter := d.limiter.tryAcquire.2 }.keep name d.limiter.next) := by
  have htry : d.limiter.tryAcquire = (some d.limiter.next, d.limiter.tryAcquire.2) := by
    unfold Limiter.tryAcquire
    rw [if_pos h]
  simp only [note]
  rw [htry]

theorem note_attempt_of_full (h : ¬ 0 < d.limiter.free) :
    d.note (.attempt name) = (.refused, ⟨[], []⟩, d) := by
  have htry : d.limiter.tryAcquire = (none, d.limiter) := if_neg h
  simp only [note]
  rw [htry]

theorem note_acquire_of_fired (h : token ∈ d.fired) :
    d.note (.acquire name token) = (.started, ⟨[], [(name, .admissionCancelled)]⟩, d) := if_pos h

theorem note_acquire_of_not_fired (h : token ∉ d.fired) : d.note (.acquire name token) =
    (.started, ⟨[], []⟩,
      { d with
        limiter := d.limiter.enter.2
        waiters := d.waiters ++ [⟨name, token, d.limiter.next⟩] }) := by
  have hticket : d.limiter.enter.1 = d.limiter.next := by
    unfold Limiter.enter
    split <;> rfl
  simp only [note]
  rw [if_neg h, hticket]

theorem ask_of_fired (h : x.token ∈ d.fired) : d.ask x =
    (⟨[], [(x.name, .admissionCancelled)]⟩,
      { d with limiter := d.limiter.leave x.ticket, waiters := d.waiters.erase x }) := by
  have hpoll : d.limiter.poll x.ticket (x.token ∈ d.fired) =
      (.cancelled, d.limiter.leave x.ticket) := if_pos (by simpa using h)
  simp only [ask]
  rw [hpoll]

theorem ask_of_handed (h : x.token ∉ d.fired) (hhanded : x.ticket ∈ d.limiter.assigned) :
    d.ask x = (⟨[x.name], []⟩,
      { d with
        limiter := (d.limiter.poll x.ticket false).2
        waiters := d.waiters.erase x }.keep x.name x.ticket) := by
  have hpoll : d.limiter.poll x.ticket (x.token ∈ d.fired) =
      (.granted, (d.limiter.poll x.ticket false).2) := by
    rw [decide_eq_false h]
    unfold Limiter.poll
    rw [if_neg Bool.false_ne_true, if_pos hhanded]
  simp only [ask]
  rw [hpoll]

theorem ask_of_queued (h : x.token ∉ d.fired) (hqueued : x.ticket ∉ d.limiter.assigned) :
    d.ask x = (⟨[], []⟩, d) := by
  have hpoll : d.limiter.poll x.ticket (x.token ∈ d.fired) = (.waiting, d.limiter) := by
    rw [decide_eq_false h]
    unfold Limiter.poll
    rw [if_neg Bool.false_ne_true, if_neg hqueued]
  simp only [ask]
  rw [hpoll]

end Cases

@[simp] theorem fired_keep (d : Desk) (name : String) (ticket : Ticket) :
    (d.keep name ticket).fired = d.fired := by
  show (d.giveBack name).fired = d.fired
  unfold giveBack
  split <;> rfl

/-- What a move does. -/
structure Follows (d : Desk) (m : Move) (tidings : Tidings) (next : Desk) : Prop where
  kept : next.Kept
  later : d.limiter.Later next.limiter
  fired : d.fired ⊆ next.fired
  moved : d.Moved m tidings next

theorem Kept.stays (h : d.Kept) (m : Move) (failed : List (String × Failure)) :
    d.Follows m ⟨[], failed⟩ d := ⟨h, .refl _, fun _ => id, .stayed rfl rfl⟩

theorem Kept.note (h : d.Kept) (event : DeskEvent) :
    d.Follows (.note event) (d.note event).2.1 (d.note event).2.2 := by
  cases event with
  | attempt name =>
    by_cases hfree : 0 < d.limiter.free
    · rw [note_attempt_of_free hfree]
      refine ⟨kept_keep (Limiter.Books.tryAcquire h hfree).2 name,
        d.limiter.later_tryAcquire.trans (later_keep { d with limiter := _ } name _), ?_,
        .stayed (waiters_keep _ _ _) rfl⟩
      rw [fired_keep]
      exact fun _ => id
    · rw [note_attempt_of_full hfree]
      exact h.stays _ _
  | acquire name token =>
    by_cases hfired : token ∈ d.fired
    · rw [note_acquire_of_fired hfired]
      exact h.stays _ _
    · rw [note_acquire_of_not_fired hfired]
      have hnext : d.limiter.enter.2.next = d.limiter.next + 1 := by
        unfold Limiter.enter
        split <;> rfl
      refine ⟨(Limiter.Books.enter h).of_perm ?_ (.refl _), d.limiter.later_enter, fun _ => id,
        .joined ⟨name, token, d.limiter.next⟩ rfl ?_ rfl rfl⟩
      · show (List.map Waiter.ticket (d.waiters ++ [⟨name, token, d.limiter.next⟩])).Perm _
        rw [List.map_append, List.map_singleton]
        exact List.perm_append_singleton _ _
      · show d.limiter.next < d.limiter.enter.2.next
        rw [hnext]
        exact Nat.lt_succ_self _
  | release name =>
    have hfired : (d.giveBack name).fired = d.fired := fired_keep d name 0
    simp only [Desk.note]
    cases d.permits.lookup name with
    | none => exact h.stays _ _
    | some ticket =>
      refine ⟨h.giveBack name, later_giveBack d name, ?_, .stayed (waiters_giveBack d name) rfl⟩
      rw [hfired]
      exact fun _ => id
  | cancel token => exact ⟨h, .refl _, List.subset_cons_self _ _, .stayed rfl rfl⟩
  | abandon name =>
    simp only [Desk.note]
    cases hfind : d.waiters.find? (·.name = name) with
    | none => exact h.stays _ _
    | some x =>
      have hmem : x ∈ d.waiters := List.mem_of_find?_eq_some hfind
      have hname : x.name = name := by simpa using List.find?_some hfind
      exact ⟨(h.cons_erase hmem).leave, d.limiter.later_leave _, fun _ => id,
        .left x hmem (.inr (by rw [hname])) rfl rfl rfl rfl⟩

theorem Kept.ask (h : d.Kept) {x : Waiter} (hx : x ∈ d.waiters) :
    d.Follows (.ask x) (d.ask x).1 (d.ask x).2 := by
  have hbooks := h.cons_erase hx
  by_cases hfired : x.token ∈ d.fired
  case pos =>
    rw [ask_of_fired hfired]
    exact ⟨hbooks.leave, d.limiter.later_leave _, fun _ => id,
      .left x hx (.inl hfired) rfl rfl rfl rfl⟩
  case neg =>
    by_cases hhanded : x.ticket ∈ d.limiter.assigned
    case pos =>
      rw [ask_of_handed hfired hhanded]
      refine ⟨kept_keep (hbooks.grant hhanded).2 x.name,
        (d.limiter.later_poll _ _).trans
          (later_keep { d with limiter := _, waiters := _ } x.name _),
        ?_, .admitted x hx hhanded (waiters_keep _ _ _) rfl⟩
      rw [fired_keep]
      exact fun _ => id
    case neg =>
      rw [ask_of_queued hfired hhanded]
      exact h.stays _ _

/-- Every move keeps the books. -/
theorem Kept.move (h : d.Kept) (m : Move) : d.Follows m (d.move m).1 (d.move m).2 := by
  cases m with
  | note event => exact h.note event
  | ask x =>
    simp only [Desk.move]
    split
    case isTrue hx => exact h.ask hx
    case isFalse => exact h.stays _ _

/-! ## Settled desks -/

/-- At a settled desk those who wait are queued, and their tokens have not fired. -/
theorem Settled.queued (h : d.Settled) (hkept : d.Kept) {x : Waiter} (hx : x ∈ d.waiters) :
    x.ticket ∈ d.limiter.queue ∧ x.token ∉ d.fired := by
  have hask := h x hx
  have hfired : x.token ∉ d.fired := by
    intro hfired
    rw [ask_of_fired hfired, Prod.mk.injEq, Tidings.mk.injEq] at hask
    exact List.cons_ne_nil _ _ hask.1.2
  refine ⟨hkept.mem_queue (List.mem_map_of_mem hx) fun hhanded => ?_, hfired⟩
  rw [ask_of_handed hfired hhanded, Prod.mk.injEq, Tidings.mk.injEq] at hask
  exact List.cons_ne_nil _ _ hask.1.1

/-- At a settled desk no slot is between two people. -/
theorem Settled.assigned_eq_nil (h : d.Settled) (hkept : d.Kept) : d.limiter.assigned = [] := by
  refine List.eq_nil_iff_forall_not_mem.mpr fun ticket hassigned => ?_
  have hwaits : ticket ∈ d.waiters.map (·.ticket) :=
    hkept.waits.mem_iff.mpr (List.mem_append_right _ hassigned)
  obtain ⟨x, hx, rfl⟩ := List.mem_map.mp hwaits
  exact hkept.not_mem_queue hassigned (h.queued hkept hx).1

/-- At a settled desk nobody waits while a slot is free. -/
theorem Settled.waiters_eq_nil (h : d.Settled) (hkept : d.Kept) (hfree : 0 < d.limiter.free) :
    d.waiters = [] := by
  refine List.eq_nil_iff_forall_not_mem.mpr fun x hx => ?_
  have hqueued := (h.queued hkept hx).1
  rw [hkept.orderly.queue_eq_nil hfree] at hqueued
  cases hqueued

/-- Nobody is handed a slot before those who came earlier. -/
theorem Kept.not_assigned_of_lt (h : d.Kept) {earlier later : Waiter}
    (hearlier : earlier ∈ d.waiters) (hnot : earlier.ticket ∉ d.limiter.assigned)
    (hlt : earlier.ticket < later.ticket) : later.ticket ∉ d.limiter.assigned := by
  intro hhanded
  have hqueued := h.mem_queue (List.mem_map_of_mem hearlier) hnot
  exact hlt.not_gt (h.orderly.inTurn _ (List.mem_append_left _ hhanded) _ hqueued)

/-- When those who wait have asked, the oldest first, the desk is settled. -/
theorem settled_askAll {d : Desk} (front rest : List Waiter) (h : d.Kept)
    (hwaiters : d.waiters = front ++ rest) (hsorted : d.waiters.Pairwise (·.ticket < ·.ticket))
    (hquiet : ∀ x ∈ front, x.ticket ∉ d.limiter.assigned ∧ x.token ∉ d.fired) :
    (d.askAll rest).2.Settled := by
  induction rest generalizing d front with
  | nil =>
    rw [List.append_nil] at hwaiters
    intro x hx
    obtain ⟨hqueued, hfired⟩ := hquiet x (hwaiters ▸ hx)
    exact ask_of_queued hfired hqueued
  | cons x rest ih =>
    have hx : x ∈ d.waiters := by
      rw [hwaiters]
      exact List.mem_append_right _ List.mem_cons_self
    have hafter : ∀ y ∈ front, y.ticket < x.ticket := by
      rw [hwaiters] at hsorted
      exact fun y hy => (List.pairwise_append.mp hsorted).2.2 y hy x List.mem_cons_self
    have hnot : ∀ y ∈ front, x.ticket ∉ d.limiter.assigned := by
      intro y hy
      refine h.not_assigned_of_lt ?_ (hquiet y hy).1 (hafter y hy)
      rw [hwaiters]
      exact List.mem_append_left _ hy
    have hfront : x ∉ front := fun hy => (hafter x hy).ne rfl
    have herase : d.waiters.erase x = front ++ rest := by
      rw [hwaiters, List.erase_append_right _ hfront, List.erase_cons_head]
    have hkept := (h.ask hx).kept
    show ((d.ask x).2.askAll rest).2.Settled
    by_cases hfired : x.token ∈ d.fired
    case pos =>
      rw [ask_of_fired hfired] at hkept ⊢
      refine ih front hkept herase (hsorted.sublist List.erase_sublist) fun y hy => ?_
      have hqueued := h.mem_queue (List.mem_map_of_mem hx) (hnot y hy)
      have hsame := Limiter.Books.assigned_leave_of_queued hqueued
      exact ⟨fun hhanded => (hquiet y hy).1 (hsame ▸ hhanded), (hquiet y hy).2⟩
    case neg =>
      by_cases hhanded : x.ticket ∈ d.limiter.assigned
      case pos =>
        rw [ask_of_handed hfired hhanded] at hkept ⊢
        have hnobody : front = [] :=
          List.eq_nil_iff_forall_not_mem.mpr fun y hy => hnot y hy hhanded
        rw [hnobody] at herase
        refine ih [] hkept ((waiters_keep _ _ _).trans herase) ?_ nofun
        rw [waiters_keep]
        exact hsorted.sublist List.erase_sublist
      case neg =>
        rw [ask_of_queued hfired hhanded]
        refine ih (front ++ [x]) h (by rw [hwaiters, List.append_assoc]; rfl) hsorted ?_
        intro y hy
        rcases List.mem_append.mp hy with hold | hnew
        · exact hquiet y hold
        · rw [List.mem_singleton.mp hnew]
          exact ⟨hhanded, hfired⟩

end Desk

/-! ## What becomes of those who come -/

/-- A desk, and what has become of all who ever waited at it. -/
structure Chronicle where
  desk : Desk
  /-- All who have come to wait, in the order of their coming. -/
  arrived : List Waiter
  /-- Those who were admitted. -/
  admitted : List Waiter
  /-- Those who have gone without having been admitted. -/
  gone : List Waiter

namespace Chronicle

/-- A desk to which nobody has come yet. -/
def start (limiter : Limiter) : Chronicle := ⟨.ofLimiter limiter, [], [], []⟩

/-- Who waits now, and did not before, has come; who does not wait any more was admitted if somebody
was told so, and has gone otherwise. -/
def follow (c : Chronicle) (tidings : Tidings) (next : Desk) : Chronicle :=
  let departed := c.desk.waiters.filter (· ∉ next.waiters)
  { desk := next
    arrived := c.arrived ++ next.waiters.filter (· ∉ c.desk.waiters)
    admitted := if tidings.granted = [] then c.admitted else c.admitted ++ departed
    gone := if tidings.granted = [] then c.gone ++ departed else c.gone }

/-- The chronicle after a move. -/
def move (c : Chronicle) (m : Desk.Move) : Chronicle :=
  c.follow (c.desk.move m).1 (c.desk.move m).2

/-- One move after the other. -/
def run (c : Chronicle) (moves : List Desk.Move) : Chronicle := moves.foldl move c

/-- What holds of every chronicle: tickets tell the order of coming, everyone who has come waits,
was admitted or has gone, and who was admitted has come before all in the queue. -/
structure Sound (moves : List Desk.Move) (c : Chronicle) : Prop where
  kept : c.desk.Kept
  order : c.arrived.Pairwise (·.ticket < ·.ticket)
  drawn : ∀ x ∈ c.arrived, x.ticket < c.desk.limiter.next
  waits : c.desk.waiters.Sublist c.arrived
  fates : (c.admitted ++ c.gone ++ c.desk.waiters).Perm c.arrived
  inTurn : ∀ x ∈ c.admitted, ∀ ticket ∈ c.desk.limiter.queue, x.ticket < ticket
  reasons : ∀ x ∈ c.gone, x.token ∈ c.desk.fired ∨ .note (.abandon x.name) ∈ moves

variable {c : Chronicle} {moves : List Desk.Move}

theorem sound_start (capacity : Nat) : Sound [] (start (.ofCapacity capacity)) where
  kept := Desk.kept_ofLimiter capacity
  order := List.Pairwise.nil
  drawn := nofun
  waits := .refl _
  fates := .refl _
  inTurn := nofun
  reasons := nofun

section Follow

variable {tidings : Tidings} {next : Desk} {x : Waiter} {m : Desk.Move}

/-- Nobody comes when those who wait are some of those who waited. -/
theorem filter_notMem_of_subset {before after : List Waiter} (h : after ⊆ before) :
    after.filter (· ∉ before) = [] :=
  List.filter_eq_nil_iff.mpr fun x hx => by simpa using h hx

theorem follow_stayed (hwaiters : next.waiters = c.desk.waiters) (hnobody : tidings.granted = []) :
    c.follow tidings next = { c with desk := next } := by
  have hsame := filter_notMem_of_subset (List.Subset.refl c.desk.waiters)
  simp only [follow, hwaiters, hnobody, hsame, if_true, List.append_nil]

theorem follow_joined (hnew : x ∉ c.desk.waiters) (hwaiters : next.waiters = c.desk.waiters ++ [x])
    (hnobody : tidings.granted = []) :
    c.follow tidings next = { c with desk := next, arrived := c.arrived ++ [x] } := by
  have hcomes : (c.desk.waiters ++ [x]).filter (· ∉ c.desk.waiters) = [x] := by
    rw [List.filter_append, filter_notMem_of_subset (List.Subset.refl _), List.nil_append,
      List.filter_cons_of_pos (by simpa using hnew), List.filter_nil]
  have hstay := filter_notMem_of_subset (List.subset_append_left c.desk.waiters [x])
  simp only [follow, hwaiters, hnobody, hcomes, hstay, if_true, List.append_nil]

theorem filter_notMem_erase {waiters : List Waiter} (hnodup : waiters.Nodup) (hx : x ∈ waiters) :
    waiters.filter (· ∉ waiters.erase x) = [x] := by
  have hperm := (List.perm_cons_erase hx).filter (· ∉ waiters.erase x)
  rw [List.filter_cons_of_pos (by simpa using hnodup.not_mem_erase),
    filter_notMem_of_subset (List.Subset.refl _)] at hperm
  exact List.perm_singleton.mp hperm

theorem follow_admitted (hnodup : c.desk.waiters.Nodup) (hx : x ∈ c.desk.waiters)
    (hwaiters : next.waiters = c.desk.waiters.erase x) (htold : tidings.granted = [x.name]) :
    c.follow tidings next = { c with desk := next, admitted := c.admitted ++ [x] } := by
  have hcomes := filter_notMem_of_subset (List.erase_subset (a := x) (l := c.desk.waiters))
  have hsome : ¬ [x.name] = [] := List.cons_ne_nil _ _
  simp only [follow, hwaiters, htold, hcomes, filter_notMem_erase hnodup hx, if_neg hsome,
    List.append_nil]

theorem follow_left (hnodup : c.desk.waiters.Nodup) (hx : x ∈ c.desk.waiters)
    (hwaiters : next.waiters = c.desk.waiters.erase x) (hnobody : tidings.granted = []) :
    c.follow tidings next = { c with desk := next, gone := c.gone ++ [x] } := by
  have hcomes := filter_notMem_of_subset (List.erase_subset (a := x) (l := c.desk.waiters))
  simp only [follow, hwaiters, hnobody, hcomes, filter_notMem_erase hnodup hx, if_true,
    List.append_nil]

/-- One of those who wait comes to be counted apart from the others. -/
theorem Sound.fates_erase (h : c.Sound moves) (hx : x ∈ c.desk.waiters) :
    (c.admitted ++ c.gone ++ x :: c.desk.waiters.erase x).Perm c.arrived :=
  ((List.perm_cons_erase hx).symm.append_left _).trans h.fates

theorem Sound.follow (h : c.Sound moves) (hf : c.desk.Follows m tidings next) :
    (c.follow tidings next).Sound (moves ++ [m]) := by
  obtain ⟨hkept, hlater, hfired, hmoved⟩ := hf
  have hnodup := h.kept.nodup_waiters
  have hdrawn : ∀ x ∈ c.arrived, x.ticket < next.limiter.next := fun x hx =>
    (h.drawn x hx).trans_le hlater.next
  -- who was admitted before has come before all who are queued now
  have hinTurn : ∀ x ∈ c.admitted, ∀ ticket ∈ next.limiter.queue, x.ticket < ticket := by
    intro x hx ticket hticket
    rcases hlater.queue ticket hticket with hold | hnew
    · exact h.inTurn x hx ticket hold
    · have harrived : x ∈ c.arrived :=
        h.fates.mem_iff.mp (List.mem_append_left _ (List.mem_append_left _ hx))
      exact (h.drawn x harrived).trans_le hnew
  have hreasons : ∀ x ∈ c.gone, x.token ∈ next.fired ∨ .note (.abandon x.name) ∈ moves ++ [m] :=
    fun x hx => (h.reasons x hx).imp (fun hin => hfired hin) fun hin => List.mem_append_left _ hin
  cases hmoved with
  | stayed hwaiters hnobody =>
    rw [follow_stayed hwaiters hnobody]
    exact ⟨hkept, h.order, hdrawn, hwaiters ▸ h.waits, hwaiters ▸ h.fates, hinTurn, hreasons⟩
  | joined x hticket hnext hwaiters hnobody =>
    have hnew : x ∉ c.desk.waiters := fun hx => (h.drawn x (h.waits.subset hx)).ne hticket
    rw [follow_joined hnew hwaiters hnobody]
    refine ⟨hkept, ?_, ?_, ?_, ?_, hinTurn, hreasons⟩
    · refine List.pairwise_append.mpr ⟨h.order, List.pairwise_singleton _ _, fun y hy z hz => ?_⟩
      rw [List.mem_singleton.mp hz, hticket]
      exact h.drawn y hy
    · intro y hy
      rcases List.mem_append.mp hy with hold | hlast
      · exact hdrawn y hold
      · rw [List.mem_singleton.mp hlast, hticket]
        exact hnext
    · rw [hwaiters]
      exact h.waits.append (List.Sublist.refl _)
    · rw [hwaiters, ← List.append_assoc]
      exact h.fates.append_right _
  | admitted x hx hhanded hwaiters htold =>
    rw [follow_admitted hnodup hx hwaiters htold]
    refine ⟨hkept, h.order, hdrawn, hwaiters ▸ List.erase_sublist.trans h.waits, ?_, ?_, hreasons⟩
    · refine List.Perm.trans ?_ (h.fates_erase hx)
      rw [hwaiters, List.append_assoc, List.append_assoc, List.append_assoc]
      refine List.Perm.append_left _ ?_
      show (x :: (c.gone ++ c.desk.waiters.erase x)).Perm _
      exact List.perm_middle.symm
    · intro y hy ticket hticket
      rcases List.mem_append.mp hy with hold | hlast
      · exact hinTurn y hold ticket hticket
      · rw [List.mem_singleton.mp hlast]
        rcases hlater.queue ticket hticket with hqueued | hnew
        · exact h.kept.orderly.inTurn x.ticket (List.mem_append_left _ hhanded) ticket hqueued
        · exact (h.drawn x (h.waits.subset hx)).trans_le hnew
  | left x hx hwhy hwaiters hpermits hlimiter hnobody =>
    rw [follow_left hnodup hx hwaiters hnobody]
    refine ⟨hkept, h.order, hdrawn, hwaiters ▸ List.erase_sublist.trans h.waits, ?_, hinTurn, ?_⟩
    · refine List.Perm.trans ?_ (h.fates_erase hx)
      rw [hwaiters, ← List.append_assoc, List.append_assoc _ [x]]
      exact .refl _
    · intro y hy
      rcases List.mem_append.mp hy with hold | hlast
      · exact hreasons y hold
      · rw [List.mem_singleton.mp hlast]
        refine hwhy.imp (fun hin => hfired hin) fun heq => ?_
        rw [heq]
        exact List.mem_append_right _ (List.mem_singleton_self _)

end Follow

theorem Sound.run {done : List Desk.Move} (h : c.Sound done) (moves : List Desk.Move) :
    (c.run moves).Sound (done ++ moves) := by
  induction moves generalizing c done with
  | nil => rwa [List.append_nil]
  | cons m rest ih =>
    have hrest := ih (h.follow (h.kept.move m))
    rwa [List.append_assoc] at hrest

theorem Sound.capacity_run {done : List Desk.Move} (h : c.Sound done) (moves : List Desk.Move) :
    (c.run moves).desk.limiter.capacity = c.desk.limiter.capacity := by
  induction moves generalizing c done with
  | nil => rfl
  | cons m rest ih =>
    have hf := h.kept.move m
    exact (ih (h.follow hf)).trans hf.later.capacity

/-! ## Rounds of asking -/

theorem mem_waiters_ask {d : Desk} {x y : Waiter} (hy : y ∈ d.waiters) (hne : y ≠ x) :
    y ∈ (d.ask x).2.waiters := by
  have herase : y ∈ d.waiters.erase x := (List.mem_erase_of_ne hne).mpr hy
  by_cases hfired : x.token ∈ d.fired
  · rw [Desk.ask_of_fired hfired]
    exact herase
  · by_cases hhanded : x.ticket ∈ d.limiter.assigned
    · rw [Desk.ask_of_handed hfired hhanded, Desk.waiters_keep]
      exact herase
    · rw [Desk.ask_of_queued hfired hhanded]
      exact hy

/-- That some of those who wait ask one after the other, are just so many moves. -/
theorem run_ask (waiters : List Waiter) (hnodup : waiters.Nodup) (hsub : waiters ⊆ c.desk.waiters) :
    (c.run (waiters.map .ask)).desk = (c.desk.askAll waiters).2 := by
  induction waiters generalizing c with
  | nil => rfl
  | cons x rest ih =>
    obtain ⟨hx, hsub⟩ := List.cons_subset.mp hsub
    obtain ⟨hnot, hnodup⟩ := List.nodup_cons.mp hnodup
    have hmove : (c.move (.ask x)).desk = (c.desk.ask x).2 := by
      show (if x ∈ c.desk.waiters then c.desk.ask x else (⟨[], []⟩, c.desk)).2 = _
      rw [if_pos hx]
    have hrest : rest ⊆ (c.move (.ask x)).desk.waiters := by
      rw [hmove]
      intro y hy
      exact mem_waiters_ask (hsub hy) fun heq => hnot (heq ▸ hy)
    show ((c.move (.ask x)).run (rest.map .ask)).desk = ((c.desk.ask x).2.askAll rest).2
    rw [ih hnodup hrest, hmove]

end Chronicle

/-! ## In order -/

/-- Someone has gone without a slot: all others are as well off as they were, and a slot that had
been handed to the one who has gone was handed on to the oldest in the queue, if there was one. -/
structure Desk.PassedOn (d : Desk) (x : Waiter) (next : Desk) : Prop where
  permits : next.permits = d.permits
  others : next.waiters = d.waiters.erase x
  handed : ∀ y ∈ next.waiters, y.ticket ∈ d.limiter.assigned → y.ticket ∈ next.limiter.assigned
  slots : next.limiter.assigned.length + next.limiter.free =
    d.limiter.assigned.length + d.limiter.free
  oldest : x.ticket ∈ d.limiter.assigned → ∀ ticket, d.limiter.queue.head? = some ticket →
    ticket ∈ next.limiter.assigned

namespace Chronicle

/-- What is guaranteed at any time. -/
structure Guarded (slots : Nat) (moves : List Desk.Move) (c : Chronicle) : Prop where
  /-- The slots that are had, handed out and free are all the slots. -/
  slots : c.desk.permits.length + c.desk.limiter.assigned.length + c.desk.limiter.free = max slots 1
  /-- Who does not wait gets a slot just if one is free. -/
  attempts : ∀ name, (c.desk.note (.attempt name)).1 =
    if 0 < c.desk.limiter.free then .granted else .refused
  /-- Who comes with a token that has fired fails, even if a slot is free, and changes nothing. -/
  late : ∀ name token, token ∈ c.desk.fired →
    (c.desk.note (.acquire name token)).2 = (⟨[], [(name, .admissionCancelled)]⟩, c.desk)
  /-- Who waits with a token that has fired fails, even if a slot was handed out for it. -/
  calledOff : ∀ x ∈ c.desk.waiters, x.token ∈ c.desk.fired →
    (c.desk.ask x).1 = ⟨[], [(x.name, .admissionCancelled)]⟩ ∧ c.desk.PassedOn x (c.desk.ask x).2
  /-- Who gives up leaves the slots to the others. -/
  givenUp : ∀ m, ∀ x ∈ c.desk.waiters, (c.desk.move m).1.granted = [] →
    x ∉ (c.desk.move m).2.waiters → c.desk.PassedOn x (c.desk.move m).2
  /-- Everyone who has come waits, was admitted or has gone. -/
  fates : (c.admitted ++ c.gone ++ c.desk.waiters).Perm c.arrived
  distinct : c.arrived.Nodup
  /-- Nobody has gone who was not called off and did not give up. -/
  reasons : ∀ x ∈ c.gone, x.token ∈ c.desk.fired ∨ .note (.abandon x.name) ∈ moves

/-- What is guaranteed when those who wait have asked. -/
structure AtRest (slots : Nat) (c : Chronicle) : Prop where
  slots : c.desk.permits.length + c.desk.limiter.free = max slots 1
  /-- A slot is free only if nobody waits. -/
  served : 0 < c.desk.limiter.free → c.desk.waiters = []
  /-- Who has come before someone who was admitted was admitted too, or has gone. -/
  inTurn : ∀ earlier later, [earlier, later].Sublist c.arrived → later ∈ c.admitted →
    earlier ∈ c.admitted ∨ earlier ∈ c.gone

variable {c : Chronicle} {moves : List Desk.Move} {slots : Nat}

theorem Sound.passedOn (h : c.Sound moves) {m : Desk.Move} {tidings : Tidings} {next : Desk}
    (hf : c.desk.Follows m tidings next) {x : Waiter} (hx : x ∈ c.desk.waiters)
    (hnobody : tidings.granted = []) (hgone : x ∉ next.waiters) : c.desk.PassedOn x next := by
  have hnodup := h.kept.nodup_waiters
  have hbefore := h.kept.slots
  have hafter := hf.kept.slots
  rw [hf.later.capacity] at hafter
  cases hf.moved with
  | stayed hwaiters _ => exact absurd (hwaiters ▸ hx) hgone
  | joined y _ _ hwaiters _ =>
    exact absurd (hwaiters ▸ List.mem_append_left _ hx) hgone
  | admitted y _ _ _ htold =>
    rw [hnobody] at htold
    cases htold
  | left y hy _ hwaiters hpermits hlimiter _ =>
    obtain rfl : x = y := by
      by_contra hne
      exact hgone (hwaiters ▸ (List.mem_erase_of_ne hne).mpr hx)
    rw [hpermits] at hafter
    refine ⟨hpermits, hwaiters, fun z hz hhanded => ?_, by omega, fun hhanded ticket hhead => ?_⟩
    · rw [hwaiters, hnodup.mem_erase_iff] at hz
      have hne : z.ticket ≠ x.ticket := fun heq => hz.1
        (List.inj_on_of_nodup_map (List.nodup_append.mp h.kept.nodup).1 hz.2 hx heq)
      rw [hlimiter]
      exact Limiter.Books.mem_assigned_leave hhanded hne
    · rw [hlimiter]
      exact h.kept.head_mem_assigned_leave hhanded hhead

theorem Sound.guarded (h : c.Sound moves) (hcapacity : c.desk.limiter.capacity = max slots 1) :
    c.Guarded slots moves where
  slots := by
    have hslots := h.kept.slots
    rwa [List.length_map, hcapacity] at hslots
  attempts name := by
    split
    case isTrue hfree => rw [Desk.note_attempt_of_free hfree]
    case isFalse hfull => rw [Desk.note_attempt_of_full hfull]
  late name token hfired := by rw [Desk.note_acquire_of_fired hfired]
  calledOff x hx hfired := by
    have hf := h.kept.ask hx
    have htold : (c.desk.ask x).1 = ⟨[], [(x.name, .admissionCancelled)]⟩ := by
      rw [Desk.ask_of_fired hfired]
    refine ⟨htold, h.passedOn hf hx (by rw [htold]) ?_⟩
    rw [Desk.ask_of_fired hfired]
    exact h.kept.nodup_waiters.not_mem_erase
  givenUp m x hx hnobody hgone := h.passedOn (h.kept.move m) hx hnobody hgone
  fates := h.fates
  distinct := h.order.imp fun hlt heq => hlt.ne (congrArg Waiter.ticket heq)
  reasons := h.reasons

theorem Sound.atRest (h : c.Sound moves) (hcapacity : c.desk.limiter.capacity = max slots 1)
    (hsettled : c.desk.Settled) : c.AtRest slots where
  slots := by
    have hslots := h.kept.slots
    rwa [List.length_map, hcapacity, hsettled.assigned_eq_nil h.kept] at hslots
  served := hsettled.waiters_eq_nil h.kept
  inTurn earlier later hbefore hlater := by
    have hlt : earlier.ticket < later.ticket :=
      List.rel_of_pairwise_cons (h.order.sublist hbefore) (List.mem_singleton_self later)
    have hearlier : earlier ∈ c.arrived := hbefore.subset List.mem_cons_self
    rw [← h.fates.mem_iff, List.mem_append, List.mem_append] at hearlier
    refine hearlier.resolve_right fun hwaits => ?_
    have hqueued := (hsettled.queued h.kept hwaits).1
    exact hlt.not_gt (h.inTurn later hlater earlier.ticket hqueued)

end Chronicle

/-- **Slots are given out in order.** Whatever happens at a desk, and however those who wait ask in
between, slots are neither lost nor given out twice, who fails or gives up leaves the slots to the
others, and once those who wait have asked, nobody waits while a slot is free and nobody was
admitted before another who came earlier and still waits. After each event all of them ask once, and
that is enough. -/
theorem admission_in_order (slots : Nat) (hslots : slots ≤ maxSlots) (moves : List Desk.Move) :
    ∃ limiter, Limiter.ofCapacity? slots = some limiter ∧
      let c := (Chronicle.start limiter).run moves
      c.Guarded slots moves ∧ (c.desk.Settled → c.AtRest slots) ∧
        ∀ event, (c.desk.step event).2.2.Settled ∧
          ∃ more, (c.run more).desk = (c.desk.step event).2.2 := by
  have hstart := Chronicle.sound_start slots
  have hsound := hstart.run moves
  have hcapacity : ((Chronicle.start (.ofCapacity slots)).run moves).desk.limiter.capacity =
      max slots 1 := hstart.capacity_run moves
  rw [List.nil_append] at hsound
  refine ⟨.ofCapacity slots, if_pos hslots, hsound.guarded hcapacity, hsound.atRest hcapacity,
    fun event => ?_⟩
  have hnoted := hsound.follow (hsound.kept.move (.note event))
  generalize (Chronicle.start (.ofCapacity slots)).run moves = c at hnoted ⊢
  have hsorted : (c.move (.note event)).desk.waiters.Pairwise (·.ticket < ·.ticket) :=
    hnoted.order.sublist hnoted.waits
  refine ⟨Desk.settled_askAll [] _ hnoted.kept rfl hsorted nofun,
    .note event :: (c.move (.note event)).desk.waiters.map .ask, ?_⟩
  exact (c.move (.note event)).run_ask _ hnoted.kept.nodup_waiters (List.Subset.refl _)

/-- The only slot is given back and handed out for `b`, whose token fires before it asks. -/
def handedOver : List Desk.Move :=
  [.note (.attempt "a"), .note (.acquire "b" "t"), .note (.acquire "c" "u"),
    .note (.acquire "d" "u"), .note (.release "a"), .note (.cancel "t"), .ask ⟨"d", "u", 3⟩,
    .ask ⟨"b", "t", 1⟩, .ask ⟨"c", "u", 2⟩]

/-- The slot goes to `c`, and `d` goes on waiting. -/
theorem admission_in_order_handedOver :
    let c := (Chronicle.start (.ofCapacity 0)).run handedOver
    c.AtRest 0 ∧ c.admitted = [⟨"c", "u", 2⟩] ∧ c.gone = [⟨"b", "t", 1⟩] ∧
      c.desk.waiters = [⟨"d", "u", 3⟩] := by
  obtain ⟨limiter, hlimiter, -, hrest, -⟩ := admission_in_order 0 (Nat.zero_le _) handedOver
  obtain rfl : .ofCapacity 0 = limiter := Option.some.inj hlimiter
  exact ⟨hrest (by decide), by decide, by decide, by decide⟩

end MediaShelf.Admission
