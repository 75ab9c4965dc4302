import Mathlib
import MediaShelf.Admission.Limiter

/-!
# Keeping the books of a limiter

Whoever uses a limiter can keep a list of the tickets that wait and a list of those that have a
slot. The limiter agrees with such lists (`Limiter.Books`) after everything that is done to it, as
long as the same is done to the lists; and they alone determine how many slots are free
(`Books.free_eq`).
-/

namespace MediaShelf.Admission.Limiter

/-- The tickets that wait, whether or not they were handed a slot. -/
def waiting (l : Limiter) : List Ticket := l.queue ++ l.assigned

/-- The tickets that were handed a slot, whether or not they have taken it. -/
def handed (l : Limiter) : List Ticket := l.assigned ++ l.holders

/-- Every ticket was drawn and stands in one place. The tickets in the queue stand there in the
order in which they were drawn, and were drawn after all that were handed a slot. -/
structure Orderly (l : Limiter) : Prop where
  served : l.Served
  nodup : (l.queue ++ l.handed).Nodup
  drawn : ∀ ticket ∈ l.queue ++ l.handed, ticket < l.next
  sorted : l.queue.Pairwise (· < ·)
  inTurn : ∀ ticket ∈ l.handed, ∀ later ∈ l.queue, ticket < later

/-- A limiter agrees with the lists of those who wait and of those who have a slot. -/
structure Books (l : Limiter) (waiting held : List Ticket) : Prop where
  orderly : l.Orderly
  balanced : l.Balanced
  waits : waiting.Perm l.waiting
  holds : held.Perm l.holders

variable {l l' : Limiter} {ticket : Ticket} {waiting held : List Ticket}

theorem waiting_append_holders (l : Limiter) : l.waiting ++ l.holders = l.queue ++ l.handed :=
  List.append_assoc _ _ _

/-! ## Order -/

namespace Orderly

/-- Nobody is queued while a slot is free. -/
theorem queue_eq_nil (h : l.Orderly) (hfree : 0 < l.free) : l.queue = [] :=
  h.served.resolve_left hfree.ne'

/-- Tickets may be taken away, and those that were handed a slot may take it. -/
theorem of_subperm (h : l.Orderly) (hqueue : l'.queue.Sublist l.queue)
    (hhanded : l'.handed.Subperm l.handed) (hfree : l'.free = l.free) (hnext : l'.next = l.next) :
    l'.Orderly := by
  obtain ⟨some, hperm, hsub⟩ := hhanded
  have hall : (l'.queue ++ l'.handed).Perm (l'.queue ++ some) := hperm.symm.append_left _
  have hless : (l'.queue ++ some).Sublist (l.queue ++ l.handed) := hqueue.append hsub
  refine ⟨?_, hall.nodup_iff.mpr (h.nodup.sublist hless), fun ticket hticket => ?_,
    h.sorted.sublist hqueue, fun ticket hticket later hlater => ?_⟩
  · rcases h.served with hnone | hnil
    · exact .inl (hfree.trans hnone)
    · exact .inr (List.sublist_nil.mp (hnil ▸ hqueue))
  · rw [hnext]
    exact h.drawn ticket (hless.subset (hall.mem_iff.mp hticket))
  · exact h.inTurn ticket (hsub.subset (hperm.mem_iff.mpr hticket)) later (hqueue.subset hlater)

/-- A new ticket may be handed a slot when nobody is queued. -/
theorem of_handed (h : l.Orderly) (hqueue : l.queue = []) (hnone : l'.queue = [])
    (hhanded : l'.handed.Perm (l.next :: l.handed)) (hnext : l'.next = l.next + 1) :
    l'.Orderly := by
  have hdrawn : ∀ ticket ∈ l.handed, ticket < l.next := fun ticket hticket =>
    h.drawn ticket (List.mem_append_right _ hticket)
  have hnodup := h.nodup
  rw [hqueue, List.nil_append] at hnodup
  refine ⟨.inr hnone, ?_, fun ticket hticket => ?_, ?_, ?_⟩
  · rw [hnone, List.nil_append, hhanded.nodup_iff]
    exact List.nodup_cons.mpr ⟨fun hmem => (hdrawn _ hmem).ne rfl, hnodup⟩
  · rw [hnone, List.nil_append, hhanded.mem_iff] at hticket
    rw [hnext]
    rcases List.mem_cons.mp hticket with rfl | hold
    · exact Nat.lt_succ_self _
    · exact (hdrawn ticket hold).trans (Nat.lt_succ_self _)
  · rw [hnone]
    exact List.Pairwise.nil
  · rw [hnone]
    exact fun _ _ _ => nofun

/-- A new ticket may be queued when no slot is free. -/
theorem of_queued (h : l.Orderly) (hfree : l'.free = 0) (hqueue : l'.queue = l.queue ++ [l.next])
    (hhanded : l'.handed = l.handed) (hnext : l'.next = l.next + 1) : l'.Orderly := by
  have hall : (l'.queue ++ l'.handed).Perm (l.next :: (l.queue ++ l.handed)) := by
    rw [hqueue, hhanded, List.append_assoc]
    exact List.perm_middle
  refine ⟨.inl hfree, ?_, fun ticket hticket => ?_, ?_, fun ticket hticket later hlater => ?_⟩
  · rw [hall.nodup_iff]
    exact List.nodup_cons.mpr ⟨fun hmem => (h.drawn _ hmem).ne rfl, h.nodup⟩
  · rw [hnext]
    rcases List.mem_cons.mp (hall.mem_iff.mp hticket) with rfl | hold
    · exact Nat.lt_succ_self _
    · exact (h.drawn ticket hold).trans (Nat.lt_succ_self _)
  · rw [hqueue]
    refine List.pairwise_append.mpr ⟨h.sorted, List.pairwise_singleton _ _, ?_⟩
    intro earlier hearlier later hlater
    rw [List.mem_singleton.mp hlater]
    exact h.drawn earlier (List.mem_append_left _ hearlier)
  · rw [hhanded] at hticket
    rw [hqueue] at hlater
    rcases List.mem_append.mp hlater with hqueued | hnew
    · exact h.inTurn ticket hticket later hqueued
    · rw [List.mem_singleton.mp hnew]
      exact h.drawn ticket (List.mem_append_right _ hticket)

/-- A slot is handed on in the order of the queue. -/
theorem handOn (h : l.Orderly) : l.handOn.Orderly := by
  have hserved := h.served
  unfold Limiter.Served at hserved
  cases hqueue : l.queue with
  | nil =>
    have heq : l.handOn = { l with free := l.free + 1 } := by
      unfold Limiter.handOn
      rw [hqueue]
    rw [heq]
    exact ⟨.inr hqueue, h.nodup, h.drawn, h.sorted, h.inTurn⟩
  | cons oldest rest =>
    have heq : l.handOn = { l with queue := rest, assigned := l.assigned ++ [oldest] } := by
      unfold Limiter.handOn
      rw [hqueue]
    have hsorted := h.sorted
    rw [hqueue] at hsorted
    obtain ⟨holdest, hrest⟩ := List.pairwise_cons.mp hsorted
    have hperm : (l.handOn.queue ++ l.handOn.handed).Perm (l.queue ++ l.handed) := by
      rw [heq, hqueue]
      show (rest ++ (l.assigned ++ [oldest] ++ l.holders)).Perm
        (oldest :: rest ++ (l.assigned ++ l.holders))
      rw [List.append_assoc, List.cons_append, ← List.append_assoc, ← List.append_assoc]
      exact List.perm_middle
    refine ⟨.inl ?_, hperm.nodup_iff.mpr h.nodup, fun ticket hticket => ?_, ?_,
      fun ticket hticket later hlater => ?_⟩
    · rw [heq]
      exact hserved.resolve_right (by rw [hqueue]; exact List.cons_ne_nil _ _)
    · rw [heq] at hticket ⊢
      exact h.drawn ticket (hperm.mem_iff.mp (heq ▸ hticket))
    · rw [heq]
      exact hrest
    · rw [heq] at hticket hlater
      have hmem : ticket ∈ l.assigned ++ [oldest] ++ l.holders := hticket
      have hbehind : later ∈ rest := hlater
      rw [List.mem_append, List.mem_append, List.mem_singleton] at hmem
      rcases hmem with (hassigned | rfl) | hheld
      · exact h.inTurn ticket (List.mem_append_left _ hassigned) later
          (hqueue ▸ List.mem_cons_of_mem _ hbehind)
      · exact holdest later hbehind
      · exact h.inTurn ticket (List.mem_append_right _ hheld) later
          (hqueue ▸ List.mem_cons_of_mem _ hbehind)

end Orderly

/-! ## Handing slots on -/

theorem waiting_handOn (l : Limiter) : l.handOn.waiting.Perm l.waiting := by
  unfold handOn Limiter.waiting
  cases l.queue with
  | nil => exact .refl _
  | cons oldest rest =>
    show (rest ++ (l.assigned ++ [oldest])).Perm (oldest :: rest ++ l.assigned)
    rw [← List.append_assoc]
    exact List.perm_append_singleton oldest _

@[simp] theorem holders_handOn (l : Limiter) : l.handOn.holders = l.holders := by
  unfold handOn
  split <;> rfl

@[simp] theorem capacity_handOn (l : Limiter) : l.handOn.capacity = l.capacity := by
  unfold handOn
  split <;> rfl

/-- One slot more is free, or was handed to the oldest ticket. -/
theorem slots_handOn (l : Limiter) : l.handOn.free + l.handOn.assigned.length =
    l.free + l.assigned.length + 1 := by
  unfold handOn
  split
  · exact Nat.add_right_comm _ _ _
  · rw [List.length_append]
    rfl

/-- Handing a slot on makes up for the one that is missing. -/
theorem Orderly.books_handOn (h : l.Orderly) (hwaits : waiting.Perm l.waiting)
    (hholds : held.Perm l.holders)
    (hmissing : l.free + l.assigned.length + l.holders.length + 1 = l.capacity) :
    l.handOn.Books waiting held where
  orderly := h.handOn
  balanced := by
    have hslots := slots_handOn l
    unfold Balanced
    rw [holders_handOn, capacity_handOn]
    omega
  waits := hwaits.trans (waiting_handOn l).symm
  holds := by
    rw [holders_handOn]
    exact hholds

/-! ## What asking gives -/

theorem tryAcquire_eq_some (h : l.tryAcquire = (some ticket, l')) :
    0 < l.free ∧ ticket = l.next ∧ l' = l.tryAcquire.2 := by
  refine ⟨?_, ?_, (congrArg Prod.snd h).symm⟩
  all_goals
    unfold tryAcquire at h
    split at h
  · assumption
  · cases h
  · exact (Option.some.inj (congrArg Prod.fst h)).symm
  · cases h

theorem poll_eq_granted {cancelled : Bool} (h : l.poll ticket cancelled = (.granted, l')) :
    cancelled = false ∧ ticket ∈ l.assigned ∧ l' = (l.poll ticket false).2 := by
  cases cancelled with
  | true => cases h
  | false =>
    refine ⟨rfl, ?_, (congrArg Prod.snd h).symm⟩
    by_contra hnot
    rw [poll, if_neg Bool.false_ne_true, if_neg hnot] at h
    cases h

theorem poll_eq_cancelled {cancelled : Bool} (h : l.poll ticket cancelled = (.cancelled, l')) :
    l' = l.leave ticket := by
  unfold poll at h
  split at h
  · exact (congrArg Prod.snd h).symm
  · split at h <;> cases h

/-! ## What the lists tell -/

theorem books_ofCapacity (capacity : Nat) : (ofCapacity capacity).Books [] [] where
  orderly := ⟨served_ofCapacity capacity, List.nodup_nil, nofun, List.Pairwise.nil, nofun⟩
  balanced := balanced_ofCapacity capacity
  waits := .refl _
  holds := .refl _

namespace Books

theorem of_perm (h : l.Books waiting held) {waiting' held' : List Ticket}
    (hwaits : waiting'.Perm waiting) (hholds : held'.Perm held) : l.Books waiting' held' :=
  ⟨h.orderly, h.balanced, hwaits.trans h.waits, hholds.trans h.holds⟩

/-- The slots that are had, handed out and free are all the slots. -/
theorem slots (h : l.Books waiting held) :
    held.length + l.assigned.length + l.free = l.capacity := by
  have hbalanced := h.balanced
  unfold Balanced at hbalanced
  rw [h.holds.length_eq]
  omega

/-- As many slots are free as nobody has or waits for. -/
theorem free_eq (h : l.Books waiting held) :
    l.free = l.capacity - (held.length + waiting.length) := by
  have hslots := h.slots
  rw [h.waits.length_eq, Limiter.waiting, List.length_append]
  rcases h.orderly.served with hfree | hqueue
  · omega
  · rw [hqueue, List.length_nil]
    omega

theorem perm (h : l.Books waiting held) : (waiting ++ held).Perm (l.queue ++ l.handed) := by
  rw [← waiting_append_holders]
  exact h.waits.append h.holds

/-- Nobody is in two places. -/
theorem nodup (h : l.Books waiting held) : (waiting ++ held).Nodup :=
  h.perm.nodup_iff.mpr h.orderly.nodup

/-- Who waits is queued, or was handed a slot. -/
theorem mem_queue (h : l.Books waiting held) (hticket : ticket ∈ waiting)
    (hnot : ticket ∉ l.assigned) : ticket ∈ l.queue :=
  (List.mem_append.mp (h.waits.mem_iff.mp hticket)).resolve_right hnot

theorem not_mem_queue (h : l.Books waiting held) (hticket : ticket ∈ l.assigned) :
    ticket ∉ l.queue := fun hqueue =>
  (List.nodup_append.mp h.orderly.nodup).2.2 ticket hqueue ticket
    (List.mem_append_left _ hticket) rfl

/-! ## What is done to a limiter -/

/-- A new ticket waits. -/
theorem enter (h : l.Books waiting held) : l.enter.2.Books (l.next :: waiting) held := by
  have hbalanced := h.balanced.enter
  have hwaits := h.waits.cons l.next
  unfold Limiter.enter at hbalanced ⊢
  split
  case isTrue hfree =>
    rw [if_pos hfree] at hbalanced
    have hqueue := h.orderly.queue_eq_nil hfree
    have hassigned : (l.assigned ++ [l.next]).Perm (l.next :: l.assigned) :=
      List.perm_append_singleton _ _
    refine ⟨h.orderly.of_handed hqueue hqueue (hassigned.append_right _) rfl, hbalanced, ?_,
      h.holds⟩
    exact hwaits.trans (List.perm_middle.symm.trans (hassigned.symm.append_left _))
  case isFalse hnone =>
    rw [if_neg hnone] at hbalanced
    refine ⟨h.orderly.of_queued (Nat.eq_zero_of_not_pos hnone) rfl rfl rfl, hbalanced, ?_, h.holds⟩
    refine hwaits.trans ?_
    show (l.next :: (l.queue ++ l.assigned)).Perm (l.queue ++ [l.next] ++ l.assigned)
    rw [List.append_assoc]
    exact List.perm_middle.symm

/-- A free slot is taken. -/
theorem tryAcquire (h : l.Books waiting held) (hfree : 0 < l.free) :
    l.tryAcquire.1 = some l.next ∧ l.tryAcquire.2.Books waiting (l.next :: held) := by
  have hbalanced := h.balanced.tryAcquire
  have hqueue := h.orderly.queue_eq_nil hfree
  have hholders : (l.holders ++ [l.next]).Perm (l.next :: l.holders) :=
    List.perm_append_singleton _ _
  unfold Limiter.tryAcquire at hbalanced ⊢
  rw [if_pos hfree] at hbalanced ⊢
  refine ⟨rfl, h.orderly.of_handed hqueue hqueue ?_ rfl, hbalanced, h.waits,
    (h.holds.cons _).trans hholders.symm⟩
  exact (hholders.append_left _).trans List.perm_middle

/-- Who was handed a slot takes it. -/
theorem grant (h : l.Books (ticket :: waiting) held) (hticket : ticket ∈ l.assigned) :
    (l.poll ticket false).1 = .granted ∧
      (l.poll ticket false).2.Books waiting (ticket :: held) := by
  have hassigned := List.perm_cons_erase hticket
  have hholders : (l.holders ++ [ticket]).Perm (ticket :: l.holders) :=
    List.perm_append_singleton _ _
  unfold Limiter.poll
  rw [if_neg Bool.false_ne_true, if_pos hticket]
  refine ⟨rfl, h.orderly.of_subperm (List.Sublist.refl _) (List.Perm.subperm ?_) rfl rfl, ?_, ?_,
    (h.holds.cons _).trans hholders.symm⟩
  · exact (hholders.append_left _).trans
      (List.perm_middle.trans (hassigned.symm.append_right l.holders))
  · have hbalanced := h.balanced
    have hlength := hassigned.length_eq
    simp only [Balanced, List.length_append, List.length_cons, List.length_nil] at *
    omega
  · refine List.Perm.cons_inv (h.waits.trans ?_)
    exact (hassigned.append_left _).trans List.perm_middle

/-- A ticket that waits is taken away. -/
theorem leave (h : l.Books (ticket :: waiting) held) : (l.leave ticket).Books waiting held := by
  have hbalanced := h.balanced
  unfold Limiter.leave
  split
  case isTrue hqueue =>
    refine ⟨h.orderly.of_subperm List.erase_sublist (.refl _) rfl rfl, hbalanced, ?_, h.holds⟩
    exact List.Perm.cons_inv (h.waits.trans ((List.perm_cons_erase hqueue).append_right _))
  case isFalse hqueue =>
    have hassigned : ticket ∈ l.assigned :=
      (List.mem_append.mp (h.waits.mem_iff.mp List.mem_cons_self)).resolve_left hqueue
    rw [if_pos hassigned]
    have horderly : { l with assigned := l.assigned.erase ticket }.Orderly :=
      h.orderly.of_subperm (List.Sublist.refl _)
        (List.erase_sublist.append (List.Sublist.refl l.holders)).subperm rfl rfl
    refine horderly.books_handOn (List.Perm.cons_inv (h.waits.trans ?_)) h.holds ?_
    · exact ((List.perm_cons_erase hassigned).append_left _).trans List.perm_middle
    · have hlength := List.length_erase_add_one hassigned
      unfold Balanced at hbalanced
      show l.free + (l.assigned.erase ticket).length + l.holders.length + 1 = l.capacity
      omega

/-- A slot is given back. -/
theorem release (h : l.Books waiting (ticket :: held)) : (l.release ticket).Books waiting held := by
  have hheld : ticket ∈ l.holders := h.holds.mem_iff.mp List.mem_cons_self
  have hbalanced := h.balanced
  have horderly : { l with holders := l.holders.erase ticket }.Orderly :=
    h.orderly.of_subperm (List.Sublist.refl _)
      ((List.Sublist.refl l.assigned).append List.erase_sublist).subperm rfl rfl
  unfold Limiter.release
  rw [if_pos hheld]
  refine horderly.books_handOn h.waits
    (List.Perm.cons_inv (h.holds.trans (List.perm_cons_erase hheld))) ?_
  have hlength := List.length_erase_add_one hheld
  unfold Balanced at hbalanced
  show l.free + l.assigned.length + (l.holders.erase ticket).length + 1 = l.capacity
  omega

/-- Who leaves the queue had no slot. -/
theorem assigned_leave_of_queued (hqueued : ticket ∈ l.queue) :
    (l.leave ticket).assigned = l.assigned := by
  unfold Limiter.leave
  rw [if_pos hqueued]

/-- Who was handed a slot keeps it when somebody else leaves. -/
theorem mem_assigned_leave {other : Ticket} (hother : other ∈ l.assigned) (hne : other ≠ ticket) :
    other ∈ (l.leave ticket).assigned := by
  have hkeeps : other ∈ l.assigned.erase ticket := (List.mem_erase_of_ne hne).mpr hother
  unfold Limiter.leave
  split
  · exact hother
  · split
    · unfold handOn
      split
      · exact hkeeps
      · exact List.mem_append_left _ hkeeps
    · exact hother

/-- Who leaves with a slot hands it on to the oldest in the queue. -/
theorem head_mem_assigned_leave (h : l.Books waiting held) (hticket : ticket ∈ l.assigned)
    {oldest : Ticket} (holdest : l.queue.head? = some oldest) :
    oldest ∈ (l.leave ticket).assigned := by
  obtain ⟨rest, hqueue⟩ := List.head?_eq_some_iff.mp holdest
  unfold Limiter.leave
  rw [if_neg (h.not_mem_queue hticket), if_pos hticket]
  unfold handOn
  rw [hqueue]
  exact List.mem_append_right _ (List.mem_singleton_self oldest)

end Books

/-! ## What comes later -/

/-- A limiter may have become another one: nobody is queued anew but with a new ticket. -/
structure Later (l l' : Limiter) : Prop where
  capacity : l'.capacity = l.capacity
  next : l.next ≤ l'.next
  queue : ∀ ticket ∈ l'.queue, ticket ∈ l.queue ∨ l.next ≤ ticket

theorem Later.refl (l : Limiter) : l.Later l := ⟨rfl, Nat.le_refl _, fun _ => .inl⟩

theorem Later.trans {l'' : Limiter} (h : l.Later l') (h' : l'.Later l'') : l.Later l'' := by
  refine ⟨h'.capacity.trans h.capacity, h.next.trans h'.next, fun ticket hticket => ?_⟩
  rcases h'.queue ticket hticket with hqueued | hnew
  · exact h.queue ticket hqueued
  · exact .inr (h.next.trans hnew)

theorem later_handOn (l : Limiter) : l.Later l.handOn := by
  unfold handOn
  split
  · exact ⟨rfl, Nat.le_refl _, fun _ => .inl⟩
  · rename_i oldest rest hqueue
    refine ⟨rfl, Nat.le_refl _, fun ticket hticket => .inl ?_⟩
    rw [hqueue]
    exact List.mem_cons_of_mem _ hticket

theorem later_release (l : Limiter) (ticket : Ticket) : l.Later (l.release ticket) := by
  unfold release
  split
  · have hless : l.Later { l with holders := l.holders.erase ticket } :=
      ⟨rfl, Nat.le_refl _, fun _ => .inl⟩
    exact hless.trans (later_handOn _)
  · exact .refl l

theorem later_leave (l : Limiter) (ticket : Ticket) : l.Later (l.leave ticket) := by
  unfold leave
  split
  · exact ⟨rfl, Nat.le_refl _, fun _ hother => .inl (List.mem_of_mem_erase hother)⟩
  · split
    · have hless : l.Later { l with assigned := l.assigned.erase ticket } :=
        ⟨rfl, Nat.le_refl _, fun _ => .inl⟩
      exact hless.trans (later_handOn _)
    · exact .refl l

theorem later_poll (l : Limiter) (ticket : Ticket) (cancelled : Bool) :
    l.Later (l.poll ticket cancelled).2 := by
  unfold poll
  split
  · exact later_leave l ticket
  · split
    · exact ⟨rfl, Nat.le_refl _, fun _ => .inl⟩
    · exact .refl l

theorem later_tryAcquire (l : Limiter) : l.Later l.tryAcquire.2 := by
  unfold tryAcquire
  split
  · exact ⟨rfl, Nat.le_succ _, fun _ => .inl⟩
  · exact .refl l

theorem later_enter (l : Limiter) : l.Later l.enter.2 := by
  unfold enter
  split
  · exact ⟨rfl, Nat.le_succ _, fun _ => .inl⟩
  · refine ⟨rfl, Nat.le_succ _, fun ticket hticket => ?_⟩
    rcases List.mem_append.mp hticket with hqueued | hnew
    · exact .inl hqueued
    · exact .inr (List.mem_singleton.mp hnew).ge

end MediaShelf.Admission.Limiter
