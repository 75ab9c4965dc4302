import MediaShelf.Proofs.Admission.Books
import MediaShelf.Proofs.Shelf.Mounts

/-!
# Who has a stake in which volume

Everyone who waits for a slot of a volume, or has one, has a stake there. A table of mounts accounts
for some stakes if every limiter has just the tickets of those in its volume (`Accounted`). There
are only a few turns that a stake can take together with the table (`Turn`), and after each of them
the table accounts for the stakes again (`Turn.accounted`).
-/

namespace MediaShelf

open MediaShelf.Admission
open MediaShelf.Catalog

/-- A ticket for a slot of a volume. -/
structure Stake where
  volume : VolumeId
  ticket : Ticket
  /-- Whether the slot was taken, or is waited for. -/
  held : Bool
  deriving DecidableEq

/-- The tickets of those who have slots of a volume, or of those who wait for them. -/
def tickets (volume : VolumeId) (held : Bool) (stakes : List Stake) : List Ticket :=
  (stakes.filter fun stake => stake.volume = volume ∧ stake.held = held).map (·.ticket)

/-- Every stake is in a volume of the table, and every limiter agrees with the stakes in its
volume. -/
structure Accounted (table : MountTable) (stakes : List Stake) : Prop where
  mounted : ∀ stake ∈ stakes, stake.volume ∈ table.map (·.id)
  books : ∀ mount ∈ table,
    mount.limiter.Books (tickets mount.id false stakes) (tickets mount.id true stakes)

/-- Somebody comes to have a stake, and the table changes with it. -/
inductive Joins (table : MountTable) : MountTable → Stake → Prop
  /-- Somebody starts to wait. -/
  | waits {volume : VolumeId} {mount : Mount} (find : table.find? volume = some mount) :
      Joins table (table.changeLimiter (·.enter.2) volume) ⟨volume, mount.limiter.next, false⟩
  /-- Somebody takes a free slot. -/
  | takes {volume : VolumeId} {mount : Mount} (find : table.find? volume = some mount)
      (free : 0 < mount.limiter.free) :
      Joins table (table.changeLimiter (·.tryAcquire.2) volume) ⟨volume, mount.limiter.next, true⟩

/-- What may become of a stake, and of the table with it. -/
inductive Turn (table : MountTable) : Option Stake → MountTable → Option Stake → Prop
  | stays (own : Option Stake) : Turn table own table own
  /-- Somebody who waits gets a slot. -/
  | gets {volume : VolumeId} {ticket : Ticket} {mount : Mount}
      (find : table.find? volume = some mount) (handed : ticket ∈ mount.limiter.assigned) :
      Turn table (some ⟨volume, ticket, false⟩)
        (table.changeLimiter (fun l => (l.poll ticket false).2) volume)
        (some ⟨volume, ticket, true⟩)
  /-- Somebody waits no longer. -/
  | leaves (volume : VolumeId) (ticket : Ticket) :
      Turn table (some ⟨volume, ticket, false⟩) (table.changeLimiter (·.leave ticket) volume) none
  /-- Somebody gives a slot back. -/
  | releases (volume : VolumeId) (ticket : Ticket) :
      Turn table (some ⟨volume, ticket, true⟩) (table.changeLimiter (·.release ticket) volume) none

/-! ## Tickets -/

section Tickets

variable {stakes stakes' : List Stake} {volume : VolumeId} {held : Bool}

theorem perm_tickets (h : stakes.Perm stakes') (volume : VolumeId) (held : Bool) :
    (tickets volume held stakes).Perm (tickets volume held stakes') :=
  (h.filter _).map _

theorem tickets_cons_self (volume : VolumeId) (ticket : Ticket) (held : Bool)
    (stakes : List Stake) :
    tickets volume held (⟨volume, ticket, held⟩ :: stakes) =
      ticket :: tickets volume held stakes := by
  unfold tickets
  rw [List.filter_cons_of_pos (by simp), List.map_cons]

theorem tickets_cons_of_held {other : Bool} (h : other ≠ held) (ticket : Ticket) :
    tickets volume held (⟨volume, ticket, other⟩ :: stakes) = tickets volume held stakes := by
  unfold tickets
  rw [List.filter_cons_of_neg (by simpa using h)]

theorem tickets_cons_of_volume {stake : Stake} (h : stake.volume ≠ volume) :
    tickets volume held (stake :: stakes) = tickets volume held stakes := by
  unfold tickets
  rw [List.filter_cons_of_neg (by simp [h])]

theorem perm_tickets_cons (volume : VolumeId) (ticket : Ticket) (held : Bool)
    (stakes : List Stake) :
    (tickets volume false (⟨volume, ticket, held⟩ :: stakes) ++
      tickets volume true (⟨volume, ticket, held⟩ :: stakes)).Perm
        (ticket :: (tickets volume false stakes ++ tickets volume true stakes)) := by
  cases held with
  | false =>
    rw [tickets_cons_self, tickets_cons_of_held Bool.false_ne_true]
    exact .refl _
  | true =>
    rw [tickets_cons_self, tickets_cons_of_held Bool.true_eq_false.mp]
    exact List.perm_middle

/-- A stake tells nothing of other volumes. -/
theorem tickets_toList_append {own : Option Stake} (h : ∀ stake ∈ own, stake.volume ≠ volume) :
    tickets volume held (own.toList ++ stakes) = tickets volume held stakes := by
  cases own with
  | none => rfl
  | some stake => exact tickets_cons_of_volume (h stake rfl)

theorem mem_tickets {ticket : Ticket} :
    ticket ∈ tickets volume held stakes ↔ ⟨volume, ticket, held⟩ ∈ stakes := by
  unfold tickets
  simp only [List.mem_map, List.mem_filter, decide_eq_true_iff]
  constructor
  · rintro ⟨stake, ⟨hmem, rfl, rfl⟩, rfl⟩
    exact hmem
  · intro hmem
    exact ⟨_, ⟨hmem, rfl, rfl⟩, rfl⟩

end Tickets

/-! ## Turns -/

section Turns

variable {table table' : MountTable} {own own' : Option Stake} {stakes stakes' rest : List Stake}
  {stake : Stake} {volume : VolumeId}

theorem Accounted.of_perm (h : Accounted table stakes) (hperm : stakes'.Perm stakes) :
    Accounted table stakes' where
  mounted stake hstake := h.mounted stake (hperm.mem_iff.mp hstake)
  books mount hmount :=
    (h.books mount hmount).of_perm (perm_tickets hperm _ _) (perm_tickets hperm _ _)

/-- What is done to one limiter has to be right for the stakes in its volume. -/
theorem Accounted.changeLimiter (h : Accounted table (own.toList ++ rest))
    {change : Limiter → Limiter} (hown : ∀ stake ∈ own, stake.volume = volume)
    (hown' : ∀ stake ∈ own', stake.volume = volume ∧ volume ∈ table.map (·.id))
    (hframe : (table.changeLimiter change volume).frame = table.frame)
    (hbooks : ∀ mount ∈ table, mount.id = volume →
      mount.limiter.Books (tickets volume false (own.toList ++ rest))
        (tickets volume true (own.toList ++ rest)) →
      (change mount.limiter).Books (tickets volume false (own'.toList ++ rest))
        (tickets volume true (own'.toList ++ rest))) :
    Accounted (table.changeLimiter change volume) (own'.toList ++ rest) := by
  refine ⟨fun stake hstake => ?_, fun mount hmount => ?_⟩
  · rw [MountTable.map_id_eq, hframe, ← MountTable.map_id_eq]
    rcases List.mem_append.mp hstake with hnew | hold
    · obtain ⟨heq, hmem⟩ := hown' stake (Option.mem_toList.mp hnew)
      rwa [heq]
    · exact h.mounted stake (List.mem_append_right _ hold)
  · obtain ⟨old, hold, rfl⟩ := List.mem_map.mp hmount
    have hbefore := h.books old hold
    split
    case isTrue hid =>
      rw [hid] at hbefore
      show (change old.limiter).Books (tickets old.id false _) (tickets old.id true _)
      rw [hid]
      exact hbooks old hold hid hbefore
    case isFalse hid =>
      have hne : ∀ stake ∈ own, stake.volume ≠ old.id := fun stake hstake heq =>
        hid (heq.symm.trans (hown stake hstake))
      have hne' : ∀ stake ∈ own', stake.volume ≠ old.id := fun stake hstake heq =>
        hid (heq.symm.trans (hown' stake hstake).1)
      rw [tickets_toList_append hne, tickets_toList_append hne] at hbefore
      rw [tickets_toList_append hne', tickets_toList_append hne']
      exact hbefore

/-- Nothing changes of a table but who has and who wants its slots. -/
theorem Joins.frame_eq (h : Joins table table' stake) : table'.frame = table.frame := by
  cases h with
  | waits => exact MountTable.frame_changeLimiter (fun l => l.later_enter.capacity) _
  | takes => exact MountTable.frame_changeLimiter (fun l => l.later_tryAcquire.capacity) _

theorem Turn.frame_eq (h : Turn table own table' own') : table'.frame = table.frame := by
  cases h with
  | stays => rfl
  | gets => exact MountTable.frame_changeLimiter (fun l => (l.later_poll _ _).capacity) _
  | leaves => exact MountTable.frame_changeLimiter (fun l => (l.later_leave _).capacity) _
  | releases => exact MountTable.frame_changeLimiter (fun l => (l.later_release _).capacity) _

/-- Somebody who had no stake has one now. -/
theorem Joins.accounted (h : Joins table table' stake) (hids : (table.map (·.id)).Nodup)
    (haccounted : Accounted table rest) : Accounted table' (stake :: rest) := by
  have hframe := h.frame_eq
  have hmem : ∀ {volume : VolumeId} {mount : Mount}, table.find? volume = some mount →
      volume ∈ table.map (·.id) := fun hfind =>
    List.mem_map.mpr ⟨_, MountTable.mem_of_find? hfind⟩
  have hnone : Accounted table (Option.toList none ++ rest) := haccounted
  cases h with
  | waits hfind =>
    show Accounted _ (Option.toList (some _) ++ rest)
    refine hnone.changeLimiter nofun ?_ hframe ?_
    · rintro stake ⟨⟩
      exact ⟨rfl, hmem hfind⟩
    · intro mount hmount hid hbooks
      rw [MountTable.eq_of_find? hids hfind hmount hid] at hbooks ⊢
      rw [Option.toList_some, List.singleton_append, tickets_cons_self,
        tickets_cons_of_held Bool.false_ne_true]
      exact hbooks.enter
  | takes hfind hfree =>
    show Accounted _ (Option.toList (some _) ++ rest)
    refine hnone.changeLimiter nofun ?_ hframe ?_
    · rintro stake ⟨⟩
      exact ⟨rfl, hmem hfind⟩
    · intro mount hmount hid hbooks
      rw [MountTable.eq_of_find? hids hfind hmount hid] at hbooks ⊢
      rw [Option.toList_some, List.singleton_append, tickets_cons_self,
        tickets_cons_of_held Bool.true_eq_false.mp]
      exact (hbooks.tryAcquire hfree).2

/-- After every turn the table accounts for the stakes. -/
theorem Turn.accounted (h : Turn table own table' own') (hids : (table.map (·.id)).Nodup)
    (haccounted : Accounted table (own.toList ++ rest)) :
    Accounted table' (own'.toList ++ rest) := by
  have hframe := h.frame_eq
  have hself : ∀ {volume : VolumeId} {ticket : Ticket} {held : Bool},
      ∀ stake ∈ some (⟨volume, ticket, held⟩ : Stake), stake.volume = volume := by
    rintro volume ticket held stake ⟨⟩
    rfl
  cases h with
  | stays => exact haccounted
  | gets hfind hhanded =>
    refine haccounted.changeLimiter hself ?_ hframe fun mount hmount hid hbooks => ?_
    · rintro stake ⟨⟩
      exact ⟨rfl, haccounted.mounted _ List.mem_cons_self⟩
    · rw [MountTable.eq_of_find? hids hfind hmount hid] at hbooks ⊢
      rw [Option.toList_some, List.singleton_append, tickets_cons_self,
        tickets_cons_of_held Bool.false_ne_true] at hbooks
      rw [Option.toList_some, List.singleton_append, tickets_cons_self,
        tickets_cons_of_held Bool.true_eq_false.mp]
      exact (hbooks.grant hhanded).2
  | leaves volume ticket =>
    refine haccounted.changeLimiter hself nofun hframe fun mount hmount hid hbooks => ?_
    rw [Option.toList_some, List.singleton_append, tickets_cons_self,
      tickets_cons_of_held Bool.false_ne_true] at hbooks
    exact hbooks.leave
  | releases volume ticket =>
    refine haccounted.changeLimiter hself nofun hframe fun mount hmount hid hbooks => ?_
    rw [Option.toList_some, List.singleton_append, tickets_cons_self,
      tickets_cons_of_held Bool.true_eq_false.mp] at hbooks
    exact hbooks.release

/-- Whoever has a stake has a ticket that is nobody else's, and no slot or one. -/
theorem Accounted.has_ticket (h : Accounted table (stake :: rest)) :
    ∃ mount, table.find? stake.volume = some mount ∧
      mount.limiter.holders.count stake.ticket = (if stake.held then 1 else 0) ∧
      ∀ other ∈ rest, other.volume = stake.volume → other.ticket ≠ stake.ticket := by
  obtain ⟨mount, hfind⟩ := MountTable.find?_of_mem (h.mounted stake List.mem_cons_self)
  obtain ⟨hmount, hid⟩ := MountTable.mem_of_find? hfind
  have hbooks := h.books mount hmount
  rw [hid] at hbooks
  obtain ⟨-, hheld, hapart⟩ := List.nodup_append.mp hbooks.nodup
  obtain ⟨volume, ticket, held⟩ := stake
  refine ⟨mount, hfind, ?_, fun other hother hvolume hticket => ?_⟩
  · have hself : ticket ∈ tickets volume held (⟨volume, ticket, held⟩ :: rest) :=
      mem_tickets.mpr List.mem_cons_self
    cases held with
    | true =>
      exact List.count_eq_one_of_mem (hbooks.holds.nodup_iff.mp hheld)
        (hbooks.holds.mem_iff.mp hself)
    | false =>
      refine List.count_eq_zero_of_not_mem fun hmem => ?_
      exact hapart ticket hself ticket (hbooks.holds.mem_iff.mpr hmem) rfl
  · have hnodup := (perm_tickets_cons volume ticket held rest).nodup_iff.mp hbooks.nodup
    have hmem : ⟨volume, ticket, other.held⟩ ∈ rest := by
      obtain ⟨volume', ticket', held'⟩ := other
      subst hvolume hticket
      exact hother
    refine (List.nodup_cons.mp hnodup).1 (List.mem_append.mpr ?_)
    cases hwhich : other.held with
    | false => exact .inl (mem_tickets.mpr (hwhich ▸ hmem))
    | true => exact .inr (mem_tickets.mpr (hwhich ▸ hmem))

/-- A stake that is still there is in the same volume and has the same ticket, and a slot that was
had is had. -/
theorem Turn.keeps (h : Turn table own table' own') (hstake : own' = some stake) :
    ∃ old, own = some old ∧ stake.volume = old.volume ∧ stake.ticket = old.ticket ∧
      (old.held → stake.held) := by
  cases h with
  | stays => exact ⟨stake, hstake, rfl, rfl, id⟩
  | gets =>
    cases hstake
    exact ⟨_, rfl, rfl, rfl, fun _ => rfl⟩
  | leaves => cases hstake
  | releases => cases hstake

end Turns

end MediaShelf
