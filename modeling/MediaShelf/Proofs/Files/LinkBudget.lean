import Mathlib
import MediaShelf.Files.Confined

/-!
# The budget of links

A confined walk is a loop over the steps that are still to be taken. A link puts the steps of its
target in front of them, as many as it likes, so that their number is no measure of what is left;
but the targets that may be read are counted, and between two of them the steps get fewer
(`WalkState.wellFounded_turn`). So the walk ends, whatever the file system answers, and it ends with
too many links just where a walk without a limit would read one target more
(`walkConfined_within_budget`). So it does in front of links that lead in a circle (`LeadsTo`).
-/

namespace MediaShelf.Files

/-! ## The loop -/

/-- What the loop of a confined walk has at hand. -/
structure WalkState where
  /-- The steps that are still to be taken. -/
  pending : List Step
  here : Place
  /-- The links whose targets were read. -/
  read : List Place
  /-- Whether something was missing, so that the file system is asked no more. -/
  missing : Bool
  deriving DecidableEq

/-- What a turn of the loop comes to. -/
inductive WalkTurn where
  | ended (outcome : Except Failure Place)
  | onward (later : WalkState)

namespace WalkState

/-- The state in front of the first turn. -/
def start (here : Place) (steps : List Step) : WalkState := ⟨steps, here, [], false⟩

/-- Whether no more targets may be read; without a limit, any number may be. -/
def isSpent (limit : Option Nat) (w : WalkState) : Prop := ∃ most ∈ limit, most ≤ w.read.length

instance (limit : Option Nat) (w : WalkState) : Decidable (w.isSpent limit) :=
  inferInstanceAs (Decidable (∃ most ∈ limit, most ≤ w.read.length))

@[simp] theorem isSpent_none (w : WalkState) : ¬ w.isSpent none := nofun

@[simp] theorem isSpent_some (limit : Nat) (w : WalkState) :
    w.isSpent (some limit) ↔ limit ≤ w.read.length := by
  simp [isSpent]

section

variable (probe : Place → Except Fault Node) (root : Place) (outside : Failure) (limit : Option Nat)

/-- One turn: a step is taken off, or there is none left. -/
def turn (w : WalkState) : WalkTurn :=
  match w.pending with
  | [] =>
    .ended (if ¬ isInside root w.here then .error outside
      else if w.missing then .error (.fault .noSuchFile)
      else .ok w.here)
  | .root :: rest => .onward { w with pending := rest, here := [] }
  | .here :: rest => .onward { w with pending := rest }
  | .up :: rest => .onward { w with pending := rest, here := w.here.dropLast }
  | .down name :: rest =>
    let next := w.here ++ [name]
    if ¬ isAllowed root next then .ended (.error outside)
    else if w.missing then .onward { w with pending := rest, here := next }
    else
      match probe next with
      | .ok (.link target) =>
        if w.isSpent limit then .ended (.error (.fault .tooManyLinks))
        else .onward { w with pending := steps target ++ rest, read := w.read ++ [next] }
      | .ok _ => .onward { w with pending := rest, here := next }
      | .error fault =>
        if fault.kind = .notFound then
          .onward { w with pending := rest, here := next, missing := true }
        else .ended (.error (.fault fault))

/-- So many turns. -/
def run : Nat → WalkState → WalkTurn
  | 0, w => .onward w
  | n + 1, w =>
    match w.turn probe root outside limit with
    | .ended outcome => .ended outcome
    | .onward later => run n later

end

variable {probe : Place → Except Fault Node} {root : Place} {outside : Failure} {limit : Option Nat}
  {w later : WalkState}

/-! ## One turn -/

variable (probe root outside) in
/-- A turn takes a step off, whatever the limit, if it does not end the walk; or it stands before a
link, and reads the target unless the limit is reached. -/
theorem turn_cases (w : WalkState) :
    (∃ reached, (∀ limit, w.turn probe root outside limit = reached) ∧
      ∀ later, reached = .onward later →
        later.read = w.read ∧ later.pending.length < w.pending.length) ∨
      ∃ later link, later.read = w.read ++ [link] ∧
        ∀ limit, w.turn probe root outside limit =
          if w.isSpent limit then .ended (.error (.fault .tooManyLinks)) else .onward later := by
  obtain ⟨pending, here, read, missing⟩ := w
  cases pending with
  | nil => exact .inl ⟨_, fun _ => rfl, nofun⟩
  | cons step rest =>
    have hoff : ∀ here missing later, WalkTurn.onward ⟨rest, here, read, missing⟩ = .onward later →
        later.read = read ∧ later.pending.length < (step :: rest).length := by
      rintro here missing later ⟨⟩
      exact ⟨rfl, Nat.lt_succ_self _⟩
    cases step with
    | root | here | up => exact .inl ⟨_, fun _ => rfl, hoff _ _⟩
    | down name =>
      unfold turn
      dsimp only
      split
      case isTrue => exact .inl ⟨_, fun _ => rfl, nofun⟩
      case isFalse =>
        split
        case isTrue => exact .inl ⟨_, fun _ => rfl, hoff _ _⟩
        case isFalse =>
          cases probe (here ++ [name]) with
          | ok node =>
            cases node with
            | folder | file => exact .inl ⟨_, fun _ => rfl, hoff _ _⟩
            | link target => exact .inr ⟨_, _, rfl, fun _ => rfl⟩
          | error fault =>
            dsimp only
            split
            · exact .inl ⟨_, fun _ => rfl, hoff _ _⟩
            · exact .inl ⟨_, fun _ => rfl, nofun⟩

/-- A turn takes a step off, or reads one target more while that is allowed. -/
theorem turn_onward (h : w.turn probe root outside limit = .onward later) :
    (later.read = w.read ∧ later.pending.length < w.pending.length) ∨
      (¬ w.isSpent limit ∧ ∃ link, later.read = w.read ++ [link]) := by
  obtain ⟨reached, hturn, hoff⟩ | ⟨next, link, hread, hturn⟩ := turn_cases probe root outside w
  · exact .inl (hoff later ((hturn limit).symm.trans h))
  · rw [hturn] at h
    split at h
    case isTrue => cases h
    case isFalse hspent =>
      cases h
      exact .inr ⟨hspent, link, hread⟩

variable (probe root outside) in
/-- The limit matters at one place: at a link, when as many targets were read as may be. -/
theorem turn_some (limit : Nat) (w : WalkState) :
    w.turn probe root outside (some limit) = w.turn probe root outside none ∨
      (w.turn probe root outside (some limit) = .ended (.error (.fault .tooManyLinks)) ∧
        limit ≤ w.read.length ∧ ∃ later, w.turn probe root outside none = .onward later ∧
          later.read.length = w.read.length + 1) := by
  obtain ⟨reached, hturn, -⟩ | ⟨next, link, hread, hturn⟩ := turn_cases probe root outside w
  · exact .inl ((hturn _).trans (hturn _).symm)
  · rw [hturn, hturn, if_neg w.isSpent_none]
    by_cases hspent : w.isSpent (some limit)
    · refine .inr ⟨if_pos hspent, (isSpent_some limit w).mp hspent, next, rfl, ?_⟩
      rw [hread, List.length_append, List.length_singleton]
    · exact .inl (if_neg hspent)

/-- The walk from a state on, if so many targets may be read in all. -/
def outcome (probe : Place → Except Fault Node) (root : Place) (outside : Failure) (limit : Nat)
    (w : WalkState) : Except Failure Place :=
  walkConfined probe root outside (limit - w.read.length) w.missing w.here w.pending

variable (probe root outside) in
/-- A turn is what the walk does first. -/
theorem outcome_turn {limit : Nat} (hread : w.read.length ≤ limit) :
    match w.turn probe root outside (some limit) with
    | .ended outcome => w.outcome probe root outside limit = outcome
    | .onward later => w.outcome probe root outside limit = later.outcome probe root outside limit ∧
        later.read.length ≤ limit := by
  obtain ⟨pending, here, read, missing⟩ := w
  dsimp only at hread
  unfold turn outcome
  cases pending with
  | nil => rw [walkConfined]
  | cons step rest =>
    cases step with
    | root | here | up => exact ⟨by rw [walkConfined], hread⟩
    | down name =>
      dsimp only
      rw [walkConfined]
      by_cases hallowed : isAllowed root (here ++ [name])
      case neg => simp only [hallowed, Bool.false_eq_true, not_false_eq_true, if_true]
      cases missing with
      | true => simp only [hallowed, not_true_eq_false, if_false, if_true, hread, and_self]
      | false =>
        simp only [hallowed, not_true_eq_false, if_false, Bool.false_eq_true]
        cases probe (here ++ [name]) with
        | error fault =>
          by_cases hkind : fault.kind = .notFound
          · simp only [hkind, if_true, hread, and_self]
          · simp only [hkind, if_false]
        | ok node =>
          cases node with
          | folder | file => exact ⟨rfl, hread⟩
          | link target =>
            -- what the walk counts down to zero, the state counts up to the limit
            rcases Nat.lt_or_ge read.length limit with hlt | hge
            · have hleft : limit - read.length = (limit - (read.length + 1)) + 1 := by omega
              simp only [isSpent_some, Nat.not_le.mpr hlt, if_false, hleft, List.length_append,
                List.length_singleton, true_and]
              exact hlt
            · simp only [isSpent_some, hge, if_true, Nat.sub_eq_zero_of_le hge]

/-! ## So many turns -/

theorem run_of_ended {reached : Except Failure Place}
    (hturn : w.turn probe root outside limit = .ended reached) (n : Nat) :
    w.run probe root outside limit (n + 1) = .ended reached := by
  rw [run, hturn]

theorem run_of_onward (hturn : w.turn probe root outside limit = .onward later) (n : Nat) :
    w.run probe root outside limit (n + 1) = later.run probe root outside limit n := by
  rw [run, hturn]

/-- A walk that goes on after some turns goes on after the first. -/
theorem run_succ_onward {n : Nat} (hrun : w.run probe root outside limit (n + 1) = .onward later) :
    ∃ next, w.turn probe root outside limit = .onward next ∧
      next.run probe root outside limit n = .onward later := by
  cases hturn : w.turn probe root outside limit with
  | ended reached => rw [run_of_ended hturn] at hrun; cases hrun
  | onward next => exact ⟨next, rfl, run_of_onward hturn n ▸ hrun⟩

theorem run_add {m : Nat} (hrun : w.run probe root outside limit m = .onward later) (n : Nat) :
    w.run probe root outside limit (m + n) = later.run probe root outside limit n := by
  induction m generalizing w with
  | zero => cases hrun; rw [Nat.zero_add]
  | succ m ih =>
    obtain ⟨next, hturn, hrest⟩ := run_succ_onward hrun
    rw [Nat.add_right_comm, run_of_onward hturn, ih hrest]

/-- A walk that has gone on for so many turns has gone on for fewer. -/
theorem run_onward_of_le {m n : Nat} (hle : m ≤ n)
    (hrun : w.run probe root outside limit n = .onward later) :
    ∃ between, w.run probe root outside limit m = .onward between := by
  induction m generalizing w n with
  | zero => exact ⟨w, rfl⟩
  | succ m ih =>
    obtain ⟨n, rfl⟩ := Nat.exists_eq_add_of_le' (Nat.one_le_of_lt hle)
    obtain ⟨next, hturn, hrest⟩ := run_succ_onward hrun
    rw [run_of_onward hturn]
    exact ih (Nat.le_of_succ_le_succ hle) hrest

/-! ## The loop ends -/

/-- With a limit there are no endless walks, not even over a file system that changes on the way:
a turn reads a target more, of which there are few, or leaves fewer steps. -/
theorem wellFounded_turn (root : Place) (outside : Failure) (limit : Nat) :
    WellFounded fun later w : WalkState =>
      ∃ probe, w.turn probe root outside (some limit) = .onward later := by
  have hlex : WellFounded (InvImage (Prod.Lex (· < ·) (· < ·)) fun w : WalkState =>
      (limit - w.read.length, w.pending.length)) :=
    InvImage.wf _ (WellFounded.prod_lex Nat.lt_wfRel.wf Nat.lt_wfRel.wf)
  refine Subrelation.wf (fun {later w} ⟨probe, hturn⟩ => ?_) hlex
  rcases turn_onward hturn with ⟨hread, hfewer⟩ | ⟨hspent, link, hread⟩
  · simp only [InvImage, hread]
    exact .right _ hfewer
  · rw [isSpent_some, Nat.not_le] at hspent
    refine .left _ _ ?_
    rw [hread, List.length_append, List.length_singleton]
    omega

/-- The loop comes to an end, and this is how the walk ends. -/
theorem exists_run {limit : Nat} (hread : w.read.length ≤ limit) :
    ∃ n, w.run probe root outside (some limit) n = .ended (w.outcome probe root outside limit) := by
  induction w using (wellFounded_turn root outside limit).induction with
  | _ w ih =>
    have hfirst := outcome_turn probe root outside hread
    cases hturn : w.turn probe root outside (some limit) with
    | ended reached =>
      rw [hturn] at hfirst
      exact ⟨1, by rw [run_of_ended hturn, hfirst]⟩
    | onward later =>
      rw [hturn] at hfirst
      obtain ⟨n, hn⟩ := ih later ⟨probe, hturn⟩ hfirst.2
      exact ⟨n + 1, by rw [run_of_onward hturn, hfirst.1, hn]⟩

/-- No more targets are read than the limit says. -/
theorem run_read_le {limit : Nat} (hread : w.read.length ≤ limit) {n : Nat}
    (hrun : w.run probe root outside (some limit) n = .onward later) :
    later.read.length ≤ limit := by
  induction n generalizing w with
  | zero => cases hrun; exact hread
  | succ n ih =>
    have hfirst := outcome_turn probe root outside hread
    obtain ⟨next, hturn, hrest⟩ := run_succ_onward hrun
    rw [hturn] at hfirst
    exact ih hfirst.2 hrest

/-! ## Without a limit -/

/-- A turn of a walk without a limit is one of the walk, or the walk ends here with too many
links. -/
theorem outcome_unlimited {limit : Nat} (hread : w.read.length ≤ limit)
    (hturn : w.turn probe root outside none = .onward later) :
    (w.turn probe root outside (some limit) = .onward later ∧ later.read.length ≤ limit ∧
        w.outcome probe root outside limit = later.outcome probe root outside limit) ∨
      (limit < later.read.length ∧
        w.outcome probe root outside limit = .error (.fault .tooManyLinks)) := by
  have hfirst := outcome_turn probe root outside hread
  rcases turn_some probe root outside limit w with
    heq | ⟨hmany, hfull, next, hnext, hlonger⟩
  · rw [heq, hturn] at hfirst
    exact .inl ⟨heq.trans hturn, hfirst.2, hfirst.1⟩
  · cases hturn.symm.trans hnext
    rw [hmany] at hfirst
    exact .inr ⟨by omega, hfirst⟩

/-- Where a walk without a limit reads one target too many, the walk ends with too many links. -/
theorem outcome_of_reads {limit : Nat} (hread : w.read.length ≤ limit) {n : Nat}
    (hrun : w.run probe root outside none n = .onward later) (hmore : limit < later.read.length) :
    w.outcome probe root outside limit = .error (.fault .tooManyLinks) := by
  induction n generalizing w with
  | zero => cases hrun; omega
  | succ n ih =>
    obtain ⟨next, hturn, hrest⟩ := run_succ_onward hrun
    rcases outcome_unlimited hread hturn with ⟨-, hkept, heq⟩ | ⟨-, hmany⟩
    · exact heq.trans (ih hkept hrest)
    · exact hmany

/-- A walk without a limit that ends, and has read no target too many, ends as the walk does. -/
theorem outcome_of_ended {limit : Nat} (hread : w.read.length ≤ limit) {n : Nat}
    {reached : Except Failure Place} (hrun : w.run probe root outside none n = .ended reached)
    (hfew : ∀ m later, w.run probe root outside none m = .onward later →
      later.read.length ≤ limit) :
    w.outcome probe root outside limit = reached := by
  induction n generalizing w with
  | zero => cases hrun
  | succ n ih =>
    cases hturn : w.turn probe root outside none with
    | ended last =>
      rw [run_of_ended hturn] at hrun
      cases hrun
      have hfirst := outcome_turn probe root outside hread
      rcases turn_some probe root outside limit w with
        heq | ⟨-, -, next, hnext, -⟩
      · rwa [heq, hturn] at hfirst
      · cases hturn.symm.trans hnext
    | onward next =>
      rw [run_of_onward hturn] at hrun
      rcases outcome_unlimited hread hturn with ⟨-, hkept, heq⟩ | ⟨hmore, -⟩
      · refine heq.trans (ih hkept hrun fun m later hlater => hfew (m + 1) later ?_)
        rw [run_of_onward hturn, hlater]
      · have hnext := hfew 1 next (run_of_onward hturn 0)
        omega

variable (probe root outside) in
/-- A walk without a limit that never ends. -/
def Endless (w : WalkState) : Prop := ∀ n, ∃ later, w.run probe root outside none n = .onward later

theorem Endless.turn (h : w.Endless probe root outside) :
    ∃ later, w.turn probe root outside none = .onward later ∧
      later.Endless probe root outside := by
  obtain ⟨first, hfirst⟩ := h 1
  obtain ⟨next, hturn, -⟩ := run_succ_onward hfirst
  refine ⟨next, hturn, fun n => ?_⟩
  rw [← run_of_onward hturn]
  exact h (n + 1)

/-- A walk that would be endless ends with too many links. -/
theorem Endless.outcome_eq {limit : Nat} (h : w.Endless probe root outside)
    (hread : w.read.length ≤ limit) :
    w.outcome probe root outside limit = .error (.fault .tooManyLinks) := by
  induction w using (wellFounded_turn root outside limit).induction with
  | _ w ih =>
    obtain ⟨later, hturn, hlater⟩ := h.turn
    rcases outcome_unlimited hread hturn with ⟨hsame, hkept, heq⟩ | ⟨-, hmany⟩
    · exact heq.trans (ih later ⟨probe, hsame⟩ hlater hkept)
    · exact hmany

/-- What comes to an endless walk is endless. -/
theorem Endless.of_run {n : Nat} (h : later.Endless probe root outside)
    (hrun : w.run probe root outside none n = .onward later) : w.Endless probe root outside := by
  intro m
  obtain ⟨last, hlast⟩ := h m
  exact run_onward_of_le (Nat.le_add_left m n) ((run_add hrun m).trans hlast)

/-! ## Links in a circle -/

/-- The same state with more steps behind, and after more targets were read. -/
def within (w : WalkState) (read : List Place) (rest : List Step) : WalkState :=
  { w with pending := w.pending ++ rest, read := read ++ w.read }

/-- While steps are left, those behind them do not matter, nor does what was read. -/
theorem turn_within (read : List Place) (rest : List Step)
    (h : w.turn probe root outside none = .onward later) :
    (w.within read rest).turn probe root outside none = .onward (later.within read rest) := by
  obtain ⟨pending, here, seen, missing⟩ := w
  unfold turn at h
  cases pending with
  | nil => cases h
  | cons step steps =>
    cases step with
    | root | here | up => cases h; rfl
    | down name =>
      simp only [turn, within, List.cons_append, isSpent_none, if_false] at h ⊢
      split at h
      case isTrue => cases h
      case isFalse hallowed =>
        rw [if_neg hallowed]
        split at h
        case isTrue hmissing =>
          cases h
          rw [if_pos hmissing]
        case isFalse hmissing =>
          rw [if_neg hmissing]
          generalize probe (here ++ [name]) = answer at h ⊢
          cases answer with
          | ok node =>
            cases node with
            | folder | file => cases h; rfl
            | link target =>
              cases h
              simp only [List.append_assoc]
          | error fault =>
            dsimp only at h ⊢
            split at h
            case isTrue hkind =>
              cases h
              rw [if_pos hkind]
            case isFalse => cases h

theorem run_within (read : List Place) (rest : List Step) {n : Nat}
    (h : w.run probe root outside none n = .onward later) :
    (w.within read rest).run probe root outside none n = .onward (later.within read rest) := by
  induction n generalizing w with
  | zero => cases h; rfl
  | succ n ih =>
    obtain ⟨next, hturn, hrest⟩ := run_succ_onward h
    rw [run_of_onward (turn_within read rest hturn), ih hrest]

end WalkState

variable {probe : Place → Except Fault Node} {root here : Place} {outside : Failure} {name : Name}

variable (probe root outside) in
/-- One name in a folder leads to another one, in a folder again, if the walk that takes it up comes
to the other before it is done. -/
def LeadsTo (link other : Place × Name) : Prop :=
  ∃ n rest read, (WalkState.start link.1 [.down link.2]).run probe root outside none (n + 1) =
    .onward ⟨.down other.2 :: rest, other.1, read, false⟩

/-- Where one name leads to another, the walk comes to the other with more steps behind it. -/
theorem LeadsTo.exists_run {link other : Place × Name} (h : LeadsTo probe root outside link other)
    (rest : List Step) (read : List Place) : ∃ n rest' read',
      WalkState.run probe root outside none (n + 1) ⟨.down link.2 :: rest, link.1, read, false⟩ =
        .onward ⟨.down other.2 :: rest', other.1, read', false⟩ := by
  obtain ⟨n, more, seen, hrun⟩ := h
  have hwithin := WalkState.run_within read rest hrun
  simp only [WalkState.within, WalkState.start, List.append_nil, List.cons_append,
    List.nil_append] at hwithin
  exact ⟨n, _, _, hwithin⟩

theorem LeadsTo.trans {a b c : Place × Name} (hab : LeadsTo probe root outside a b)
    (hbc : LeadsTo probe root outside b c) : LeadsTo probe root outside a c := by
  obtain ⟨m, rest, read, hrun⟩ := hab
  obtain ⟨n, rest', read', hrun'⟩ := hbc.exists_run rest read
  exact ⟨m + 1 + n, rest', read', (WalkState.run_add hrun (n + 1)).trans hrun'⟩

instance : IsTrans (Place × Name) (LeadsTo probe root outside) := ⟨fun _ _ _ => LeadsTo.trans⟩

/-- In front of a link that leads back to itself a walk goes round and round. -/
theorem LeadsTo.endless (h : LeadsTo probe root outside (here, name) (here, name))
    (rest : List Step) (read : List Place) :
    WalkState.Endless probe root outside ⟨.down name :: rest, here, read, false⟩ := by
  intro m
  induction m using Nat.strongRecOn generalizing rest read with
  | _ m ih =>
    obtain ⟨n, rest', read', hround⟩ := h.exists_run rest read
    rcases Nat.lt_or_ge m (n + 1) with hlt | hge
    · exact WalkState.run_onward_of_le (Nat.le_of_lt hlt) hround
    · obtain ⟨k, rfl⟩ := Nat.exists_eq_add_of_le hge
      rw [WalkState.run_add hround]
      exact ih k (by omega) _ _

/-- **The budget of links.** Whatever the file system answers, the loop of a confined walk ends,
even if the answers change from turn to turn; what it ends with is the outcome of the walk, and no
more targets were read than links may be followed. A walk without that limit tells the outcome: if
it comes to read one target more, as it does if it goes on for ever or meets links that lead in a
circle, then the walk ends with the fault of too many links, and else both end alike. -/
theorem walkConfined_within_budget (probe : Place → Except Fault Node) (root : Place)
    (outside : Failure) (names : List Name) :
    let start : WalkState := .start root (names.map .down)
    let outcome := walkConfined probe root outside maxLinks false root (names.map .down)
    (WellFounded fun later now : WalkState =>
      ∃ probe, now.turn probe root outside (some maxLinks) = .onward later) ∧
    (∃ n, start.run probe root outside (some maxLinks) n = .ended outcome) ∧
    (∀ n w, start.run probe root outside (some maxLinks) n = .onward w →
      w.read.length ≤ maxLinks) ∧
    (∀ n w, start.run probe root outside none n = .onward w → maxLinks < w.read.length →
      outcome = .error (.fault .tooManyLinks)) ∧
    (start.Endless probe root outside → outcome = .error (.fault .tooManyLinks)) ∧
    (∀ n name rest here read,
      start.run probe root outside none n = .onward ⟨.down name :: rest, here, read, false⟩ →
        Relation.TransGen (LeadsTo probe root outside) (here, name) (here, name) →
          outcome = .error (.fault .tooManyLinks)) ∧
    (∀ n reached, start.run probe root outside none n = .ended reached →
      (∀ m w, start.run probe root outside none m = .onward w → w.read.length ≤ maxLinks) →
        outcome = reached) := by
  intro start outcome
  have hread : start.read.length ≤ maxLinks := Nat.zero_le _
  have hendless : start.Endless probe root outside → outcome = .error (.fault .tooManyLinks) :=
    fun h => h.outcome_eq hread
  refine ⟨WalkState.wellFounded_turn root outside maxLinks, WalkState.exists_run hread,
    fun n w hrun => WalkState.run_read_le hread hrun,
    fun n w hrun hmore => WalkState.outcome_of_reads hread hrun hmore, hendless, ?_,
    fun n reached hrun hfew => WalkState.outcome_of_ended hread hrun hfew⟩
  intro n name rest here read hrun hcircle
  rw [Relation.transGen_eq_self] at hcircle
  exact hendless ((hcircle.endless rest read).of_run hrun)

/-- A root `/r` with links `a` to `b` and `b` to `./a`. -/
def circleTree : Tree :=
  ⟨[([[114]], .folder), ([[114], [97]], .link [98]), ([[114], [98]], .link [46, 47, 97])], [], 0⟩

/-- Both of them lead in a circle. -/
theorem walkConfined_within_budget_circle :
    let outside := Failure.outsideRoot [97]
    Relation.TransGen (LeadsTo circleTree.probe [[114]] outside) ([[114]], [97]) ([[114]], [97]) ∧
      walkConfined circleTree.probe [[114]] outside maxLinks false [[114]] [.down [97]] =
        .error (.fault .tooManyLinks) := by
  have hfirst : LeadsTo circleTree.probe [[114]] (.outsideRoot [97]) ([[114]], [97])
      ([[114]], [98]) := ⟨0, [], _, by cbv⟩
  have hsecond : LeadsTo circleTree.probe [[114]] (.outsideRoot [97]) ([[114]], [98])
      ([[114]], [97]) := ⟨1, [], _, by cbv⟩
  have hcircle := (Relation.TransGen.single hfirst).tail hsecond
  obtain ⟨-, -, -, -, -, hends, -⟩ :=
    walkConfined_within_budget circleTree.probe [[114]] (.outsideRoot [97]) [[97]]
  exact ⟨hcircle, hends 0 [97] [] [[114]] [] rfl hcircle⟩

end MediaShelf.Files
