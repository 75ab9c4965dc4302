import MediaShelf.Proofs.Shelf.Round
import MediaShelf.Shelf.Scanner

/-!
# The steps of the scanner

A round step by step does what a scan of every mount does at once, if nothing comes between
(`run_round`). The scanner goes on as long as the token is not cancelled (`step_ne_stopped`); once
it is, the scanner can stop, whatever it is at and whatever its walk finds (`run_stops`).
-/

namespace MediaShelf

open MediaShelf.Catalog
open MediaShelf.Files

namespace ScannerPhase

/-- What the scanner is at after some events, and the shelf then. -/
def run (cancelled : Bool) (s : ScannerPhase × Shelf) (events : List ScannerEvent) :
    ScannerPhase × Shelf := events.foldl (fun s event => s.1.step cancelled s.2 event) s

/-! ## One step -/

section Step

variable {cancelled : Bool} {phase : ScannerPhase} {shelf : Shelf} {event : ScannerEvent}

@[simp] theorem step_unstarted : unstarted.step cancelled shelf event = (unstarted, shelf) := rfl

@[simp] theorem step_stopped : stopped.step cancelled shelf event = (stopped, shelf) := rfl

theorem step_eq_unstarted :
    (phase.step cancelled shelf event).1 = unstarted ↔ phase = unstarted := by
  fun_cases step <;>
    first
    | rfl
    | exact iff_of_false (by dsimp only; split_ifs <;> nofun) nofun
    | exact iff_of_false nofun nofun

/-- The scanner stops only if it is called off. -/
theorem step_ne_stopped (h : phase ≠ stopped) : (phase.step false shelf event).1 ≠ stopped := by
  fun_cases step <;> first | exact h | nofun

end Step

/-! ## Being called off -/

/-- A scanner that is called off stops after it has ended its walk, has changed the catalog, and has
looked at the token once on the round and once after it. -/
theorem run_stops {phase : ScannerPhase} (h : phase ≠ unstarted) (shelf : Shelf) (tree : Tree)
    (here : Place) (seen : Cancellation) :
    (run true (phase, shelf) [.walked tree here seen, .changed, .look, .stops]).1 = stopped := by
  have hbetween : ∀ (left : List Mount) (shelf : Shelf),
      (run true (between left, shelf) [.look, .stops]).1 = stopped := by
    intro left shelf
    cases left <;> rfl
  cases phase with
  | unstarted => exact absurd rfl h
  | resting | stopped => rfl
  | between left => cases left <;> rfl
  | changing volume difference left => exact hbetween left _
  | walking mount left =>
    show (run true ((walking mount left).step true shelf (.walked tree here seen))
      [.changed, .look, .stops]).1 = stopped
    unfold step
    dsimp only
    rw [if_pos rfl]
    split
    · cases left <;> rfl
    · rfl
    · exact hbetween left _

/-! ## Rounds -/

section Round

variable (tree : Tree) (here : Place)

/-- Mounts are scanned one after the other. -/
theorem run_mounts (left : List Mount) (shelf : Shelf) :
    run false (between left, shelf)
        (left.flatMap fun _ => [.look, .walked tree here none, .changed]) =
      (between [], { shelf with
        registry := (scanMounts tree here none left shelf.registry shelf.ids).2.1
        ids := (scanMounts tree here none left shelf.registry shelf.ids).2.2 }) := by
  induction left generalizing shelf with
  | nil => rfl
  | cons mount rest ih =>
    have hnone := Cancellation.not_firesWithin_none (1 + (tree.walk here mount.root).length)
    rw [List.flatMap_cons, run, List.foldl_append]
    match hwalk : walkVolume tree here mount.root none with
    | .ok none => exact absurd hwalk (walkVolume_none_ne tree here mount.root)
    | .error fault =>
      rw [scanMounts_of_unreadable hnone hwalk]
      simp only [List.foldl_cons, List.foldl_nil, step, if_false, Bool.false_eq_true, hwalk]
      exact ih shelf
    | .ok (some found) =>
      rw [scanMounts_of_found hnone hwalk]
      simp only [List.foldl_cons, List.foldl_nil, step, if_false, Bool.false_eq_true, hwalk]
      exact ih _

/-- A round that nothing gets in the way of scans every mount. -/
theorem run_round (shelf : Shelf) :
    run false (resting, shelf) (ScannerEvent.round tree here shelf.mounts) =
      (resting, (shelf.scanAll tree here none).2) := by
  have hmounts := run_mounts tree here shelf.mounts shelf
  rw [ScannerEvent.round, List.cons_append, run, List.foldl_cons, List.foldl_append]
  exact congrArg (fun s => run false s [.look]) hmounts

end Round

end ScannerPhase

end MediaShelf
