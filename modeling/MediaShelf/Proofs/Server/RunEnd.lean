import MediaShelf.Proofs.Shelf.ScannerSteps
import MediaShelf.Server.Lifecycle

/-!
# What a run of the server leaves behind

A run that ends in good order leaves nothing at work: the token has been cancelled, the scanner has
stopped, and the catalog stays as it is. A run that fails after it has started the scanner just
returns. Unless someone else cancels the token, the scanner stays at work, and every round that is
due changes the catalog as ever (`orderly_return`).
-/

namespace MediaShelf.Server.Run

open MediaShelf.Files

variable {r next : Run} {event : RunEvent} {events : List RunEvent}

/-- Nothing of a run is at work any more. -/
structure AtRest (r : Run) : Prop where
  cancelled : r.cancelled
  stopped : r.scanner = .stopped
  shelf : ∀ more : List RunEvent, (r.after more).shelf = r.shelf

/-- A run whose server has ended in good order. -/
def WindsDown (r : Run) : Prop := r.stage = .winding ∨ r.stage = .returned (.ok ())

/-- What holds of every run on its way. -/
structure Sound (r : Run) : Prop where
  unstarted : r.scanner = .unstarted ↔ r.stage = .returned (.error .badAddress)
  cancelled : r.WindsDown ∨ r.scanner = .stopped → r.cancelled
  winding : r.stage = .winding → r.scanner ≠ .stopped
  returned : r.stage = .returned (.ok ()) → r.scanner = .stopped

@[simp] theorem after_nil : r.after [] = r := rfl

@[simp] theorem after_cons : r.after (event :: events) = (r.step event).after events := rfl

/-! ## Settling -/

section Settle

@[simp] theorem settle_cancelled : r.settle.cancelled = r.cancelled := by
  fun_cases settle <;> rfl

@[simp] theorem settle_scanner : r.settle.scanner = r.scanner := by
  fun_cases settle <;> rfl

@[simp] theorem settle_shelf : r.settle.shelf = r.shelf := by
  fun_cases settle <;> rfl

theorem windsDown_settle : r.settle.WindsDown ↔ r.WindsDown := by
  fun_cases settle
  case case1 hscanner hstage => exact iff_of_true (.inr rfl) (.inl hstage)
  case case2 => rfl

/-- A run that winds down after its scanner has stopped, returns. -/
theorem sound_settle
    (hunstarted : r.scanner = .unstarted ↔ r.stage = .returned (.error .badAddress))
    (hcancelled : r.WindsDown ∨ r.scanner = .stopped → r.cancelled)
    (hreturned : r.stage = .returned (.ok ()) → r.scanner = .stopped) : r.settle.Sound := by
  fun_cases settle
  case case1 hscanner hstage =>
    exact ⟨iff_of_false (hscanner ▸ nofun) nofun, fun _ => hcancelled (.inr hscanner), nofun,
      fun _ => hscanner⟩
  case case2 hnot => exact ⟨hunstarted, hcancelled, hnot, hreturned⟩

end Settle

/-! ## One step -/

/-- A run whose server has not ended. -/
def Underway (r : Run) : Prop := (∃ address, r.stage = .binding address) ∨ r.stage = .serving

/-- What an event can do to a run. -/
inductive StepsTo (r : Run) : RunEvent → Run → Prop
  | idle {event : RunEvent} (hevent : event ≠ .cancel) : StepsTo r event r
  | cancel : StepsTo r .cancel { r with cancelled := true }
  | scanner (event : ScannerEvent) : StepsTo r (.scanner event) (settle { r with
      scanner := (r.scanner.step r.cancelled r.shelf event).1
      shelf := (r.scanner.step r.cancelled r.shelf event).2 })
  | bound (hstage : r.Underway) : StepsTo r .bound { r with stage := .serving }
  | fail {event : RunEvent} (hevent : event ≠ .cancel) (hstage : r.Underway) {fault : RunFault}
      (hfault : fault ≠ .badAddress) : StepsTo r event (r.fail fault)
  | windDown {event : RunEvent} (hstage : r.Underway) : StepsTo r event r.windDown

theorem stepsTo_step (r : Run) (event : RunEvent) : r.StepsTo event (r.step event) := by
  cases event with
  | cancel => exact .cancel
  | scanner event => exact .scanner event
  | bound =>
    cases hstage : r.stage with
    | binding address =>
      simp only [step, hstage]
      exact .bound (.inl ⟨address, hstage⟩)
    | serving | winding | returned =>
      simp only [step, hstage]
      exact .idle nofun
  | bindFailed fault =>
    cases hstage : r.stage with
    | binding address =>
      simp only [step, hstage]
      exact .fail (by nofun) (.inl ⟨address, hstage⟩) (by nofun)
    | serving | winding | returned =>
      simp only [step, hstage]
      exact .idle nofun
  | serverEnds ending =>
    cases hstage : r.stage with
    | serving =>
      cases ending with
      | drained =>
        simp only [step, hstage]
        exact .windDown (.inr hstage)
      | failed | panicked =>
        simp only [step, hstage]
        exact .fail (by nofun) (.inr hstage) (by nofun)
    | binding | winding | returned =>
      simp only [step, hstage]
      exact .idle nofun
  | graceOver =>
    cases hstage : r.stage with
    | serving =>
      simp only [step, hstage]
      split
      · exact .windDown (.inr hstage)
      · exact .idle nofun
    | binding | winding | returned =>
      simp only [step, hstage]
      exact .idle nofun

/-! ## Invariants -/

theorem start_of_parse? (shelf : Shelf) (cancelled : Bool) {text : String} {address : SocketAddress}
    (h : SocketAddress.parse? text = some address) :
    start shelf cancelled text = ⟨.binding address, cancelled, .resting, shelf⟩ := by
  rw [start, h]

theorem sound_start (shelf : Shelf) (cancelled : Bool) (address : String) :
    (start shelf cancelled address).Sound := by
  fun_cases start
  case case1 => exact ⟨iff_of_true rfl rfl, (by rintro ((h | h) | h) <;> cases h), nofun, nofun⟩
  case case2 =>
    exact ⟨iff_of_false nofun nofun, (by rintro ((h | h) | h) <;> cases h), nofun, nofun⟩

namespace Sound

theorem scanner_ne (h : r.Sound) (hstage : r.stage ≠ .returned (.error .badAddress)) :
    r.scanner ≠ .unstarted := mt h.unstarted.mp hstage

/-- A run that has a scanner may go on to any stage at which it does not wind down. -/
theorem setStage (h : r.Sound) (hscanner : r.scanner ≠ .unstarted) {stage : RunStage}
    (hbad : stage ≠ .returned (.error .badAddress)) (hwinding : stage ≠ .winding)
    (hreturned : stage ≠ .returned (.ok ())) : Sound { r with stage := stage } where
  unstarted := iff_of_false hscanner hbad
  cancelled := by
    rintro ((hstage | hstage) | hstopped)
    · exact absurd hstage hwinding
    · exact absurd hstage hreturned
    · exact h.cancelled (.inr hstopped)
  winding hstage := absurd hstage hwinding
  returned hstage := absurd hstage hreturned

theorem scanner (h : r.Sound) (event : ScannerEvent) : (r.step (.scanner event)).Sound := by
  refine sound_settle (ScannerPhase.step_eq_unstarted.trans h.unstarted) (fun hends => ?_)
    fun hstage => ?_
  · by_cases hbefore : r.WindsDown ∨ r.scanner = .stopped
    · exact h.cancelled hbefore
    · obtain ⟨hwinds, hscanner⟩ := not_or.mp hbefore
      -- The scanner has stopped just now, so it has seen the token.
      have hstopped := hends.resolve_left hwinds
      rw [← Bool.not_eq_false]
      intro hnot
      exact ScannerPhase.step_ne_stopped hscanner (hnot ▸ hstopped)
  · show (r.scanner.step r.cancelled r.shelf event).1 = .stopped
    rw [h.returned hstage, ScannerPhase.step_stopped]

theorem stepsTo (h : r.Sound) (hstep : r.StepsTo event next) : next.Sound := by
  have hscanner : r.Underway → r.scanner ≠ .unstarted := by
    rintro (⟨address, hstage⟩ | hstage) <;> exact h.scanner_ne (hstage ▸ nofun)
  cases hstep with
  | idle => exact h
  | cancel => exact ⟨h.unstarted, fun _ => rfl, h.winding, h.returned⟩
  | scanner event => exact h.scanner event
  | bound hstage => exact h.setStage (hscanner hstage) nofun nofun nofun
  | fail _ hstage hfault =>
    refine h.setStage (hscanner hstage) (fun heq => hfault ?_) nofun nofun
    exact Except.error.inj (RunStage.returned.inj heq)
  | windDown hstage =>
    exact sound_settle (iff_of_false (hscanner hstage) nofun) (fun _ => rfl) nofun

theorem after (h : r.Sound) (events : List RunEvent) : (r.after events).Sound := by
  induction events generalizing r with
  | nil => exact h
  | cons event rest ih => exact ih (h.stepsTo (stepsTo_step r event))

end Sound

/-- A run that winds down goes on doing so. -/
theorem WindsDown.stepsTo (h : r.WindsDown) (hstep : r.StepsTo event next) : next.WindsDown := by
  have hended : ¬ r.Underway := by
    rintro (⟨address, hstage⟩ | hstage) <;> rcases h with h | h <;> rw [hstage] at h <;> cases h
  cases hstep with
  | idle | cancel => exact h
  | scanner event => exact windsDown_settle.mpr h
  | bound hstage | fail _ hstage | windDown hstage => exact absurd hstage hended

theorem WindsDown.after (h : r.WindsDown) (events : List RunEvent) : (r.after events).WindsDown := by
  induction events generalizing r with
  | nil => exact h
  | cons event rest ih => exact ih (h.stepsTo (stepsTo_step r event))

/-- Unless it winds down, a run does not cancel the token itself. -/
theorem StepsTo.cancelled_iff (hstep : r.StepsTo event next) (hnot : ¬ next.WindsDown) :
    next.cancelled ↔ r.cancelled ∨ event = .cancel := by
  cases hstep with
  | idle hevent | fail hevent => exact (or_iff_left hevent).symm
  | cancel => exact iff_of_true rfl (.inr rfl)
  | scanner event => rw [settle_cancelled, or_iff_left nofun]
  | bound => exact (or_iff_left nofun).symm
  | windDown => exact absurd (windsDown_settle.mpr (.inl rfl)) hnot

theorem cancelled_after (hnot : ¬ (r.after events).WindsDown) :
    (r.after events).cancelled ↔ r.cancelled ∨ .cancel ∈ events := by
  induction events generalizing r with
  | nil => simp
  | cons event rest ih =>
    have hnext : ¬ (r.step event).WindsDown := fun hwinds => hnot (hwinds.after rest)
    rw [after_cons, ih hnot, (stepsTo_step r event).cancelled_iff hnext, List.mem_cons, or_assoc,
      @eq_comm _ event]

/-! ## The scanner -/

/-- A scanner that is not at work leaves the shelf as it is. -/
theorem StepsTo.of_idle (hstep : r.StepsTo event next)
    (h : r.scanner = .unstarted ∨ r.scanner = .stopped) :
    next.scanner = r.scanner ∧ next.shelf = r.shelf := by
  cases hstep with
  | idle | cancel | bound | fail => exact ⟨rfl, rfl⟩
  | windDown => exact ⟨settle_scanner, settle_shelf⟩
  | scanner event => rcases h with h | h <;> simp [h]

theorem shelf_after_of_idle (h : r.scanner = .unstarted ∨ r.scanner = .stopped)
    (events : List RunEvent) : (r.after events).shelf = r.shelf := by
  induction events generalizing r with
  | nil => rfl
  | cons event rest ih =>
    obtain ⟨hscanner, hshelf⟩ := (stepsTo_step r event).of_idle h
    exact (ih (hscanner ▸ h)).trans hshelf

/-- What the scanner does depends on the token alone. -/
theorem after_scanner (r : Run) (events : List ScannerEvent) :
    (r.after (events.map .scanner)).cancelled = r.cancelled ∧
      ((r.after (events.map .scanner)).scanner, (r.after (events.map .scanner)).shelf) =
        ScannerPhase.run r.cancelled (r.scanner, r.shelf) events := by
  induction events generalizing r with
  | nil => exact ⟨rfl, rfl⟩
  | cons event rest ih =>
    obtain ⟨hcancelled, hrun⟩ := ih (r.step (.scanner event))
    rw [List.map_cons, after_cons, hcancelled, hrun]
    exact ⟨settle_cancelled, by rw [step, settle_cancelled, settle_scanner, settle_shelf]; rfl⟩

/-! ## The end of a run -/

/-- A run that winds down returns, whatever the walk finds that its scanner may be on. -/
theorem Sound.returns (h : r.Sound) (hstage : r.stage = .winding) (tree : Tree) (here : Place)
    (seen : Catalog.Cancellation) :
    (r.after ([.walked tree here seen, .changed, .look, .stops].map .scanner)).stage =
      .returned (.ok ()) := by
  set events : List ScannerEvent := [.walked tree here seen, .changed, .look, .stops]
  have hwinds := WindsDown.after (.inl hstage) (events.map .scanner)
  refine hwinds.resolve_left fun hstill => (h.after _).winding hstill ?_
  have hscanner := congrArg Prod.fst (r.after_scanner events).2
  rw [h.cancelled (.inl (.inl hstage))] at hscanner
  exact hscanner.trans (ScannerPhase.run_stops (h.scanner_ne (hstage ▸ nofun)) _ tree here seen)

/-- **A run that ends in good order leaves nothing at work.** Whatever happens to a run: when it has
returned without a fault, the token has been cancelled, the scanner has stopped, and the catalog
stays as it is; and a run that waits for its scanner does return. A run that was given a bad address
has no scanner. One that fails later does not call its scanner off: the token has been cancelled just
if someone else has done so; otherwise the scanner is still at work, and a round that is due then
scans every mount. -/
theorem orderly_return (shelf : Shelf) (cancelled : Bool) (address : String)
    (events : List RunEvent) :
    let r := (start shelf cancelled address).after events
    (r.stage = .returned (.ok ()) → r.AtRest) ∧
      (r.stage = .winding → ∀ tree here seen,
        (r.after ([.walked tree here seen, .changed, .look, .stops].map .scanner)).stage =
          .returned (.ok ())) ∧
      (r.stage = .returned (.error .badAddress) →
        r.scanner = .unstarted ∧ ∀ more : List RunEvent, (r.after more).shelf = r.shelf) ∧
      ∀ fault, fault ≠ .badAddress → r.stage = .returned (.error fault) →
        r.scanner ≠ .unstarted ∧ (r.cancelled ↔ cancelled ∨ .cancel ∈ events) ∧
          (¬ r.cancelled → r.scanner ≠ .stopped ∧ ∀ tree here, r.scanner = .resting →
            (r.after ((ScannerEvent.round tree here r.shelf.mounts).map .scanner)).shelf =
              (r.shelf.scanAll tree here none).2) := by
  intro r
  have hsound : r.Sound := (sound_start shelf cancelled address).after events
  refine ⟨fun hstage => ?_, fun hstage => hsound.returns hstage, fun hstage => ?_,
    fun fault hfault hstage => ⟨?_, ?_, fun hnot => ⟨?_, fun tree here hresting => ?_⟩⟩⟩
  · have hstopped := hsound.returned hstage
    exact ⟨hsound.cancelled (.inr hstopped), hstopped, shelf_after_of_idle (.inr hstopped)⟩
  · have hunstarted := hsound.unstarted.mpr hstage
    exact ⟨hunstarted, shelf_after_of_idle (.inl hunstarted)⟩
  · refine hsound.scanner_ne fun heq => hfault ?_
    exact Except.error.inj (RunStage.returned.inj (hstage.symm.trans heq))
  · have hnot : ¬ r.WindsDown := by
      rintro (heq | heq) <;> rw [hstage] at heq <;> cases heq
    have hstart : (start shelf cancelled address).cancelled = cancelled := by
      fun_cases start <;> rfl
    rw [cancelled_after hnot, hstart]
  · exact fun hstopped => hnot (hsound.cancelled (.inr hstopped))
  · have hshelf := congrArg Prod.snd (r.after_scanner (ScannerEvent.round tree here r.shelf.mounts)).2
    rw [(Bool.not_eq_true _).mp hnot, hresting, ScannerPhase.run_round] at hshelf
    exact hshelf

/-- A folder `/m` with a film `a.mp4`. -/
def filmTree : Tree :=
  ⟨[([[109]], .folder), ([[109], [97, 46, 109, 112, 52]], .file 0)], [(0, ⟨[1, 2, 3], 0, ⟨0⟩⟩)], 1⟩

/-- A shelf whose one mount is that of the folder `/m`. -/
def filmShelf : Shelf where
  mode := .direct
  bufferSize := 1
  mounts := [⟨"v", [47, 109], .ofCapacity 1⟩]
  rescanInterval := Shelf.defaultRescanInterval
  registry := .empty
  ids := Shelf.firstIds

/-- The time for connections is over while the scanner is on its walk. -/
def midWalk : List RunEvent :=
  [.scanner .due, .bound, .scanner .look, .cancel, .graceOver,
    .scanner (.walked filmTree [] none), .scanner .changed, .scanner .look, .scanner .stops]

/-- The film is still put into the catalog before the run returns. -/
theorem orderly_return_midWalk :
    ((start filmShelf false "127.0.0.1:8080").after midWalk).shelf.registry.size = 1 ∧
      ((start filmShelf false "127.0.0.1:8080").after midWalk).AtRest := by
  have hstart := start_of_parse? filmShelf false
    (show SocketAddress.parse? "127.0.0.1:8080" = some ⟨.four [127, 0, 0, 1], 8080⟩ by
      decide +kernel)
  have hreturned :
      ((start filmShelf false "127.0.0.1:8080").after midWalk).stage = .returned (.ok ()) := by
    rw [hstart]
    cbv
  refine ⟨?_, (orderly_return filmShelf false "127.0.0.1:8080" midWalk).1 hreturned⟩
  rw [hstart]
  cbv

/-- An address that no machine has, since it is kept for documents. -/
def nobodysAddress : SocketAddress := ⟨.six [0x2001, 0xdb8, 0, 0, 0, 0, 0, 1] 0, 8080⟩

/-- A run that cannot bind its port has returned with its scanner at work and the token as it was,
and the next round puts a film into the catalog. -/
theorem failed_run_goes_on :
    let fault := Fault.system .addrNotAvailable "Cannot assign requested address" 99
    let r := (start filmShelf false "[2001:db8::1]:8080").after [.bindFailed fault]
    r.stage = .returned (.error (.cannotBind nobodysAddress fault)) ∧
      r.cancelled = false ∧ r.scanner = .resting ∧ r.shelf.registry.size = 0 ∧
      (r.after ((ScannerEvent.round filmTree [] r.shelf.mounts).map .scanner)).shelf.registry.size
        = 1 ∧ ¬ r.AtRest := by
  have hstart := start_of_parse? filmShelf false
    (show SocketAddress.parse? "[2001:db8::1]:8080" = some nobodysAddress by decide +kernel)
  rw [hstart]
  refine ⟨rfl, rfl, rfl, rfl, by cbv, fun hrest => ?_⟩
  cases hrest.cancelled

end MediaShelf.Server.Run
