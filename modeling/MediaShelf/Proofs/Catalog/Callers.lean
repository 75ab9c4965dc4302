import MediaShelf.Proofs.Catalog.Changes

/-!
# Many callers, one catalog

Any number of callers share a catalog. Each operation on it happens at once, but a scan has two
parts, and whatever the others do may come between them: first its caller compares what was found
with the catalog, later the catalog is changed by the difference. In every order of such steps the
catalog answers as the set of its entries would, and its two tables stay inverse to each other
(`registry_refines_entrySet`).
-/

namespace MediaShelf.Catalog

/-- What tells the callers apart. -/
abbrev Caller := Nat

/-- What is asked of a catalog in one step. -/
inductive Demand where
  | add (entry : Entry)
  | remove (volume : VolumeId) (path : Bytes)
  | get (id : EntryId)
  | idForPath (volume : VolumeId) (path : Bytes)
  | size
  | volumeSize (volume : VolumeId)
  /-- The first part of a scan, which has found some files. -/
  | compare (volume : VolumeId) (found : List Found)
  /-- The second part of the scan that the caller has begun. -/
  | apply

/-- What a step is answered with. -/
inductive Reply where
  | done
  | removed (entry : Option Entry)
  | got (outcome : Except Failure Entry)
  | id (id : Option EntryId)
  | count (count : Nat)
  /-- What a scan did; none if the caller had not begun any. -/
  | scanned (summary : Option ScanSummary)

/-! ## The catalog -/

/-- A catalog, and what its callers are going to change. -/
structure Shared where
  registry : Registry
  ids : IdSource
  differences : Caller → Option (VolumeId × Difference)

namespace Shared

/-- An empty catalog, of which nobody has asked anything. -/
def start (ids : IdSource) : Shared := ⟨.empty, ids, fun _ => none⟩

/-- One step of a caller. -/
def serve (c : Shared) (caller : Caller) : Demand → Reply × Shared
  | .add entry => (.done, { c with registry := c.registry.insert entry })
  | .remove volume path =>
    let (entry, registry) := c.registry.remove (.of volume path)
    (.removed entry, { c with registry := registry })
  | .get id => (.got (c.registry.get id), c)
  | .idForPath volume path => (.id (c.registry.idForPath volume path), c)
  | .size => (.count c.registry.size, c)
  | .volumeSize volume => (.count (c.registry.volumeSize volume), c)
  | .compare volume found =>
    let difference := Difference.of c.registry volume found
    (.done, { c with
      differences := Function.update c.differences caller (some (volume, difference)) })
  | .apply =>
    match c.differences caller with
    | none => (.scanned none, c)
    | some (volume, difference) =>
      let (summary, registry, ids) := difference.apply c.registry c.ids volume
      (.scanned (some summary), ⟨registry, ids, Function.update c.differences caller none⟩)

def serveAll (c : Shared) : List (Caller × Demand) → List Reply × Shared
  | [] => ([], c)
  | (caller, demand) :: rest =>
    let (reply, next) := c.serve caller demand
    let (replies, last) := next.serveAll rest
    (reply :: replies, last)

end Shared

/-! ## The set -/

/-- A set of entries, and what its callers are going to change. -/
structure PlainShared where
  entries : EntrySet
  ids : IdSource
  plans : Caller → Option Plan

namespace PlainShared

/-- An empty set, of which nobody has asked anything. -/
def start (ids : IdSource) : PlainShared := ⟨.empty, ids, fun _ => none⟩

/-- One step of a caller: what it is answered with, and what the set is then. -/
inductive Step (p : PlainShared) (caller : Caller) : Demand → Reply → PlainShared → Prop
  | add (entry : Entry) : Step p caller (.add entry) .done { p with entries := p.entries.add entry }
  | remove {volume : VolumeId} {path : Bytes} {entry : Entry} (hmem : entry ∈ p.entries)
      (hkey : entry.key = .of volume path) :
      Step p caller (.remove volume path) (.removed (some entry))
        { p with entries := p.entries.without (·.key = .of volume path) }
  | removeNone {volume : VolumeId} {path : Bytes} (hnone : ¬ p.entries.HasKey (.of volume path)) :
      Step p caller (.remove volume path) (.removed none) p
  | getNil {id : EntryId} (hnil : id = .nil) :
      Step p caller (.get id) (.got (.error (.notFound "nil id"))) p
  | get {id : EntryId} {entry : Entry} (hnil : id ≠ .nil) (hmem : entry ∈ p.entries)
      (hid : entry.id = id) : Step p caller (.get id) (.got (.ok entry)) p
  | getNone {id : EntryId} (hnil : id ≠ .nil) (hnone : ∀ entry ∈ p.entries, entry.id ≠ id) :
      Step p caller (.get id) (.got (.error (.notFound id.toText))) p
  | idForPath {volume : VolumeId} {path : Bytes} {entry : Entry} (hmem : entry ∈ p.entries)
      (hkey : entry.key = .of volume path) :
      Step p caller (.idForPath volume path) (.id (some entry.id)) p
  | idForPathNone {volume : VolumeId} {path : Bytes}
      (hnone : ¬ p.entries.HasKey (.of volume path)) :
      Step p caller (.idForPath volume path) (.id none) p
  | size : Step p caller .size (.count p.entries.entries.card) p
  | volumeSize (volume : VolumeId) :
      Step p caller (.volumeSize volume)
        (.count (p.entries.entries.filter fun entry => entry.volume = volume).card) p
  | compare (volume : VolumeId) (found : List Found) :
      Step p caller (.compare volume found) .done
        { p with plans := Function.update p.plans caller (some (p.entries.plan volume found)) }
  | apply {plan : Plan} (hplan : p.plans caller = some plan) :
      Step p caller .apply (.scanned (some (p.entries.carryOut p.ids plan).1))
        ⟨(p.entries.carryOut p.ids plan).2.1, (p.entries.carryOut p.ids plan).2.2,
          Function.update p.plans caller none⟩
  | applyNone (hplan : p.plans caller = none) : Step p caller .apply (.scanned none) p

inductive Run : PlainShared → List (Caller × Demand) → List Reply → PlainShared → Prop
  | nil (p : PlainShared) : Run p [] [] p
  | cons {p next last : PlainShared} {caller : Caller} {demand : Demand} {reply : Reply}
      {rest : List (Caller × Demand)} {replies : List Reply}
      (hstep : Step p caller demand reply next) (hrest : Run next rest replies last) :
      Run p ((caller, demand) :: rest) (reply :: replies) last

/-- The set leaves no choice in what a step is answered with, nor in what it does. -/
theorem Step.unique {p p₁ p₂ : PlainShared} {caller : Caller} {demand : Demand}
    {reply₁ reply₂ : Reply} (h₁ : Step p caller demand reply₁ p₁)
    (h₂ : Step p caller demand reply₂ p₂) : reply₁ = reply₂ ∧ p₁ = p₂ := by
  cases h₁ with
  | add | size | volumeSize | compare => cases h₂; exact ⟨rfl, rfl⟩
  | remove hmem hkey => cases h₂ with
    | remove hmem₂ hkey₂ =>
      rw [p.entries.keyUnique _ hmem _ hmem₂ (hkey.trans hkey₂.symm)]
      exact ⟨rfl, rfl⟩
    | removeNone hnone => exact absurd ⟨_, hmem, hkey⟩ hnone
  | removeNone hnone => cases h₂ with
    | remove hmem hkey => exact absurd ⟨_, hmem, hkey⟩ hnone
    | removeNone => exact ⟨rfl, rfl⟩
  | getNil hnil => cases h₂ with
    | getNil => exact ⟨rfl, rfl⟩
    | get hnil₂ | getNone hnil₂ => exact absurd hnil hnil₂
  | get hnil hmem hid => cases h₂ with
    | getNil hnil₂ => exact absurd hnil₂ hnil
    | get _ hmem₂ hid₂ =>
      rw [p.entries.idUnique _ hmem _ hmem₂ (hid.trans hid₂.symm)]
      exact ⟨rfl, rfl⟩
    | getNone _ hnone => exact absurd hid (hnone _ hmem)
  | getNone hnil hnone => cases h₂ with
    | getNil hnil₂ => exact absurd hnil₂ hnil
    | get _ hmem hid => exact absurd hid (hnone _ hmem)
    | getNone => exact ⟨rfl, rfl⟩
  | idForPath hmem hkey => cases h₂ with
    | idForPath hmem₂ hkey₂ =>
      rw [p.entries.keyUnique _ hmem _ hmem₂ (hkey.trans hkey₂.symm)]
      exact ⟨rfl, rfl⟩
    | idForPathNone hnone => exact absurd ⟨_, hmem, hkey⟩ hnone
  | idForPathNone hnone => cases h₂ with
    | idForPath hmem hkey => exact absurd ⟨_, hmem, hkey⟩ hnone
    | idForPathNone => exact ⟨rfl, rfl⟩
  | apply hplan => cases h₂ with
    | apply hplan₂ =>
      cases hplan.symm.trans hplan₂
      exact ⟨rfl, rfl⟩
    | applyNone hplan₂ => cases hplan.symm.trans hplan₂
  | applyNone hplan => cases h₂ with
    | apply hplan₂ => cases hplan.symm.trans hplan₂
    | applyNone => exact ⟨rfl, rfl⟩

theorem Run.unique {p last₁ last₂ : PlainShared} {calls : List (Caller × Demand)}
    {replies₁ replies₂ : List Reply} (h₁ : Run p calls replies₁ last₁)
    (h₂ : Run p calls replies₂ last₂) : replies₁ = replies₂ ∧ last₁ = last₂ := by
  induction h₁ generalizing replies₂ last₂ with
  | nil p => cases h₂; exact ⟨rfl, rfl⟩
  | cons hstep hrest ih =>
    cases h₂ with
    | cons hstep₂ hrest₂ =>
      obtain ⟨rfl, rfl⟩ := hstep.unique hstep₂
      obtain ⟨rfl, rfl⟩ := ih hrest₂
      exact ⟨rfl, rfl⟩

end PlainShared

/-! ## Step by step -/

/-- What a caller is going to do that has compared a volume. -/
def planOf (begun : VolumeId × Difference) : Plan := begun.2.plan begun.1

/-- A catalog holds a set, and the callers are going to change both alike. -/
structure Shared.Holds (c : Shared) (p : PlainShared) : Prop where
  registry : c.registry.Holds p.entries
  ids : c.ids = p.ids
  plans : Option.map planOf ∘ c.differences = p.plans

namespace Shared

variable {c : Shared} {p : PlainShared}

theorem holds_start (ids : IdSource) : (start ids).Holds (.start ids) where
  registry := Registry.holds_empty
  ids := rfl
  plans := rfl

/-- Each step is answered as the set answers it, and the catalog holds the set again. -/
theorem Holds.serve (h : c.Holds p) (caller : Caller) (demand : Demand) :
    ∃ next, p.Step caller demand (c.serve caller demand).1 next ∧
      (c.serve caller demand).2.Holds next := by
  cases demand with
  | add entry =>
    exact ⟨_, .add entry, h.registry.insert entry, h.ids, h.plans⟩
  | remove volume path =>
    obtain ⟨hremoved, hholds⟩ := h.registry.remove (.of volume path)
    unfold Shared.serve
    cases hfound : (c.registry.remove (.of volume path)).1 with
    | none =>
      have hnone : ¬ p.entries.HasKey (.of volume path) := fun ⟨entry, hmem, hkey⟩ => by
        have hsome := (hremoved entry).mpr ⟨hmem, hkey⟩
        rw [hfound] at hsome
        cases hsome
      rw [EntrySet.without_eq_self fun entry hmem hkey => hnone ⟨entry, hmem, hkey⟩] at hholds
      simp only [hfound]
      exact ⟨p, .removeNone hnone, hholds, h.ids, h.plans⟩
    | some entry =>
      obtain ⟨hmem, hkey⟩ := (hremoved entry).mp hfound
      simp only [hfound]
      exact ⟨_, .remove hmem hkey, hholds, h.ids, h.plans⟩
  | get id =>
    refine ⟨p, ?_, h⟩
    unfold Shared.serve Registry.get
    by_cases hnil : id = .nil
    · simp only [if_pos hnil]
      exact .getNil hnil
    · simp only [if_neg hnil]
      cases hfound : c.registry.byId.get? id with
      | none => exact .getNone hnil (h.registry.byId_none.mp hfound)
      | some entry =>
        obtain ⟨hmem, hid⟩ := (h.registry.byId id entry).mp hfound
        exact .get hnil hmem hid
  | idForPath volume path =>
    refine ⟨p, ?_, h⟩
    simp only [Shared.serve, Registry.idForPath]
    cases hfound : c.registry.byPath.get? (.of volume path) with
    | none =>
      exact .idForPathNone fun ⟨entry, hmem, hkey⟩ => h.registry.byPath_none.mp hfound entry hmem hkey
    | some id =>
      obtain ⟨entry, hmem, hkey, rfl⟩ := (h.registry.byPath _ _).mp hfound
      exact .idForPath hmem hkey
  | size =>
    refine ⟨p, ?_, h⟩
    simp only [Shared.serve, h.registry.size_eq]
    exact .size
  | volumeSize volume =>
    refine ⟨p, ?_, h⟩
    simp only [Shared.serve, h.registry.volumeSize_eq]
    exact .volumeSize volume
  | compare volume found =>
    refine ⟨_, .compare volume found, h.registry, h.ids, ?_⟩
    simp only [Shared.serve]
    rw [Function.comp_update, h.plans, Option.map_some, planOf, h.registry.plan_eq]
  | apply =>
    have hplan : (c.differences caller).map planOf = p.plans caller := congrFun h.plans caller
    unfold Shared.serve
    cases hdifference : c.differences caller with
    | none =>
      rw [hdifference] at hplan
      exact ⟨p, .applyNone hplan.symm, h⟩
    | some begun =>
      obtain ⟨volume, d⟩ := begun
      rw [hdifference] at hplan
      obtain ⟨hsummary, hids, hholds⟩ := h.registry.apply d p.ids volume
      simp only [h.ids, hsummary]
      refine ⟨_, .apply hplan.symm, hholds, hids, ?_⟩
      rw [Function.comp_update, h.plans]
      rfl

theorem Holds.serveAll (h : c.Holds p) (calls : List (Caller × Demand)) :
    ∃ last, p.Run calls (c.serveAll calls).1 last ∧ (c.serveAll calls).2.Holds last := by
  induction calls generalizing c p with
  | nil => exact ⟨p, .nil p, h⟩
  | cons call rest ih =>
    obtain ⟨caller, demand⟩ := call
    obtain ⟨next, hstep, hnext⟩ := h.serve caller demand
    obtain ⟨last, hrun, hlast⟩ := ih hnext
    exact ⟨last, .cons hstep hrun, hlast⟩

end Shared

/-- **The catalog is a set of entries.** Whatever any number of callers ask of an empty catalog, in
whatever order their steps come and whichever identifiers are handed out: the plain set has one run
with these steps, every step is answered as in that run, the catalog holds the set that the run ends
with, and each of its two tables is the inverse of the other. -/
theorem registry_refines_entrySet (ids : IdSource) (calls : List (Caller × Demand)) :
    ∃ last, (∀ replies other, (PlainShared.start ids).Run calls replies other ↔
        replies = ((Shared.start ids).serveAll calls).1 ∧ other = last) ∧
      ((Shared.start ids).serveAll calls).2.registry.Holds last.entries ∧
      ((Shared.start ids).serveAll calls).2.registry.Consistent := by
  obtain ⟨last, hrun, hlast⟩ := (Shared.holds_start ids).serveAll calls
  refine ⟨last, fun replies other => ⟨fun h => h.unique hrun, ?_⟩, hlast.registry,
    hlast.registry.consistent⟩
  rintro ⟨rfl, rfl⟩
  exact hrun

end MediaShelf.Catalog
