import MediaShelf.Proofs.Catalog.Callers
import MediaShelf.Proofs.Catalog.Plans

/-!
# Scans at the same time

Callers scan volumes of one catalog, and the parts of their scans come in any order (`Shared.run`).
A plan may be old when it is carried out. But its identifiers are old then too: whatever is in the
catalog or in a plan that waits was there at first or was handed out since (`Traced`), and the
identifiers that are handed out later are different from all of these. Hence carrying out a plan
never takes an entry for another one (`Traced.apply`).
-/

namespace MediaShelf.Catalog

/-- The parts of a scan. Its walk is done before: it does not look at the catalog. -/
inductive ScanPart where
  | compare (volume : VolumeId) (found : List Found)
  | apply
  deriving DecidableEq

/-- What a part asks of the catalog. -/
def ScanPart.demand : ScanPart → Demand
  | .compare volume found => .compare volume found
  | .apply => .apply

namespace Shared

def resting (r : Registry) (ids : IdSource) : Shared := ⟨r, ids, fun _ => none⟩

def run (c : Shared) (parts : List (Caller × ScanPart)) : List Reply × Shared :=
  c.serveAll (parts.map fun part => (part.1, part.2.demand))

/-- What there is when so many parts are done. -/
def after (c : Shared) (parts : List (Caller × ScanPart)) (n : Nat) : Shared :=
  (c.run (parts.take n)).2

end Shared

/-! ## Parts of scans on the set -/

namespace PlainShared

def resting (s : EntrySet) (ids : IdSource) : PlainShared := ⟨s, ids, fun _ => none⟩

/-- One part of a scan: what its caller is told, and what there is then. -/
def part (p : PlainShared) (caller : Caller) : ScanPart → Reply × PlainShared
  | .compare volume found =>
    (.done, { p with
      plans := Function.update p.plans caller (some (p.entries.plan volume found)) })
  | .apply =>
    match p.plans caller with
    | none => (.scanned none, p)
    | some plan =>
      let (summary, entries, ids) := p.entries.carryOut p.ids plan
      (.scanned (some summary), ⟨entries, ids, Function.update p.plans caller none⟩)

def run (p : PlainShared) : List (Caller × ScanPart) → List Reply × PlainShared
  | [] => ([], p)
  | (caller, part) :: rest =>
    let (reply, next) := p.part caller part
    let (replies, last) := next.run rest
    (reply :: replies, last)

/-- What there is when so many parts are done. -/
def after (p : PlainShared) (parts : List (Caller × ScanPart)) (n : Nat) : PlainShared :=
  (p.run (parts.take n)).2

variable {p : PlainShared} {caller : Caller} {parts : List (Caller × ScanPart)}

theorem step_part (p : PlainShared) (caller : Caller) (part : ScanPart) :
    p.Step caller part.demand (p.part caller part).1 (p.part caller part).2 := by
  cases part with
  | compare volume found => exact .compare volume found
  | apply =>
    unfold PlainShared.part
    cases hplan : p.plans caller with
    | none => exact .applyNone hplan
    | some plan => exact .apply hplan

theorem plans_part_of_ne {other : Caller} (hne : caller ≠ other) (part : ScanPart) :
    (p.part other part).2.plans caller = p.plans caller := by
  cases part with
  | compare => exact Function.update_of_ne hne _ _
  | apply =>
    unfold PlainShared.part
    cases p.plans other with
    | none => rfl
    | some plan => exact Function.update_of_ne hne _ _

theorem run_cons (part : ScanPart) (rest : List (Caller × ScanPart)) :
    p.run ((caller, part) :: rest) =
      ((p.part caller part).1 :: ((p.part caller part).2.run rest).1,
        ((p.part caller part).2.run rest).2) := rfl

theorem run_append (p : PlainShared) (first second : List (Caller × ScanPart)) :
    p.run (first ++ second) =
      ((p.run first).1 ++ ((p.run first).2.run second).1, ((p.run first).2.run second).2) := by
  induction first generalizing p with
  | nil => rfl
  | cons head rest ih =>
    obtain ⟨caller, part⟩ := head
    rw [List.cons_append, run_cons, run_cons, ih, List.cons_append]

@[simp] theorem length_run (p : PlainShared) (parts : List (Caller × ScanPart)) :
    (p.run parts).1.length = parts.length := by
  induction parts generalizing p with
  | nil => rfl
  | cons head rest ih =>
    obtain ⟨caller, part⟩ := head
    rw [run_cons, List.length_cons, List.length_cons, ih]

theorem after_succ {n : Nat} {part : ScanPart} (h : parts[n]? = some (caller, part)) :
    p.after parts (n + 1) = ((p.after parts n).part caller part).2 := by
  unfold after
  rw [List.take_add_one, h, Option.toList_some, run_append]
  rfl

theorem after_succ_of_none {n : Nat} (h : parts[n]? = none) :
    p.after parts (n + 1) = p.after parts n := by
  unfold after
  rw [List.take_add_one, h, Option.toList_none, List.append_nil]

theorem after_of_length_le {n : Nat} (h : parts.length ≤ n) :
    p.after parts n = (p.run parts).2 := by
  unfold after
  rw [List.take_of_length_le h]

theorem getElem?_run (p : PlainShared) (parts : List (Caller × ScanPart)) (n : Nat) :
    (p.run parts).1[n]? =
      parts[n]?.map fun head => ((p.after parts n).part head.1 head.2).1 := by
  induction parts generalizing p n with
  | nil => rfl
  | cons head rest ih =>
    obtain ⟨caller, part⟩ := head
    cases n with
    | zero => rfl
    | succ n => exact ih (p.part caller part).2 n

end PlainShared

theorem Registry.Holds.resting {r : Registry} {s : EntrySet} (h : r.Holds s) (ids : IdSource) :
    (Shared.resting r ids).Holds (.resting s ids) where
  registry := h
  ids := rfl
  plans := rfl

namespace Shared.Holds

variable {c : Shared} {p : PlainShared}

theorem part (h : c.Holds p) (caller : Caller) (part : ScanPart) :
    (c.serve caller part.demand).1 = (p.part caller part).1 ∧
      (c.serve caller part.demand).2.Holds (p.part caller part).2 := by
  obtain ⟨next, hstep, hnext⟩ := h.serve caller part.demand
  obtain ⟨hreply, rfl⟩ := hstep.unique (p.step_part caller part)
  exact ⟨hreply, hnext⟩

theorem run (h : c.Holds p) (parts : List (Caller × ScanPart)) :
    (c.run parts).1 = (p.run parts).1 ∧ (c.run parts).2.Holds (p.run parts).2 := by
  induction parts generalizing c p with
  | nil => exact ⟨rfl, h⟩
  | cons head rest ih =>
    obtain ⟨caller, part⟩ := head
    obtain ⟨hreply, hnext⟩ := h.part caller part
    obtain ⟨hreplies, hlast⟩ := ih hnext
    exact ⟨congrArg₂ List.cons hreply hreplies, hlast⟩

theorem after (h : c.Holds p) (parts : List (Caller × ScanPart)) (n : Nat) :
    (c.after parts n).Holds (p.after parts n) := (h.run _).2

end Shared.Holds

/-! ## Where identifiers come from -/

/-- The identifiers that are taken, and the first ones from the source. -/
def IdSource.Used (ids : IdSource) (taken : EntryId → Prop) (count : Nat) (id : EntryId) : Prop :=
  taken id ∨ ∃ n < count, id = ids.sequence (ids.drawn + n)

theorem IdSource.Used.mono {ids : IdSource} {taken : EntryId → Prop} {count more : Nat}
    {id : EntryId} (h : ids.Used taken count id) (hle : count ≤ more) : ids.Used taken more id :=
  h.imp_right fun ⟨n, hn, heq⟩ => ⟨n, by omega, heq⟩

/-- Every identifier in a catalog, or in the catalogs with which volumes were compared, was there at
the start or is among the first ones from the source. -/
structure Traced (s : EntrySet) (ids : IdSource) (count : Nat) (p : PlainShared) : Prop where
  source : p.ids = ids.skip count
  entries : ∀ id, p.entries.HasId id → ids.Used s.HasId count id
  plans : ∀ caller plan, p.plans caller = some plan → ∃ (earlier : EntrySet) (volume : VolumeId)
    (found : List Found), plan = earlier.plan volume found ∧
      ∀ id, earlier.HasId id → ids.Used s.HasId count id

/-- The second part of a scan by a caller that had compared a volume with the set `earlier`. -/
structure Applied (earlier : EntrySet) (volume : VolumeId) (found : List Found) (caller : Caller)
    (p : PlainShared) (reply : Reply) (next : PlainShared) : Prop where
  reply : reply = .scanned (some ⟨(earlier.unlisted p.entries volume found).length,
    (p.entries.entries.filter fun entry => earlier.Lost volume found entry).card,
    (earlier.plan volume found).unchanged⟩)
  entries : ∀ entry, entry ∈ next.entries ↔
    (entry ∈ p.entries ∧ ¬ earlier.Lost volume found entry) ∨
      EntrySet.Numbered p.ids volume (earlier.unlisted p.entries volume found) entry
  ids : next.ids = p.ids.skip (earlier.unlisted p.entries volume found).length
  plans : next.plans = Function.update p.plans caller none

section Tracing

variable {s : EntrySet} {ids : IdSource} {count total : Nat} {p : PlainShared} {caller : Caller}
  {part : ScanPart}

theorem traced_start (s : EntrySet) (ids : IdSource) : Traced s ids 0 (.resting s ids) where
  source := rfl
  entries _ h := .inl h
  plans := nofun

theorem PlainShared.drawn_part (p : PlainShared) (caller : Caller) (part : ScanPart) :
    p.ids.drawn ≤ (p.part caller part).2.ids.drawn := by
  cases part with
  | compare => exact Nat.le_refl _
  | apply =>
    unfold PlainShared.part
    cases p.plans caller with
    | none => exact Nat.le_refl _
    | some plan =>
      simp only [EntrySet.carryOut_ids, IdSource.skip_drawn]
      exact Nat.le_add_right ..

/-- A plan is carried out, however old it is, with identifiers that nothing in the set has. -/
theorem applied_of_fresh {earlier : EntrySet} {volume : VolumeId} {found : List Found}
    (hplan : p.plans caller = some (earlier.plan volume found))
    (hids : p.ids.Fresh p.entries.HasId
      ((p.part caller .apply).2.ids.drawn - p.ids.drawn)) :
    Applied earlier volume found caller p (p.part caller .apply).1 (p.part caller .apply).2 := by
  have hpart : p.part caller .apply =
      (.scanned (some (p.entries.carryOut p.ids (earlier.plan volume found)).1),
        ⟨(p.entries.carryOut p.ids (earlier.plan volume found)).2.1,
          (p.entries.carryOut p.ids (earlier.plan volume found)).2.2,
          Function.update p.plans caller none⟩) := by
    simp only [PlainShared.part, hplan]
  rw [hpart] at hids ⊢
  have hlater := p.entries.carryOut_ids p.ids (earlier.plan volume found)
  simp only [hlater, IdSource.skip_drawn, Nat.add_sub_cancel_left] at hids
  obtain ⟨hsummary, hentries⟩ := EntrySet.carryOut_spec hids
  refine ⟨?_, hentries, ?_, rfl⟩
  · simp only [hsummary]
  · simp only [hlater, hsummary]

/-- When a plan is carried out, the identifiers that are handed out are none of those that any plan
knows. -/
theorem Traced.apply (h : Traced s ids count p) (hids : ids.Fresh s.HasId total)
    {earlier : EntrySet} {volume : VolumeId} {found : List Found}
    (hplan : p.plans caller = some (earlier.plan volume found))
    (htotal : (p.part caller .apply).2.ids.drawn ≤ ids.drawn + total) :
    Applied earlier volume found caller p (p.part caller .apply).1 (p.part caller .apply).2 ∧
      p.ids.Fresh (ids.Used s.HasId count) (earlier.unlisted p.entries volume found).length := by
  have hdrawn : p.ids.drawn = ids.drawn + count := by rw [h.source, IdSource.skip_drawn]
  have hgrown := p.drawn_part caller .apply
  have hrest : p.ids.Fresh (ids.Used s.HasId count) (total - count) := by
    rw [h.source]
    exact hids.skip (by omega) fun id hid => hid
  have hfresh : p.ids.Fresh (ids.Used s.HasId count)
      ((p.part caller .apply).2.ids.drawn - p.ids.drawn) :=
    hrest.mono (by omega) fun id hid => hid
  have happlied := applied_of_fresh hplan (hfresh.mono (Nat.le_refl _) h.entries)
  refine ⟨happlied, ?_⟩
  rwa [happlied.ids, IdSource.skip_drawn, Nat.add_sub_cancel_left] at hfresh

/-- Every part of a scan keeps the identifiers traced. -/
theorem Traced.step (h : Traced s ids count p) (hids : ids.Fresh s.HasId total)
    (htotal : (p.part caller part).2.ids.drawn ≤ ids.drawn + total) :
    ∃ more, Traced s ids (count + more) (p.part caller part).2 := by
  cases part with
  | compare volume found =>
    refine ⟨0, h.source, h.entries, fun other plan hplan => ?_⟩
    simp only [PlainShared.part, Function.update_apply] at hplan
    by_cases hother : other = caller
    · rw [if_pos hother, Option.some.injEq] at hplan
      exact ⟨p.entries, volume, found, hplan.symm, h.entries⟩
    · rw [if_neg hother] at hplan
      exact h.plans other plan hplan
  | apply =>
    cases hplan : p.plans caller with
    | none =>
      have hpart : p.part caller .apply = (.scanned none, p) := by
        simp only [PlainShared.part, hplan]
      rw [hpart]
      exact ⟨0, h⟩
    | some plan =>
      obtain ⟨earlier, volume, found, rfl, -⟩ := h.plans caller plan hplan
      obtain ⟨happlied, hfresh⟩ := h.apply hids hplan htotal
      refine ⟨(earlier.unlisted p.entries volume found).length, ?_, ?_, ?_⟩
      · rw [happlied.ids, h.source, IdSource.skip_skip]
      · rintro id ⟨entry, hentry, rfl⟩
        rcases (happlied.entries entry).mp hentry with ⟨hold, -⟩ | ⟨n, f, hf, rfl⟩
        · exact (h.entries _ ⟨entry, hold, rfl⟩).mono (Nat.le_add_right ..)
        · have hn := (List.getElem?_eq_some_iff.mp hf).1
          refine .inr ⟨count + n, by omega, ?_⟩
          rw [h.source]
          simp only [Entry.ofFile, IdSource.skip, Nat.add_assoc]
      · intro other plan hother
        rw [happlied.plans, Function.update_apply] at hother
        split at hother
        · cases hother
        · obtain ⟨earlier, volume, found, rfl, hused⟩ := h.plans other plan hother
          exact ⟨earlier, volume, found, rfl, fun id hid =>
            (hused id hid).mono (Nat.le_add_right ..)⟩

theorem PlainShared.drawn_run (p : PlainShared) (parts : List (Caller × ScanPart)) :
    p.ids.drawn ≤ (p.run parts).2.ids.drawn := by
  induction parts generalizing p with
  | nil => exact Nat.le_refl _
  | cons head rest ih =>
    obtain ⟨caller, part⟩ := head
    exact Nat.le_trans (p.drawn_part caller part) (ih _)

theorem PlainShared.monotone_drawn_after (p : PlainShared) (parts : List (Caller × ScanPart)) :
    Monotone fun n => (p.after parts n).ids.drawn := by
  refine monotone_nat_of_le_succ fun n => ?_
  cases hpart : parts[n]? with
  | none => rw [after_succ_of_none hpart]
  | some head =>
    obtain ⟨caller, part⟩ := head
    rw [after_succ hpart]
    exact drawn_part ..

theorem PlainShared.drawn_after_le (p : PlainShared) (parts : List (Caller × ScanPart)) (n : Nat) :
    (p.after parts n).ids.drawn ≤ (p.run parts).2.ids.drawn := by
  rw [← after_of_length_le (Nat.le_max_right n parts.length)]
  exact p.monotone_drawn_after parts (Nat.le_max_left n parts.length)

theorem Traced.run {parts : List (Caller × ScanPart)} (h : Traced s ids count p)
    (hids : ids.Fresh s.HasId total) (htotal : (p.run parts).2.ids.drawn ≤ ids.drawn + total) :
    ∃ more, Traced s ids (count + more) (p.run parts).2 := by
  induction parts generalizing p count with
  | nil => exact ⟨0, h⟩
  | cons head rest ih =>
    obtain ⟨caller, part⟩ := head
    rw [PlainShared.run_cons] at htotal ⊢
    obtain ⟨first, hfirst⟩ := h.step hids (Nat.le_trans (PlainShared.drawn_run _ rest) htotal)
    obtain ⟨more, hmore⟩ := ih hfirst htotal
    exact ⟨first + more, Nat.add_assoc .. ▸ hmore⟩

theorem Traced.count_eq (h : Traced s ids count p) : count = p.ids.drawn - ids.drawn := by
  rw [h.source, IdSource.skip_drawn, Nat.add_sub_cancel_left]

theorem traced_after {parts : List (Caller × ScanPart)}
    (hids : ids.FreshUntil ((PlainShared.resting s ids).run parts).2.ids s.HasId) (n : Nat) :
    Traced s ids (((PlainShared.resting s ids).after parts n).ids.drawn - ids.drawn)
      ((PlainShared.resting s ids).after parts n) := by
  have hdrawn := (PlainShared.resting s ids).drawn_after_le parts n
  have hrun : ∃ more, Traced s ids (0 + more) ((PlainShared.resting s ids).after parts n) :=
    (traced_start s ids).run hids (Nat.le_trans hdrawn (by omega))
  obtain ⟨more, h⟩ := hrun
  have hcount := h.count_eq
  rwa [hcount] at h

end Tracing

end MediaShelf.Catalog
