import MediaShelf.Proofs.Files.Names

/-!
# Spellings of a path

A path has a lead, which is the root, a dot or nothing, and then the steps of its parts. Behind a
slash only parts follow (`steps_append_slash`), so repeated slashes, slashes at the end and inner
dots add nothing, and a part that is put behind a path adds its one step (`steps_join_part`).
-/

namespace MediaShelf.Files

/-- The steps of the parts of a path. -/
def partSteps (path : Bytes) : List Step := (splitSlash path).filterMap partStep?

/-- What a path starts with, if it is no part. -/
def leadSteps (path : Bytes) : List Step :=
  if path.head? = some slash then [.root]
  else if (splitSlash path).head? = some [dot] then [.here]
  else []

theorem steps_eq (path : Bytes) : steps path = leadSteps path ++ partSteps path := by
  cases path with
  | nil => rfl
  | cons b rest =>
    simp only [steps, leadSteps, partSteps, List.head?_cons, Option.some.injEq]
    split
    · rfl
    · split <;> rfl

theorem partSteps_append_slash (front back : Bytes) :
    partSteps (front ++ slash :: back) = partSteps front ++ partSteps back := by
  rw [partSteps, splitSlash_append_slash, List.filterMap_append, partSteps, partSteps]

theorem leadSteps_append_slash {front : Bytes} (h : front ≠ []) (back : Bytes) :
    leadSteps (front ++ slash :: back) = leadSteps front := by
  rw [leadSteps, leadSteps, splitSlash_append_slash, List.head?_append_of_ne_nil _ h,
    List.head?_append_of_ne_nil _ (splitSlash_ne_nil front)]

/-- Behind a slash only parts follow. -/
theorem steps_append_slash {front : Bytes} (h : front ≠ []) (back : Bytes) :
    steps (front ++ slash :: back) = steps front ++ partSteps back := by
  rw [steps_eq, leadSteps_append_slash h, partSteps_append_slash, ← List.append_assoc, ← steps_eq]

theorem steps_slash_cons (back : Bytes) : steps (slash :: back) = .root :: partSteps back := by
  rw [steps_eq, ← List.nil_append (slash :: back), partSteps_append_slash]
  rfl

/-- The steps of parts are steps up and names. -/
theorem mem_partSteps {path : Bytes} {step : Step} (h : step ∈ partSteps path) :
    slash ∉ step.bytes ∧ partStep? step.bytes = some step := by
  obtain ⟨part, hpart, hstep⟩ := List.mem_filterMap.mp h
  have hslash := not_mem_of_mem_splitSlash hpart
  unfold partStep? at hstep
  split at hstep
  case isTrue => cases hstep
  case isFalse hne =>
    split at hstep <;> obtain rfl := Option.some.inj hstep
    case isTrue => exact ⟨by decide, rfl⟩
    case isFalse hup => exact ⟨hslash, by rw [Step.bytes, partStep?, if_neg hne, if_neg hup]⟩

/-- What a path leads down by is a name. -/
theorem isName_of_down_mem_steps {path : Bytes} {name : Name} (h : .down name ∈ steps path) :
    IsName name := by
  rw [steps_eq, List.mem_append] at h
  have hpart : .down name ∈ partSteps path := by
    refine h.resolve_left fun hlead => ?_
    unfold leadSteps at hlead
    split at hlead
    · simp at hlead
    · split at hlead <;> simp at hlead
  obtain ⟨hslash, hstep⟩ := mem_partSteps hpart
  refine ⟨?_, hslash, ?_, ?_⟩ <;> rintro rfl <;> exact absurd hstep (by decide)

theorem isName_of_fileName? {path : Bytes} {name : Name} (h : fileName? path = some name) :
    IsName name := by
  unfold fileName? at h
  split at h
  case h_1 last hlast =>
    obtain rfl := Option.some.inj h
    exact isName_of_down_mem_steps (List.mem_of_getLast? hlast)
  case h_2 => cases h

theorem partSteps_part {part : Bytes} {step : Step} (hslash : slash ∉ part)
    (h : partStep? part = some step) : partSteps part = [step] := by
  rw [partSteps, splitSlash_of_not_mem hslash, List.filterMap_cons, h, List.filterMap_nil]

theorem steps_part {part : Bytes} {step : Step} (hslash : slash ∉ part)
    (h : partStep? part = some step) : steps part = [step] := by
  have hdot : part ≠ [dot] := by
    rintro rfl
    cases h
  have hhead : part.head? ≠ some slash := fun heq => hslash (List.mem_of_mem_head? heq)
  rw [steps_eq, partSteps_part hslash h, leadSteps, if_neg hhead, splitSlash_of_not_mem hslash,
    if_neg (by simpa using hdot)]
  rfl

/-- A part that is put behind a path adds its step. -/
theorem steps_join_part (base : Bytes) {part : Bytes} {step : Step} (hslash : slash ∉ part)
    (h : partStep? part = some step) : steps (join base part) = steps base ++ [step] := by
  have hrelative : isAbsolute part = false := by
    rw [isAbsolute, beq_eq_false_iff_ne]
    exact fun heq => hslash (List.mem_of_mem_head? heq)
  unfold join
  rw [hrelative]
  split
  case isTrue hbase =>
    obtain rfl : base = [] := by simpa using hbase
    exact steps_part hslash h
  case isFalse hbase =>
    have hne : base ≠ [] := by simpa using hbase
    split
    case isTrue hlast =>
      -- The slash that the path ends in is the one in front of the part.
      obtain ⟨front, rfl⟩ := List.getLast?_eq_some_iff.mp hlast
      rw [List.append_assoc, List.singleton_append]
      cases front with
      | nil =>
        rw [List.nil_append, steps_slash_cons, partSteps_part hslash h]
        rfl
      | cons b front =>
        rw [steps_append_slash (by simp), steps_append_slash (by simp), partSteps_part hslash h,
          show partSteps [] = [] from rfl, List.append_nil]
    case isFalse =>
      rw [List.append_assoc, List.singleton_append, steps_append_slash hne,
        partSteps_part hslash h]

/-- A slash at the end adds nothing. -/
theorem steps_join_nil (base : Bytes) : steps (join base []) = steps base := by
  unfold join
  split
  case isTrue hbase =>
    obtain rfl : base = [] := by simpa [isAbsolute] using hbase
    rfl
  case isFalse hbase =>
    have hne : base ≠ [] := fun heq => hbase (.inr heq)
    split
    · rw [List.append_nil]
    · rw [List.append_nil, steps_append_slash hne]
      exact List.append_nil _

/-- Parts that are put behind a path one after the other add their steps. -/
theorem steps_foldl_join (base : Bytes) {more : List Step}
    (h : ∀ step ∈ more, slash ∉ step.bytes ∧ partStep? step.bytes = some step) :
    steps (more.foldl (fun text step => join text step.bytes) base) = steps base ++ more := by
  induction more generalizing base with
  | nil => exact (List.append_nil _).symm
  | cons step more ih =>
    rw [List.forall_mem_cons] at h
    rw [List.foldl_cons, ih _ h.2, steps_join_part base h.1.1 h.1.2, List.append_assoc,
      List.singleton_append]

end MediaShelf.Files
