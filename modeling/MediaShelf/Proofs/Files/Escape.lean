import MediaShelf.Proofs.Files.Twin

/-!
# Escapes

A relative path that the system would lead out of its root is refused as being outside, and the
refusal carries the path as it was asked for and nothing else (`resolveInRoot_escape`,
`resolveInRoot_outside`). The walk of the system and the confined walk take the same steps until
the latter is refused; they read the target of a link in two ways, which differ only in steps that
lead nowhere (`systemSteps_moving`).
-/

namespace MediaShelf.Files

/-- The steps that lead somewhere else. -/
def moving (steps : List Step) : List Step := steps.filter (· ≠ .here)

theorem moving_append (a b : List Step) : moving (a ++ b) = moving a ++ moving b :=
  List.filter_append ..

theorem moving_filterMap (f : Bytes → Option Step) (parts : List Bytes) :
    moving (parts.filterMap f) = parts.filterMap fun part => (f part).filter (· ≠ .here) :=
  List.filter_filterMap ..

theorem partStep?_moving (part : Bytes) :
    (partStep? part).filter (· ≠ .here) = partStep? part := by
  unfold partStep?
  split
  · rfl
  · split <;> rfl

theorem systemStep?_moving (part : Bytes) :
    (Tree.systemStep? part).filter (· ≠ .here) = partStep? part := by
  unfold Tree.systemStep? partStep?
  by_cases hnil : part = []
  · simp [hnil]
  · by_cases hdot : part = [dot]
    · simp [hdot]
    · by_cases hup : part = [dot, dot]
      · simp [hup, dot]
      · simp [hnil, hdot, hup]

/-- Both ways to read a path give the same steps but for those that lead nowhere. -/
theorem systemSteps_moving (path : Bytes) :
    moving (Tree.systemSteps path) = moving (steps path) := by
  have hparts : ∀ parts : List Bytes, moving (parts.filterMap Tree.systemStep?) =
      moving (parts.filterMap partStep?) := fun parts => by
    rw [moving_filterMap, moving_filterMap]
    simp only [systemStep?_moving, partStep?_moving]
  have hinner : ∀ (parts : List Bytes) (c : Prop) [Decidable c],
      moving (if c then parts.filterMap Tree.systemStep? ++ [.here]
        else parts.filterMap Tree.systemStep?) = moving (parts.filterMap partStep?) := by
    intro parts c _
    split
    · rw [moving_append, hparts]
      exact List.append_nil _
    · exact hparts parts
  unfold Tree.systemSteps
  cases path with
  | nil => rfl
  | cons b rest =>
    by_cases hb : b = slash
    · have habs : isAbsolute (b :: rest) = true := by simp [isAbsolute, hb]
      simp only [habs, if_true, steps, if_pos hb]
      exact congrArg (Step.root :: ·) (hinner _ _)
    · have habs : isAbsolute (b :: rest) = false := by simp [isAbsolute, hb]
      simp only [habs, Bool.false_eq_true, if_false, steps, if_neg hb]
      rw [hinner]
      split <;> rfl

/-! ## The confined walk -/

theorem moving_cons {step : Step} (h : step ≠ .here) (rest : List Step) :
    moving (step :: rest) = step :: moving rest := by
  simp [moving, h]

section Walk

variable {probe : Place → Except Fault Node} {root : Place} {outside : Failure}

theorem walkConfined_of_moving_nil {steps : List Step} (h : moving steps = []) (links : Nat)
    (missing : Bool) (here : Place) :
    walkConfined probe root outside links missing here steps =
      walkConfined probe root outside links missing here [] := by
  induction steps with
  | nil => rfl
  | cons step steps ih =>
    by_cases hstep : step = .here
    · subst hstep
      rw [← ih h, walkConfined]
    · rw [moving_cons hstep] at h
      cases h

/-- A confined walk passes over what leads nowhere until the first step that leads on. -/
theorem walkConfined_of_moving_cons {steps rest : List Step} {step : Step}
    (h : moving steps = step :: rest) : ∃ tail, moving tail = rest ∧
      ∀ links missing here, walkConfined probe root outside links missing here steps =
        walkConfined probe root outside links missing here (step :: tail) := by
  induction steps with
  | nil => cases h
  | cons first steps ih =>
    by_cases hfirst : first = .here
    · subst hfirst
      obtain ⟨tail, htail, hwalk⟩ := ih h
      exact ⟨tail, htail, fun links missing here => by rw [walkConfined, hwalk]⟩
    · rw [moving_cons hfirst] at h
      cases h
      exact ⟨steps, rfl, fun _ _ _ => rfl⟩

/-- A refusal is the one that was asked for, or a fault. -/
theorem walkConfined_error {links : Nat} {missing : Bool} {here : Place} {steps : List Step}
    {failure : Failure}
    (h : walkConfined probe root outside links missing here steps = .error failure) :
    failure = outside ∨ ∃ fault, failure = .fault fault := by
  fun_induction walkConfined probe root outside links missing here steps with
  | case1 | case7 => cases h; exact .inl rfl
  | case2 | case9 | case13 => cases h; exact .inr ⟨_, rfl⟩
  | case3 => cases h
  | case4 _ _ _ _ ih | case5 _ _ _ _ ih | case6 _ _ _ _ ih => exact ih h
  | case8 _ _ _ _ _ _ ih => exact ih h
  | case10 _ _ _ _ _ _ _ _ _ _ ih => exact ih h
  | case11 _ _ _ _ _ _ _ _ _ _ _ ih => exact ih h
  | case12 _ _ _ _ _ _ _ _ _ _ _ ih => exact ih h

end Walk

/-- What lies inside a root, and on the way to it, has a path that the system takes. -/
def Tree.NameableFrom (tree : Tree) (root : Place) : Prop :=
  ∀ place node, isAllowed root place → tree.node? place = some node → tree.probe place = .ok node

theorem Tree.NameableFrom.of_nodes {tree : Tree} {root : Place}
    (h : ∀ item ∈ tree.nodes, isAllowed root item.1 → tree.probe item.1 = .ok item.2) :
    tree.NameableFrom root := by
  intro place node hin hnode
  by_cases hne : place = []
  · subst hne
    cases hnode
    exact Tree.probe_nil
  · rw [Tree.node?_of_ne_nil tree hne] at hnode
    obtain ⟨front, back, heq, -⟩ := List.lookup_eq_some_iff.mp hnode
    exact h (place, node) (by simp [heq]) hin

section Escape

variable {tree : Tree} {root : Place} {outside : Failure} (hname : tree.NameableFrom root)

include hname

/-- If the walk of the system ends outside the root, then the confined walk is refused. The two
stand at the same place, with the same steps before them that lead on, until that happens. -/
theorem walkConfined_escape {links : Nat} {here p : Place} {steps : List Step}
    (h : tree.walkSteps true links here steps = .ok p) (hout : ¬ isInside root p)
    {steps' : List Step} (hsteps : moving steps' = moving steps) :
    walkConfined tree.probe root outside links false here steps' = .error outside := by
  fun_induction tree.walkSteps true links here steps generalizing steps' with
  | case1 links here hsome =>
    cases h
    rw [walkConfined_of_moving_nil hsteps, walkConfined, if_pos hout]
  | case2 | case4 | case6 | case8 | case9 | case10 | case12 => cases h
  | case3 links here rest ih =>
    obtain ⟨tail, htail, hwalk⟩ := walkConfined_of_moving_cons hsteps
    rw [hwalk, walkConfined]
    exact ih h htail
  | case5 links here rest _ ih => exact ih h hsteps
  | case7 links here rest _ ih =>
    obtain ⟨tail, htail, hwalk⟩ := walkConfined_of_moving_cons hsteps
    rw [hwalk, walkConfined]
    exact ih h htail
  | case11 links here name rest _ _ target _ hlast => simp at hlast
  | case13 here name rest _ _ target hnode _ links ih =>
    obtain ⟨tail, htail, hwalk⟩ := walkConfined_of_moving_cons hsteps
    rw [hwalk, walkConfined]
    by_cases hin : isAllowed root (here ++ [name])
    · simp only [hin, not_true_eq_false, if_false, Bool.false_eq_true,
        hname _ _ hin hnode]
      refine ih h ?_
      rw [moving_append, moving_append, systemSteps_moving, htail]
      rfl
    · simp only [if_pos hin]
  | case14 links here name rest _ _ node hlink hnode ih =>
    obtain ⟨tail, htail, hwalk⟩ := walkConfined_of_moving_cons hsteps
    rw [hwalk, walkConfined]
    by_cases hin : isAllowed root (here ++ [name])
    · simp only [hin, not_true_eq_false, if_false, Bool.false_eq_true,
        hname _ _ hin hnode]
      cases node with
      | link target => exact absurd rfl (hlink target)
      | folder | file number => exact ih h htail
    · simp only [if_pos hin]

end Escape

/-! ## Resolving -/

namespace Tree

variable {tree : Tree} {here r : Place} {path relative : Bytes}

/-- A path that is absolute, or climbs above its start, is refused before the tree is looked at. -/
theorem resolveInRoot_lexical (h : normalize? relative = none) :
    tree.resolveInRoot here path relative = .error (.outsideRoot relative) := by
  unfold resolveInRoot
  rw [h]

/-- A path that the system would lead out of the root is refused. -/
theorem resolveInRoot_escape {names : List Name} {p : Place}
    (hr : tree.canonical here path = .ok r) (hname : tree.NameableFrom r)
    (hnames : normalize? relative = some names)
    (hp : tree.walkSteps true maxLinks r (names.map .down) = .ok p) (hout : ¬ r <+: p) :
    tree.resolveInRoot here path relative = .error (.outsideRoot relative) := by
  have hout' : ¬ isInside r p := by simpa [isInside] using hout
  unfold resolveInRoot
  rw [hnames]
  cases names with
  | nil =>
    rw [List.map_nil, walkSteps] at hp
    split at hp
    · cases hp
      exact absurd (List.prefix_refl r) hout
    · cases hp
  | cons name names =>
    simp only [hr]
    exact walkConfined_escape hname hp hout' rfl

/-- A refusal as being outside carries the path that was asked for. -/
theorem resolveInRoot_outside {asked : Bytes}
    (h : tree.resolveInRoot here path relative = .error (.outsideRoot asked)) :
    asked = relative := by
  unfold resolveInRoot at h
  split at h
  · cases h; rfl
  · cases h
  · split at h
    · cases h
    · rcases walkConfined_error h with heq | ⟨fault, heq⟩
      · cases heq; rfl
      · cases heq

end Tree

end MediaShelf.Files
