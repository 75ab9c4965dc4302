import MediaShelf.Proofs.Files.Spelling
import MediaShelf.Proofs.Files.Stations

/-!
# Paths without detours

Folding dots and steps up keeps a list of names as a stack: a name is put on it and a step up takes
one off. So it fails at the first step up that finds none, which is where the steps taken so far
lead up more often than down (`normalizeFrom_eq_none`). What is left are names of the path
(`sublist_of_normalizeFrom`), and where no link is met a walk by them ends where the path leads
(`walkSteps_normalized`). The path written from them is no longer than the old one, so the system
takes it too (`normalize_exact`).
-/

namespace MediaShelf.Files

/-- The name that a step leads down by. -/
def Step.name? : Step → Option Name
  | .down name => some name
  | _ => none

/-- The names that steps lead down by. -/
def downNames (steps : List Step) : List Name := steps.filterMap Step.name?

@[simp] theorem downNames_nil : downNames [] = [] := rfl

@[simp] theorem downNames_root (rest : List Step) : downNames (.root :: rest) = downNames rest := rfl

@[simp] theorem downNames_here (rest : List Step) : downNames (.here :: rest) = downNames rest := rfl

@[simp] theorem downNames_up (rest : List Step) : downNames (.up :: rest) = downNames rest := rfl

@[simp] theorem downNames_down (name : Name) (rest : List Step) :
    downNames (.down name :: rest) = name :: downNames rest := rfl

/-- Steps that lead up more often than down. -/
def Climbs (steps : List Step) : Prop := (downNames steps).length < steps.count .up

instance (steps : List Step) : Decidable (Climbs steps) := inferInstanceAs (Decidable (_ < _))

/-- No node of a tree is a link. -/
def Tree.LinkFree (tree : Tree) : Prop := ∀ place target, tree.node? place ≠ some (.link target)

/-! ## Folding -/

section Folding

variable {names final : List Name} {moves : List Step}

theorem exists_prefix_cons {p : List Step → Prop} {step : Step} {rest : List Step} :
    (∃ front, front <+: step :: rest ∧ p front) ↔
      p [] ∨ ∃ front, front <+: rest ∧ p (step :: front) := by
  simp only [List.prefix_cons_iff]
  constructor
  · rintro ⟨front, rfl | ⟨tail, rfl, htail⟩, hp⟩
    · exact .inl hp
    · exact .inr ⟨tail, htail, hp⟩
  · rintro (hp | ⟨tail, htail, hp⟩)
    · exact ⟨[], .inl rfl, hp⟩
    · exact ⟨step :: tail, .inr ⟨tail, rfl, htail⟩, hp⟩

/-- Folding fails if some of the steps, from the first one on, lead up once more often than there
are names and steps down. -/
theorem normalizeFrom_eq_none (hroot : .root ∉ moves) :
    normalizeFrom names moves = none ↔
      ∃ front, front <+: moves ∧ names.length + (downNames front).length < front.count .up := by
  induction moves generalizing names with
  | nil => simp [normalizeFrom]
  | cons step rest ih =>
    rw [List.mem_cons, not_or] at hroot
    rw [exists_prefix_cons]
    cases step with
    | root => exact absurd rfl hroot.1
    | here =>
      rw [normalizeFrom, ih hroot.2]
      simp
    | down name =>
      rw [normalizeFrom, ih hroot.2]
      simp [Nat.add_assoc, Nat.add_comm 1]
    | up =>
      rw [normalizeFrom]
      split
      case isTrue hempty =>
        refine iff_of_true rfl (.inr ⟨[], List.nil_prefix, ?_⟩)
        simp [hempty]
      case isFalse hne =>
        have hpos := List.length_pos_of_ne_nil hne
        rw [ih hroot.2]
        simp only [List.length_dropLast, downNames_up, List.count_cons_self, List.count_nil,
          Nat.not_lt_zero, false_or]
        refine exists_congr fun front => and_congr_right fun _ => ?_
        omega

/-- What is left are names that were there or that the steps lead down by. -/
theorem sublist_of_normalizeFrom (h : normalizeFrom names moves = some final) :
    final.Sublist (names ++ downNames moves) := by
  induction moves generalizing names with
  | nil =>
    obtain rfl := Option.some.inj h
    simp
  | cons step rest ih =>
    cases step with
    | root => cases h
    | here => exact ih h
    | down name => simpa using ih h
    | up =>
      rw [normalizeFrom] at h
      split at h
      · cases h
      · exact (ih h).trans ((List.dropLast_sublist names).append_right _)

theorem root_not_mem_of_normalizeFrom (h : normalizeFrom names moves = some final) :
    .root ∉ moves := by
  induction moves generalizing names with
  | nil => exact List.not_mem_nil
  | cons step rest ih =>
    cases step with
    | root => cases h
    | here | down => exact List.not_mem_cons_of_ne_of_not_mem (by simp) (ih h)
    | up =>
      rw [normalizeFrom] at h
      split at h
      · cases h
      · exact List.not_mem_cons_of_ne_of_not_mem (by simp) (ih h)

/-- Steps that stay where they are leave the names as they are. -/
theorem normalizeFrom_moving (names : List Name) (moves : List Step) :
    normalizeFrom names (moving moves) = normalizeFrom names moves := by
  induction moves generalizing names with
  | nil => rfl
  | cons step rest ih =>
    cases step with
    | here => exact ih names
    | root => rfl
    | down name => exact ih _
    | up =>
      rw [moving_cons (by simp), normalizeFrom, normalizeFrom, ih]

end Folding

/-! ## The written path -/

section Written

variable {path : Bytes} {names parts : List Name}

theorem root_not_mem_steps (h : isAbsolute path = false) : .root ∉ steps path := by
  have hhead : path.head? ≠ some slash := beq_eq_false_iff_ne.mp h
  rw [steps_eq, List.mem_append, leadSteps, if_neg hhead]
  rintro (hlead | hpart)
  · split at hlead <;> simp at hlead
  · exact (mem_partSteps hpart).1 List.mem_cons_self

theorem normalize?_of_isAbsolute (h : isAbsolute path = true) : normalize? path = none := by
  cases path with
  | nil => cases h
  | cons b rest =>
    obtain rfl : b = slash := by simpa [isAbsolute] using h
    rw [normalize?, steps_slash_cons]
    rfl

theorem normalize?_eq_none : normalize? path = none ↔
    isAbsolute path = true ∨ ∃ front, front <+: steps path ∧ Climbs front := by
  cases habsolute : isAbsolute path with
  | true => exact iff_of_true (normalize?_of_isAbsolute habsolute) (.inl rfl)
  | false =>
    rw [normalize?, normalizeFrom_eq_none (root_not_mem_steps habsolute)]
    simp [Climbs]

/-- What steps lead down by are parts of the path. -/
theorem downNames_steps (path : Bytes) : (downNames (steps path)).Sublist (splitSlash path) := by
  have hlead : downNames (leadSteps path) = [] := by
    unfold leadSteps
    split
    · rfl
    · split <;> rfl
  have hpart : ∀ part name, (partStep? part).bind Step.name? = some name → name = part := by
    intro part name h
    unfold partStep? at h
    split at h
    · cases h
    · split at h
      · cases h
      · exact (Option.some.inj h).symm
  rw [steps_eq, downNames, List.filterMap_append, ← downNames, hlead, List.nil_append, partSteps,
    List.filterMap_filterMap]
  induction splitSlash path with
  | nil => exact List.Sublist.slnil
  | cons part rest ih =>
    rw [List.filterMap_cons]
    split
    case h_1 => exact ih.cons part
    case h_2 name hname => exact hpart part name hname ▸ ih.cons_cons name

theorem joinNames_splitSlash (path : Bytes) : joinNames (splitSlash path) = path := by
  rw [joinNames_eq_intercalate]
  exact List.intercalate_splitOn slash

theorem mem_joinNames {b : UInt8} (h : b ∈ joinNames names) :
    b = slash ∨ ∃ name ∈ names, b ∈ name := by
  induction names with
  | nil => cases h
  | cons first rest ih =>
    cases rest with
    | nil => exact .inr ⟨first, List.mem_cons_self, h⟩
    | cons second rest =>
      rw [joinNames_cons, List.mem_append, List.mem_append, List.mem_singleton] at h
      rcases h with (hfirst | hslash) | hrest
      · exact .inr ⟨first, List.mem_cons_self, hfirst⟩
      · exact .inl hslash
      · refine (ih hrest).imp_right ?_
        rintro ⟨name, hname, hb⟩
        exact ⟨name, List.mem_cons_of_mem _ hname, hb⟩

theorem subset_joinNames {name : Name} (h : name ∈ names) : name ⊆ joinNames names := by
  induction names with
  | nil => cases h
  | cons first rest ih =>
    cases rest with
    | nil =>
      rw [List.mem_singleton.mp h]
      exact List.Subset.refl first
    | cons second rest =>
      rw [joinNames_cons]
      rcases List.mem_cons.mp h with rfl | hrest
      · exact List.subset_append_of_subset_left _ (List.subset_append_left _ _)
      · exact List.subset_append_of_subset_right _ (ih hrest)

theorem length_joinNames_le (hne : names ≠ []) (h : names.Sublist parts) :
    (joinNames names).length ≤ (joinNames parts).length := by
  have hne' : parts ≠ [] := by
    rintro rfl
    exact hne (List.sublist_nil.mp h)
  have hsum := (h.map fun name : Name => name.length + 1).sum_le_sum fun _ _ => Nat.zero_le _
  rw [← placeLength_eq hne, ← placeLength_eq hne', ← length_joinNames hne,
    ← length_joinNames hne'] at hsum
  omega

/-- The system reads a path that was written from names as these names. -/
theorem systemSteps_joinNames (h : ∀ name ∈ names, IsName name) :
    Tree.systemSteps (joinNames names) = names.map .down := by
  cases names with
  | nil => rfl
  | cons first rest =>
    have hsplit := splitSlash_joinNames (List.cons_ne_nil first rest) fun name hname =>
      (h name hname).no_slash
    -- A slash at either end would leave an empty part there.
    have hends : ∀ front back, joinNames (first :: rest) = front ++ slash :: back →
        front ≠ [] ∧ back ≠ [] := by
      intro front back hjoin
      rw [hjoin, splitSlash_append_slash] at hsplit
      constructor <;> rintro rfl
      · exact (h [] (hsplit ▸ List.mem_append_left _ List.mem_cons_self)).ne_nil rfl
      · exact (h [] (hsplit ▸ List.mem_append_right _ List.mem_cons_self)).ne_nil rfl
    have hrelative : isAbsolute (joinNames (first :: rest)) = false := by
      rw [isAbsolute, beq_eq_false_iff_ne]
      intro hhead
      obtain ⟨back, hback⟩ := List.head?_eq_some_iff.mp hhead
      exact (hends [] back hback).1 rfl
    have hlast : (joinNames (first :: rest)).getLast? ≠ some slash := by
      intro hlast
      obtain ⟨front, hfront⟩ := List.getLast?_eq_some_iff.mp hlast
      exact (hends front [] hfront).2 rfl
    have hpart : ∀ name ∈ first :: rest, Tree.systemStep? name = some (.down name) := by
      intro name hname
      have hn := h name hname
      rw [Tree.systemStep?, if_neg hn.ne_nil, if_neg hn.ne_here, if_neg hn.ne_up]
    have hparts : (first :: rest).filterMap Tree.systemStep? = (first :: rest).map .down :=
      (List.filterMap_congr hpart).trans (congrFun List.filterMap_eq_map' _)
    simp only [Tree.systemSteps, hsplit, hparts, hrelative, hlast, and_false, if_false,
      Bool.false_eq_true]

end Written

/-! ## Walking where no link is met -/

namespace Tree

variable {tree : Tree} {start place : Place} {names final : List Name} {moves : List Step}
  {name : Name} {node : Node} {follows : Bool} {links : Nat}

theorem probeFrom_concat (habove : tree.probeFrom start names = .ok .folder)
    (hshort : name.length ≤ maxName) (hnode : tree.node? (start ++ names ++ [name]) = some node) :
    tree.probeFrom start (names ++ [name]) = .ok node := by
  induction names generalizing start with
  | nil =>
    rw [List.append_nil] at hnode
    exact probeFrom_cons_ok.mpr ⟨probeFrom_nil_ok.mp habove, hshort, probeFrom_nil_ok.mpr hnode⟩
  | cons first rest ih =>
    obtain ⟨hfolder, hfirst, hrest⟩ := probeFrom_cons_ok.mp habove
    exact probeFrom_cons_ok.mpr ⟨hfolder, hfirst, ih hrest (by simpa using hnode)⟩

/-- What a step leads to, in a walk that succeeds. -/
theorem walkSteps_down_ok (hfree : tree.LinkFree)
    (h : tree.walkSteps follows links start (.down name :: moves) = .ok place) :
    tree.node? start = some .folder ∧ name.length ≤ maxName ∧
      (∃ node, tree.node? (start ++ [name]) = some node) ∧
      tree.walkSteps follows links (start ++ [name]) moves = .ok place := by
  rw [walkSteps] at h
  split at h
  case h_1 => cases h
  case h_2 hstand =>
    refine ⟨standFault?_eq_none.mp hstand, ?_⟩
    split at h
    case isTrue => cases h
    case isFalse hshort =>
      refine ⟨not_lt.mp hshort, ?_⟩
      split at h
      case h_1 => cases h
      case h_2 target hlink => exact absurd hlink (hfree _ target)
      case h_3 node _ hnode => exact ⟨⟨node, hnode⟩, h⟩

theorem walkSteps_up_ok (h : tree.walkSteps follows links start (.up :: moves) = .ok place) :
    tree.node? start = some .folder ∧
      tree.walkSteps follows links start.dropLast moves = .ok place := by
  rw [walkSteps] at h
  split at h
  case h_1 => cases h
  case h_2 hstand => exact ⟨standFault?_eq_none.mp hstand, h⟩

theorem walkSteps_here_ok (h : tree.walkSteps follows links start (.here :: moves) = .ok place) :
    tree.node? start = some .folder ∧ tree.walkSteps follows links start moves = .ok place := by
  rw [walkSteps] at h
  split at h
  case h_1 => cases h
  case h_2 hstand => exact ⟨standFault?_eq_none.mp hstand, h⟩

theorem walkSteps_nil_ok (h : tree.walkSteps follows links start [] = .ok place) :
    place = start ∧ ∃ node, tree.node? start = some node := by
  rw [walkSteps] at h
  split at h
  case isTrue hsome => exact ⟨(Except.ok.inj h).symm, Option.isSome_iff_exists.mp hsome⟩
  case isFalse => cases h

/-- Where no link is met, a walk that stands where some names lead comes to where the names lead
that are left of them and of its steps. -/
theorem probeFrom_of_walkSteps (hfree : tree.LinkFree)
    (hat : tree.probeFrom start names = .ok node) (hnames : normalizeFrom names moves = some final)
    (hwalk : tree.walkSteps follows links (start ++ names) moves = .ok place) :
    place = start ++ final ∧ ∃ node, tree.probeFrom start final = .ok node := by
  induction moves generalizing names node with
  | nil =>
    obtain rfl := Option.some.inj hnames
    exact ⟨(walkSteps_nil_ok hwalk).1, node, hat⟩
  | cons step rest ih =>
    cases step with
    | root => cases hnames
    | here => exact ih hat hnames (walkSteps_here_ok hwalk).2
    | down name =>
      obtain ⟨hfolder, hshort, ⟨next, hnext⟩, hrest⟩ := walkSteps_down_ok hfree hwalk
      have habove : tree.probeFrom start names = .ok .folder := by
        rw [hat, ← Option.some.inj ((probeFrom_node? hat).symm.trans hfolder)]
      exact ih (probeFrom_concat habove hshort hnext) hnames (by simpa using hrest)
    | up =>
      rw [normalizeFrom] at hnames
      split at hnames
      case isTrue => cases hnames
      case isFalse hne =>
        -- The step up leads back to the folder that the last name was in.
        obtain ⟨front, last, rfl⟩ := (List.eq_nil_or_concat' names).resolve_left hne
        have hrest := (walkSteps_up_ok hwalk).2
        rw [List.dropLast_concat] at hnames
        rw [← List.append_assoc, List.dropLast_concat] at hrest
        exact ih (probeFrom_above hat) hnames hrest

/-- A walk that succeeds has started at a node, unless it began at the root. -/
theorem node?_of_walkSteps (hroot : .root ∉ moves) (hfree : tree.LinkFree)
    (h : tree.walkSteps follows links start moves = .ok place) :
    ∃ node, tree.node? start = some node := by
  cases moves with
  | nil => exact (walkSteps_nil_ok h).2
  | cons step rest =>
    cases step with
    | root => exact absurd List.mem_cons_self hroot
    | here => exact ⟨_, (walkSteps_here_ok h).1⟩
    | up => exact ⟨_, (walkSteps_up_ok h).1⟩
    | down name => exact ⟨_, (walkSteps_down_ok hfree h).1⟩

end Tree

/-! ## Exactly the same path -/

section Exact

variable {path : Bytes} {names : List Name} {tree : Tree} {start place : Place} {follows : Bool}

theorem isName_of_normalize? (h : normalize? path = some names) : ∀ name ∈ names, IsName name := by
  intro name hname
  have hdown : name ∈ downNames (steps path) := by
    simpa using (sublist_of_normalizeFrom h).subset hname
  obtain ⟨step, hstep, hsome⟩ := List.mem_filterMap.mp hdown
  cases step with
  | down other => exact isName_of_down_mem_steps (Option.some.inj hsome ▸ hstep)
  | root | here | up => cases hsome

/-- The names that a path comes down to are parts of it. -/
theorem sublist_splitSlash (h : normalize? path = some names) :
    names.Sublist (splitSlash path) := by
  have hdown : names.Sublist (downNames (steps path)) := by
    simpa using sublist_of_normalizeFrom h
  exact hdown.trans (downNames_steps path)

theorem walkSteps_normalized (hfree : tree.LinkFree) (h : normalize? path = some names)
    {links : Nat} (hwalk : tree.walkSteps follows links start (Tree.systemSteps path) = .ok place) :
    tree.walkSteps follows links start (names.map .down) = .ok place := by
  have hnames : normalizeFrom [] (Tree.systemSteps path) = some names := by
    rw [← normalizeFrom_moving, systemSteps_moving, normalizeFrom_moving]
    exact h
  obtain ⟨node, hnode⟩ := Tree.node?_of_walkSteps (root_not_mem_of_normalizeFrom hnames) hfree hwalk
  have hwalk' : tree.walkSteps follows links (start ++ []) (Tree.systemSteps path) = .ok place := by
    rwa [List.append_nil]
  obtain ⟨rfl, last, hlast⟩ :=
    Tree.probeFrom_of_walkSteps hfree (Tree.probeFrom_nil_ok.mpr hnode) hnames hwalk'
  refine Tree.walkSteps_of_probeFrom (fun target hlink => ?_) hlast follows links
  exact hfree _ target (hlink ▸ Tree.probeFrom_node? hlast)

/-- The path written from the names leads to the same place; if there are none, the old path leads
back to where it started. -/
theorem lookup_normalized (hfree : tree.LinkFree) (h : normalize? path = some names)
    (hlookup : tree.lookup follows start path = .ok place) :
    names = [] ∧ place = start ∨ tree.lookup follows start (joinNames names) = .ok place := by
  unfold Tree.lookup at hlookup
  split at hlookup
  case isTrue => cases hlookup
  case isFalse hnul =>
  split at hlookup
  case isTrue => cases hlookup
  case isFalse =>
  split at hlookup
  case isTrue => cases hlookup
  case isFalse hlong =>
    have hwalk := walkSteps_normalized hfree h hlookup
    by_cases hne : names = []
    · subst hne
      exact .inl ⟨rfl, (Tree.walkSteps_nil_ok hwalk).1⟩
    · refine .inr ?_
      have hparts := sublist_splitSlash h
      have hzero : (joinNames names).contains 0 = false := by
        rw [← Bool.not_eq_true, List.contains_iff_mem]
        intro hmem
        rcases mem_joinNames hmem with hslash | ⟨name, hname, hmem⟩
        · cases hslash
        · refine hnul (List.contains_iff_mem.mpr ?_)
          rw [← joinNames_splitSlash path]
          exact subset_joinNames (hparts.subset hname) hmem
      have hempty : joinNames names ≠ [] := by
        obtain ⟨first, rest, rfl⟩ := List.exists_cons_of_ne_nil hne
        intro hnil
        have hfirst : first ⊆ joinNames (first :: rest) := subset_joinNames List.mem_cons_self
        rw [hnil] at hfirst
        exact (isName_of_normalize? h first List.mem_cons_self).ne_nil (List.subset_nil.mp hfirst)
      have hlength := length_joinNames_le hne hparts
      rw [joinNames_splitSlash] at hlength
      rw [Tree.lookup, if_neg (by rw [hzero]; decide), if_neg hempty, if_neg (by omega),
        systemSteps_joinNames (isName_of_normalize? h)]
      exact hwalk

end Exact

/-- **Folding a path is exact.** For every path: folding dots and steps up fails if and only if the
path is absolute or some of its steps, from the first one on, lead up more often than down, and then
resolving it fails as leading outside, with the path as it was given. Otherwise names are left, of
which the path written from them consists, and folding that path leaves it as it is. In every tree
without links the names lead from where the old path leads from to the same place, and if the system
takes the old path then it takes the new one too, unless no name is left. -/
theorem normalize_exact (path : Bytes) :
    (normalize? path = none ↔
      isAbsolute path = true ∨ ∃ front, front <+: steps path ∧ Climbs front) ∧
    (normalize? path = none → ∀ (tree : Tree) (here : Place) (root : Bytes),
      tree.resolveInRoot here root path = .error (.outsideRoot path)) ∧
    ∀ names, normalize? path = some names →
      (∀ name ∈ names, IsName name) ∧ steps (joinNames names) = names.map .down ∧
      normalize? (joinNames names) = some names ∧
      ∀ tree : Tree, tree.LinkFree → ∀ (follows : Bool) (start place : Place),
        (∀ links, tree.walkSteps follows links start (Tree.systemSteps path) = .ok place →
          tree.walkSteps follows links start (names.map .down) = .ok place) ∧
        (tree.lookup follows start path = .ok place →
          names = [] ∧ place = start ∨ tree.lookup follows start (joinNames names) = .ok place) := by
  refine ⟨normalize?_eq_none, fun h tree here root => Tree.resolveInRoot_lexical h, ?_⟩
  intro names h
  have hnames := isName_of_normalize? h
  refine ⟨hnames, steps_joinNames hnames, normalize?_joinNames hnames, ?_⟩
  intro tree hfree follows start place
  exact ⟨fun links => walkSteps_normalized hfree h, lookup_normalized hfree h⟩

/-- A folder `/m` with two folders, `a` and `b`, and a file, `c`. -/
def plainTree : Tree :=
  ⟨[([[109]], .folder), ([[109], [97]], .folder), ([[109], [98]], .folder),
    ([[109], [99]], .file 0)], [(0, ⟨[1, 2, 3], 0, ⟨0⟩⟩)], 1⟩

theorem plainTree_linkFree : plainTree.LinkFree := by
  intro place target h
  unfold Tree.node? at h
  split at h
  · cases h
  · obtain ⟨front, back, hnodes, -⟩ := List.lookup_eq_some_iff.mp h
    have hmem : (place, Node.link target) ∈ plainTree.nodes := by rw [hnodes]; simp
    simp [plainTree] at hmem

/-- The path `a/./..//b/../c`, which comes down to `c`. -/
def detour : Bytes := [97, 47, 46, 47, 46, 46, 47, 47, 98, 47, 46, 46, 47, 99]

/-- A path through two folders and back leads to the file that its last name is that of. -/
theorem normalize_exact_detour :
    (normalize? detour = some [[99]] ∧ plainTree.LinkFree ∧
      plainTree.lookup true [[109]] detour = .ok [[109], [99]]) ∧
    normalize? [99] = some [[99]] ∧ plainTree.lookup true [[109]] [99] = .ok [[109], [99]] := by
  have hnames : normalize? detour = some [[99]] := by decide +kernel
  have hlookup : plainTree.lookup true [[109]] detour = .ok [[109], [99]] := by cbv
  obtain ⟨-, -, hfold, htree⟩ := (normalize_exact detour).2.2 [[99]] hnames
  refine ⟨⟨hnames, plainTree_linkFree, hlookup⟩, hfold, ?_⟩
  exact ((htree plainTree plainTree_linkFree true [[109]] [[109], [99]]).2 hlookup).resolve_left
    (by simp)

end MediaShelf.Files
