import MediaShelf.Proofs.Files.Probe
import MediaShelf.Shelf.Opening

/-!
# Confinement

Whatever a relative path says and whatever links there are, the place that it leads to inside a
root lies there, exists, and has no link on the way (`confinement`); nothing else is ever opened.

The walk may stand at a folder on the way to its root, and it takes steps up without looking. Both
are harmless because it never stands on or below a link: as long as nothing was missing, the place
it stands at is one that a probe reaches (`Standing`).
-/

namespace MediaShelf.Files

namespace Tree

/-- A place that a probe reaches, and that is no link. -/
def Standing (tree : Tree) (place : Place) : Prop :=
  ∃ node, tree.probe place = .ok node ∧ ∀ target, node ≠ .link target

variable {tree : Tree} {place : Place} {name : Name} {node : Node}

theorem standing_nil : tree.Standing [] := ⟨.folder, probe_nil, nofun⟩

theorem standing_parent (h : tree.probe (place ++ [name]) = .ok node) : tree.Standing place :=
  ⟨.folder, probe_parent h, nofun⟩

/-- A step up leads from one such place to another. -/
theorem Standing.dropLast (h : tree.Standing place) : tree.Standing place.dropLast := by
  rcases List.eq_nil_or_concat place with rfl | ⟨parent, name, rfl⟩
  · exact h
  · obtain ⟨node, hprobe, -⟩ := h
    rw [List.concat_eq_append] at hprobe ⊢
    rw [List.dropLast_concat]
    exact standing_parent hprobe

end Tree

section Walk

variable {tree : Tree} {root : Place} {outside : Failure}

/-- A walk that ends well ends inside the root, at a place that it may stand at, and nothing was
missing on the way. -/
theorem walkConfined_ok {links : Nat} {missing : Bool} {here p : Place} {steps : List Step}
    (hstand : missing = false → tree.Standing here)
    (h : walkConfined tree.probe root outside links missing here steps = .ok p) :
    missing = false ∧ isInside root p ∧ tree.Standing p := by
  fun_induction walkConfined tree.probe root outside links missing here steps with
  | case1 | case2 | case7 | case9 | case13 => cases h
  | case3 links missing here hinside hfound =>
    cases h
    have hfound := eq_false_of_ne_true hfound
    exact ⟨hfound, by simpa using hinside, hstand hfound⟩
  | case4 links missing here rest ih => exact ih (fun _ => Tree.standing_nil) h
  | case5 links missing here rest ih => exact ih hstand h
  | case6 links missing here rest ih => exact ih (fun hfound => (hstand hfound).dropLast) h
  | case8 links here name rest next _ ih => exact ih nofun h
  | case10 missing here name rest next _ hfound target hprobe links ih =>
    -- a link is never entered: the walk goes on from the folder that it lies in
    have hgo := ih (fun _ => Tree.standing_parent hprobe) h
    exact ⟨eq_false_of_ne_true hfound, hgo.2⟩
  | case11 links missing here name rest next _ hfound node hlink hprobe ih =>
    have hgo := ih (fun _ => ⟨node, hprobe, hlink⟩) h
    exact ⟨eq_false_of_ne_true hfound, hgo.2⟩
  | case12 links missing here name rest next _ _ fault _ _ ih => cases (ih nofun h).1

/-- A walk that starts with a name and ends well has found what the name stands for. -/
theorem standing_of_walkConfined_down {links : Nat} {here p : Place} {name : Name}
    {rest : List Step}
    (h : walkConfined tree.probe root outside links false here (.down name :: rest) = .ok p) :
    tree.Standing here := by
  rw [walkConfined] at h
  simp only [Bool.false_eq_true, if_false] at h
  split at h
  · cases h
  · split at h
    case h_1 target hprobe => exact Tree.standing_parent hprobe
    case h_2 node _ hprobe => exact Tree.standing_parent hprobe
    case h_3 fault hprobe =>
      split at h
      · have hlost : true = false → tree.Standing (here ++ [name]) := fun hno => by cases hno
        cases (walkConfined_ok hlost h).1
      · cases h

end Walk

/-- `place` lies inside `root` and holds `node`, and no link stands on the way: a lookup from the
top that may follow no link at all arrives there. -/
structure Tree.LiesInside (tree : Tree) (root place : Place) (node : Node) : Prop where
  inside : root <+: place
  holds : tree.node? place = some node
  noLink : ∀ way, way <+: place → ∀ target, tree.node? way ≠ some (.link target)
  arrives : tree.walkSteps true 0 [] (place.map .down) = .ok place

namespace Tree

variable {tree : Tree} {here : Place} {root relative : Bytes}

/-- On the way to such a place stand folders. -/
theorem Standing.node?_on_way {place way : Place} (h : tree.Standing place) (hway : way <+: place) :
    ∀ target, tree.node? way ≠ some (.link target) := by
  obtain ⟨node, hprobe, hlink⟩ := h
  obtain ⟨-, -, hfrom⟩ := probe_eq_ok.mp hprobe
  obtain ⟨rest, rfl⟩ := hway
  intro target hholds
  cases rest with
  | nil =>
    rw [List.append_nil] at hfrom
    cases (probeFrom_node? hfrom).symm.trans hholds
    exact hlink target rfl
  | cons name rest =>
    cases (probeFrom_node? (probeFrom_above hfrom)).symm.trans hholds

theorem Standing.liesInside {root place : Place} (h : tree.Standing place)
    (hin : isInside root place) : ∃ node, tree.probe place = .ok node ∧
      tree.LiesInside root place node := by
  obtain ⟨node, hprobe, hlink⟩ := h
  obtain ⟨-, -, hfrom⟩ := probe_eq_ok.mp hprobe
  exact ⟨node, hprobe, List.isPrefixOf_iff_prefix.mp hin, probeFrom_node? hfrom,
    fun way hway => Standing.node?_on_way ⟨node, hprobe, hlink⟩ hway,
    walkSteps_of_probeFrom hlink hfrom true 0⟩

theorem resolveInRoot_ok {p : Place} (h : tree.resolveInRoot here root relative = .ok p) :
    ∃ r node, tree.canonical here root = .ok r ∧ tree.probe p = .ok node ∧
      tree.LiesInside r p node := by
  unfold resolveInRoot at h
  split at h
  · cases h
  · cases h
  · rename_i names hne _
    cases hroot : tree.canonical here root with
    | error fault => rw [hroot] at h; cases h
    | ok r =>
      rw [hroot] at h
      obtain ⟨name, names, rfl⟩ := List.exists_cons_of_ne_nil (fun hnil => hne hnil)
      have hstart := standing_of_walkConfined_down h
      obtain ⟨-, hin, hstand⟩ := walkConfined_ok (fun _ => hstart) h
      obtain ⟨node, hprobe, hlies⟩ := hstand.liesInside hin
      exact ⟨r, node, rfl, hprobe, hlies⟩

theorem openInRoot_ok {node : Node} (h : tree.openInRoot here root relative = .ok node) :
    ∃ r p, tree.canonical here root = .ok r ∧ tree.LiesInside r p node := by
  unfold openInRoot at h
  split at h
  · cases h
  · rename_i p hp
    obtain ⟨r, found, hroot, hprobe, hlies⟩ := resolveInRoot_ok hp
    rw [hprobe] at h
    cases h
    exact ⟨r, p, hroot, hlies⟩

end Tree

/-- What is opened is given the name that the path of its entry ends in. -/
theorem openEntry_eq {shelf : Shelf} {tree : Tree} {here : Place} {entry : Catalog.Entry}
    {file : OpenFile} (h : shelf.openEntry tree here entry = .ok file) :
    ∃ number metadata, metadata.name = fileNameText entry.path ∧
      file = ⟨number, .openIn shelf.mode shelf.bufferSize metadata⟩ := by
  unfold Shelf.openEntry at h
  repeat' split at h
  all_goals cases h
  exact ⟨_, _, rfl, rfl⟩

theorem openEntry_ok {shelf : Shelf} {tree : Tree} {here : Place} {entry : Catalog.Entry}
    {file : OpenFile} (h : shelf.openEntry tree here entry = .ok file) :
    ∃ mount, shelf.mount entry.volume = .ok mount ∧
      tree.openInRoot here mount.root entry.path = .ok (.file file.number) := by
  unfold Shelf.openEntry at h
  split at h
  · cases h
  · rename_i mount hmount
    refine ⟨mount, hmount, ?_⟩
    split at h
    · cases h
    · rename_i number hopen
      split at h
      · cases h
      · split at h
        · cases h
          exact hopen
        · cases h
    · cases h

/-- **Confinement.** In every tree, whatever the root, the relative path and the entry: a path is
only ever resolved to a place inside the root, which exists and which no link leads to, and only
what lies at such a place is opened. -/
theorem confinement (tree : Tree) (here : Place) :
    (∀ root relative p, tree.resolveInRoot here root relative = .ok p →
      ∃ r node, tree.canonical here root = .ok r ∧ tree.LiesInside r p node) ∧
    (∀ root relative node, tree.openInRoot here root relative = .ok node →
      ∃ r p, tree.canonical here root = .ok r ∧ tree.LiesInside r p node) ∧
    ∀ (shelf : Shelf) (entry : Catalog.Entry) (file : OpenFile),
      shelf.openEntry tree here entry = .ok file →
        ∃ mount r p, shelf.mount entry.volume = .ok mount ∧
          tree.canonical here mount.root = .ok r ∧ tree.LiesInside r p (.file file.number) := by
  refine ⟨fun root relative p h => ?_, fun root relative node h => Tree.openInRoot_ok h, ?_⟩
  · obtain ⟨r, node, hroot, -, hlies⟩ := Tree.resolveInRoot_ok h
    exact ⟨r, node, hroot, hlies⟩
  · intro shelf entry file h
    obtain ⟨mount, hmount, hopen⟩ := openEntry_ok h
    obtain ⟨r, p, hroot, hlies⟩ := Tree.openInRoot_ok hopen
    exact ⟨mount, r, p, hmount, hroot, hlies⟩

/-- A root `/r` with a file `f`, a link `l` to `/r/f` and a link `x` to `../s`, which is outside. -/
def linkedTree : Tree :=
  ⟨[([[114]], .folder), ([[114], [102]], .file 0), ([[114], [108]], .link [47, 114, 47, 102]),
    ([[114], [120]], .link [46, 46, 47, 115]), ([[115]], .file 1)], [(0, ⟨[1, 2, 3], 0, ⟨0⟩⟩)], 2⟩

/-- A shelf with one volume, whose root is `/r`. -/
def linkedShelf : Shelf :=
  ⟨.direct, 1, [⟨"v", [47, 114], .ofCapacity 1⟩], 0, .empty, Shelf.firstIds⟩

/-- A link to an absolute path is followed past the top of the tree and back into the root. -/
theorem confinement_absolute_link :
    (∃ r node, linkedTree.canonical [] [47, 114] = .ok r ∧
      linkedTree.LiesInside r [[114], [102]] node) ∧
    (∃ r p, linkedTree.canonical [] [47, 114] = .ok r ∧ linkedTree.LiesInside r p (.file 0)) ∧
    ∃ mount r p, linkedShelf.mount "v" = .ok mount ∧
      linkedTree.canonical [] mount.root = .ok r ∧ linkedTree.LiesInside r p (.file 0) :=
  ⟨(confinement linkedTree []).1 [47, 114] [108] [[114], [102]] (by cbv),
    (confinement linkedTree []).2.1 [47, 114] [108] (.file 0) (by cbv),
    (confinement linkedTree []).2.2 linkedShelf (.ofFile .nil "v" [108] 3)
      ⟨0, Resource.openIn .direct 1 ⟨"l", ⟨0⟩, 3⟩⟩ (by cbv)⟩

end MediaShelf.Files
