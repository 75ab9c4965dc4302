import MediaShelf.Proofs.Files.Confinement

/-!
# Trees that look the same from a root on

Two trees are twins at a root when the root leads to the same place in both and they look the same
from that place on down (`Tree.Twin`), whatever else they hold. Numbers of files are not looked at:
a file looks like its content and its time of change (`Sight`).

Everything that resolving a relative path asks a tree for is asked at a place that is inside the
root, or on the way to it. There twins tell the same (`Tree.AlikeFrom.seen?_eq`), so what they
resolve and open is the same (`Tree.Twin.resolveInRoot_eq`, `Tree.Twin.openInRoot_eq`).
-/

namespace MediaShelf.Files

section Outcome

variable {ε α β γ : Type} {f : α → γ} {g : β → γ} {a : Except ε α} {b : Except ε β}

theorem ok_of_map_eq (h : a.map f = b.map g) {x : α} (ha : a = .ok x) :
    ∃ y, b = .ok y ∧ f x = g y := by
  subst ha
  cases b with
  | error e => cases h
  | ok y => exact ⟨y, rfl, Except.ok.inj h⟩

theorem error_of_map_eq (h : a.map f = b.map g) {e : ε} (ha : a = .error e) : b = .error e := by
  subst ha
  cases b with
  | error e' => cases h; rfl
  | ok y => cases h

end Outcome

/-- What a node looks like, the number of a file left out. -/
inductive Sight where
  | folder
  | file (body : Option FileBody)
  | link (target : Bytes)
  deriving DecidableEq

/-- What reading a node gives that looks like this. -/
def Sight.bytes : Sight → Except Fault Bytes
  | .file (some body) => .ok body.content
  | .file none => .error .noEntry
  | _ => .error .isDirectory

namespace Tree

/-- What a node of a tree looks like. -/
def sight (tree : Tree) : Node → Sight
  | .folder => .folder
  | .file number => .file (tree.body? number)
  | .link target => .link target

/-- What can be seen at a place. -/
def seen? (tree : Tree) (place : Place) : Option Sight := (tree.node? place).map tree.sight

/-- What a tree is kept as: every node lies in a folder, and no place is noted twice. -/
structure Sound (tree : Tree) : Prop where
  wellFormed : tree.WellFormed
  distinct : (tree.nodes.map (·.1)).Nodup

/-- Two trees look the same at a place and below it. -/
def AlikeFrom (tree tree' : Tree) (root : Place) : Prop :=
  ∀ place, root <+: place → tree.seen? place = tree'.seen? place

/-- In both trees the root leads to the same place, and from there on they look the same. -/
def Twin (tree tree' : Tree) (here : Place) (root : Bytes) : Prop :=
  ∃ r, tree.canonical here root = .ok r ∧ tree'.canonical here root = .ok r ∧
    tree.AlikeFrom tree' r

variable {tree tree' : Tree} {place root here : Place} {node node' : Node}

@[simp] theorem sight_eq_folder : tree.sight node = .folder ↔ node = .folder := by
  cases node <;> simp [sight]

@[simp] theorem sight_eq_link {target : Bytes} :
    tree.sight node = .link target ↔ node = .link target := by
  cases node <;> simp [sight]

theorem readNode_eq : tree.readNode node = (tree.sight node).bytes := by
  cases node with
  | folder | link target => rfl
  | file number =>
    simp only [readNode, sight]
    cases tree.body? number <;> rfl

theorem seen?_eq_some {s : Sight} :
    tree.seen? place = some s ↔ ∃ node, tree.node? place = some node ∧ tree.sight node = s := by
  simp [seen?]

theorem isSome_seen? : (tree.seen? place).isSome = (tree.node? place).isSome := by
  simp [seen?]

theorem seen?_eq_folder : tree.seen? place = some .folder ↔ tree.node? place = some .folder := by
  rw [seen?_eq_some]
  exact ⟨fun ⟨node, hnode, hs⟩ => by rw [hnode, sight_eq_folder.mp hs], fun h => ⟨_, h, rfl⟩⟩

/-! ## Looking at the noted places only -/

theorem node?_isSome_mem (hne : place ≠ []) (h : (tree.node? place).isSome) :
    place ∈ tree.nodes.map (·.1) := by
  rw [node?_of_ne_nil tree hne, List.lookup_isSome_iff] at h
  obtain ⟨item, hitem, heq⟩ := h
  rw [eq_of_beq heq]
  exact List.mem_map_of_mem hitem

/-- A tree that notes no place twice notes each node at its place. -/
theorem mem_nodes_of_nodup (hd : (tree.nodes.map (·.1)).Nodup) (hne : place ≠ []) :
    (place, node) ∈ tree.nodes ↔ tree.node? place = some node := by
  rw [node?_of_ne_nil tree hne, List.lookup_eq_some_iff]
  constructor
  · intro h
    obtain ⟨front, back, heq⟩ := List.append_of_mem h
    refine ⟨front, back, heq, fun p hp => ?_⟩
    rw [heq, List.map_append, List.map_cons, List.nodup_append] at hd
    have hfst := hd.2.2 p.1 (List.mem_map_of_mem hp) place List.mem_cons_self
    simpa using Ne.symm hfst
  · rintro ⟨front, back, heq, -⟩
    rw [heq]
    exact List.mem_append_right _ List.mem_cons_self

theorem Sound.mem_nodes (hs : tree.Sound) (hne : place ≠ []) :
    (place, node) ∈ tree.nodes ↔ tree.node? place = some node :=
  mem_nodes_of_nodup hs.distinct hne

/-- A tree is well-formed if every place that it notes lies in a folder. -/
theorem wellFormed_iff : tree.WellFormed ↔
    ∀ at_ ∈ tree.nodes.map (·.1), at_ = [] ∨ tree.node? at_.dropLast = some .folder := by
  constructor
  · intro h at_ hmem
    rcases List.eq_nil_or_concat at_ with rfl | ⟨parent, name, rfl⟩
    · exact .inl rfl
    · rw [List.concat_eq_append] at hmem ⊢
      rw [List.dropLast_concat]
      obtain ⟨item, hitem, heq⟩ := List.mem_map.mp hmem
      refine .inr (h parent name ?_)
      rw [node?_of_ne_nil tree (by simp), List.lookup_isSome_iff]
      exact ⟨item, hitem, beq_of_eq heq.symm⟩
  · intro h place name hsome
    rcases h _ (node?_isSome_mem (by simp) hsome) with hnil | hfolder
    · simp at hnil
    · rwa [List.dropLast_concat] at hfolder

instance (tree : Tree) : Decidable tree.Sound :=
  decidable_of_iff ((∀ at_ ∈ tree.nodes.map Prod.fst, at_ = [] ∨
      tree.node? at_.dropLast = some .folder) ∧ (tree.nodes.map Prod.fst).Nodup)
    ⟨fun h => ⟨wellFormed_iff.mpr h.1, h.2⟩, fun h => ⟨wellFormed_iff.mp h.wellFormed, h.distinct⟩⟩

/-- Trees look the same from a place on if they do so there and wherever either notes a node. -/
theorem alikeFrom_iff : tree.AlikeFrom tree' root ↔
    ∀ place ∈ [] :: (tree.nodes.map (·.1) ++ tree'.nodes.map (·.1)), root <+: place →
      tree.seen? place = tree'.seen? place := by
  refine ⟨fun h place _ hin => h place hin, fun h place hin => ?_⟩
  by_cases hne : place = []
  · exact h place (by simp [hne]) hin
  · by_cases hsome : (tree.node? place).isSome
    · exact h place (List.mem_cons_of_mem _ (List.mem_append_left _
        (node?_isSome_mem hne hsome))) hin
    · by_cases hsome' : (tree'.node? place).isSome
      · exact h place (List.mem_cons_of_mem _ (List.mem_append_right _
          (node?_isSome_mem hne hsome'))) hin
      · simp only [Option.isSome_iff_ne_none, ne_eq, Decidable.not_not] at hsome hsome'
        unfold seen?
        rw [hsome, hsome']
        rfl

instance (tree tree' : Tree) (root : Place) : Decidable (tree.AlikeFrom tree' root) :=
  decidable_of_iff' _ alikeFrom_iff

/-! ## Inside the root, and on the way to it -/

theorem isAllowed_iff : isAllowed root place = true ↔ root <+: place ∨ place <+: root := by
  simp [isAllowed]

/-- Whatever leads to a place where a walk may stand is one too. -/
theorem isAllowed_on_way {way : Place} (h : isAllowed root place) (hway : way <+: place) :
    isAllowed root way := by
  rw [isAllowed_iff] at h ⊢
  rcases h with h | h
  · exact List.prefix_or_prefix_of_prefix h hway
  · exact .inr (List.IsPrefix.trans hway h)

/-- A walk of the system ends at a node. -/
theorem walkSteps_ok_isSome {follows : Bool} {links : Nat} {p : Place} {steps : List Step}
    (h : tree.walkSteps follows links here steps = .ok p) : (tree.node? p).isSome := by
  fun_induction tree.walkSteps follows links here steps with
  | case1 links here hsome => cases h; exact hsome
  | case2 | case4 | case6 | case8 | case9 | case10 | case12 => cases h
  | case3 links here rest ih => exact ih h
  | case5 links here rest _ ih => exact ih h
  | case7 links here rest _ ih => exact ih h
  | case11 links here name rest _ _ target hnode _ => cases h; rw [hnode]; rfl
  | case13 here name rest _ _ target _ _ links ih => exact ih h
  | case14 links here name rest _ _ node _ _ ih => exact ih h

theorem canonical_ok_isSome {path : Bytes} {p : Place} (h : tree.canonical here path = .ok p) :
    (tree.node? p).isSome := by
  unfold canonical lookup at h
  split at h
  · cases h
  · split at h
    · cases h
    · split at h
      · cases h
      · exact walkSteps_ok_isSome h

/-- Where a walk may stand, trees look the same if they do from the root on. -/
theorem AlikeFrom.seen?_eq (h : tree.AlikeFrom tree' root) (hw : tree.WellFormed)
    (hw' : tree'.WellFormed) (hroot : (tree.node? root).isSome)
    (hplace : isAllowed root place) : tree.seen? place = tree'.seen? place := by
  have hroot' : (tree'.node? root).isSome := by
    rw [← isSome_seen?, ← h root (List.prefix_refl root), isSome_seen?]
    exact hroot
  rcases isAllowed_iff.mp hplace with hin | ⟨rest, rfl⟩
  · exact h place hin
  · by_cases hrest : rest = []
    · subst hrest
      exact h place (by simp)
    · -- above the root both trees have folders
      rw [seen?_eq_folder.mpr (hw.folder_of_append rest place hrest hroot),
        seen?_eq_folder.mpr (hw'.folder_of_append rest place hrest hroot')]

/-! ## Probes -/

theorem standFault?_congr (h : tree.seen? here = tree'.seen? here) :
    tree.standFault? here = tree'.standFault? here := by
  unfold standFault?
  unfold seen? at h
  cases hn : tree.node? here with
  | none => rw [hn] at h; cases hn' : tree'.node? here <;> simp_all
  | some node =>
    rw [hn] at h
    cases hn' : tree'.node? here with
    | none => simp [hn'] at h
    | some node' =>
      simp only [hn', Option.map_some, Option.some.injEq] at h
      cases node <;> cases node' <;> simp_all [sight]

theorem probeFrom_sight {names : List Name}
    (h : ∀ way, way <+: names → tree.seen? (here ++ way) = tree'.seen? (here ++ way)) :
    (tree.probeFrom here names).map tree.sight = (tree'.probeFrom here names).map tree'.sight := by
  induction names generalizing here with
  | nil =>
    have hhere := h [] (List.prefix_refl [])
    rw [List.append_nil] at hhere
    unfold probeFrom
    unfold seen? at hhere
    cases hn : tree.node? here <;> cases hn' : tree'.node? here <;> simp_all [Except.map]
  | cons name rest ih =>
    have hhere := h [] List.nil_prefix
    rw [List.append_nil] at hhere
    rw [probeFrom, probeFrom, standFault?_congr hhere]
    cases tree'.standFault? here with
    | some fault => rfl
    | none =>
      by_cases hlong : maxName < name.length
      · simp only [if_pos hlong]
        rfl
      · simp only [if_neg hlong]
        refine ih fun way hway => ?_
        have hnext := h (name :: way) (List.cons_prefix_cons.mpr ⟨rfl, hway⟩)
        rwa [List.append_assoc, List.singleton_append]

theorem probe_sight (h : ∀ way, isAllowed root way → tree.seen? way = tree'.seen? way)
    (hplace : isAllowed root place) :
    (tree.probe place).map tree.sight = (tree'.probe place).map tree'.sight := by
  have hfrom : (tree.probeFrom [] place).map tree.sight =
      (tree'.probeFrom [] place).map tree'.sight :=
    probeFrom_sight fun way hway => h way (isAllowed_on_way hplace hway)
  unfold probe
  split
  · rfl
  · split
    · rfl
    · exact hfrom

/-! ## The confined walk -/

/-- A confined walk asks only about places where it may stand. -/
theorem walkConfined_twin (h : ∀ way, isAllowed root way →
      (tree.probe way).map tree.sight = (tree'.probe way).map tree'.sight)
    (outside : Failure) (links : Nat) (missing : Bool) (here : Place) (steps : List Step) :
    walkConfined tree.probe root outside links missing here steps =
      walkConfined tree'.probe root outside links missing here steps := by
  fun_induction walkConfined tree.probe root outside links missing here steps with
  | case1 links missing here hout =>
    rw [walkConfined, if_pos hout]
  | case2 links here hin =>
    rw [walkConfined, if_neg hin, if_pos rfl]
  | case3 links missing here hin hmiss =>
    rw [walkConfined, if_neg hin, if_neg hmiss]
  | case4 links missing here rest ih | case5 links missing here rest ih
  | case6 links missing here rest ih =>
    rw [walkConfined, ih]
  | case7 links missing here name rest next hout =>
    rw [walkConfined]
    simp only [next] at hout
    simp only [if_pos hout]
  | case8 links here name rest next hin ih =>
    rw [walkConfined]
    simp only [next] at hin ih
    simp only [if_neg hin, if_true]
    exact ih
  | case9 missing here name rest next hin hfound target hprobe =>
    obtain ⟨node', hprobe', hsight⟩ := ok_of_map_eq (h next (by simpa using hin)) hprobe
    have hlink := sight_eq_link.mp hsight.symm
    subst hlink
    rw [walkConfined]
    simp only [next] at hin hprobe'
    simp only [if_neg hin, if_neg hfound, hprobe']
  | case10 missing here name rest next hin hfound target hprobe links ih =>
    obtain ⟨node', hprobe', hsight⟩ := ok_of_map_eq (h next (by simpa using hin)) hprobe
    have hlink := sight_eq_link.mp hsight.symm
    subst hlink
    rw [walkConfined]
    simp only [next] at hin hprobe'
    simp only [if_neg hin, if_neg hfound, hprobe', ih]
  | case11 links missing here name rest next hin hfound node hlink hprobe ih =>
    obtain ⟨node', hprobe', hsight⟩ := ok_of_map_eq (h next (by simpa using hin)) hprobe
    rw [walkConfined]
    simp only [next] at hin hprobe' ih
    simp only [if_neg hin, if_neg hfound, hprobe']
    cases node' with
    | link target => exact absurd (sight_eq_link.mp hsight) (hlink target)
    | folder => exact ih
    | file number => exact ih
  | case12 links missing here name rest next hin hfound fault hprobe hkind ih =>
    have hprobe' := error_of_map_eq (h next (by simpa using hin)) hprobe
    rw [walkConfined]
    simp only [next] at hin hprobe' ih
    simp only [if_neg hin, if_neg hfound, hprobe', if_pos hkind]
    exact ih
  | case13 links missing here name rest next hin hfound fault hprobe hkind =>
    have hprobe' := error_of_map_eq (h next (by simpa using hin)) hprobe
    rw [walkConfined]
    simp only [next] at hin hprobe'
    simp only [if_neg hin, if_neg hfound, hprobe', if_neg hkind]

/-! ## Resolving and opening -/

section Twins

variable {path : Bytes} (hs : tree.Sound) (hs' : tree'.Sound)
  (ht : tree.Twin tree' here path)

include hs hs' ht

/-- Twins tell the same wherever a walk inside the root may stand. -/
theorem Twin.probe_eq : ∃ r, tree.canonical here path = .ok r ∧ tree'.canonical here path = .ok r ∧
    ∀ way, isAllowed r way →
      (tree.probe way).map tree.sight = (tree'.probe way).map tree'.sight := by
  obtain ⟨r, hr, hr', halike⟩ := ht
  refine ⟨r, hr, hr', fun way hway => probe_sight (fun place hplace => ?_) hway⟩
  exact halike.seen?_eq hs.wellFormed hs'.wellFormed (canonical_ok_isSome hr) hplace

/-- Twins resolve a relative path to the same place, or refuse it with the same failure. -/
theorem Twin.resolveInRoot_eq (relative : Bytes) :
    tree.resolveInRoot here path relative = tree'.resolveInRoot here path relative := by
  obtain ⟨r, hr, hr', hprobe⟩ := ht.probe_eq hs hs'
  unfold resolveInRoot
  rw [hr, hr']
  split
  · rfl
  · rfl
  · exact walkConfined_twin hprobe _ _ _ _ _

/-- What twins open at a relative path looks the same. -/
theorem Twin.openInRoot_eq (relative : Bytes) :
    (tree.openInRoot here path relative).map tree.sight =
      (tree'.openInRoot here path relative).map tree'.sight := by
  obtain ⟨r, hr, hr', hprobe⟩ := ht.probe_eq hs hs'
  unfold openInRoot
  rw [← ht.resolveInRoot_eq hs hs' relative]
  cases hp : tree.resolveInRoot here path relative with
  | error failure => rfl
  | ok p =>
    obtain ⟨r₂, node, hr₂, hnode, hlies⟩ := resolveInRoot_ok hp
    cases hr.symm.trans hr₂
    have hsame := hprobe p (isAllowed_iff.mpr (.inl hlies.inside))
    obtain ⟨node', hnode', hsight⟩ := ok_of_map_eq hsame hnode
    simp only [hnode, hnode']
    exact congrArg Except.ok hsight

/-- The bytes that twins open at a relative path are the same. -/
theorem Twin.readInRoot_eq (relative : Bytes) :
    (tree.openInRoot here path relative).map tree.readNode =
      (tree'.openInRoot here path relative).map tree'.readNode := by
  have hread (t : Tree) (outcome : Except Failure Node) :
      outcome.map t.readNode = (outcome.map t.sight).map Sight.bytes := by
    cases outcome with
    | error failure => rfl
    | ok node => exact congrArg Except.ok readNode_eq
  rw [hread, hread, ht.openInRoot_eq hs hs' relative]

end Twins

end Tree

end MediaShelf.Files
