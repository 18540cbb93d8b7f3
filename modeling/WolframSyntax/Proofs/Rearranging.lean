import WolframSyntax.Proofs.Occurrences
import WolframSyntax.Proofs.Stamps

/-!
# Rearranging forests

In every forest all nodes have stamps of birth of their own, and no stamp is later than the clock
(`Forest.IsDated`). New nodes have later stamps than all others. An edit that is done gives a later
version to the nodes that hold the edited one and leaves all other nodes as they are
(`Forest.mem_nodes_of_apply`), and nothing that is refused can be seen
(`Forest.exists_visible_of_refused`).
-/

namespace WolframSyntax

/-- A computation of two parts succeeds if both parts do. -/
theorem exists_of_bind_eq_ok {ε α β : Type} {first : Except ε α} {next : α → Except ε β}
    {result : β} (done : first >>= next = .ok result) :
    ∃ value, first = .ok value ∧ next value = .ok result := by
  cases first with
  | error error => cases done
  | ok value => exact ⟨value, rfl, done⟩

namespace StampedTree

variable {trees rest taken freed edited : List StampedTree} {tree node old new : StampedTree}
  {birth : Nat} {date : Stamp → Stamp} {change : List StampedTree → List StampedTree}

/-- A tree that stands in front of others has another stamp of birth than each of their nodes. -/
theorem birth_ne_of_mem (distinct : (birthsOf (tree :: trees)).Nodup) (present : node ∈ trees) :
    node.birth ≠ tree.birth := by
  rw [birthsOf_cons] at distinct
  intro same
  apply (List.nodup_cons.mp distinct).1
  rw [← same]
  exact List.mem_append_right _ (birth_mem_birthsOf (mem_nodesOf present))

/-- Stamps that are distinct are so without the first tree. -/
theorem distinct_tail (distinct : (birthsOf (tree :: trees)).Nodup) : (birthsOf trees).Nodup := by
  rw [birthsOf_cons] at distinct
  exact (List.nodup_cons.mp distinct).2.of_append_right

/-- To take one tree out of a list and to put it at its end is to rearrange the list. -/
theorem without_append_perm (distinct : (birthsOf trees).Nodup) (present : tree ∈ trees) :
    (without tree.birth trees ++ [tree]).Perm trees := by
  induction trees with
  | nil => cases present
  | cons first rest ih =>
    by_cases same : first.birth = tree.birth
    · have whole : tree = first := by
        apply eq_of_birth_eq distinct (mem_nodesOf present) (mem_nodesOf List.mem_cons_self)
        exact same.symm
      subst whole
      have others : without tree.birth rest = rest :=
        List.filter_eq_self.mpr fun other among => by simpa using birth_ne_of_mem distinct among
      rw [without, List.filter_cons_of_neg (by simp), ← without, others]
      exact List.perm_append_singleton _ _
    · have later : tree ∈ rest := by
        rcases List.mem_cons.mp present with rfl | later
        · exact absurd rfl same
        · exact later
      rw [without, List.filter_cons_of_pos (by simpa using same), ← without]
      exact (ih (distinct_tail distinct) later).cons first

/-- To put a tree in the place of another one is to exchange it for the other one. -/
theorem exchange_append_perm (distinct : (birthsOf trees).Nodup) (present : old ∈ trees) :
    ((trees.map fun child => if child.birth == old.birth then new else child) ++ [old]).Perm
      (trees ++ [new]) := by
  induction trees with
  | nil => cases present
  | cons first rest ih =>
    by_cases same : first.birth = old.birth
    · have whole : old = first := by
        apply eq_of_birth_eq distinct (mem_nodesOf present) (mem_nodesOf List.mem_cons_self)
        exact same.symm
      subst whole
      have others : (rest.map fun child => if child.birth == old.birth then new else child)
          = rest := by
        have same : ∀ child ∈ rest, (if child.birth == old.birth then new else child) = child :=
          fun child among => if_neg (by simpa using birth_ne_of_mem distinct among)
        rw [List.map_congr_left same, List.map_id']
      rw [List.map_cons, if_pos (by simp), others]
      calc
        List.Perm (new :: rest ++ [old]) (new :: old :: rest) :=
          (List.perm_append_singleton _ _).cons new
        List.Perm _ (old :: new :: rest) := .swap _ _ _
        List.Perm _ (old :: rest ++ [new]) := (List.perm_append_singleton _ _).symm.cons old
    · have later : old ∈ rest := by
        rcases List.mem_cons.mp present with rfl | later
        · exact absurd rfl same
        · exact later
      rw [List.map_cons, if_neg (by simpa using same)]
      exact (ih (distinct_tail distinct) later).cons first

/-- An edit by which roots are taken in and others set free keeps all stamps of birth. -/
theorem birthsOf_perm_of_editAll? (split : trees.Perm (rest ++ taken))
    (found : editAll? birth date change rest = some edited)
    (keeps : ∀ label, (date label).birth = label.birth)
    (moved : ∀ site ∈ nodesOf rest, site.birth = birth →
      (birthsOf (change site.children ++ freed)).Perm (birthsOf (site.children ++ taken))) :
    (birthsOf (edited ++ freed)).Perm (birthsOf trees) := by
  obtain ⟨site, same, before, old, new, after, rfl, rfl, inner⟩ := exists_isEdited_of_editAll? found
  obtain ⟨others, first, second⟩ := inner.exists_births keeps
  have moved := moved site (List.mem_flatMap.mpr ⟨old, by simp, inner.site_mem⟩) same
  rw [List.perm_iff_count]
  intro stamp
  have split := (birthsOf_perm split).count_eq stamp
  have first := first.count_eq stamp
  have second := second.count_eq stamp
  have moved := moved.count_eq stamp
  simp only [birthsOf_append, birthsOf_cons, birthsOf_nil, List.append_nil, List.count_append,
    List.count_cons] at split first second moved ⊢
  omega

/-- After an edit by which roots are taken in and others set free, a node is as it was before and
does not hold the edited node, or it is edited itself. -/
theorem mem_nodesOf_of_editAll? (distinct : (birthsOf trees).Nodup)
    (split : trees.Perm (rest ++ taken)) (found : editAll? birth date change rest = some edited)
    (outside : birth ∉ birthsOf taken)
    (moved : ∀ site ∈ nodesOf rest, site.birth = birth →
      (change site.children ++ freed).Perm (site.children ++ taken))
    (present : node ∈ nodesOf (edited ++ freed)) :
    (node ∈ nodesOf trees ∧ node.contains birth = false) ∨
      ∃ site, site.birth = birth ∧ ∃ before ∈ nodesOf trees,
        IsEdited date change site before node := by
  obtain ⟨site, rfl, before, old, new, after, rfl, rfl, inner⟩ := exists_isEdited_of_editAll? found
  have whole : ∀ inner, inner ∈ nodesOf trees ↔
      inner ∈ nodesOf before ∨ inner ∈ old.walk ∨ inner ∈ nodesOf after ∨ inner ∈ nodesOf taken :=
    fun inner => (nodesOf_perm split).mem_iff.trans (by simp)
  have distinct := (birthsOf_perm split).nodup_iff.mp distinct
  rw [birthsOf_append, birthsOf_split] at distinct
  have distinct := distinct.of_append_left
  have single := distinct.of_append_right.of_append_left
  have held : site.birth ∈ birthsOf [old] := contains_iff.mp inner.contains
  have moved := moved site (List.mem_flatMap.mpr ⟨old, by simp, inner.site_mem⟩) rfl
  have kept : node ∈ nodesOf (change site.children ++ freed) →
      node ∈ nodesOf trees ∧ node.contains site.birth = false := by
    intro among
    have among := (nodesOf_perm moved).mem_iff.mp among
    rw [nodesOf_append, List.mem_append] at among
    rcases among with child | root
    · have inside := Tree.mem_walk_trans inner.site_mem (mem_walk_of_mem_children child)
      exact ⟨(whole node).mpr (.inr (.inl inside)),
        contains_eq_false child (inner.birth_not_mem single)⟩
    · exact ⟨(whole node).mpr (.inr (.inr (.inr root))), contains_eq_false root outside⟩
  simp only [nodesOf_append, nodesOf_cons, List.mem_append] at present kept
  rcases present with (early | among | late) | free
  · refine .inl ⟨(whole node).mpr (.inl early), contains_eq_false early fun present => ?_⟩
    exact List.disjoint_of_nodup_append distinct present (List.mem_append_left _ held)
  · rcases inner.mem_walk single among with ⟨stays, apart⟩ | changed | ⟨before, old, edited⟩
    · exact .inl ⟨(whole node).mpr (.inr (.inl stays)), apart⟩
    · exact .inl (kept (.inl changed))
    · exact .inr ⟨site, rfl, before, (whole before).mpr (.inr (.inl old)), edited⟩
  · refine .inl ⟨(whole node).mpr (.inr (.inr (.inl late))),
      contains_eq_false late fun present => ?_⟩
    exact List.disjoint_of_nodup_append distinct.of_append_right held present
  · exact .inl (kept (.inr free))

end StampedTree

namespace Forest

open StampedTree

variable {forest after : Forest} {tree node : StampedTree} {birth parent child : Nat}
  {occurrence : Occurrence Stamp}

/-- The nodes of a forest, with all that belongs to them. -/
def nodes (forest : Forest) : List StampedTree := nodesOf forest.trees

/-- Every node of a forest has a stamp of birth of its own, and no stamp is later than the clock. -/
structure IsDated (forest : Forest) : Prop where
  distinct : (birthsOf forest.trees).Nodup
  births : ∀ node ∈ forest.nodes, node.birth ≤ forest.clock
  versions : ∀ node ∈ forest.nodes, node.version ≤ forest.clock

theorem isDated_empty : empty.IsDated :=
  ⟨List.nodup_nil, List.forall_mem_nil _, List.forall_mem_nil _⟩

/-- In a dated forest the stamp of birth tells the node. -/
theorem IsDated.eq_of_birth_eq (dated : forest.IsDated) {other : StampedTree}
    (first : node ∈ forest.nodes) (second : other ∈ forest.nodes)
    (same : node.birth = other.birth) : node = other :=
  StampedTree.eq_of_birth_eq dated.distinct first second same

/-- All trees around an occurrence are nodes of the forest. -/
theorem mem_nodes_of_mem_lineage (present : occurrence ∈ forest.occurrences)
    (above : node ∈ occurrence.lineage) : node ∈ forest.nodes := by
  obtain ⟨tree, among, inside⟩ := List.mem_flatMap.mp present
  rcases Tree.mem_walk_of_mem_lineage inside above with below | none
  · exact List.mem_flatMap.mpr ⟨tree, among, below⟩
  · cases none

/-- A node that is found by its stamp of birth is a node of the forest with that stamp. -/
theorem of_place?_eq_some (found : forest.place? birth = some occurrence) :
    occurrence ∈ forest.occurrences ∧ occurrence.tree ∈ forest.nodes ∧
      occurrence.tree.birth = birth := by
  have present := List.mem_of_find?_eq_some found
  refine ⟨present, mem_nodes_of_mem_lineage present List.mem_cons_self, ?_⟩
  simpa using List.find?_some found

/-- What may become a child of a node is a root that does not hold the node. -/
theorem of_adoptable_eq_ok (adopted : forest.adoptable parent child = .ok tree) :
    tree ∈ forest.trees ∧ tree.birth = child ∧ parent ∉ birthsOf [tree] := by
  unfold adoptable at adopted
  split at adopted
  · cases adopted
  · next occurrence found =>
    split at adopted
    · cases adopted
    · next alone =>
      split at adopted
      · cases adopted
      · next outside =>
        cases adopted
        obtain ⟨present, _, same⟩ := of_place?_eq_some found
        refine ⟨?_, same, fun held => outside (contains_iff.mpr held)⟩
        obtain ⟨tree, among, inside⟩ := List.mem_flatMap.mp present
        rcases Tree.mem_occurrencesWithin inside with rfl | ⟨between, above⟩
        · exact among
        · rw [Occurrence.parent?, above] at alone
          cases between <;> cases alone

/-- A child that is found stands below its parent and is listed there. -/
theorem of_childOf?_eq_some (found : forest.childOf? parent child = some tree) :
    ∃ site ∈ forest.nodes, site.birth = parent ∧ tree ∈ site.children ∧ tree.birth = child ∧
      tree.listed := by
  unfold childOf? at found
  obtain ⟨occurrence, placed, found⟩ := Option.bind_eq_some_iff.mp found
  obtain ⟨_, present, same⟩ := of_place?_eq_some placed
  have matching := List.find?_some found
  simp only [Bool.and_eq_true, beq_iff_eq] at matching
  exact ⟨occurrence.tree, present, same, List.mem_of_find?_eq_some found, matching⟩

/-- A change of a node's children is an edit of its trees, dated by the next tick of the clock. -/
theorem of_change_eq_ok {change : List StampedTree → List StampedTree}
    (changed : forest.change parent change = .ok after) :
    ∃ edited, editAll? parent (fun label => { label with version := forest.clock + 1 }) change
      forest.trees = some edited ∧ after = ⟨edited, forest.clock + 1⟩ := by
  unfold Forest.change at changed
  dsimp only at changed
  split at changed
  · next edited found =>
    cases changed
    exact ⟨edited, found, rfl⟩
  · cases changed

/-- To make a root of a forest no root any more is to take it out of the trees. -/
theorem IsDated.perm_uproot (dated : forest.IsDated) (root : tree ∈ forest.trees) :
    forest.trees.Perm ((forest.uproot tree.birth).trees ++ [tree]) :=
  (without_append_perm dated.distinct root).symm

/-- Wherever a tree is put in, it is one more tree of the list. -/
theorem insertAt_perm (index : Int) (tree : StampedTree) (trees : List StampedTree) :
    (insertAt index tree trees).Perm (trees ++ [tree]) := by
  have bounded : clampIndex (trees.filter Tree.listed).length index
      ≤ (trees.filter Tree.listed).length :=
    Nat.min_le_right _ _
  calc
    List.Perm (insertAt index tree trees)
        (tree :: (trees.filter Tree.listed ++ trees.filter fun other => !other.listed)) :=
      (List.perm_insertIdx tree _ bounded).append_right _
    List.Perm _ (tree :: trees) := (List.filter_append_perm _ trees).cons tree
    List.Perm _ (trees ++ [tree]) := (List.perm_append_singleton tree trees).symm

/-- What an edit that is done amounts to: one node takes in some roots and sets free some of the
trees that it lists, and it and all nodes around it are dated anew. -/
inductive Rearranges (forest : Forest) (parent : Nat) : Forest → Prop where
  | intro {change : List StampedTree → List StampedTree}
      {rest taken freed edited : List StampedTree}
      (split : forest.trees.Perm (rest ++ taken))
      (found : editAll? parent (fun label => { label with version := forest.clock + 1 }) change rest
        = some edited)
      (outside : parent ∉ birthsOf taken)
      (moved : ∀ site ∈ nodesOf rest, site.birth = parent →
        (change site.children ++ freed).Perm (site.children ++ taken))
      (listed : ∀ tree ∈ freed, tree.listed) :
      Rearranges forest parent ⟨edited ++ freed, forest.clock + 1⟩

/-- To take in a child rearranges the roots, less the child, and the trees of its new parent. -/
theorem IsDated.rearranges_take (dated : forest.IsDated)
    {change : List StampedTree → List StampedTree}
    (adopted : forest.adoptable parent child = .ok tree)
    (done : (forest.uproot child).change parent change = .ok after)
    (moved : ∀ trees, (change trees).Perm (trees ++ [tree])) : forest.Rearranges parent after := by
  obtain ⟨root, rfl, outside⟩ := of_adoptable_eq_ok adopted
  obtain ⟨edited, found, rfl⟩ := of_change_eq_ok done
  rw [← List.append_nil edited]
  refine .intro (dated.perm_uproot root) found outside (fun site _ _ => ?_) (List.forall_mem_nil _)
  rw [List.append_nil]
  exact moved site.children

/-- To remove a child makes it a root. -/
theorem IsDated.rearranges_remove (dated : forest.IsDated)
    (done : forest.remove parent child = .ok after) : forest.Rearranges parent after := by
  unfold Forest.remove at done
  split at done
  · cases done
  · next tree listed =>
    obtain ⟨changed, done, same⟩ := exists_of_bind_eq_ok done
    obtain ⟨edited, found, rfl⟩ := of_change_eq_ok done
    cases same
    obtain ⟨owner, present, ownerIs, among, rfl, seen⟩ := of_childOf?_eq_some listed
    have split : forest.trees.Perm (forest.trees ++ []) := by rw [List.append_nil]
    refine .intro split found List.not_mem_nil ?_ (List.forall_mem_singleton.mpr seen)
    intro site other siteIs
    obtain rfl := dated.eq_of_birth_eq other present (siteIs.trans ownerIs.symm)
    rw [List.append_nil]
    exact without_append_perm (distinct_children dated.distinct present) among

/-- To replace a child makes it a root and takes in the other one. -/
theorem IsDated.rearranges_replace (dated : forest.IsDated) {old new : Nat}
    (done : forest.replace parent old new = .ok after) : forest.Rearranges parent after := by
  unfold Forest.replace at done
  split at done
  · cases done
  · next replaced listed =>
    obtain ⟨tree, adopted, done⟩ := exists_of_bind_eq_ok done
    obtain ⟨root, rfl, outside⟩ := of_adoptable_eq_ok adopted
    obtain ⟨changed, done, same⟩ := exists_of_bind_eq_ok done
    obtain ⟨edited, found, rfl⟩ := of_change_eq_ok done
    cases same
    obtain ⟨owner, present, ownerIs, among, rfl, seen⟩ := of_childOf?_eq_some listed
    have split := dated.perm_uproot root
    refine .intro split found outside ?_ (List.forall_mem_singleton.mpr seen)
    intro site kept siteIs
    have other : site ∈ forest.nodes := by
      apply (nodesOf_perm split).mem_iff.mpr
      rw [nodesOf_append]
      exact List.mem_append_left _ kept
    obtain rfl := dated.eq_of_birth_eq other present (siteIs.trans ownerIs.symm)
    exact exchange_append_perm (distinct_children dated.distinct present) among

/-- Each edit that is done rearranges trees below its parent. -/
theorem IsDated.rearranges (dated : forest.IsDated) {edit : Edit}
    (done : forest.apply edit = .ok after) : forest.Rearranges edit.parent after := by
  cases edit with
  | append parent child =>
    obtain ⟨tree, adopted, done⟩ := exists_of_bind_eq_ok done
    exact dated.rearranges_take adopted done fun _ => .refl _
  | insert parent index child =>
    obtain ⟨tree, adopted, done⟩ := exists_of_bind_eq_ok done
    dsimp only at done
    split at done
    · cases done
    · exact dated.rearranges_take adopted done (insertAt_perm index tree)
  | remove parent child => exact dated.rearranges_remove done
  | replace parent old new => exact dated.rearranges_replace done

/-- An edit that is done gives the same new version to all nodes that hold the edited one, and
leaves all other nodes as they are. -/
theorem mem_nodes_of_apply (dated : forest.IsDated) {edit : Edit}
    (done : forest.apply edit = .ok after) (present : node ∈ after.nodes) :
    (node ∈ forest.nodes ∧ node.contains edit.parent = false) ∨
      node.version = forest.clock + 1 ∧ ∃ before ∈ forest.nodes,
        before.birth = node.birth ∧ before.contains edit.parent := by
  obtain ⟨split, found, outside, moved, _⟩ := dated.rearranges done
  rcases mem_nodesOf_of_editAll? dated.distinct split found outside moved present
    with ⟨stays, apart⟩ | ⟨site, same, before, old, inner⟩
  · exact .inl ⟨stays, apart⟩
  · refine .inr ⟨?_, before, old, ?_, same ▸ inner.contains⟩
    · rw [Tree.version, inner.label_eq]
    · rw [Tree.birth, Tree.birth, inner.label_eq]

/-- An edit that is done takes one tick of the clock. -/
theorem clock_of_apply (dated : forest.IsDated) {edit : Edit}
    (done : forest.apply edit = .ok after) : after.clock = forest.clock + 1 := by
  cases dated.rearranges done
  rfl

/-- An edit that is done neither makes nodes nor takes any away. -/
theorem IsDated.birthsOf_perm_of_apply (dated : forest.IsDated) {edit : Edit}
    (done : forest.apply edit = .ok after) :
    (birthsOf after.trees).Perm (birthsOf forest.trees) := by
  obtain ⟨split, found, _, moved, _⟩ := dated.rearranges done
  exact birthsOf_perm_of_editAll? split found (fun _ => rfl)
    fun site kept siteIs => birthsOf_perm (moved site kept siteIs)

/-- A dated forest is dated after an edit. -/
theorem IsDated.apply (dated : forest.IsDated) {edit : Edit}
    (done : forest.apply edit = .ok after) : after.IsDated := by
  have clock := clock_of_apply dated done
  have nodes := fun node (present : node ∈ after.nodes) => mem_nodes_of_apply dated done present
  refine ⟨?_, fun node present => ?_, fun node present => ?_⟩
  · exact (dated.birthsOf_perm_of_apply done).nodup_iff.mpr dated.distinct
  · rw [clock]
    rcases nodes node present with ⟨old, _⟩ | ⟨_, before, old, same, _⟩
    · exact Nat.le_succ_of_le (dated.births node old)
    · rw [← same]
      exact Nat.le_succ_of_le (dated.births before old)
  · rw [clock]
    rcases nodes node present with ⟨old, _⟩ | ⟨new, _⟩
    · exact Nat.le_succ_of_le (dated.versions node old)
    · exact Nat.le_of_eq new

end Forest

namespace StampedTree

variable {site old new tree : StampedTree} {trees : List StampedTree} {listed : Bool}

@[simp] theorem visible_withListed : (withListed listed tree).visible = tree.visible := by
  cases tree
  rfl

theorem birthsOf_withListed : birthsOf [withListed listed tree] = birthsOf [tree] := by
  cases tree
  rw [withListed, birthsOf_node, birthsOf_node]

theorem walk_withListed :
    (withListed listed tree).walk = withListed listed tree :: nodesOf tree.children := by
  cases tree
  exact Tree.walk_eq _

/-- Of two lists one after the other, what is visible is so one after the other. -/
theorem visibleAll_append (left right : List StampedTree) :
    Tree.visibleAll (left ++ right) = Tree.visibleAll left ++ Tree.visibleAll right := by
  simp only [Tree.visibleAll_eq_map, List.filter_append, List.map_append]

/-- What belongs to a node without being listed cannot be seen. -/
theorem visible_of_isEdited
    (edited : IsEdited id (· ++ [withListed false tree]) site old new) :
    new.visible = old.visible ∧ new.listed = old.listed := by
  induction edited with
  | here =>
    refine ⟨?_, rfl⟩
    cases site with
    | node label content children =>
      cases tree
      change Tree.node _ _ (Tree.visibleAll (_ ++ _)) = Tree.node _ _ _
      rw [visibleAll_append]
      change Tree.node _ _ (_ ++ []) = _
      rw [List.append_nil]
      rfl
  | @inside label content before after old new _ ih =>
    refine ⟨?_, rfl⟩
    change Tree.node _ _ (Tree.visibleAll (_ ++ _)) = Tree.node _ _ (Tree.visibleAll (_ ++ _))
    rw [visibleAll_append, visibleAll_append, Tree.visibleAll, Tree.visibleAll, ih.1, ih.2]
    rfl

end StampedTree

namespace Forest

open StampedTree

variable {forest after : Forest} {tree node : StampedTree} {parent child : Nat}

/-- A tree that is held without being listed was a root, and becomes the last one below its new
parent. -/
theorem of_hold_eq_ok (held : forest.hold parent child = .ok after) :
    ∃ tree ∈ forest.trees, tree.birth = child ∧ parent ∉ birthsOf [tree] ∧
      ∃ edited, editAll? parent id (· ++ [withListed false tree]) (forest.uproot child).trees
        = some edited ∧ after = { forest with trees := edited } := by
  obtain ⟨tree, adopted, done⟩ := exists_of_bind_eq_ok held
  obtain ⟨root, same, outside⟩ := of_adoptable_eq_ok adopted
  split at done
  · next edited found =>
    cases done
    exact ⟨tree, root, same, outside, edited, found, rfl⟩
  · cases done

/-- A root that gets an owner without being listed leaves everything as it is seen. -/
theorem exists_visible_of_hold (dated : forest.IsDated)
    (held : forest.hold parent child = .ok after) (present : node ∈ after.nodes) :
    ∃ before ∈ forest.nodes, before.visible = node.visible := by
  obtain ⟨tree, root, rfl, outside, edited, found, rfl⟩ := of_hold_eq_ok held
  have split := nodesOf_perm (dated.perm_uproot root)
  have known : ∀ inner ∈ nodesOf ((forest.uproot tree.birth).trees ++ [withListed false tree]),
      ∃ before ∈ forest.nodes, before.visible = inner.visible := by
    intro inner among
    rw [nodesOf_append, nodesOf_singleton, walk_withListed] at among
    rcases List.mem_append.mp among with other | own
    · exact ⟨inner, split.mem_iff.mpr (nodesOf_append _ _ ▸ List.mem_append_left _ other), rfl⟩
    rcases List.mem_cons.mp own with rfl | below
    · exact ⟨tree, mem_nodesOf root, visible_withListed.symm⟩
    · exact ⟨inner, mem_nodesOf_trans (mem_nodesOf root) (mem_walk_of_mem_children below), rfl⟩
  have distinct :
      (birthsOf ((forest.uproot tree.birth).trees ++ [withListed false tree])).Nodup := by
    rw [birthsOf_append, birthsOf_withListed, ← birthsOf_append]
    exact (birthsOf_perm (dated.perm_uproot root)).nodup_iff.mp dated.distinct
  have present : node ∈ nodesOf (edited ++ []) := by rwa [List.append_nil]
  have outside : parent ∉ birthsOf [withListed false tree] := by rwa [birthsOf_withListed]
  rcases mem_nodesOf_of_editAll? distinct (.refl _) found outside
    (fun site _ _ => by rw [List.append_nil]) present with ⟨old, _⟩ | ⟨site, _, before, old, inner⟩
  · exact known node old
  · obtain ⟨earlier, among, same⟩ := known before old
    exact ⟨earlier, among, same.trans (visible_of_isEdited inner).1.symm⟩

/-- A root that gets an owner without being listed stays a node, and so do all others. -/
theorem IsDated.birthsOf_perm_of_hold (dated : forest.IsDated)
    (held : forest.hold parent child = .ok after) :
    (birthsOf after.trees).Perm (birthsOf forest.trees) := by
  obtain ⟨tree, root, rfl, _, edited, found, rfl⟩ := of_hold_eq_ok held
  have same : (birthsOf (edited ++ [])).Perm (birthsOf forest.trees) :=
    birthsOf_perm_of_editAll? (dated.perm_uproot root) found (fun _ => rfl) fun site _ _ => by
      rw [List.append_nil, birthsOf_append, birthsOf_append, birthsOf_withListed]
  rwa [List.append_nil] at same

/-- A dated forest is dated after a child is adopted without being listed. -/
theorem IsDated.hold (dated : forest.IsDated) (held : forest.hold parent child = .ok after) :
    after.IsDated := by
  have seen := fun node (present : node ∈ after.nodes) => exists_visible_of_hold dated held present
  have same := dated.birthsOf_perm_of_hold held
  obtain ⟨tree, root, rfl, outside, edited, found, rfl⟩ := of_hold_eq_ok held
  refine ⟨same.nodup_iff.mpr dated.distinct, fun node present => ?_, fun node present => ?_⟩
  · obtain ⟨before, old, same⟩ := seen node present
    rw [← Tree.birth_visible, ← same, Tree.birth_visible]
    exact dated.births before old
  · obtain ⟨before, old, same⟩ := seen node present
    rw [← Tree.version_visible, ← same, Tree.version_visible]
    exact dated.versions before old

/-- An edit that is refused leaves the forest as it is, or a root with an owner. -/
theorem afterRefusal_eq_or_hold (forest : Forest) (edit : Edit) :
    forest.afterRefusal edit = forest ∨
      ∃ parent child, forest.hold parent child = .ok (forest.afterRefusal edit) := by
  cases edit with
  | insert parent index child =>
    by_cases small : isIndex index
    · exact .inl (if_pos small)
    · have refused : forest.afterRefusal (.insert parent index child)
          = (forest.hold parent child).toOption.getD forest := if_neg small
      rw [refused]
      cases held : forest.hold parent child with
      | error error => exact .inl rfl
      | ok after => exact .inr ⟨parent, child, held⟩
  | append | remove | replace => exact .inl rfl

/-- What an edit leaves that is refused looks as it did before. -/
theorem exists_visible_of_refused (dated : forest.IsDated) (edit : Edit)
    (present : node ∈ (forest.afterRefusal edit).nodes) :
    ∃ before ∈ forest.nodes, before.visible = node.visible := by
  rcases forest.afterRefusal_eq_or_hold edit with same | ⟨parent, child, held⟩
  · rw [same] at present
    exact ⟨node, present, rfl⟩
  · exact exists_visible_of_hold dated held present

/-- A refused edit leaves a dated forest dated. -/
theorem IsDated.afterRefusal (dated : forest.IsDated) (edit : Edit) :
    (forest.afterRefusal edit).IsDated := by
  rcases forest.afterRefusal_eq_or_hold edit with same | ⟨parent, child, held⟩
  · rwa [same]
  · exact dated.hold held

/-- A refused edit takes no tick of the clock. -/
theorem clock_afterRefusal (forest : Forest) (edit : Edit) :
    (forest.afterRefusal edit).clock = forest.clock := by
  rcases forest.afterRefusal_eq_or_hold edit with same | ⟨parent, child, held⟩
  · rw [same]
  · obtain ⟨_, _, _, _, _, _, same⟩ := of_hold_eq_ok held
    rw [same]

end Forest

/-! ## New nodes -/

namespace StampedTree

variable {clock middle last : Nat} {left right children : List StampedTree}

/-- The nodes of the trees have stamps of their own, given to them one by one after `clock` and not
after `last`. -/
structure IsFresh (clock last : Nat) (trees : List StampedTree) : Prop where
  ordered : clock ≤ last
  distinct : (birthsOf trees).Nodup
  births : ∀ node ∈ nodesOf trees, clock < node.birth ∧ node.birth ≤ last
  versions : ∀ node ∈ nodesOf trees, node.version = node.birth

theorem isFresh_nil (clock : Nat) : IsFresh clock clock [] :=
  ⟨Nat.le_refl clock, List.nodup_nil, List.forall_mem_nil _, List.forall_mem_nil _⟩

/-- Trees stamped one after the other are stamped as one list. -/
theorem IsFresh.append (first : IsFresh clock middle left) (second : IsFresh middle last right) :
    IsFresh clock last (left ++ right) := by
  refine ⟨Nat.le_trans first.ordered second.ordered, ?_, ?_, ?_⟩
  · rw [birthsOf_append]
    refine first.distinct.append second.distinct fun birth early late => ?_
    obtain ⟨node, among, rfl⟩ := List.mem_map.mp early
    obtain ⟨other, present, same⟩ := List.mem_map.mp late
    have upper := (first.births node among).2
    have lower := (second.births other present).1
    omega
  · rw [nodesOf_append]
    refine List.forall_mem_append.mpr ⟨fun node among => ?_, fun node among => ?_⟩
    · have bounds := first.births node among
      have order := second.ordered
      omega
    · have bounds := second.births node among
      have order := first.ordered
      omega
  · rw [nodesOf_append]
    exact List.forall_mem_append.mpr ⟨first.versions, second.versions⟩

/-- A node is stamped after all that is below it. -/
theorem IsFresh.node (fresh : IsFresh clock last children) (content : Content) :
    IsFresh clock (last + 1) [.node ⟨last + 1, last + 1, true⟩ content children] := by
  have walk : nodesOf [Tree.node ⟨last + 1, last + 1, true⟩ content children]
      = .node ⟨last + 1, last + 1, true⟩ content children :: nodesOf children := by
    rw [nodesOf_singleton, Tree.walk_eq]
    rfl
  refine ⟨Nat.le_succ_of_le fresh.ordered, ?_, ?_, ?_⟩
  · rw [birthsOf_node]
    refine List.nodup_cons.mpr ⟨fun present => ?_, fresh.distinct⟩
    obtain ⟨node, among, same⟩ := List.mem_map.mp present
    have bounds := fresh.births node among
    dsimp only at same
    omega
  · rw [walk]
    refine List.forall_mem_cons.mpr ⟨⟨Nat.lt_succ_of_le fresh.ordered, Nat.le_refl _⟩, ?_⟩
    intro node among
    have bounds := fresh.births node among
    omega
  · rw [walk]
    exact List.forall_mem_cons.mpr ⟨rfl, fresh.versions⟩

mutual

/-- A tree gets stamps of its own. -/
theorem isFresh_stampFrom : ∀ (tree : SyntaxTree) (clock : Nat),
    IsFresh clock (tree.stampFrom clock).2 [(tree.stampFrom clock).1]
  | .node _ content children, clock => (isFresh_stampAllFrom children clock).node content

/-- The trees of a list get stamps of their own, one after the other. -/
theorem isFresh_stampAllFrom : ∀ (trees : List SyntaxTree) (clock : Nat),
    IsFresh clock (SyntaxTree.stampAllFrom clock trees).2 (SyntaxTree.stampAllFrom clock trees).1
  | [], clock => isFresh_nil clock
  | tree :: trees, clock =>
    (isFresh_stampFrom tree clock).append (isFresh_stampAllFrom trees _)

end

end StampedTree

namespace Forest

open StampedTree

variable {forest : Forest} {node : StampedTree}

/-- A forest that has grown has its old nodes and others with later stamps of birth. -/
structure Grows (before after : Forest) : Prop where
  dated : after.IsDated
  clock : before.clock ≤ after.clock
  nodes : ∀ node ∈ after.nodes, node ∈ before.nodes ∨ before.clock < node.birth

/-- A tree that is planted adds nodes with later stamps only. -/
theorem IsDated.grows_plant (dated : forest.IsDated) (tree : SyntaxTree) :
    forest.Grows (forest.plant tree).1 := by
  have fresh := isFresh_stampFrom tree forest.clock
  have joined : (forest.plant tree).1.nodes
      = forest.nodes ++ nodesOf [(tree.stampFrom forest.clock).1] :=
    nodesOf_append _ _
  refine ⟨⟨?_, ?_, ?_⟩, fresh.ordered, ?_⟩
  · change (birthsOf (forest.trees ++ _)).Nodup
    rw [birthsOf_append]
    refine dated.distinct.append fresh.distinct fun birth early late => ?_
    obtain ⟨node, among, rfl⟩ := List.mem_map.mp early
    obtain ⟨other, present, same⟩ := List.mem_map.mp late
    have upper := dated.births node among
    have lower := (fresh.births other present).1
    omega
  · rw [joined]
    refine List.forall_mem_append.mpr ⟨fun node among => ?_, fun node among => ?_⟩
    · exact Nat.le_trans (dated.births node among) fresh.ordered
    · exact (fresh.births node among).2
  · rw [joined]
    refine List.forall_mem_append.mpr ⟨fun node among => ?_, fun node among => ?_⟩
    · exact Nat.le_trans (dated.versions node among) fresh.ordered
    · rw [fresh.versions node among]
      exact (fresh.births node among).2
  · rw [joined]
    exact List.forall_mem_append.mpr ⟨fun node among => .inl among,
      fun node among => .inr (fresh.births node among).1⟩

/-- To move a root below another one keeps all stamps of birth. -/
theorem birthsOf_perm_of_adopt {trees rest taken : List StampedTree} (label : Stamp)
    (content : Content) (children : List StampedTree) (split : trees.Perm (rest ++ taken)) :
    (birthsOf (rest ++ [.node label content (children ++ taken)])).Perm
      (birthsOf (trees ++ [.node label content children])) := by
  rw [List.perm_iff_count]
  intro stamp
  have split := (birthsOf_perm split).count_eq stamp
  simp only [birthsOf_append, birthsOf_node, List.count_append, List.count_cons] at split ⊢
  omega

/-- Where a new node stops to take children: it has got all of them, or the next one is refused. -/
inductive Stops (made : Forest) (parent : Nat) : List Nat → Option EditError → Prop where
  | complete : Stops made parent [] none
  | refused {child : Nat} {later : List Nat} {error : EditError}
      (refused : made.adoptable parent child = .error error) :
      Stops made parent (child :: later) (some error)

/-- The children that a new node gets are roots that go below it. They are those that it is to get,
in their order, up to the first one that is refused. -/
theorem exists_gather_eq (children : List Nat) (forest : Forest) (label : Stamp)
    (content : Content) (own : List StampedTree)
    (distinct : (birthsOf (forest.trees ++ [.node label content own])).Nodup) :
    ∃ rest taken later, forest.trees.Perm (rest ++ taken) ∧
      children = taken.map Tree.birth ++ later ∧
      (forest.gather (.node label content own) children).1
        = { forest with trees := rest ++ [.node label content (own ++ taken)] } ∧
      Stops (forest.gather (.node label content own) children).1 label.birth later
        (forest.gather (.node label content own) children).2 := by
  induction children generalizing forest own with
  | nil =>
    refine ⟨forest.trees, [], [], by rw [List.append_nil], rfl, ?_, .complete⟩
    rw [List.append_nil]
    rfl
  | cons child rest ih =>
    unfold gather
    split
    · next refused =>
      refine ⟨forest.trees, [], _, by rw [List.append_nil], rfl, ?_, .refused refused⟩
      rw [List.append_nil]
      rfl
    · next tree adopted =>
      obtain ⟨root, rfl, outside⟩ := of_adoptable_eq_ok adopted
      have old : tree ∈ forest.trees := by
        rcases List.mem_append.mp root with old | own
        · exact old
        · rw [List.mem_singleton.mp own, birthsOf_node] at outside
          exact (outside List.mem_cons_self).elim
      have apart := distinct
      rw [birthsOf_append] at apart
      have split := (without_append_perm apart.of_append_left old).symm
      have same := birthsOf_perm_of_adopt label content own split
      obtain ⟨kept, taken, later, others, listed, result, stops⟩ :=
        ih (forest.uproot tree.birth) (own ++ [tree]) (same.nodup_iff.mpr distinct)
      refine ⟨kept, tree :: taken, later, ?_, congrArg _ listed, ?_, stops⟩
      · calc
          forest.trees.Perm ((forest.uproot tree.birth).trees ++ [tree]) := split
          List.Perm _ (kept ++ taken ++ [tree]) := others.append_right _
          List.Perm _ (tree :: (kept ++ taken)) := List.perm_append_singleton _ _
          List.Perm _ (kept ++ tree :: taken) := List.perm_middle.symm
      · rw [List.append_assoc] at result
        exact result

/-- A new node has a stamp of birth of its own. -/
theorem IsDated.distinct_new (dated : forest.IsDated) (content : Content) :
    (birthsOf (forest.trees ++
      [.node ⟨forest.clock + 1, forest.clock + 1, true⟩ content []])).Nodup := by
  rw [birthsOf_append, birthsOf_node]
  refine dated.distinct.append (List.nodup_singleton _) fun birth early late => ?_
  obtain ⟨node, among, rfl⟩ := List.mem_map.mp early
  have upper := dated.births node among
  have same := List.mem_singleton.mp late
  dsimp only at same
  omega

/-- To make a node is to put roots below it, up to the first one that is refused. -/
theorem IsDated.exists_make_stops (dated : forest.IsDated) (content : Content)
    (children : List Nat) :
    ∃ rest taken later, forest.trees.Perm (rest ++ taken) ∧
      children = taken.map Tree.birth ++ later ∧
      (forest.make content children).1
        = ⟨rest ++ [.node ⟨forest.clock + 1, forest.clock + 1, true⟩ content taken],
          forest.clock + 1⟩ ∧
      Stops (forest.make content children).1 (forest.clock + 1) later
        (forest.make content children).2.2 :=
  exists_gather_eq children { forest with clock := forest.clock + 1 } _ content []
    (dated.distinct_new content)

/-- To make a node takes some roots, in some order, as its children. -/
theorem IsDated.exists_make_eq (dated : forest.IsDated) (content : Content) (children : List Nat) :
    ∃ rest taken, forest.trees.Perm (rest ++ taken) ∧
      (forest.make content children).1
        = ⟨rest ++ [.node ⟨forest.clock + 1, forest.clock + 1, true⟩ content taken],
          forest.clock + 1⟩ := by
  obtain ⟨rest, taken, _, split, _, made, _⟩ := dated.exists_make_stops content children
  exact ⟨rest, taken, split, made⟩

/-- A node that is made adds one node with a later stamp only. -/
theorem IsDated.grows_make (dated : forest.IsDated) (content : Content) (children : List Nat) :
    forest.Grows (forest.make content children).1 := by
  obtain ⟨rest, taken, split, made⟩ := dated.exists_make_eq content children
  have births := birthsOf_perm_of_adopt ⟨forest.clock + 1, forest.clock + 1, true⟩ content [] split
  have earlier : ∀ node ∈ nodesOf (rest ++ taken), node ∈ forest.nodes := fun node among =>
    (nodesOf_perm split).mem_iff.mpr among
  rw [nodesOf_append] at earlier
  rw [made]
  have known : ∀ node ∈ nodesOf
      (rest ++ [.node ⟨forest.clock + 1, forest.clock + 1, true⟩ content taken]),
      node ∈ forest.nodes ∨ node.birth = forest.clock + 1 ∧ node.version = forest.clock + 1 := by
    intro node present
    rw [nodesOf_append, nodesOf_singleton, Tree.walk_eq] at present
    rcases List.mem_append.mp present with kept | own
    · exact .inl (earlier node (List.mem_append_left _ kept))
    rcases List.mem_cons.mp own with rfl | below
    · exact .inr ⟨rfl, rfl⟩
    · exact .inl (earlier node (List.mem_append_right _ below))
  refine ⟨⟨births.nodup_iff.mpr (dated.distinct_new content), fun node present => ?_,
    fun node present => ?_⟩, Nat.le_succ _, fun node present => ?_⟩
  · rcases known node present with old | ⟨birth, _⟩
    · exact Nat.le_succ_of_le (dated.births node old)
    · exact Nat.le_of_eq birth
  · rcases known node present with old | ⟨_, version⟩
    · exact Nat.le_succ_of_le (dated.versions node old)
    · exact Nat.le_of_eq version
  · rcases known node present with old | ⟨birth, _⟩
    · exact .inl old
    · exact .inr (by omega)

end Forest

end WolframSyntax
