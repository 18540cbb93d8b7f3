import WolframSyntax.Proofs.Rearranging

/-!
# Parents and children

Who looks at a node of a forest sees the node that it belongs to, the children that it lists and the
nodes around it. As all nodes of a forest can be told apart, the three fit: a node that is listed
belongs to the one that lists it, the nodes around a node are reached from it by going from each to
the one it belongs to, and it is none of them. Only the strays belong to a node that does not list
them (`Forest.IsDated.mem_childrenOf_iff`).
-/

namespace WolframSyntax

namespace StampedTree

/-- The trees of a list are among their nodes, in the same order. -/
theorem sublist_nodesOf (trees : List StampedTree) : trees.Sublist (nodesOf trees) := by
  induction trees with
  | nil => exact .slnil
  | cons tree trees ih =>
    rw [nodesOf_cons, Tree.walk_eq, List.cons_append]
    exact (ih.trans (List.sublist_append_right _ _)).cons_cons tree

variable {trees : List StampedTree} {owner child : StampedTree} {parent node : Nat}

/-- The nodes among the children of `parent` that it does not list, each with `parent`. -/
def straysAmong (parent : Nat) (children : List StampedTree) : List (Nat × Nat) :=
  (children.filter fun child => !child.listed).map fun child => (parent, child.birth)

/-- The nodes in a list of trees that belong to a node that does not list them, each with its
owner. -/
def straysOf (trees : List StampedTree) : List (Nat × Nat) :=
  (nodesOf trees).flatMap fun owner => straysAmong owner.birth owner.children

/-- A stray is a child that its owner does not list. -/
theorem mem_straysOf : (parent, node) ∈ straysOf trees ↔ ∃ owner ∈ nodesOf trees,
    owner.birth = parent ∧ ∃ child ∈ owner.children, child.birth = node ∧ child.listed = false := by
  simp only [straysOf, straysAmong, List.mem_flatMap, List.mem_map, List.mem_filter,
    Bool.not_eq_true', Prod.mk.injEq]
  constructor
  · rintro ⟨owner, among, child, ⟨held, unlisted⟩, same, rfl⟩
    exact ⟨owner, among, same, child, held, rfl, unlisted⟩
  · rintro ⟨owner, among, same, child, held, rfl, unlisted⟩
    exact ⟨owner, among, child, ⟨held, unlisted⟩, same, rfl⟩

/-- There are no strays where all nodes are listed. -/
theorem straysOf_eq_nil (listed : ∀ tree ∈ trees, tree.Everywhere fun node => node.listed) :
    straysOf trees = [] := by
  refine List.eq_nil_iff_forall_not_mem.mpr fun pair stray => ?_
  obtain ⟨owner, held, _, child, below, _, unlisted⟩ := mem_straysOf.mp stray
  obtain ⟨tree, among, inside⟩ := List.mem_flatMap.mp held
  have seen := (((listed tree among).within inside).child below).root
  rw [unlisted] at seen
  cases seen

end StampedTree

namespace SyntaxTree

theorem exists_of_mem_stampAllFrom {trees : List SyntaxTree} {clock : Nat} {child : StampedTree}
    (present : child ∈ (stampAllFrom clock trees).1) :
    ∃ tree ∈ trees, ∃ clock, child = (tree.stampFrom clock).1 := by
  induction trees generalizing clock with
  | nil => cases present
  | cons tree trees ih =>
    rcases List.mem_cons.mp present with rfl | later
    · exact ⟨tree, List.mem_cons_self, clock, rfl⟩
    · obtain ⟨tree, among, clock, same⟩ := ih later
      exact ⟨tree, List.mem_cons_of_mem _ among, clock, same⟩

/-- All nodes of a tree that is new are listed. -/
theorem listed_stampFrom (tree : SyntaxTree) (clock : Nat) :
    (tree.stampFrom clock).1.Everywhere fun node => node.listed := by
  induction tree using Tree.induct generalizing clock with
  | node label content children ih =>
    rw [stampFrom]
    refine Tree.everywhere_node.mpr ⟨rfl, fun child present => ?_⟩
    obtain ⟨original, among, before, rfl⟩ := exists_of_mem_stampAllFrom present
    exact ih original among before

end SyntaxTree

namespace Forest

open StampedTree

/-- The node that a node belongs to. -/
def parentOf? (forest : Forest) (node : Nat) : Option Nat :=
  (forest.find? node).bind fun place => place.parent?.map Tree.birth

/-- The children that a node lists. -/
def childrenOf (forest : Forest) (node : Nat) : List Nat :=
  (forest.find? node).elim [] fun place => place.tree.children.map Tree.birth

/-- The nodes around a node, innermost first. -/
def ancestorsOf (forest : Forest) (node : Nat) : List Nat :=
  (forest.find? node).elim [] fun place => place.ancestors.map Tree.birth

/-- The stamp of the last change of a node. -/
def versionOf? (forest : Forest) (node : Nat) : Option Nat :=
  (forest.find? node).map fun place => place.tree.version

variable {forest : Forest} {place : Occurrence Stamp} {node parent : Nat}

theorem parentOf?_eq_map (forest : Forest) (node : Nat) :
    forest.parentOf? node
      = (forest.place? node).bind fun place => place.parent?.map Tree.birth := by
  unfold parentOf? find?
  cases forest.place? node with
  | none => rfl
  | some place =>
    rcases place with ⟨tree, _ | ⟨owner, above⟩⟩
    · rfl
    · exact congrArg some owner.birth_visible

/-- The occurrences of a forest are those of its nodes. -/
theorem map_tree_occurrences (forest : Forest) :
    forest.occurrences.map Occurrence.tree = forest.nodes := by
  rw [occurrences, List.map_flatMap]
  exact List.flatMap_congr fun tree _ => tree.map_tree_occurrencesWithin []

theorem mem_nodes_of_mem_children {owner child : StampedTree} (held : owner ∈ forest.nodes)
    (below : child ∈ owner.children) : child ∈ forest.nodes :=
  mem_nodesOf_trans held (mem_walk_of_mem_children (mem_nodesOf below))

theorem exists_of_mem_childrenOf (among : node ∈ forest.childrenOf parent) :
    ∃ owner ∈ forest.nodes, owner.birth = parent := by
  unfold childrenOf find? at among
  cases found : forest.place? parent with
  | none =>
    rw [found] at among
    cases among
  | some place =>
    obtain ⟨_, held, same⟩ := of_place?_eq_some found
    exact ⟨place.tree, held, same⟩

namespace IsDated

/-- A node is found at its only occurrence. -/
theorem place?_eq_some_iff (dated : forest.IsDated) :
    forest.place? node = some place ↔ place ∈ forest.occurrences ∧ place.tree.birth = node := by
  constructor
  · intro found
    obtain ⟨present, _, same⟩ := of_place?_eq_some found
    exact ⟨present, same⟩
  · rintro ⟨present, rfl⟩
    cases found : forest.place? place.tree.birth with
    | none => exact (List.find?_eq_none.mp found place present (beq_self_eq_true _)).elim
    | some other =>
      obtain ⟨among, _, same⟩ := of_place?_eq_some found
      have distinct : (forest.occurrences.map (Tree.birth ∘ Occurrence.tree)).Nodup := by
        rw [← List.map_map, map_tree_occurrences]
        exact dated.distinct
      rw [List.inj_on_of_nodup_map distinct among present same]

/-- A node belongs to the one it is a child of, whether it is listed there or not. -/
theorem parentOf?_eq_some_iff (dated : forest.IsDated) :
    forest.parentOf? node = some parent ↔ ∃ owner ∈ forest.nodes, owner.birth = parent ∧
      ∃ child ∈ owner.children, child.birth = node := by
  simp only [parentOf?_eq_map, Option.bind_eq_some_iff, Option.map_eq_some_iff]
  constructor
  · rintro ⟨place, found, owner, above, same⟩
    obtain ⟨present, _, whole⟩ := of_place?_eq_some found
    obtain ⟨tree, among, inside⟩ := List.mem_flatMap.mp present
    obtain ⟨held, child⟩ := Tree.of_parent?_eq_some inside above
    exact ⟨owner, List.mem_flatMap.mpr ⟨tree, among, held⟩, same, place.tree, child, whole⟩
  · rintro ⟨owner, held, same, child, below, rfl⟩
    obtain ⟨place, present, rfl⟩ := List.mem_map.mp (map_tree_occurrences forest ▸ held)
    obtain ⟨tree, among, inside⟩ := List.mem_flatMap.mp present
    refine ⟨place.child child, dated.place?_eq_some_iff.mpr ⟨?_, rfl⟩, place.tree, rfl, same⟩
    exact List.mem_flatMap.mpr ⟨tree, among, Tree.child_mem_occurrencesWithin inside below⟩

/-- What is seen of a node is the node without what is not listed. -/
theorem exists_find?_eq_some (dated : forest.IsDated) {tree : StampedTree}
    (present : tree ∈ forest.nodes) :
    ∃ place, forest.find? tree.birth = some place ∧ place.tree = tree.visible := by
  obtain ⟨place, among, rfl⟩ := List.mem_map.mp (map_tree_occurrences forest ▸ present)
  refine ⟨place.visible, ?_, rfl⟩
  rw [find?, dated.place?_eq_some_iff.mpr ⟨among, rfl⟩]
  rfl

/-- The children of a node are those that it lists. -/
theorem childrenOf_birth (dated : forest.IsDated) {owner : StampedTree}
    (present : owner ∈ forest.nodes) :
    forest.childrenOf owner.birth = (owner.children.filter Tree.listed).map Tree.birth := by
  obtain ⟨place, found, same⟩ := dated.exists_find?_eq_some present
  rw [childrenOf, found, Option.elim_some, same, Tree.children_visible, List.map_map]
  exact List.map_congr_left fun child _ => child.birth_visible

/-- A node lists the nodes that belong to it and are no strays. -/
theorem mem_childrenOf_iff (dated : forest.IsDated) :
    node ∈ forest.childrenOf parent ↔
      forest.parentOf? node = some parent ∧ (parent, node) ∉ straysOf forest.trees := by
  rw [dated.parentOf?_eq_some_iff, mem_straysOf]
  constructor
  · intro among
    obtain ⟨owner, held, rfl⟩ := exists_of_mem_childrenOf among
    rw [dated.childrenOf_birth held] at among
    obtain ⟨child, visible, rfl⟩ := List.mem_map.mp among
    obtain ⟨below, listed⟩ := List.mem_filter.mp visible
    refine ⟨⟨owner, held, rfl, child, below, rfl⟩, ?_⟩
    rintro ⟨other, otherHeld, same, stray, strayBelow, sameChild, unlisted⟩
    obtain rfl := dated.eq_of_birth_eq otherHeld held same
    obtain rfl := dated.eq_of_birth_eq (mem_nodes_of_mem_children held strayBelow)
      (mem_nodes_of_mem_children held below) sameChild
    exact Bool.false_ne_true (unlisted.symm.trans listed)
  · rintro ⟨⟨owner, held, rfl, child, below, rfl⟩, straysNot⟩
    rw [dated.childrenOf_birth held]
    refine List.mem_map_of_mem (List.mem_filter.mpr ⟨below, ?_⟩)
    by_contra unlisted
    exact straysNot ⟨owner, held, rfl, child, below, rfl, Bool.not_eq_true _ ▸ unlisted⟩

/-- No node is listed twice. -/
theorem nodup_childrenOf (dated : forest.IsDated) (parent : Nat) :
    (forest.childrenOf parent).Nodup := by
  cases children : forest.childrenOf parent with
  | nil => exact List.nodup_nil
  | cons first rest =>
    obtain ⟨owner, held, rfl⟩ := exists_of_mem_childrenOf (children ▸ List.mem_cons_self)
    rw [← children, dated.childrenOf_birth held]
    refine List.Nodup.sublist ?_ (distinct_children dated.distinct held)
    refine List.Sublist.map _ (List.filter_sublist.trans ?_)
    exact sublist_nodesOf _

/-- The nodes around a node are the one it belongs to and the nodes around that one. -/
theorem ancestorsOf_eq (dated : forest.IsDated) (node : Nat) :
    forest.ancestorsOf node
      = (forest.parentOf? node).elim [] fun parent => parent :: forest.ancestorsOf parent := by
  rw [parentOf?_eq_map, ancestorsOf, find?]
  cases found : forest.place? node with
  | none => rfl
  | some place =>
    obtain ⟨present, _, _⟩ := of_place?_eq_some found
    obtain ⟨tree, among, inside⟩ := List.mem_flatMap.mp present
    rcases place with ⟨inner, _ | ⟨owner, above⟩⟩
    · rfl
    · have around : ⟨owner, above⟩ ∈ forest.occurrences := by
        refine List.mem_flatMap.mpr ⟨tree, among, ?_⟩
        exact (Tree.outer_mem_occurrencesWithin inside).resolve_left (List.cons_ne_nil _ _)
      have outer : forest.ancestorsOf owner.birth = (above.map Tree.visible).map Tree.birth := by
        rw [ancestorsOf, find?, dated.place?_eq_some_iff.mpr ⟨around, rfl⟩]
        rfl
      exact congrArg₂ List.cons owner.birth_visible outer.symm

/-- No node is around itself. -/
theorem not_mem_ancestorsOf (dated : forest.IsDated) (node : Nat) :
    node ∉ forest.ancestorsOf node := by
  intro around
  unfold ancestorsOf find? at around
  cases found : forest.place? node with
  | none =>
    rw [found] at around
    cases around
  | some place =>
    rw [found] at around
    obtain ⟨_, seen, same⟩ := List.mem_map.mp around
    obtain ⟨outer, above, rfl⟩ := List.mem_map.mp seen
    obtain ⟨present, _, whole⟩ := of_place?_eq_some found
    obtain ⟨tree, among, inside⟩ := List.mem_flatMap.mp present
    have below : place.tree ∈ nodesOf outer.children :=
      (Tree.mem_flatMap_walk_of_mem_ancestors inside above).resolve_right List.not_mem_nil
    have held := mem_nodes_of_mem_lineage present (List.mem_cons_of_mem _ above)
    apply birth_not_mem_children (distinct_node dated.distinct held)
    rw [← outer.birth_visible, same, ← whole]
    exact birth_mem_birthsOf below

end IsDated

end Forest

end WolframSyntax
