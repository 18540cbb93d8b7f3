import Mathlib.Data.List.Chain
import WolframSyntax.Proofs.Tree
import WolframSyntax.Tree.Occurrence

/-!
# Occurrences in a tree

Every node of a tree has an occurrence, and the trees around an occurrence are nodes of the tree,
each directly around the one before (`Tree.isChain_lineage`).
-/

namespace WolframSyntax.Tree

variable {Label : Type} {tree : Tree Label} {ancestors : List (Tree Label)}
  {occurrence : Occurrence Label}

theorem occurrencesOfAll_eq_flatMap (trees : List (Tree Label)) :
    occurrencesOfAll ancestors trees = trees.flatMap (occurrencesWithin ancestors) := by
  induction trees with
  | nil => rfl
  | cons tree trees ih => rw [occurrencesOfAll, ih, List.flatMap_cons]

/-- An occurrence is that of the tree itself or has the tree above it. -/
theorem mem_occurrencesWithin {tree : Tree Label}
    (present : occurrence ∈ tree.occurrencesWithin ancestors) :
    occurrence = ⟨tree, ancestors⟩ ∨
      ∃ between, occurrence.ancestors = between ++ tree :: ancestors := by
  induction tree generalizing ancestors with
  | node label content children ih =>
    rw [occurrencesWithin, occurrencesOfAll_eq_flatMap] at present
    rcases List.mem_cons.mp present with rfl | below
    · exact .inl rfl
    · obtain ⟨child, among, inside⟩ := List.mem_flatMap.mp below
      rcases ih child among inside with rfl | ⟨between, above⟩
      · exact .inr ⟨[], rfl⟩
      · exact .inr ⟨between ++ [child], by rw [above, List.append_assoc]; rfl⟩

/-- The trees of the lineage of an occurrence are in the tree or above it. -/
theorem mem_walk_of_mem_lineage {tree node : Tree Label}
    (present : occurrence ∈ tree.occurrencesWithin ancestors) (above : node ∈ occurrence.lineage) :
    node ∈ tree.walk ∨ node ∈ ancestors := by
  induction tree generalizing ancestors with
  | node label content children ih =>
    rw [occurrencesWithin, occurrencesOfAll_eq_flatMap] at present
    rcases List.mem_cons.mp present with rfl | below
    · rcases List.mem_cons.mp above with rfl | outer
      · exact .inl (mem_walk_self _)
      · exact .inr outer
    · obtain ⟨child, among, inside⟩ := List.mem_flatMap.mp below
      rcases ih child among inside with inner | outer
      · exact .inl (walk_eq _ ▸ List.mem_cons_of_mem _ (List.mem_flatMap.mpr ⟨child, among, inner⟩))
      · rcases List.mem_cons.mp outer with rfl | outer
        · exact .inl (mem_walk_self _)
        · exact .inr outer

/-- The occurrences in a tree are those of its nodes, in the same order. -/
theorem map_tree_occurrencesWithin (tree : Tree Label) (ancestors : List (Tree Label)) :
    (tree.occurrencesWithin ancestors).map Occurrence.tree = tree.walk := by
  induction tree generalizing ancestors with
  | node label content children ih =>
    rw [occurrencesWithin, occurrencesOfAll_eq_flatMap, walk_node, List.map_cons, List.map_flatMap]
    exact congrArg _ (List.flatMap_congr fun child among => ih child among _)

/-- What occurs in a tree around which others are occurs there with all of them around it. -/
theorem mem_occurrencesWithin_trans {tree : Tree Label} {inner : Occurrence Label}
    (present : occurrence ∈ tree.occurrencesWithin ancestors)
    (below : inner ∈ occurrence.tree.occurrencesWithin occurrence.ancestors) :
    inner ∈ tree.occurrencesWithin ancestors := by
  induction tree generalizing ancestors with
  | node label content children ih =>
    rw [occurrencesWithin, occurrencesOfAll_eq_flatMap] at present
    rcases List.mem_cons.mp present with rfl | inside
    · exact below
    · obtain ⟨child, among, inside⟩ := List.mem_flatMap.mp inside
      rw [occurrencesWithin, occurrencesOfAll_eq_flatMap]
      exact List.mem_cons_of_mem _ (List.mem_flatMap.mpr ⟨child, among, ih child among inside⟩)

/-- What is directly below an occurrence occurs there. -/
theorem child_mem_occurrencesWithin {tree child : Tree Label}
    (present : occurrence ∈ tree.occurrencesWithin ancestors)
    (below : child ∈ occurrence.tree.children) :
    occurrence.child child ∈ tree.occurrencesWithin ancestors := by
  refine mem_occurrencesWithin_trans present ?_
  rcases occurrence with ⟨⟨label, content, children⟩, above⟩
  rw [occurrencesWithin, occurrencesOfAll_eq_flatMap]
  refine List.mem_cons_of_mem _ (List.mem_flatMap.mpr ⟨child, below, ?_⟩)
  cases child
  exact List.mem_cons_self

/-- What is directly around an occurrence occurs with the other trees around it, unless the
occurrence is that of the tree itself. -/
theorem outer_mem_occurrencesWithin {tree inner outer : Tree Label} {above : List (Tree Label)}
    (present : ⟨inner, outer :: above⟩ ∈ tree.occurrencesWithin ancestors) :
    outer :: above = ancestors ∨ ⟨outer, above⟩ ∈ tree.occurrencesWithin ancestors := by
  induction tree generalizing ancestors with
  | node label content children ih =>
    rw [occurrencesWithin, occurrencesOfAll_eq_flatMap] at present ⊢
    rcases List.mem_cons.mp present with same | below
    · exact .inl (congrArg Occurrence.ancestors same)
    · obtain ⟨child, among, inside⟩ := List.mem_flatMap.mp below
      rcases ih child among inside with same | within
      · cases same
        exact .inr List.mem_cons_self
      · exact .inr (List.mem_cons_of_mem _ (List.mem_flatMap.mpr ⟨child, among, within⟩))

/-- An occurrence is below each of the trees around it. -/
theorem mem_flatMap_walk_of_mem_ancestors {tree outer : Tree Label}
    (present : occurrence ∈ tree.occurrencesWithin ancestors)
    (around : outer ∈ occurrence.ancestors) :
    occurrence.tree ∈ outer.children.flatMap walk ∨ outer ∈ ancestors := by
  induction tree generalizing ancestors with
  | node label content children ih =>
    rw [occurrencesWithin, occurrencesOfAll_eq_flatMap] at present
    rcases List.mem_cons.mp present with rfl | below
    · exact .inr around
    · obtain ⟨child, among, inside⟩ := List.mem_flatMap.mp below
      rcases ih child among inside with inner | outside
      · exact .inl inner
      · rcases List.mem_cons.mp outside with rfl | outside
        · refine .inl (List.mem_flatMap.mpr ⟨child, among, ?_⟩)
          exact map_tree_occurrencesWithin child _ ▸ List.mem_map_of_mem inside
        · exact .inr outside

/-- An occurrence is in each tree of its lineage. -/
theorem tree_mem_walk_of_mem_lineage {node : Tree Label} (present : occurrence ∈ tree.occurrences)
    (above : node ∈ occurrence.lineage) : occurrence.tree ∈ node.walk := by
  rcases List.mem_cons.mp above with rfl | around
  · exact mem_walk_self _
  · have below := mem_flatMap_walk_of_mem_ancestors present around
    rw [walk_eq]
    exact List.mem_cons_of_mem _ (below.resolve_right List.not_mem_nil)

/-- Every node of a tree has an occurrence. -/
theorem exists_occurrence {tree node : Tree Label} (ancestors : List (Tree Label))
    (inside : node ∈ tree.walk) :
    ∃ occurrence ∈ tree.occurrencesWithin ancestors, occurrence.tree = node := by
  rw [← map_tree_occurrencesWithin tree ancestors] at inside
  exact List.mem_map.mp inside

/-- All occurrences in a tree that stands alone have it as their root. -/
theorem root_of_mem_occurrences (present : occurrence ∈ tree.occurrences) :
    occurrence.root = tree := by
  rcases mem_occurrencesWithin present with rfl | ⟨between, above⟩
  · rfl
  · rw [Occurrence.root, above, List.getLast?_concat]
    rfl

/-- Each tree of a lineage occurs with the trees behind it around it. -/
theorem mem_occurrences_of_lineage_eq {before above : List (Tree Label)} {inner : Tree Label}
    (present : occurrence ∈ tree.occurrences)
    (split : occurrence.lineage = before ++ inner :: above) :
    ⟨inner, above⟩ ∈ tree.occurrences := by
  induction before generalizing occurrence with
  | nil =>
    obtain ⟨rfl, rfl⟩ := List.cons.inj split
    exact present
  | cons first before ih =>
    obtain ⟨same, around⟩ := List.cons.inj split
    rcases occurrence with ⟨innermost, _ | ⟨outer, outermost⟩⟩
    · cases before <;> cases around
    · have next := outer_mem_occurrencesWithin present
      exact ih (next.resolve_left (List.cons_ne_nil _ _)) around

/-- Of the trees of a lineage, each is directly around the one before. -/
theorem isChain_lineage (present : occurrence ∈ tree.occurrencesWithin ancestors)
    (chain : List.IsChain (fun inner outer => inner ∈ outer.children) (tree :: ancestors)) :
    List.IsChain (fun inner outer => inner ∈ outer.children) occurrence.lineage := by
  induction tree generalizing ancestors with
  | node label content children ih =>
    rw [occurrencesWithin, occurrencesOfAll_eq_flatMap] at present
    rcases List.mem_cons.mp present with rfl | below
    · exact chain
    · obtain ⟨child, among, inside⟩ := List.mem_flatMap.mp below
      exact ih child among inside (List.IsChain.cons_cons among chain)

/-- What is directly around an occurrence in a tree that stands alone is a node of the tree. -/
theorem of_parent?_eq_some {parent : Tree Label} (present : occurrence ∈ tree.occurrences)
    (above : occurrence.parent? = some parent) :
    parent ∈ tree.walk ∧ occurrence.tree ∈ parent.children := by
  obtain ⟨outer, ancestors⟩ := List.head?_eq_some_iff.mp above
  have chain := isChain_lineage present (List.isChain_singleton tree)
  rw [Occurrence.lineage, ancestors] at chain
  refine ⟨(mem_walk_of_mem_lineage present ?_).resolve_right List.not_mem_nil,
    (List.isChain_cons_cons.mp chain).1⟩
  rw [Occurrence.lineage, ancestors]
  exact List.mem_cons_of_mem _ List.mem_cons_self

/-- Nothing is around the tree itself only. -/
theorem tree_of_parent?_eq_none (present : occurrence ∈ tree.occurrences)
    (outermost : occurrence.parent? = none) : occurrence.tree = tree := by
  rcases mem_occurrencesWithin present with rfl | ⟨between, above⟩
  · rfl
  · rw [Occurrence.parent?, above, List.head?_eq_none_iff] at outermost
    simp at outermost

end WolframSyntax.Tree
