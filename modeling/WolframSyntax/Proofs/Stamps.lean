import Mathlib.Data.List.Nodup
import WolframSyntax.Forest.Edit
import WolframSyntax.Proofs.Tree

/-!
# Stamped trees

The nodes of a list of trees with their stamps of birth, and what an edit of one node does to all of
them. The nodes around the edited one are dated anew, its children are changed, and all other nodes
stay as they are (`StampedTree.IsEdited.mem_walk`).
-/

namespace WolframSyntax

namespace Tree

@[simp] theorem birth_visible (tree : StampedTree) : tree.visible.birth = tree.birth := by
  cases tree
  rfl

@[simp] theorem version_visible (tree : StampedTree) : tree.visible.version = tree.version := by
  cases tree
  rfl

/-- Of a list the listed trees are visible. -/
theorem visibleAll_eq_map (trees : List StampedTree) :
    visibleAll trees = (trees.filter listed).map visible := by
  induction trees with
  | nil => rfl
  | cons tree trees ih =>
    rw [visibleAll, ih, List.filter_cons]
    split <;> rfl

/-- A node's visible children are the listed ones. -/
theorem children_visible (tree : StampedTree) :
    tree.visible.children = (tree.children.filter listed).map visible := by
  cases tree
  exact visibleAll_eq_map _

end Tree

namespace StampedTree

/-- The nodes of a list of trees, with all that belongs to them. -/
def nodesOf (trees : List StampedTree) : List StampedTree := trees.flatMap Tree.walk

/-- The stamps of birth of the nodes of a list of trees. -/
def birthsOf (trees : List StampedTree) : List Nat := (nodesOf trees).map Tree.birth

variable {trees left right : List StampedTree} {tree node inner : StampedTree} {birth : Nat}

@[simp] theorem nodesOf_nil : nodesOf [] = [] := rfl

@[simp] theorem nodesOf_cons (tree : StampedTree) (trees : List StampedTree) :
    nodesOf (tree :: trees) = tree.walk ++ nodesOf trees :=
  List.flatMap_cons

@[simp] theorem nodesOf_append (left right : List StampedTree) :
    nodesOf (left ++ right) = nodesOf left ++ nodesOf right :=
  List.flatMap_append

theorem nodesOf_singleton (tree : StampedTree) : nodesOf [tree] = tree.walk :=
  List.flatMap_singleton _ _

@[simp] theorem birthsOf_nil : birthsOf [] = [] := rfl

@[simp] theorem birthsOf_append (left right : List StampedTree) :
    birthsOf (left ++ right) = birthsOf left ++ birthsOf right := by
  simp [birthsOf]

/-- A tree has its own stamp first, then those below it. -/
theorem birthsOf_cons (tree : StampedTree) (trees : List StampedTree) :
    birthsOf (tree :: trees) = tree.birth :: (birthsOf tree.children ++ birthsOf trees) := by
  rw [birthsOf, nodesOf_cons, Tree.walk_eq, List.map_append, List.map_cons]
  rfl

theorem birthsOf_singleton (tree : StampedTree) :
    birthsOf [tree] = tree.birth :: birthsOf tree.children := by
  rw [birthsOf_cons, birthsOf_nil, List.append_nil]

/-- The stamps of one tree stand between those in front of it and those behind it. -/
theorem birthsOf_split (before : List StampedTree) (tree : StampedTree)
    (after : List StampedTree) :
    birthsOf (before ++ tree :: after)
      = birthsOf before ++ (birthsOf [tree] ++ birthsOf after) := by
  rw [← List.singleton_append, birthsOf_append, birthsOf_append]

theorem birthsOf_node (label : Stamp) (content : Content) (children : List StampedTree) :
    birthsOf [.node label content children] = label.birth :: birthsOf children :=
  birthsOf_singleton _

/-- The walk through a node passes each child between those in front of it and those behind it. -/
theorem walk_split (label : Stamp) (content : Content) (before : List StampedTree)
    (tree : StampedTree) (after : List StampedTree) :
    (Tree.node label content (before ++ tree :: after)).walk
      = .node label content (before ++ tree :: after)
        :: (nodesOf before ++ (tree.walk ++ nodesOf after)) := by
  rw [Tree.walk_eq, ← nodesOf_cons, ← nodesOf_append]
  rfl

/-- The order of the trees does not change which nodes there are. -/
theorem nodesOf_perm (same : left.Perm right) : (nodesOf left).Perm (nodesOf right) :=
  same.flatMap_right _

/-- The order of the trees does not change which stamps there are. -/
theorem birthsOf_perm (same : left.Perm right) : (birthsOf left).Perm (birthsOf right) :=
  (nodesOf_perm same).map _

/-- Each node has its stamp among those of the list. -/
theorem birth_mem_birthsOf (present : node ∈ nodesOf trees) : node.birth ∈ birthsOf trees :=
  List.mem_map_of_mem present

theorem mem_nodesOf (present : tree ∈ trees) : tree ∈ nodesOf trees :=
  List.mem_flatMap.mpr ⟨tree, present, tree.mem_walk_self⟩

/-- What is below a node of a list is a node of the list. -/
theorem mem_nodesOf_trans (present : node ∈ nodesOf trees) (below : inner ∈ node.walk) :
    inner ∈ nodesOf trees := by
  obtain ⟨tree, held, inside⟩ := List.mem_flatMap.mp present
  exact List.mem_flatMap.mpr ⟨tree, held, Tree.mem_walk_trans inside below⟩

/-- What is below a child is below the node. -/
theorem mem_walk_of_mem_children (below : inner ∈ nodesOf node.children) : inner ∈ node.walk := by
  rw [Tree.walk_eq]
  exact List.mem_cons_of_mem _ below

/-- A tree contains a node just in case it has its stamp of birth. -/
theorem contains_iff : tree.contains birth ↔ birth ∈ birthsOf [tree] := by
  simp [Tree.contains, birthsOf, nodesOf]

/-- A node holds no stamp that the trees it is in do not have. -/
theorem contains_eq_false (present : node ∈ nodesOf trees) (absent : birth ∉ birthsOf trees) :
    node.contains birth = false := by
  rw [← Bool.not_eq_true, contains_iff]
  intro held
  obtain ⟨inner, below, rfl⟩ := List.mem_map.mp held
  rw [nodesOf_singleton] at below
  exact absent (birth_mem_birthsOf (mem_nodesOf_trans present below))

/-- Below a node stamps are distinct where they are in the list. -/
theorem distinct_node (distinct : (birthsOf trees).Nodup) (present : node ∈ nodesOf trees) :
    (birthsOf [node]).Nodup := by
  obtain ⟨tree, among, inside⟩ := List.mem_flatMap.mp present
  refine List.Nodup.sublist ?_ distinct
  rw [birthsOf, nodesOf_singleton]
  exact ((Tree.walk_sublist inside).trans (Tree.sublist_flatMap_walk among)).map _

/-- Below a node's children stamps are distinct where they are in the list. -/
theorem distinct_children (distinct : (birthsOf trees).Nodup) (present : node ∈ nodesOf trees) :
    (birthsOf node.children).Nodup := by
  have own := distinct_node distinct present
  rw [birthsOf_singleton] at own
  exact (List.nodup_cons.mp own).2

/-- A node is not below itself. -/
theorem birth_not_mem_children (distinct : (birthsOf [tree]).Nodup) :
    tree.birth ∉ birthsOf tree.children := by
  rw [birthsOf_singleton] at distinct
  exact (List.nodup_cons.mp distinct).1

/-- Where stamps are distinct, they tell the nodes. -/
theorem eq_of_birth_eq (distinct : (birthsOf trees).Nodup) (first : node ∈ nodesOf trees)
    (second : inner ∈ nodesOf trees) (same : node.birth = inner.birth) : node = inner :=
  List.inj_on_of_nodup_map distinct first second same

/-- The tree `new` is the tree `old` after an edit of the node `site`. -/
inductive IsEdited (date : Stamp → Stamp) (change : List StampedTree → List StampedTree)
    (site : StampedTree) : StampedTree → StampedTree → Prop where
  | here : IsEdited date change site site
      (.node (date site.label) site.content (change site.children))
  | inside {label : Stamp} {content : Content} {before after : List StampedTree}
      {old new : StampedTree} (edited : IsEdited date change site old new) :
      IsEdited date change site (.node label content (before ++ old :: after))
        (.node (date label) content (before ++ new :: after))

variable {date : Stamp → Stamp} {change : List StampedTree → List StampedTree}
  {site old new : StampedTree}

mutual

/-- An edit of a tree finds the node it is meant for. -/
theorem exists_isEdited_of_edit? : ∀ {old new : StampedTree},
    edit? birth date change old = some new →
      ∃ site, site.birth = birth ∧ IsEdited date change site old new
  | .node label content children, new, edited => by
    unfold edit? at edited
    split at edited
    · next same =>
      cases edited
      exact ⟨.node label content children, same, .here⟩
    · obtain ⟨others, found, rfl⟩ := Option.map_eq_some_iff.mp edited
      obtain ⟨site, same, before, old, new, after, rfl, rfl, inner⟩ :=
        exists_isEdited_of_editAll? found
      exact ⟨site, same, .inside inner⟩

/-- An edit of a list is one of a tree in it, at a node with the given stamp of birth. -/
theorem exists_isEdited_of_editAll? : ∀ {trees edited : List StampedTree},
    editAll? birth date change trees = some edited →
      ∃ site, site.birth = birth ∧ ∃ before old new after,
        trees = before ++ old :: after ∧ edited = before ++ new :: after ∧
          IsEdited date change site old new
  | [], _, edited => by cases edited
  | tree :: trees, edited, found => by
    unfold editAll? at found
    split at found
    · next new first =>
      cases found
      obtain ⟨site, same, inner⟩ := exists_isEdited_of_edit? first
      exact ⟨site, same, [], tree, new, trees, rfl, rfl, inner⟩
    · obtain ⟨others, later, rfl⟩ := Option.map_eq_some_iff.mp found
      obtain ⟨site, same, before, old, new, after, rfl, rfl, inner⟩ :=
        exists_isEdited_of_editAll? later
      exact ⟨site, same, tree :: before, old, new, after, rfl, rfl, inner⟩

end

namespace IsEdited

/-- The edited node is a node of the old tree. -/
theorem site_mem (edited : IsEdited date change site old new) : site ∈ old.walk := by
  induction edited with
  | here => exact site.mem_walk_self
  | inside _ ih =>
    apply mem_walk_of_mem_children
    exact List.mem_flatMap.mpr ⟨_, List.mem_append_right _ List.mem_cons_self, ih⟩

/-- The root of an edited tree is dated anew. -/
theorem label_eq (edited : IsEdited date change site old new) : new.label = date old.label := by
  cases edited with
  | here => rfl
  | inside _ => rfl

/-- The old tree contains the edited node. -/
theorem contains (edited : IsEdited date change site old new) : old.contains site.birth := by
  rw [contains_iff]
  apply birth_mem_birthsOf
  simpa using edited.site_mem

/-- Apart from what belongs to the edited node, the stamps of birth stay the same. -/
theorem exists_births (edited : IsEdited date change site old new)
    (keeps : ∀ label, (date label).birth = label.birth) :
    ∃ others, (birthsOf [old]).Perm (birthsOf site.children ++ others) ∧
      (birthsOf [new]).Perm (birthsOf (change site.children) ++ others) := by
  induction edited with
  | here =>
    cases site with
    | node label content children =>
      refine ⟨[label.birth], ?_, ?_⟩
      · rw [birthsOf_node]
        exact (List.perm_append_singleton _ _).symm
      · rw [birthsOf_node, keeps]
        exact (List.perm_append_singleton _ _).symm
  | @inside label content before after old new _ ih =>
    obtain ⟨others, first, second⟩ := ih
    refine ⟨label.birth :: (birthsOf before ++ (birthsOf after ++ others)), ?_, ?_⟩
    all_goals
      rw [List.perm_iff_count]
      intro stamp
      have first := first.count_eq stamp
      have second := second.count_eq stamp
      simp only [birthsOf_node, birthsOf_split, keeps, List.count_append, List.count_cons]
        at first second ⊢
      omega

/-- What belongs to the edited node does not hold it. -/
theorem birth_not_mem (edited : IsEdited date change site old new)
    (distinct : (birthsOf [old]).Nodup) : site.birth ∉ birthsOf site.children := by
  induction edited with
  | here =>
    cases site with
    | node label content children =>
      rw [birthsOf_node] at distinct
      exact (List.nodup_cons.mp distinct).1
  | inside _ ih =>
    rw [birthsOf_node, birthsOf_split] at distinct
    exact ih (List.nodup_cons.mp distinct).2.of_append_right.of_append_left

/-- A node of the tree after the edit was there before and does not hold the edited node, or it
belongs to the edited node, or it is edited itself. -/
theorem mem_walk (edited : IsEdited date change site old new)
    (distinct : (birthsOf [old]).Nodup) (present : node ∈ new.walk) :
    (node ∈ old.walk ∧ node.contains site.birth = false) ∨
      node ∈ nodesOf (change site.children) ∨
        ∃ before ∈ old.walk, IsEdited date change site before node := by
  induction edited with
  | here =>
    rw [Tree.walk_eq] at present
    rcases List.mem_cons.mp present with rfl | below
    · exact .inr (.inr ⟨site, site.mem_walk_self, .here⟩)
    · exact .inr (.inl below)
  | @inside label content before after old new edited ih =>
    have held : site.birth ∈ birthsOf [old] := contains_iff.mp edited.contains
    rw [birthsOf_node, birthsOf_split] at distinct
    have distinct := (List.nodup_cons.mp distinct).2
    have apart := List.disjoint_of_nodup_append distinct
    have later := distinct.of_append_right
    rw [walk_split] at present ⊢
    simp only [List.mem_cons, List.mem_append] at present
    rcases present with rfl | among | among | among
    · exact .inr (.inr ⟨_, List.mem_cons_self, .inside edited⟩)
    · refine .inl ⟨List.mem_cons_of_mem _ (List.mem_append_left _ among), ?_⟩
      apply contains_eq_false among
      exact fun early => apart early (List.mem_append_left _ held)
    · have within : ∀ inner ∈ old.walk,
          inner ∈ _ :: (nodesOf before ++ (old.walk ++ nodesOf after)) :=
        fun inner present => List.mem_cons_of_mem (.node label content (before ++ old :: after))
          (List.mem_append_right _ (List.mem_append_left _ present))
      rcases ih later.of_append_left among with ⟨old, apart⟩ | changed | ⟨before, old, edited⟩
      · exact .inl ⟨within _ old, apart⟩
      · exact .inr (.inl changed)
      · exact .inr (.inr ⟨before, within _ old, edited⟩)
    · refine .inl ⟨List.mem_cons_of_mem _ (List.mem_append_right _
        (List.mem_append_right _ among)), ?_⟩
      apply contains_eq_false among
      exact fun late => List.disjoint_of_nodup_append later held late

end IsEdited

end StampedTree

end WolframSyntax
