import WolframSyntax.Tree.Basic

/-!
# Properties of trees

Induction over trees, and what the functions on lists of trees mean for the trees of the list. A
condition on single nodes holds everywhere in a tree when it holds at every node of its walk
(`Tree.Everywhere`), which is the same as at the root and everywhere in its children.
-/

namespace WolframSyntax.Tree

variable {Label : Type}

mutual

/-- Induction over trees, with the claim for all children. -/
@[induction_eliminator]
theorem induct {motive : Tree Label → Prop}
    (node : ∀ label content children, (∀ child ∈ children, motive child) →
      motive (.node label content children)) (tree : Tree Label) : motive tree :=
  match tree with
  | .node label content children => node label content children (inductAll node children)

/-- Induction over the trees of a list. -/
theorem inductAll {motive : Tree Label → Prop}
    (node : ∀ label content children, (∀ child ∈ children, motive child) →
      motive (.node label content children)) (trees : List (Tree Label)) :
    ∀ tree ∈ trees, motive tree :=
  match trees with
  | [] => fun _ absent => (List.not_mem_nil absent).elim
  | first :: rest => fun _ present =>
    (List.mem_cons.mp present).elim (fun same => same ▸ induct node first)
      (inductAll node rest _)

end

/-- The walk of a list of trees is the walks of its trees one after the other. -/
theorem walkAll_eq_flatMap (trees : List (Tree Label)) : walkAll trees = trees.flatMap walk := by
  induction trees with
  | nil => rfl
  | cons tree trees ih => rw [walkAll, ih, List.flatMap_cons]

/-- A node comes before everything under its children. -/
theorem walk_node (label : Label) (content : Content) (children : List (Tree Label)) :
    walk (node label content children)
      = node label content children :: children.flatMap walk := by
  rw [walk, walkAll_eq_flatMap]

/-- The tokens of a list of trees are the tokens of its trees one after the other. -/
theorem tokensOfAll_eq_flatMap (trees : List (Tree Label)) :
    tokensOfAll trees = trees.flatMap tokens := by
  induction trees with
  | nil => rfl
  | cons tree trees ih => rw [tokensOfAll, ih, List.flatMap_cons]

/-- A node's tokens are its own one, if it has one, and then those under its children. -/
theorem tokens_node (label : Label) (content : Content) (children : List (Tree Label)) :
    tokens (node label content children)
      = content.token.toList ++ children.flatMap tokens := by
  rw [tokens, tokensOfAll_eq_flatMap]

/-- Every tree is a node of its own walk. -/
theorem mem_walk_self (tree : Tree Label) : tree ∈ tree.walk := by
  cases tree
  rw [walk_node]
  exact List.mem_cons_self

/-- A tree is walked from its root on, for any label. -/
theorem walk_eq (tree : Tree Label) : tree.walk = tree :: tree.children.flatMap walk := by
  cases tree
  exact walk_node _ _ _

/-- The walk of one of several trees is a part of the walk of them all. -/
theorem sublist_flatMap_walk {trees : List (Tree Label)} {tree : Tree Label}
    (present : tree ∈ trees) : tree.walk.Sublist (trees.flatMap walk) := by
  obtain ⟨before, after, rfl⟩ := List.append_of_mem present
  rw [List.flatMap_append, List.flatMap_cons]
  exact (List.sublist_append_left _ _).trans (List.sublist_append_right _ _)

/-- The walk of a node is a part of the walk of every tree it is in. -/
theorem walk_sublist {tree node : Tree Label} (inside : node ∈ tree.walk) :
    node.walk.Sublist tree.walk := by
  induction tree with
  | node label content children ih =>
    rw [walk_node] at inside
    rcases List.mem_cons.mp inside with rfl | below
    · exact .refl _
    · obtain ⟨child, among, inner⟩ := List.mem_flatMap.mp below
      rw [walk_node label content children]
      exact ((ih child among inner).trans (sublist_flatMap_walk among)).cons _

/-- What is under a node of a tree is under the tree. -/
theorem mem_walk_trans {tree node inner : Tree Label} (inside : node ∈ tree.walk)
    (below : inner ∈ node.walk) : inner ∈ tree.walk :=
  (walk_sublist inside).subset below

/-- Behind a node of a list of trees come the nodes below it if this is so for each tree. -/
theorem exists_walk_append_of_all {trees : List (Tree Label)}
    (each : ∀ tree ∈ trees, ∀ before node after, tree.walk = before ++ node :: after →
      ∃ rest, node :: after = node.walk ++ rest)
    {before after : List (Tree Label)} {node : Tree Label}
    (split : trees.flatMap walk = before ++ node :: after) :
    ∃ rest, node :: after = node.walk ++ rest := by
  induction trees generalizing before with
  | nil => simp at split
  | cons tree trees ih =>
    obtain ⟨first, later⟩ := List.forall_mem_cons.mp each
    rw [List.flatMap_cons] at split
    rcases List.append_eq_append_iff.mp split with ⟨between, -, inLater⟩ | ⟨between, inFirst, held⟩
    · exact ih later inLater
    · cases between with
      | nil =>
        have inLater : trees.flatMap walk = [] ++ node :: after := held.symm
        exact ih later inLater
      | cons head between =>
        obtain ⟨rfl, -⟩ := List.cons.inj held
        obtain ⟨rest, same⟩ := first before node between inFirst
        exact ⟨rest ++ trees.flatMap walk, by rw [held, same, List.append_assoc]⟩

/-- Behind a node come the nodes below it. -/
theorem exists_walk_append {tree node : Tree Label} {before after : List (Tree Label)}
    (split : tree.walk = before ++ node :: after) : ∃ rest, node :: after = node.walk ++ rest := by
  induction tree generalizing before node after with
  | node label content children ih =>
    rw [walk_node] at split
    cases before with
    | nil =>
      obtain ⟨rfl, rfl⟩ := List.cons.inj split
      exact ⟨[], by rw [walk_node, List.append_nil]⟩
    | cons first before =>
      exact exists_walk_append_of_all (fun child among _ _ _ => ih child among)
        (List.cons.inj split).2

/-- All nodes that come behind some other one are below the root. -/
theorem mem_tail_of_split {tree : Tree Label} {before after : List (Tree Label)}
    (split : tree.walk = before ++ after) (inside : before ≠ []) {node : Tree Label}
    (among : node ∈ after) : node ∈ tree.walk.tail := by
  obtain ⟨root, front, rfl⟩ := List.exists_cons_of_ne_nil inside
  rw [split]
  exact List.mem_append_right _ among

/-- The nodes of a tree whose kinds are leaf kinds, in document order. -/
def leaves (tree : Tree Label) : List (Tree Label) := tree.walk.filter isLeaf

/-- The leaves under an inner node are those under its children. -/
theorem leaves_node (label : Label) (content : Content) (children : List (Tree Label))
    (inner : content.kind.isLeaf = false) :
    leaves (node label content children) = children.flatMap leaves := by
  have plain : (node label content children).isLeaf = false := inner
  rw [leaves, walk_node, List.filter_cons_of_neg (by simp [plain]), List.filter_flatMap]
  rfl

/-- A condition on nodes that holds at every node of a tree. -/
def Everywhere (condition : Tree Label → Prop) (tree : Tree Label) : Prop :=
  ∀ node ∈ tree.walk, condition node

/-- A condition holds everywhere in a tree when it holds at the root and everywhere below. -/
theorem everywhere_node {condition : Tree Label → Prop} {label : Label} {content : Content}
    {children : List (Tree Label)} :
    Everywhere condition (node label content children) ↔
      condition (node label content children) ∧
        ∀ child ∈ children, Everywhere condition child := by
  unfold Everywhere
  rw [walk_node]
  constructor
  · intro everywhere
    refine ⟨everywhere _ List.mem_cons_self, fun child present below inside => ?_⟩
    exact everywhere _ (List.mem_cons_of_mem _ (List.mem_flatMap.mpr ⟨child, present, inside⟩))
  · rintro ⟨root, everywhere⟩ below inside
    rcases List.mem_cons.mp inside with rfl | inside
    · exact root
    · obtain ⟨child, present, inside⟩ := List.mem_flatMap.mp inside
      exact everywhere child present below inside

/-- A condition on every node holds of the root. -/
theorem Everywhere.root {condition : Tree Label → Prop} {tree : Tree Label}
    (everywhere : Everywhere condition tree) : condition tree :=
  everywhere tree tree.mem_walk_self

/-- A condition on every node of a tree holds on every node of a child. -/
theorem Everywhere.child {condition : Tree Label → Prop} {tree child : Tree Label}
    (everywhere : Everywhere condition tree) (present : child ∈ tree.children) :
    Everywhere condition child := by
  cases tree
  exact (everywhere_node.mp everywhere).2 child present

/-- A condition that holds everywhere in a tree holds everywhere in each node of it. -/
theorem Everywhere.within {condition : Tree Label → Prop} {tree node : Tree Label}
    (everywhere : Everywhere condition tree) (inside : node ∈ tree.walk) :
    Everywhere condition node := by
  induction tree with
  | node label content children ih =>
    rw [walk_node] at inside
    rcases List.mem_cons.mp inside with rfl | below
    · exact everywhere
    · obtain ⟨child, present, inside⟩ := List.mem_flatMap.mp below
      exact ih child present (everywhere.child present) inside

/-- A condition that follows from another one at every node follows everywhere. -/
theorem Everywhere.mono {weaker stronger : Tree Label → Prop} {tree : Tree Label}
    (everywhere : Everywhere stronger tree) (implied : ∀ node, stronger node → weaker node) :
    Everywhere weaker tree :=
  fun node present => implied node (everywhere node present)

end WolframSyntax.Tree

namespace WolframSyntax.SyntaxTree

@[simp] theorem tokens_leaf (token : Token) : (leaf token).tokens = [token] := rfl

@[simp] theorem tokens_ofKind (kind : NodeKind) (children : List SyntaxTree) :
    (ofKind kind children).tokens = children.flatMap Tree.tokens :=
  Tree.tokens_node _ _ _

@[simp] theorem tokens_error (message : String) (children : List SyntaxTree) :
    (error message children).tokens = children.flatMap Tree.tokens :=
  Tree.tokens_node _ _ _

@[simp] theorem tokens_absent (kind : NodeKind) (message : Option String) (next : Token) :
    (absent kind message next).tokens = [] := rfl

end WolframSyntax.SyntaxTree
