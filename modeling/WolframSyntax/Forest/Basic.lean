import WolframSyntax.Tree.Occurrence

/-!
# Forests

A collection of trees whose nodes can be told apart and dated. Every node carries the stamp it was
born with, which no other node has, and the stamp of the last change below it. Stamps are handed
out by a clock, so a later stamp is a greater one.

A node may belong to another one that does not list it among its children. Such a node is in the
tree of its owner, but whoever looks at the owner does not see it (`Tree.visible`).
-/

namespace WolframSyntax

/-- When a node was made, when it or anything below it last changed, and whether its owner lists it
among its children. -/
structure Stamp where
  birth : Nat
  version : Nat
  listed : Bool
  deriving DecidableEq, Repr

/-- A tree whose nodes are stamped. -/
abbrev StampedTree := Tree Stamp

namespace Tree

/-- The stamp of birth of the root, which names it. -/
def birth (tree : StampedTree) : Nat := tree.label.birth

/-- The stamp of the last change. -/
def version (tree : StampedTree) : Nat := tree.label.version

/-- Whether two trees are the same node, and not only equal in shape. -/
def sameNode (left right : StampedTree) : Bool := left.birth == right.birth

/-- Whether a node is the root of a tree or below it. -/
def contains (tree : StampedTree) (birth : Nat) : Bool :=
  tree.walk.any fun node => node.birth == birth

/-- Whether the owner of a node lists it among its children. -/
def listed (tree : StampedTree) : Bool := tree.label.listed

mutual

/-- A tree without the nodes below it that are not listed. Whether it is listed itself cannot be
seen. -/
def visible : StampedTree → StampedTree
  | .node label content children =>
    .node { label with listed := true } content (visibleAll children)

/-- The listed trees of a list without the nodes below them that are not listed. -/
def visibleAll : List StampedTree → List StampedTree
  | [] => []
  | tree :: trees => if tree.listed then tree.visible :: visibleAll trees else visibleAll trees

end

end Tree

/-- An occurrence as it is seen, with all its owners. -/
def Occurrence.visible (occurrence : Occurrence Stamp) : Occurrence Stamp :=
  ⟨occurrence.tree.visible, occurrence.ancestors.map Tree.visible⟩

/-- The trees of a collection and the last stamp that was handed out. -/
structure Forest where
  trees : List StampedTree
  clock : Nat

namespace SyntaxTree

mutual

/-- A tree with the stamps after `clock`, children before their parents, and the last stamp. -/
def stampFrom (clock : Nat) : SyntaxTree → StampedTree × Nat
  | .node _ content children =>
    let (children, clock) := stampAllFrom clock children
    (.node ⟨clock + 1, clock + 1, true⟩ content children, clock + 1)

/-- A list of trees with the stamps after `clock`, and the last stamp. -/
def stampAllFrom (clock : Nat) : List SyntaxTree → List StampedTree × Nat
  | [] => ([], clock)
  | tree :: trees =>
    let (tree, clock) := stampFrom clock tree
    let (trees, clock) := stampAllFrom clock trees
    (tree :: trees, clock)

end

/-- The tree of a symbol that was not read from a text. -/
def ofName (name : String) : SyntaxTree :=
  ofKind .symbol [leaf ⟨.identifier, name, 0, 0⟩]

end SyntaxTree

namespace Forest

/-- The forest without trees. -/
def empty : Forest := ⟨[], 0⟩

/-- The forest with one more tree, and the tree as it stands in the forest. -/
def plant (forest : Forest) (tree : SyntaxTree) : Forest × StampedTree :=
  let (planted, clock) := tree.stampFrom forest.clock
  (⟨forest.trees ++ [planted], clock⟩, planted)

/-- The occurrences of all nodes, tree by tree. -/
def occurrences (forest : Forest) : List (Occurrence Stamp) :=
  forest.trees.flatMap Tree.occurrences

/-- The occurrence of the node with the given stamp of birth, with all that belongs to it. -/
def place? (forest : Forest) (birth : Nat) : Option (Occurrence Stamp) :=
  forest.occurrences.find? fun occurrence => occurrence.tree.birth == birth

/-- The occurrence of the node with the given stamp of birth, as it is seen. -/
def find? (forest : Forest) (birth : Nat) : Option (Occurrence Stamp) :=
  (forest.place? birth).map Occurrence.visible

end Forest

end WolframSyntax
