import WolframSyntax.Forest.Basic
import WolframSyntax.Number.Binary64
import WolframSyntax.Tree.FullForm

/-!
# Editing forests

Nodes are made from roots, and children are added, removed and exchanged. An edit of a node dates
the node and everything around it anew with one common stamp. A tree can only be added where that
keeps the forest a forest: it must be a root and must not hold the node it is added to. An edit that
is refused changes nothing, with one exception: an index that no list can have is noticed only after
the tree has got its new owner, and that owner it keeps without being listed (`Forest.hold`).

Making a node is different. The children are added one by one, and when one of them is refused the
new node stays as it is, with the children before that one.
-/

namespace WolframSyntax

/-- Why an edit is refused. -/
inductive EditError where
  | belongs (child parent : StampedTree)
  | ownDescendant
  | notRemovable
  | notReplaceable
  | unknownNode
  | noIndex

namespace EditError

/-- The report of a refusal. A node that cannot be replaced because it is no child is reported
without a text. -/
def message : EditError → String
  | belongs child parent => child.display ++ " already belongs to " ++ parent.display
  | ownDescendant => "A node cannot become its own descendant"
  | notRemovable => "list.remove(x): x not in list"
  | notReplaceable => ""
  | unknownNode => "no such node"
  | noIndex => "Python int too large to convert to C ssize_t"

end EditError

namespace StampedTree

mutual

/-- The tree in which the node `birth` owns other trees and it and everything around it is dated;
none if there is no such node. -/
def edit? (birth : Nat) (date : Stamp → Stamp) (change : List StampedTree → List StampedTree) :
    StampedTree → Option StampedTree
  | .node label content children =>
    if label.birth = birth then some (.node (date label) content (change children))
    else
      (editAll? birth date change children).map fun children =>
        .node (date label) content children

/-- The list of trees with an edit in one of them; none if no tree has the node. -/
def editAll? (birth : Nat) (date : Stamp → Stamp) (change : List StampedTree → List StampedTree) :
    List StampedTree → Option (List StampedTree)
  | [] => none
  | tree :: trees =>
    match edit? birth date change tree with
    | some edited => some (edited :: trees)
    | none => (editAll? birth date change trees).map (tree :: ·)

end

/-- A tree whose owner lists it among its children, or does not. -/
def withListed (listed : Bool) : StampedTree → StampedTree
  | .node label content children => .node { label with listed := listed } content children

/-- A list of trees without the node. -/
def without (birth : Nat) (trees : List StampedTree) : List StampedTree :=
  trees.filter fun tree => tree.birth != birth

/-- The place in a list that an index means: negative indices count from the end, and indices
outside the list mean its ends. -/
def clampIndex (length : Nat) (index : Int) : Nat :=
  let index := if index < 0 then index + length else index
  min index.toNat length

/-- The trees of a node with one more child at an index among those that are listed. -/
def insertAt (index : Int) (tree : StampedTree) (trees : List StampedTree) : List StampedTree :=
  let children := trees.filter Tree.listed
  children.insertIdx (clampIndex children.length index) tree
    ++ trees.filter fun other => !other.listed

end StampedTree

namespace Forest

/-- The tree of a root that may become a child of the node `parent`. -/
def adoptable (forest : Forest) (parent child : Nat) : Except EditError StampedTree :=
  match forest.place? child with
  | none => .error .unknownNode
  | some occurrence =>
    match occurrence.parent? with
    | some owner => .error (.belongs occurrence.tree.visible owner.visible)
    | none =>
      if occurrence.tree.contains parent then .error .ownDescendant
      else .ok occurrence.tree

/-- The forest after a change of the children of a node, dated by the next stamp. -/
def change (forest : Forest) (parent : Nat) (change : List StampedTree → List StampedTree) :
    Except EditError Forest :=
  let stamp := forest.clock + 1
  match StampedTree.editAll? parent (fun label => { label with version := stamp }) change
    forest.trees with
  | some trees => .ok ⟨trees, stamp⟩
  | none => .error .unknownNode

/-- The forest without one of its roots. -/
def uproot (forest : Forest) (birth : Nat) : Forest :=
  { forest with trees := StampedTree.without birth forest.trees }

/-- The forest with one more root that is stamped already. -/
def addRoot (forest : Forest) (tree : StampedTree) : Forest :=
  { forest with trees := forest.trees ++ [tree] }

/-- Adds a root as last child of a node. -/
def append (forest : Forest) (parent child : Nat) : Except EditError Forest := do
  let tree ← forest.adoptable parent child
  (forest.uproot child).change parent fun children => children ++ [tree]

/-- Adds a root as child of a node at an index. -/
def insert (forest : Forest) (parent : Nat) (index : Int) (child : Nat) :
    Except EditError Forest := do
  let tree ← forest.adoptable parent child
  if !isIndex index then throw .noIndex
  (forest.uproot child).change parent (StampedTree.insertAt index tree)

/-- A root belongs to a node that does not list it among its children. Nothing is dated. -/
def hold (forest : Forest) (parent child : Nat) : Except EditError Forest := do
  let tree ← forest.adoptable parent child
  match StampedTree.editAll? parent id (· ++ [StampedTree.withListed false tree])
    (forest.uproot child).trees with
  | some trees => return { forest with trees }
  | none => throw .unknownNode

/-- The child of a node with the given stamp of birth. -/
def childOf? (forest : Forest) (parent child : Nat) : Option StampedTree := do
  let occurrence ← forest.place? parent
  occurrence.tree.children.find? fun tree => tree.birth == child && tree.listed

/-- Makes a child of a node a root. -/
def remove (forest : Forest) (parent child : Nat) : Except EditError Forest := do
  match forest.childOf? parent child with
  | none => .error .notRemovable
  | some tree =>
    let changed ← forest.change parent (StampedTree.without child)
    return changed.addRoot tree

/-- Puts a root in the place of a child of a node, and makes that child a root. -/
def replace (forest : Forest) (parent old new : Nat) : Except EditError Forest := do
  match forest.childOf? parent old with
  | none => .error .notReplaceable
  | some replaced =>
    let tree ← forest.adoptable parent new
    let changed ← (forest.uproot new).change parent fun children =>
      children.map fun child => if child.birth == old then tree else child
    return changed.addRoot replaced

/-- Moves roots below the root `parent` one by one, as its last children, without dating it. Stops
at the first one that is refused. -/
def gather (forest : Forest) (parent : StampedTree) : List Nat → Forest × Option EditError
  | [] => (forest.addRoot parent, none)
  | child :: rest =>
    match (forest.addRoot parent).adoptable parent.birth child with
    | .error error => (forest.addRoot parent, some error)
    | .ok tree =>
      let .node label content children := parent
      (forest.uproot child).gather (.node label content (children ++ [tree])) rest

/-- Makes a node with roots as children. The stamp of the new node comes back, with the reason if
some child was refused. -/
def make (forest : Forest) (content : Content) (children : List Nat) :
    Forest × Nat × Option EditError :=
  let stamp := forest.clock + 1
  let (forest, refused) :=
    { forest with clock := stamp }.gather (.node ⟨stamp, stamp, true⟩ content []) children
  (forest, stamp, refused)

end Forest

/-- A change of the children of a node. -/
inductive Edit where
  | append (parent child : Nat)
  | insert (parent : Nat) (index : Int) (child : Nat)
  | remove (parent child : Nat)
  | replace (parent old new : Nat)
  deriving DecidableEq, Repr

/-- The node whose children change. -/
def Edit.parent : Edit → Nat
  | append parent _ | insert parent _ _ | remove parent _ | replace parent _ _ => parent

namespace Forest

/-- The forest after an edit, unless it is refused. -/
def apply (forest : Forest) : Edit → Except EditError Forest
  | .append parent child => forest.append parent child
  | .insert parent index child => forest.insert parent index child
  | .remove parent child => forest.remove parent child
  | .replace parent old new => forest.replace parent old new

/-- What an edit leaves that is refused. -/
def afterRefusal (forest : Forest) : Edit → Forest
  | .insert parent index child =>
    if isIndex index then forest else (forest.hold parent child).toOption.getD forest
  | _ => forest

/-- The forest when an edit has been tried, and why it was refused if it was. -/
def edit (forest : Forest) (edit : Edit) : Forest × Option EditError :=
  match forest.apply edit with
  | .ok edited => (edited, none)
  | .error error => (forest.afterRefusal edit, some error)

end Forest

end WolframSyntax
