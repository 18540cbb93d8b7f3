import WolframSyntax.Tree.Basic

/-!
# Definitions

Which symbols an assignment defines. An ordinary assignment defines the symbol at the bottom of its
left side: `x`, `f[x_]` and `f[x][y]` define `x` and `f`, and `Attributes[f]` defines `f`. An
assignment to a tag defines the tag, and an assignment of an up-value the arguments of its left
side. Every kind of assignment has an operator form and a form as a call.
-/

namespace WolframSyntax

/-- The heads whose calls stand for their first argument on the left side of an assignment. -/
def wrapperHeads : List String :=
  ["Attributes", "Options", "Default", "Format", "N", "SyntaxInformation", "Messages",
   "DownValues", "UpValues", "OwnValues", "SubValues"]

/-- The head that keeps its argument from being evaluated. -/
def holdingHead : String := "HoldPattern"

/-- The heads of assignments as calls. -/
def assignmentHeads : List String := ["Set", "SetDelayed"]

/-- The heads of assignments to a tag as calls. -/
def tagAssignmentHeads : List String := ["TagSet", "TagSetDelayed"]

/-- The heads of assignments of up-values as calls. -/
def upAssignmentHeads : List String := ["UpSet", "UpSetDelayed"]

/-- The heads of calls that set attributes or options of a symbol. -/
def attributeHeads : List String := ["SetAttributes", "SetOptions"]

namespace NodeKind

/-- Constructs that are looked through to their first operand on the left side of an assignment. -/
def isTransparent : NodeKind → Bool
  | .group | .condition | .messageName | .part => true
  | _ => false

/-- The three kinds of blanks. -/
def isBlank : NodeKind → Bool
  | .blank | .blankSequence | .blankNullSequence => true
  | _ => false

end NodeKind

namespace Tree

variable {Label : Type}

/-- The name at the head of a call. -/
def headName? (tree : Tree Label) : Option String :=
  if tree.kind = .functionCall then
    (tree.firstExpression.filter fun head => head.kind == .symbol).map text
  else none

/-- Whether a call stands for its first argument on the left side of an assignment. -/
def isWrapper (tree : Tree Label) : Bool :=
  tree.headName?.any fun name => name == holdingHead || wrapperHeads.contains name

mutual

/-- The symbols that an assignment with this left side defines. -/
def assigned : Tree Label → List (Tree Label)
  | node label content children =>
    let tree := node label content children
    let operands := assignedByOperands children
    if content.kind = .symbol then [tree]
    else if content.kind.isTransparent then operands.head?.getD []
    else if content.kind = .list then operands.flatten
    else if content.kind = .functionCall then
      if tree.isWrapper then operands[1]?.getD [] else operands.head?.getD []
    else []

/-- The symbols that assignments define whose left sides are the operands among the trees. -/
def assignedByOperands : List (Tree Label) → List (List (Tree Label))
  | [] => []
  | tree :: trees =>
    if tree.isLeaf then assignedByOperands trees else tree.assigned :: assignedByOperands trees

end

mutual

/-- What is found when transparent constructs are looked through. -/
def lookThrough : Tree Label → Tree Label
  | node label content children =>
    if content.kind.isTransparent then
      (lookThroughFirst children).getD (node label content children)
    else node label content children

/-- What is found when the first operand among the trees is looked through. -/
def lookThroughFirst : List (Tree Label) → Option (Tree Label)
  | [] => none
  | tree :: trees => if tree.isLeaf then lookThroughFirst trees else some tree.lookThrough

end

/-- The symbol that an argument gives an up-value to. -/
def upAssigned? (argument : Tree Label) : Option (Tree Label) :=
  let argument := argument.lookThrough
  match argument.kind with
  | .symbol => some argument
  | .functionCall => argument.firstExpression.bind fun head => head.assigned.head?
  | .pattern => do
    let blank ← argument.argument 1
    if blank.kind.isBlank then blank.firstExpression else none
  | kind => if kind.isBlank then argument.firstExpression else none

mutual

/-- The symbols that an assignment of an up-value with this left side defines. -/
def upAssigned : Tree Label → List (Tree Label)
  | node label content children =>
    let tree := node label content children
    let operands := upAssignedByOperands children
    if content.kind.isTransparent then operands.head?.getD []
    else if tree.headName? = some holdingHead ∧ 1 < operands.length then operands[1]?.getD []
    else if content.kind = .functionCall then tree.arguments.filterMap upAssigned?
    else []

/-- The symbols that assignments of up-values define whose left sides are the operands among the
trees. -/
def upAssignedByOperands : List (Tree Label) → List (List (Tree Label))
  | [] => []
  | tree :: trees =>
    if tree.isLeaf then upAssignedByOperands trees
    else tree.upAssigned :: upAssignedByOperands trees

end

/-- A tree, if it is a symbol. -/
def ifSymbol (tree : Option (Tree Label)) : List (Tree Label) :=
  (tree.filter fun tree => tree.kind == .symbol).toList

/-- The symbols that a node defines as an assignment, if it is one. -/
def defined (tree : Tree Label) : List (Tree Label) :=
  let operand := tree.firstExpression
  match tree.kind with
  | .set | .setDelayed => (operand.map assigned).getD []
  | .tagSet | .tagSetDelayed => ifSymbol operand
  | .upSet | .upSetDelayed => (operand.map upAssigned).getD []
  | _ =>
    match tree.headName? with
    | none => []
    | some name =>
      let target := tree.argument 1
      if assignmentHeads.contains name then (target.map assigned).getD []
      else if tagAssignmentHeads.contains name then ifSymbol target
      else if upAssignmentHeads.contains name then (target.map upAssigned).getD []
      else if attributeHeads.contains name then ifSymbol target
      else []

/-- The occurrence of `name` that a node defines, if it defines the name. -/
def definitionOf? (name : String) (tree : Tree Label) : Option (Tree Label) :=
  tree.defined.find? fun symbol => symbol.text == name

/-- What the first node of a tree that defines `name` defines, a node before those below it. Of
nested assignments the outer one comes first, whatever stands first in the text. -/
def globalDefinition? (name : String) (tree : Tree Label) : Option (Tree Label) :=
  tree.walk.findSome? (definitionOf? name)

end Tree

end WolframSyntax
