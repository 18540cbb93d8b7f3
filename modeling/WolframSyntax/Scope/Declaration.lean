import WolframSyntax.Scope.Construct
import WolframSyntax.Tree.Basic

/-!
# Declarations

The symbols that a localizing construct declares: variables in a list, with or without initial
values, the variables of iterators, or the names of patterns on the left side of an assignment.
Parentheses around any part make no difference.
-/

namespace WolframSyntax.Tree

variable {Label : Type}

mutual

/-- A tree without the parentheses around it; none if they enclose nothing. -/
def unwrap? : Tree Label → Option (Tree Label)
  | node label content children =>
    if content.kind = .group then unwrapFirst? children else some (node label content children)

/-- The first of the trees that is no leaf, without the parentheses around it. -/
def unwrapFirst? : List (Tree Label) → Option (Tree Label)
  | [] => none
  | tree :: trees => if tree.isLeaf then unwrapFirst? trees else tree.unwrap?

end

/-- A tree without the parentheses around it, or the tree itself if they enclose nothing. -/
def unwrap (tree : Tree Label) : Tree Label := tree.unwrap?.getD tree

/-- The symbol that a tree is, parentheses apart. -/
def asSymbol? (tree : Tree Label) : Option (Tree Label) :=
  tree.unwrap?.filter fun inner => inner.kind == .symbol

/-- The names that the patterns of a tree bind: the `x` of every `x_`, `x__h` or `x : p`. -/
def patternSymbols (tree : Tree Label) : List (Tree Label) :=
  tree.walk.filterMap fun node =>
    if node.kind = .pattern then node.firstExpression.bind asSymbol? else none

/-- The items of a list, or the tree itself if it is no list. -/
def listEntries (tree : Tree Label) : List (Tree Label) :=
  match tree.unwrap? with
  | none => []
  | some inner => if inner.kind = .list then inner.expressions else [inner]

/-- Whether a tree is an assignment. -/
def assigns (tree : Tree Label) : Bool := tree.kind == .set || tree.kind == .setDelayed

/-- The variable that an entry of a variable list declares, with or without an initial value. -/
def declared? (entry : Tree Label) : Option (Tree Label) :=
  let entry := entry.unwrap
  if entry.assigns then entry.firstExpression.bind asSymbol? else entry.asSymbol?

/-- The initial values in the variable list of a call. -/
def initialValues (call : Tree Label) : List (Tree Label) :=
  ((call.argument 1).map listEntries).getD [] |>.filterMap fun entry =>
    let entry := entry.unwrap
    if entry.assigns then entry.argument 1 else none

/-- The variable of an iterator such as `{i, n}` or `{{i, start}, n}`. -/
def iteratorVariable? (iterator : Tree Label) : Option (Tree Label) := do
  let iterator := iterator.unwrap
  if iterator.kind = .list then
    let first ← (← iterator.firstExpression).unwrap?
    if first.kind = .list then (← first.firstExpression).asSymbol? else first.asSymbol?
  else none

/-- The parameter that an entry of a typed parameter list declares. -/
def typedParameter? (entry : Tree Label) : Option (Tree Label) :=
  let entry := entry.unwrap
  if entry.kind = .list then entry.firstExpression.bind asSymbol? else entry.asSymbol?

/-- The variable of a rule such as `x -> 0`. -/
def ruleVariable? (rule : Tree Label) : Option (Tree Label) := do
  let rule ← rule.unwrap?
  if rule.kind = .rule then (← rule.firstExpression).asSymbol? else none

/-- The symbols that a tree declares if it is a given construct, in document order. -/
def localizedSymbols (tree : Tree Label) (construct : Construct) : List (Tree Label) :=
  let arguments := tree.arguments
  match construct with
  | .setDelayed | .ruleDelayed => (tree.firstExpression.map patternSymbols).getD []
  | .localVariables | .dynamicValues | .constants =>
    ((arguments.head?.map listEntries).getD []).filterMap declared?
  | .function =>
    if arguments.length < 2 then []
    else ((arguments.head?.map listEntries).getD []).filterMap asSymbol?
  | .compilation => ((arguments.head?.map listEntries).getD []).filterMap typedParameter?
  | .limit => (arguments[1]?.bind ruleVariable?).toList
  | .null => []
  | _ => arguments.tail.filterMap iteratorVariable?

end WolframSyntax.Tree
