import WolframSyntax.Grammar.Opening
import WolframSyntax.Grammar.Continuation
import WolframSyntax.Proofs.Tree
import WolframSyntax.Resolve.Definition

/-!
# The schema of trees

What a node may look like (`SyntaxTree.Fits`): leaves hold tokens and nothing else, atoms hold the
one token they were read from, and every other construct has as many operands as its kind takes. The
tables of openings and continuations only make nodes that fit.
-/

namespace WolframSyntax

namespace NodeKind

/-- The kind of the one token that an atom is made of. -/
def atomToken? : NodeKind → Option TokenKind
  | .symbol | .stringifiedSymbol => some .identifier
  | .number => some .number
  | .string => some .string
  | .slot => some .slot
  | .slotSequence => some .slotSequence
  | _ => none

/-- Whether a construct that is no atom may have a number of operands. The kinds without a case of
their own stand for operators with two operands. -/
def takes : NodeKind → Nat → Bool
  | .symbol, _ | .stringifiedSymbol, _ | .number, _ | .string, _ | .slot, _ | .slotSequence, _
  | .token, _ | .whitespace, _ | .file, _ => false
  | .null, count => count == 0
  | .blank, count | .blankSequence, count | .blankNullSequence, count | .error, count => count ≤ 1
  | .list, _ => true
  | .group, count => count == 1 || count == 2
  | .functionCall, count | .part, count | .plus, count => 1 ≤ count
  | .function, count | .unset, count | .repeated, count | .repeatedNull, count | .minus, count
  | .factorial, count | .factorial2, count | .increment, count | .decrement, count
  | .preIncrement, count | .preDecrement, count | .derivative, count | .not, count => count == 1
  | .alternatives, count | .stringExpression, count | .times, count | .dot, count
  | .stringJoin, count | .and, count | .or, count | .equal, count | .unequal, count
  | .sameQ, count | .unsameQ, count | .less, count | .greater, count | .lessEqual, count
  | .greaterEqual, count | .compoundExpression, count => 2 ≤ count
  | .tagSet, count | .messageName, count => count == 2 || count == 3
  | .tagSetDelayed, count => count == 3
  | _, count => count == 2

/-- Whether a kind stands for a flat operator. -/
def isFlat (kind : NodeKind) : Bool := kind.takes 2 && kind.takes 3 && kind.takes 4

/-- The kinds that take operands are no leaves. -/
theorem isLeaf_eq_false_of_takes {kind : NodeKind} {count : Nat} (takes : kind.takes count) :
    kind.isLeaf = false := by
  cases kind <;> first | rfl | cases takes

/-- An atom takes no operands. -/
theorem not_takes_of_atomToken? {kind : NodeKind} {token : TokenKind}
    (held : kind.atomToken? = some token) (count : Nat) : ¬kind.takes count := by
  cases kind <;> first | exact Bool.false_ne_true | cases held

/-- A flat operator takes any number of operands from two on. -/
theorem takes_of_isFlat {kind : NodeKind} (flat : kind.isFlat) {count : Nat} (many : 2 ≤ count) :
    kind.takes count := by
  cases kind <;> first | exact decide_eq_true (by omega) | rfl | cases flat

end NodeKind

/-- Whether what an opening makes fits the schema when its token is of the given kind. -/
def Opening.suits : Opening → TokenKind → Bool
  | .atom kind, token => kind.atomToken? == some token
  | .blank kind, _ => kind.isBlank
  | .operator kind _, _ => kind.takes 1
  | .group, _ | .list, _ => true

/-- Whether what a continuation makes fits the schema. -/
def Continuation.suits : Continuation → Bool
  | .binary kind _ => kind.takes 2
  | .flat kind => kind.isFlat
  | .suffix kind => kind.takes 1
  | .pattern mark => mark.isBlank
  | _ => true

/-- Every opening makes what fits the schema. -/
theorem Opening.suits_of_ofKind? {kind : TokenKind} {opening : Opening}
    (opens : Opening.ofKind? kind = some opening) : opening.suits kind := by
  cases kind with
  | operator sign =>
    have table : ∀ sign, (Opening.ofOperator? sign).all (·.suits (.operator sign)) := by
      intro sign
      cases sign <;> rfl
    have suits := table sign
    rw [show Opening.ofOperator? sign = some opening from opens] at suits
    exact suits
  | identifier | number | string | slot | slotSequence => cases opens; rfl
  | whitespace | lineBreak | comment | error | endOfFile | other => cases opens

/-- Every continuation makes what fits the schema. -/
theorem Continuation.suits_of_ofOperator? {sign : Operator} {continuation : Continuation}
    (found : Continuation.ofOperator? sign = some continuation) : continuation.suits := by
  have table : ∀ sign, (Continuation.ofOperator? sign).all suits := by
    intro sign
    cases sign <;> rfl
  have suits := table sign
  rw [found] at suits
  exact suits

namespace SyntaxTree

/-- The number of trees in a list that are not leaves. -/
def operandCount (trees : List SyntaxTree) : Nat := trees.countP fun tree => !tree.isLeaf

/-- What every node of a tree looks like. -/
inductive Fits : SyntaxTree → Prop where
  | leaf (token : Token) : Fits (leaf token)
  | atom {kind : NodeKind} {token : Token} (held : kind.atomToken? = some token.kind) :
      Fits (ofKind kind [SyntaxTree.leaf token])
  | construct {content : Content} {children : List SyntaxTree} (bare : content.token = none)
      (takes : content.kind.takes (operandCount children)) : Fits (.node () content children)

@[simp] theorem operandCount_append (left right : List SyntaxTree) :
    operandCount (left ++ right) = operandCount left + operandCount right :=
  List.countP_append

@[simp] theorem isLeaf_leaf (token : Token) : (leaf token).isLeaf = true := by
  unfold leaf
  cases token.isTrivia <;> rfl

/-- Tokens are no operands. -/
@[simp] theorem operandCount_map_leaf (tokens : List Token) :
    operandCount (tokens.map leaf) = 0 := by
  simp [operandCount, List.countP_eq_zero]

theorem everywhere_fits_leaf (token : Token) : (leaf token).Everywhere Fits :=
  Tree.everywhere_node.mpr ⟨.leaf token, fun _ absent => (List.not_mem_nil absent).elim⟩

/-- An atom of one token of its kind fits the schema. -/
theorem everywhere_fits_atom {kind : NodeKind} {token : Token}
    (held : kind.atomToken? = some token.kind) :
    (ofKind kind [leaf token]).Everywhere Fits := by
  refine Tree.everywhere_node.mpr ⟨.atom held, fun child present => ?_⟩
  rw [List.mem_singleton.mp present]
  exact everywhere_fits_leaf token

/-- A construct fits the schema if it has as many operands as it takes and all below it fits. -/
theorem everywhere_fits_construct {content : Content} {children : List SyntaxTree}
    (bare : content.token = none) (takes : content.kind.takes (operandCount children))
    (below : ∀ child ∈ children, child.Everywhere Fits) :
    Tree.Everywhere Fits (.node () content children) :=
  Tree.everywhere_node.mpr ⟨.construct bare takes, below⟩

/-- An operand is no leaf, and all its nodes fit the schema. -/
structure IsOperand (tree : SyntaxTree) : Prop where
  fits : tree.Everywhere Fits
  inner : tree.isLeaf = false

/-- An operand holds no token itself. -/
theorem IsOperand.bare {tree : SyntaxTree} (operand : tree.IsOperand) :
    tree.content.token = none := by
  cases operand.fits.root with
  | leaf token =>
    have inner : (leaf token).isLeaf = false := operand.inner
    simp at inner
  | atom held => rfl
  | construct bare takes => exact bare

theorem isOperand_atom {kind : NodeKind} {token : Token}
    (held : kind.atomToken? = some token.kind) : (ofKind kind [leaf token]).IsOperand := by
  refine ⟨everywhere_fits_atom held, ?_⟩
  cases kind <;> first | rfl | cases held

/-- A construct with as many operands as it takes is an operand. -/
theorem isOperand_construct {content : Content} {children : List SyntaxTree}
    (bare : content.token = none) (takes : content.kind.takes (operandCount children))
    (below : ∀ child ∈ children, child.Everywhere Fits) :
    IsOperand (.node () content children) :=
  ⟨everywhere_fits_construct bare takes below, NodeKind.isLeaf_eq_false_of_takes takes⟩

/-- What is absent is an operand if its kind takes none. -/
theorem isOperand_absent {kind : NodeKind} (message : Option String) (next : Token)
    (takes : kind.takes 0) : (absent kind message next).IsOperand :=
  isOperand_construct rfl takes fun _ none => (List.not_mem_nil none).elim

/-- An operand is counted as one. -/
@[simp] theorem operandCount_singleton {tree : SyntaxTree} (operand : tree.IsOperand) :
    operandCount [tree] = 1 := by
  simp [operandCount, operand.inner]

end SyntaxTree

end WolframSyntax
