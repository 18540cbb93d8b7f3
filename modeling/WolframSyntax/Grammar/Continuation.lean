import WolframSyntax.Token.Basic
import WolframSyntax.Tree.Kind

/-!
# Continuations

How an operator goes on from an expression that stands in front of it. Every operator that can do
so has one form and a standard precedence; an operator with a higher precedence binds its operands
more strongly.
-/

namespace WolframSyntax

/-- How an operator goes on from the expression in front of it. -/
inductive Continuation where
  /-- Takes one more operand; a chain of them nests to the right or to the left. -/
  | binary (kind : NodeKind) (nestsRight : Bool)
  /-- Takes any number of operands between signs of its own. -/
  | flat (kind : NodeKind)
  /-- Takes any number of factors, with or without signs between them. -/
  | product
  /-- Takes no further operand. -/
  | suffix (kind : NodeKind)
  /-- Takes arguments in brackets. -/
  | call
  /-- Names a blank that touches the expression. -/
  | pattern (mark : NodeKind)
  /-- Takes one or two message tags. -/
  | messageName
  /-- Takes further expressions, the last of which may be left out. -/
  | compound
  /-- Takes a pattern and the value that is assigned to it. -/
  | tagSet
  deriving DecidableEq, Repr

namespace Continuation

/-- How an operator goes on from an expression, if it can. -/
def ofOperator? : Operator → Option Continuation
  | .semicolon => some compound
  | .set => some (binary .set true)
  | .setDelayed => some (binary .setDelayed true)
  | .upSet => some (binary .upSet true)
  | .upSetDelayed => some (binary .upSetDelayed true)
  | .tagSet => some tagSet
  | .unset => some (suffix .unset)
  | .applyAfter => some (binary .callAfter false)
  | .function => some (suffix .function)
  | .addTo => some (binary .addTo true)
  | .subtractFrom => some (binary .subtractFrom true)
  | .timesBy => some (binary .timesBy true)
  | .divideBy => some (binary .divideBy true)
  | .replaceAll => some (binary .replaceAll false)
  | .replaceRepeated => some (binary .replaceRepeated false)
  | .rule => some (binary .rule true)
  | .ruleDelayed => some (binary .ruleDelayed true)
  | .condition => some (binary .condition false)
  | .stringExpression => some (flat .stringExpression)
  | .colon => some (binary .pattern false)
  | .alternatives => some (flat .alternatives)
  | .repeated => some (suffix .repeated)
  | .repeatedNull => some (suffix .repeatedNull)
  | .or => some (flat .or)
  | .and => some (flat .and)
  | .equal => some (flat .equal)
  | .unequal => some (flat .unequal)
  | .sameQ => some (flat .sameQ)
  | .unsameQ => some (flat .unsameQ)
  | .less => some (flat .less)
  | .greater => some (flat .greater)
  | .lessEqual => some (flat .lessEqual)
  | .greaterEqual => some (flat .greaterEqual)
  | .span => some (binary .span false)
  | .plus => some (flat .plus)
  | .minus => some (binary .subtract false)
  | .times => some product
  | .divide => some (binary .divide false)
  | .dot => some (flat .dot)
  | .power => some (binary .power true)
  | .stringJoin => some (flat .stringJoin)
  | .exclamation => some (suffix .factorial)
  | .factorial2 => some (suffix .factorial2)
  | .map => some (binary .map true)
  | .apply => some (binary .apply true)
  | .mapApply => some (binary .mapApply true)
  | .applyBefore => some (binary .callBefore true)
  | .increment => some (suffix .increment)
  | .decrement => some (suffix .decrement)
  | .derivative => some (suffix .derivative)
  | .questionMark => some (binary .patternTest false)
  | .blank => some (pattern .blank)
  | .blankSequence => some (pattern .blankSequence)
  | .blankNullSequence => some (pattern .blankNullSequence)
  | .doubleColon => some messageName
  | .leftBracket => some call
  | .rightBracket | .leftBrace | .rightBrace | .leftPar | .rightPar | .comma => none

/-- The precedence of an operator unless a grammar gives it another. Brackets and the comma
continue no expression, and theirs is never asked for. -/
def standardPrecedence : Operator → Int
  | .semicolon => 10
  | .set | .setDelayed | .upSet | .upSetDelayed | .tagSet | .unset => 40
  | .applyAfter => 70
  | .function => 90
  | .addTo | .subtractFrom | .timesBy | .divideBy => 100
  | .replaceAll | .replaceRepeated => 110
  | .rule | .ruleDelayed => 120
  | .condition => 130
  | .stringExpression => 135
  | .colon => 150
  | .alternatives => 160
  | .repeated | .repeatedNull => 170
  | .or => 215
  | .and => 220
  | .equal | .unequal | .sameQ | .unsameQ | .less | .greater | .lessEqual | .greaterEqual => 290
  | .span => 305
  | .plus | .minus => 310
  | .times => 400
  | .divide => 470
  | .dot => 490
  | .power => 590
  | .stringJoin => 600
  | .exclamation | .factorial2 => 610
  | .map | .apply | .mapApply => 620
  | .applyBefore => 640
  | .increment | .decrement => 660
  | .derivative => 670
  | .questionMark => 680
  | .blank | .blankSequence | .blankNullSequence => 730
  | .doubleColon => 750
  | .leftBracket => 1000
  | .rightBracket | .leftBrace | .rightBrace | .leftPar | .rightPar | .comma => 1

theorem standardPrecedence_pos (sign : Operator) : 0 < standardPrecedence sign := by
  cases sign <;> decide

/-- Whether an operator continues an expression. -/
def continues (sign : Operator) : Bool := (ofOperator? sign).isSome

/-- How a token of a kind goes on from an expression, if it can. -/
def ofKind? : TokenKind → Option (Operator × Continuation)
  | .operator sign => (ofOperator? sign).map fun continuation => (sign, continuation)
  | _ => none

/-- Whether a continuation has to touch the expression in front of it. -/
def mustTouch : Continuation → Bool
  | pattern _ => true
  | _ => false

/-- The construct that a suffix makes. -/
def suffixKind? : Continuation → Option NodeKind
  | suffix kind => some kind
  | _ => none

end Continuation

end WolframSyntax
