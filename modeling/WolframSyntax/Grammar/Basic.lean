import WolframSyntax.Grammar.Continuation
import WolframSyntax.Grammar.Opening

/-!
# Grammars

What can be chosen in the language: the precedences of the operators that continue an expression.
All of them are positive, so every operator continues an expression that stands alone. Writing two
expressions side by side multiplies them, with the precedence of the multiplication sign.
-/

namespace WolframSyntax

/-- A choice of positive precedences. -/
structure Grammar where
  precedence : Operator → Int
  precedence_pos : ∀ sign, 0 < precedence sign

namespace Grammar

/-- The grammar with the standard precedences. -/
def standard : Grammar := ⟨Continuation.standardPrecedence, Continuation.standardPrecedence_pos⟩

/-- The grammar in which one operator has another precedence. -/
def override (grammar : Grammar) (sign : Operator) (precedence : Int) (positive : 0 < precedence) :
    Grammar where
  precedence other := if other = sign then precedence else grammar.precedence other
  precedence_pos other := by
    split
    · exact positive
    · exact grammar.precedence_pos other

/-- The precedence with which a token of a kind continues an expression; zero if it cannot. -/
def precedenceOf (grammar : Grammar) (kind : TokenKind) : Int :=
  match Continuation.ofKind? kind with
  | some (sign, _) => grammar.precedence sign
  | none => 0

/-- The kinds of tokens that begin an expression. -/
def openers : List TokenKind :=
  [.identifier, .number, .string, .slot, .slotSequence]
    ++ (Operator.all.filter fun sign => (Opening.ofOperator? sign).isSome).map .operator

/-- The operators that continue an expression. -/
def continuers : List Operator := Operator.all.filter Continuation.continues

end Grammar

end WolframSyntax
