import WolframSyntax.Token.Basic
import WolframSyntax.Tree.Kind

/-!
# Openings

How the first token of an expression begins it. Atoms are single tokens, a blank may take the name
that touches it, brackets enclose other expressions, and the operators that are written in front
of their operand bind it with a fixed strength.
-/

namespace WolframSyntax

/-- How a token begins an expression. -/
inductive Opening where
  | atom (kind : NodeKind)
  | blank (kind : NodeKind)
  | group
  | list
  | operator (kind : NodeKind) (precedence : Int)
  deriving DecidableEq, Repr

namespace Opening

/-- How an operator or a bracket begins an expression, if it can. -/
def ofOperator? : Operator → Option Opening
  | .blank => some (blank .blank)
  | .blankSequence => some (blank .blankSequence)
  | .blankNullSequence => some (blank .blankNullSequence)
  | .leftPar => some group
  | .leftBrace => some list
  | .minus => some (operator .minus 480)
  | .plus => some (operator .plus 480)
  | .exclamation => some (operator .not 230)
  | .increment => some (operator .preIncrement 660)
  | .decrement => some (operator .preDecrement 660)
  | _ => none

/-- How a token of a kind begins an expression, if it can. -/
def ofKind? : TokenKind → Option Opening
  | .identifier => some (atom .symbol)
  | .number => some (atom .number)
  | .string => some (atom .string)
  | .slot => some (atom .slot)
  | .slotSequence => some (atom .slotSequence)
  | .operator sign => ofOperator? sign
  | _ => none

/-- The strength with which an opening binds what follows it; zero if it is no operator. -/
def precedence : Opening → Int
  | operator _ precedence => precedence
  | _ => 0

end Opening

end WolframSyntax
