import WolframSyntax.Tree.Basic

/-!
# Gaps

The errors of a tree that cover no token: something is missing there. A gap is numbered by the
token that stands in its place, the first one after it that is no trivia.
-/

namespace WolframSyntax.Tree

variable {Label : Type}

/-- A token of a tree or a place where one is missing. -/
inductive Piece where
  | token (token : Token)
  | gap (message : String)

mutual

/-- The tokens and gaps of a tree in document order. -/
def pieces : Tree Label → List Piece
  | node _ content children =>
    match content.token with
    | some token => [.token token]
    | none =>
      if content.kind = .error ∧ children.isEmpty then [.gap (content.message.getD "")]
      else piecesOfAll children

/-- The tokens and gaps of a list of trees in document order. -/
def piecesOfAll : List (Tree Label) → List Piece
  | [] => []
  | tree :: trees => tree.pieces ++ piecesOfAll trees

end

/-- The number of tokens at the start of a list of pieces that are trivia, gaps apart. -/
def leadingTrivia : List Piece → Nat
  | .token token :: rest => if token.isTrivia then leadingTrivia rest + 1 else 0
  | .gap _ :: rest => leadingTrivia rest
  | [] => 0

/-- The gaps in a list of pieces that comes after `before` tokens, with their numbers. -/
def gapsAfter (before : Nat) : List Piece → List (Nat × String)
  | .token _ :: rest => gapsAfter (before + 1) rest
  | .gap message :: rest => (before + leadingTrivia rest, message) :: gapsAfter before rest
  | [] => []

/-- The gaps of a tree in document order, with the numbers of the tokens in their places. -/
def gaps (tree : Tree Label) : List (Nat × String) := gapsAfter 0 tree.pieces

end WolframSyntax.Tree
