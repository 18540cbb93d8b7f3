import WolframSyntax.Grammar.Basic
import WolframSyntax.Tree.Basic

/-!
# Words

What a grammar looks at: a token that is no trivia, together with the trivia in front of it. A
token list is a list of words up to its first end token. Of the trivia only two facts matter:
whether there is any, and whether a line ends in it.
-/

namespace WolframSyntax

/-- A token that is no trivia, with the trivia in front of it. -/
structure Word where
  lead : List Token
  token : Token

namespace Word

/-- The leaves for the trivia in front of the token. -/
def leadLeaves (word : Word) : List SyntaxTree := word.lead.map SyntaxTree.leaf

/-- The leaf for the token. -/
def leaf (word : Word) : SyntaxTree := SyntaxTree.leaf word.token

/-- The leaves for the trivia and the token. -/
def leaves (word : Word) : List SyntaxTree := word.leadLeaves ++ [word.leaf]

/-- Whether nothing stands between the token and the one before it. -/
def touches (word : Word) : Bool := word.lead.isEmpty

/-- Whether a line ends in front of the token. -/
def beginsLine (word : Word) : Bool := word.lead.any fun token => token.kind == .lineBreak

/-- Whether the token is a given operator. -/
def isOperator (word : Word) (sign : Operator) : Bool := word.token.kind == .operator sign

/-- How the word begins an expression, if it can. -/
def opening? (word : Word) : Option Opening := Opening.ofKind? word.token.kind

/-- How the word would go on from an expression: by its operator, or by being the next factor of a
product. A blank goes on only from what it touches. -/
inductive Link where
  | sign (operator : Operator) (continuation : Continuation)
  | factor (opening : Opening)

/-- How the word goes on from an expression in front of it. `bracketed` tells whether ends of
lines are ignored; elsewhere the word at the beginning of a line goes on from nothing. -/
def link? (bracketed : Bool) (word : Word) : Option Link :=
  if !bracketed && word.beginsLine then none
  else
    match Continuation.ofKind? word.token.kind with
    | some (sign, continuation) =>
      if continuation.mustTouch && !word.touches then word.opening?.map .factor
      else some (.sign sign continuation)
    | none => word.opening?.map .factor

/-- How the word begins an expression on the line of the token in front of it. -/
def openingInLine? (bracketed : Bool) (word : Word) : Option Opening :=
  if !bracketed && word.beginsLine then none else word.opening?

end Word

/-- A list of tokens as words. The trivia in front of the end token and all that follows it belong
to the ending; a list without an end token has none. -/
structure WordStream where
  words : List Word
  ending : Option (Word × List Token)

namespace WordStream

/-- The words of a token list that continues after the trivia `lead`. -/
def after (lead : List Token) : List Token → WordStream
  | [] => ⟨[], none⟩
  | token :: tokens =>
    if token.isTrivia then after (lead ++ [token]) tokens
    else if token.isEnd then ⟨[], some (⟨lead, token⟩, tokens)⟩
    else
      let stream := after [] tokens
      { stream with words := ⟨lead, token⟩ :: stream.words }

/-- The words of a token list. -/
def ofTokens (tokens : List Token) : WordStream := after [] tokens

end WordStream

end WolframSyntax
