import WolframSyntax.Token.Operator
import WolframSyntax.Text.Quoted

/-!
# Tokens

A token is a kind, the exact text it was read from and the position of its first character.
Blanks, line breaks and comments are tokens too, so that the tokens of a text spell the whole
text; they are called trivia, because they carry no meaning of their own.
-/

namespace WolframSyntax

/-- A place in a text: line and column, counted from one for a text read from its start. -/
structure Position where
  line : Int
  col : Int
  deriving DecidableEq, Repr

namespace Position

/-- The place of the first character of a text. -/
def start : Position := ⟨1, 1⟩

/-- The place after one character. Only a line feed begins a new line. -/
def after (position : Position) (character : Char) : Position :=
  if character = '\n' then ⟨position.line + 1, 1⟩ else ⟨position.line, position.col + 1⟩

/-- The place after a run of characters. -/
def advance (position : Position) (characters : List Char) : Position :=
  characters.foldl after position

end Position

/-- What a token is. A kind outside the language keeps its name. -/
inductive TokenKind where
  | operator (sign : Operator)
  | identifier
  | number
  | string
  | slot
  | slotSequence
  | whitespace
  | lineBreak
  | comment
  | error
  | endOfFile
  | other (name : String)
  deriving DecidableEq, Repr

namespace TokenKind

/-- The published name of a kind. -/
def name : TokenKind → String
  | operator sign => sign.name
  | identifier => "IDENTIFIER"
  | number => "NUMBER"
  | string => "STRING"
  | slot => "SLOT"
  | slotSequence => "SLOT_SEQUENCE"
  | whitespace => "WHITESPACE"
  | lineBreak => "LINE_BREAK"
  | comment => "COMMENT"
  | error => "ERROR"
  | endOfFile => "EOF"
  | other name => name

/-- The kind with the given published name. -/
def ofName (name : String) : TokenKind :=
  match Operator.ofName? name with
  | some sign => operator sign
  | none =>
    if name = "IDENTIFIER" then identifier
    else if name = "NUMBER" then number
    else if name = "STRING" then string
    else if name = "SLOT" then slot
    else if name = "SLOT_SEQUENCE" then slotSequence
    else if name = "WHITESPACE" then whitespace
    else if name = "LINE_BREAK" then lineBreak
    else if name = "COMMENT" then comment
    else if name = "ERROR" then error
    else if name = "EOF" then endOfFile
    else other name

/-- Blanks, line breaks and comments. -/
def isTrivia : TokenKind → Bool
  | whitespace | lineBreak | comment => true
  | _ => false

end TokenKind

/-- A piece of text with its kind and the place of its first character. -/
structure Token where
  kind : TokenKind
  text : String
  line : Int
  col : Int
  deriving DecidableEq, Repr

namespace Token

/-- The place of the first character. -/
def position (token : Token) : Position := ⟨token.line, token.col⟩

/-- Whether the token is a blank, a line break or a comment. -/
def isTrivia (token : Token) : Bool := token.kind.isTrivia

/-- Whether the token ends a stream. -/
def isEnd (token : Token) : Bool := token.kind == .endOfFile

/-- The token as it is shown in reports. -/
def display (token : Token) : String :=
  "Token(" ++ token.kind.name ++ ", " ++ Text.quote token.text ++ ")"

end Token

end WolframSyntax
