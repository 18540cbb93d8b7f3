import WolframSyntax.Text.Alphabetic
import WolframSyntax.Text.Numeric
import WolframSyntax.Token.Basic

/-!
# Lexemes

The first token of a text. Each reader splits a list of characters into what it takes and what
it leaves; none of them fails, and together the two parts are always the whole. The kind of a
lexeme is decided by its first one or two characters, and an unknown character is a lexeme of its
own.
-/

namespace WolframSyntax.Lexeme

/-- A way to split a text into the part that is read and the part that is left. -/
abbrev Reader := List Char → List Char × List Char

namespace Reader

/-- Reads as long as the characters belong to a class. -/
def run (belongs : Char → Bool) : Reader :=
  fun characters => (characters.takeWhile belongs, characters.dropWhile belongs)

/-- Reads with one reader and goes on with another. -/
def andThen (first second : Reader) : Reader :=
  fun characters =>
    let (taken, left) := first characters
    let (more, rest) := second left
    (taken ++ more, rest)

end Reader

/-- Letters and numeric characters. -/
def isAlphanumeric (character : Char) : Bool :=
  Text.isAlphabetic character || Text.isNumeric character

/-- Characters that may begin a symbol name. -/
def startsName (character : Char) : Bool :=
  Text.isAlphabetic character || character == '$'

/-- Space, tab and form feed, the blanks inside a line. -/
def isLineBlank (character : Char) : Bool :=
  character == ' ' || character == '\t' || character == '\x0c'

/-- Whether the text begins with a character of a class. -/
def beginsWith (belongs : Char → Bool) : List Char → Bool
  | [] => false
  | character :: _ => belongs character

/-- Reads a symbol name. A context mark belongs to the name if a name part follows it. -/
def readName : Reader
  | [] => ([], [])
  | character :: rest =>
    if isAlphanumeric character || character == '$'
        || (character == '\x60' && beginsWith startsName rest) then
      let (taken, left) := readName rest
      (character :: taken, left)
    else
      ([], character :: rest)

/-- Reads digits. -/
def readDigits : Reader := Reader.run Text.isDigit

/-- Reads the digits of a number written in another base, as in `16^^FF`. -/
def readBase : Reader
  | '^' :: '^' :: rest =>
    let (taken, left) := Reader.run isAlphanumeric rest
    ('^' :: '^' :: taken, left)
  | characters => ([], characters)

/-- Reads the part after the decimal point, unless a second point follows it. -/
def readFraction : Reader
  | '.' :: rest =>
    if rest.head? = some '.' then
      ([], '.' :: rest)
    else
      let (taken, left) := readDigits rest
      ('.' :: taken, left)
  | characters => ([], characters)

/-- Reads a precision or accuracy mark with its digits, as in `1.5` followed by a mark and `20`. -/
def readPrecision : Reader
  | '\x60' :: '\x60' :: rest =>
    let (taken, left) := Reader.run (fun c => Text.isDigit c || c == '.') rest
    ('\x60' :: '\x60' :: taken, left)
  | '\x60' :: rest =>
    let (taken, left) := Reader.run (fun c => Text.isDigit c || c == '.') rest
    ('\x60' :: taken, left)
  | characters => ([], characters)

/-- Reads the sign of an exponent. -/
def readSign : Reader
  | '-' :: rest => (['-'], rest)
  | '+' :: rest => (['+'], rest)
  | characters => ([], characters)

/-- Reads a decimal exponent, as in `1.2*^-3`. -/
def readExponent : Reader
  | '*' :: '^' :: rest =>
    let (taken, left) := readSign.andThen readDigits rest
    ('*' :: '^' :: taken, left)
  | characters => ([], characters)

/-- Reads a number: digits, base, fraction, precision and exponent, each of them optional. -/
def readNumber : Reader :=
  readDigits.andThen (readBase.andThen (readFraction.andThen (readPrecision.andThen readExponent)))

/-- A string literal that was read from a text. -/
structure Literal where
  taken : List Char
  closed : Bool
  left : List Char

/-- Reads the rest of a string literal after its opening mark, up to the closing mark or the end
of the text. A backslash keeps the character after it from closing the string. -/
def readLiteral : List Char → Literal
  | [] => ⟨[], false, []⟩
  | '"' :: rest => ⟨['"'], true, rest⟩
  | '\\' :: escaped :: rest =>
    let literal := readLiteral rest
    ⟨'\\' :: escaped :: literal.taken, literal.closed, literal.left⟩
  | character :: rest =>
    let literal := readLiteral rest
    ⟨character :: literal.taken, literal.closed, literal.left⟩

/-- Reads on inside `depth` nested comments until all of them are closed or the text ends. -/
def readComment : Nat → Reader
  | 0, characters => ([], characters)
  | _, [] => ([], [])
  | depth + 1, '(' :: '*' :: rest =>
    let (taken, left) := readComment (depth + 2) rest
    ('(' :: '*' :: taken, left)
  | depth + 1, '*' :: ')' :: rest =>
    let (taken, left) := readComment depth rest
    ('*' :: ')' :: taken, left)
  | depth + 1, character :: rest =>
    let (taken, left) := readComment (depth + 1) rest
    (character :: taken, left)

/-- Reads what may follow the mark of a slot: a number or a name. -/
def readSlotLabel : Reader :=
  fun characters =>
    if beginsWith Text.isDigit characters then readDigits characters
    else if beginsWith Text.isAlphabetic characters then readName characters
    else ([], characters)

/-- Reads what may follow the mark of a slot sequence: a number. -/
def readSequenceLabel : Reader := readDigits

end Lexeme

/-- A kind of token with the characters it was read from. -/
structure Lexeme where
  kind : TokenKind
  characters : List Char

namespace Lexeme

/-- Reads a slot or a slot sequence whose mark has just been taken. -/
def readSlot (mark : Char) : List Char → Lexeme × List Char
  | '#' :: rest =>
    let (taken, left) := readSequenceLabel rest
    (⟨.slotSequence, mark :: '#' :: taken⟩, left)
  | rest =>
    let (taken, left) := readSlotLabel rest
    (⟨.slot, mark :: taken⟩, left)

/-- Reads the first lexeme of a nonempty text. -/
def readFrom (character : Char) (rest : List Char) : Lexeme × List Char :=
  if isLineBlank character then
    let (taken, left) := Reader.run isLineBlank rest
    (⟨.whitespace, character :: taken⟩, left)
  else if character = '\n' then
    (⟨.lineBreak, [character]⟩, rest)
  else if character = '\r' then
    match rest with
    | '\n' :: left => (⟨.lineBreak, [character, '\n']⟩, left)
    | left => (⟨.lineBreak, [character]⟩, left)
  else if character = '(' ∧ rest.head? = some '*' then
    let (taken, left) := readComment 1 rest.tail
    (⟨.comment, character :: '*' :: taken⟩, left)
  else if startsName character then
    let (taken, left) := readName (character :: rest)
    (⟨.identifier, taken⟩, left)
  else if Text.isDigit character || (character == '.' && beginsWith Text.isDigit rest) then
    let (taken, left) := readNumber (character :: rest)
    (⟨.number, taken⟩, left)
  else if character = '"' then
    let literal := readLiteral rest
    (⟨if literal.closed then .string else .error, character :: literal.taken⟩, literal.left)
  else if character = '#' then
    readSlot character rest
  else
    match Operator.longest? (character :: rest) with
    | some operator =>
      (⟨.operator operator, operator.spelling⟩, (character :: rest).drop operator.spelling.length)
    | none => (⟨.error, [character]⟩, rest)

/-- Reads the first lexeme of a text; the end of the text is an empty lexeme. -/
def read : List Char → Lexeme × List Char
  | [] => (⟨.endOfFile, []⟩, [])
  | character :: rest => readFrom character rest

/-- The token a lexeme makes at a place. -/
def token (lexeme : Lexeme) (position : Position) : Token :=
  ⟨lexeme.kind, String.ofList lexeme.characters, position.line, position.col⟩

end Lexeme

end WolframSyntax
