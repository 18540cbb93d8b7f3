import WolframSyntax.Text.Printable

/-!
# Quoted texts

A text inside a report stands between quotation marks, with everything that would not show
written as an escape. Single marks are used unless the text holds a single mark and no double
one. Backslash, tab and the two line breaks have short escapes; any other unprintable character
is written by its code point in two, four or eight hexadecimal digits.
-/

namespace WolframSyntax.Text

/-- The small hexadecimal digit of a number below sixteen. -/
def hexDigit (value : Nat) : Char :=
  if value < 10 then Char.ofNat ('0'.toNat + value) else Char.ofNat ('a'.toNat + (value - 10))

/-- The last `width` hexadecimal digits of a number, highest first. -/
def hexadecimal : Nat → Nat → List Char
  | 0, _ => []
  | width + 1, value => hexadecimal width (value / 16) ++ [hexDigit (value % 16)]

/-- The mark that encloses a text: double if the text holds a single mark and no double one. -/
def quotationMark (characters : List Char) : Char :=
  if characters.contains '\'' && !characters.contains '"' then '"' else '\''

/-- A character written by its code point. -/
def escapeCodePoint (character : Char) : List Char :=
  if character.toNat < 0x100 then '\\' :: 'x' :: hexadecimal 2 character.toNat
  else if character.toNat < 0x10000 then '\\' :: 'u' :: hexadecimal 4 character.toNat
  else '\\' :: 'U' :: hexadecimal 8 character.toNat

/-- One character of a quoted text enclosed in `mark`. -/
def quoteCharacter (mark character : Char) : List Char :=
  if character = mark ∨ character = '\\' then ['\\', character]
  else if character = '\t' then ['\\', 't']
  else if character = '\n' then ['\\', 'n']
  else if character = '\r' then ['\\', 'r']
  else if isPrintable character then [character]
  else escapeCodePoint character

/-- A character as it is written where only ASCII may stand. -/
def asciiCharacter (character : Char) : List Char :=
  if character.toNat < 0x80 then [character] else escapeCodePoint character

/-- A list of characters as a quoted text, marks included. -/
def quoteCharacters (characters : List Char) : List Char :=
  let mark := quotationMark characters
  mark :: characters.flatMap (quoteCharacter mark) ++ [mark]

/-- A text as it is quoted in reports. -/
def quote (text : String) : String :=
  String.ofList (quoteCharacters text.toList)

end WolframSyntax.Text
