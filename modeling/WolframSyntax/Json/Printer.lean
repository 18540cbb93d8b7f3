import WolframSyntax.Json.Basic
import WolframSyntax.Text.Quoted

/-!
# Writing JSON

Values as indented JSON text, one item on a line. Texts are written in ASCII: other characters
are escaped by their UTF-16 units.
-/

namespace WolframSyntax.Json

/-- The escape of a UTF-16 unit. -/
def escapeUnit (unit : Nat) : List Char := '\\' :: 'u' :: Text.hexadecimal 4 unit

/-- One character of a JSON text. -/
def escapeCharacter (character : Char) : List Char :=
  if character = '"' ∨ character = '\\' then ['\\', character]
  else if character = '\n' then ['\\', 'n']
  else if character = '\r' then ['\\', 'r']
  else if character = '\t' then ['\\', 't']
  else if character = '\x08' then ['\\', 'b']
  else if character = '\x0c' then ['\\', 'f']
  else if 0x20 ≤ character.toNat ∧ character.toNat < 0x7F then [character]
  else if character.toNat < 0x10000 then escapeUnit character.toNat
  else
    let offset := character.toNat - 0x10000
    escapeUnit (0xD800 + offset / 0x400) ++ escapeUnit (0xDC00 + offset % 0x400)

/-- A text between quotation marks. -/
def quoteText (text : String) : String :=
  String.ofList ('"' :: text.toList.flatMap escapeCharacter ++ ['"'])

/-- A line break and two blanks for each level. -/
def newLine (level : Nat) : String := "\n" ++ String.ofList (List.replicate (2 * level) ' ')

/-- Lines between two brackets. -/
def enclose (opening closing : String) (level : Nat) (lines : List String) : String :=
  if lines.isEmpty then opening ++ closing
  else
    opening ++ newLine (level + 1) ++ String.intercalate ("," ++ newLine (level + 1)) lines
      ++ newLine level ++ closing

/-- A floating-point number in JSON text. -/
def floatText : Binary64 → String
  | .notANumber => "NaN"
  | .infinite negative => if negative then "-Infinity" else "Infinity"
  | number => number.display

mutual

/-- A value as JSON text at a level of indentation. -/
def render (level : Nat) : Json → String
  | null => "null"
  | bool value => if value then "true" else "false"
  | int value => toString value
  | float value => floatText value
  | str value => quoteText value
  | arr items => enclose "[" "]" level (renderItems (level + 1) items)
  | obj entries => enclose (String.singleton '{') (String.singleton '}') level
    (renderEntries (level + 1) entries)

/-- The items of a list as JSON texts. -/
def renderItems (level : Nat) : List Json → List String
  | [] => []
  | item :: items => item.render level :: renderItems level items

/-- The entries of an object as JSON texts. -/
def renderEntries (level : Nat) : List (String × Json) → List String
  | [] => []
  | (key, value) :: entries =>
    (quoteText key ++ ": " ++ value.render level) :: renderEntries level entries

end

/-- A value as JSON text. -/
def print (value : Json) : String := value.render 0

end WolframSyntax.Json
