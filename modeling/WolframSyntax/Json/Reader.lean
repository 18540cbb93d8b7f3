import WolframSyntax.Json.Basic

/-!
# Reading JSON

A whole text as one value. Besides the standard grammar the reader knows the three constants for
floating-point numbers that have no decimal form. An integer may have at most 4300 digits. A number
with a fraction or an exponent is a floating-point number, whatever its value.
-/

namespace WolframSyntax.Json

/-- The blanks between the parts of a JSON text. -/
def isSpace (character : Char) : Bool :=
  character == ' ' || character == '\t' || character == '\n' || character == '\r'

/-- A text without the blanks at its beginning. -/
def skipSpace (characters : List Char) : List Char := characters.dropWhile isSpace

/-- The value of a hexadecimal digit. -/
def hexValue? (character : Char) : Option Nat :=
  if '0' ≤ character ∧ character ≤ '9' then some (character.toNat - '0'.toNat)
  else if 'a' ≤ character ∧ character ≤ 'f' then some (character.toNat - 'a'.toNat + 10)
  else if 'A' ≤ character ∧ character ≤ 'F' then some (character.toNat - 'A'.toNat + 10)
  else none

/-- The number written with four hexadecimal digits. -/
def unit? (first second third fourth : Char) : Option Nat := do
  return (((← hexValue? first) * 16 + (← hexValue? second)) * 16 + (← hexValue? third)) * 16
    + (← hexValue? fourth)

/-- Whether a UTF-16 unit is the first of a pair. -/
def isHighUnit (unit : Nat) : Bool := 0xD800 ≤ unit && unit < 0xDC00

/-- Whether a UTF-16 unit is the second of a pair. -/
def isLowUnit (unit : Nat) : Bool := 0xDC00 ≤ unit && unit < 0xE000

/-- The character of a UTF-16 unit; half of a pair has none and is replaced. -/
def unitCharacter (unit : Nat) : Char :=
  if isHighUnit unit || isLowUnit unit then '\ufffd' else Char.ofNat unit

/-- The character of a pair of UTF-16 units. -/
def pairCharacter (high low : Nat) : Char :=
  Char.ofNat (0x10000 + (high - 0xD800) * 0x400 + (low - 0xDC00))

/-- The character that a letter after a backslash stands for. -/
def escaped? (letter : Char) : Option Char :=
  if letter = '"' ∨ letter = '\\' ∨ letter = '/' then some letter
  else if letter = 'b' then some '\x08'
  else if letter = 'f' then some '\x0c'
  else if letter = 'n' then some '\n'
  else if letter = 'r' then some '\r'
  else if letter = 't' then some '\t'
  else none

/-- A character in front of a text that has been read. -/
def consRead (character : Char) (read : Option (List Char × List Char)) :
    Option (List Char × List Char) :=
  read.map fun (characters, rest) => (character :: characters, rest)

/-- Reads the rest of a text after its opening quotation mark. -/
def readText : List Char → Option (List Char × List Char)
  | '"' :: rest => some ([], rest)
  | '\\' :: 'u' :: a :: b :: c :: d :: '\\' :: 'u' :: e :: f :: g :: h :: rest =>
    match unit? a b c d, unit? e f g h with
    | some high, some low =>
      if isHighUnit high && isLowUnit low then consRead (pairCharacter high low) (readText rest)
      else consRead (unitCharacter high) (readText ('\\' :: 'u' :: e :: f :: g :: h :: rest))
    | _, _ => none
  | '\\' :: 'u' :: a :: b :: c :: d :: rest =>
    match unit? a b c d with
    | some unit => consRead (unitCharacter unit) (readText rest)
    | none => none
  | '\\' :: letter :: rest =>
    match escaped? letter with
    | some character => consRead character (readText rest)
    | none => none
  | character :: rest =>
    if character.toNat < 0x20 ∨ character = '\\' then none
    else consRead character (readText rest)
  | [] => none

/-- Whether a character is one of the ten digits. -/
def isDecimal (character : Char) : Bool := '0' ≤ character && character ≤ '9'

/-- Splits a text after its digits. -/
def readDecimals (characters : List Char) : List Char × List Char :=
  (characters.takeWhile isDecimal, characters.dropWhile isDecimal)

/-- The number written with the given digits. -/
def decimalValue (digits : List Char) : Nat :=
  digits.foldl (fun value digit => value * 10 + (digit.toNat - '0'.toNat)) 0

/-- Reads the digits of a fraction after its point; without digits there is no fraction. -/
def readFraction : List Char → Option (List Char × List Char)
  | '.' :: rest =>
    let (digits, rest) := readDecimals rest
    if digits.isEmpty then none else some (digits, rest)
  | _ => none

/-- Reads an exponent after its sign. -/
def readExponentDigits (negative : Bool) (characters : List Char) : Option (Int × List Char) :=
  let (digits, rest) := readDecimals characters
  if digits.isEmpty then none
  else
    let value : Int := decimalValue digits
    some (if negative then -value else value, rest)

/-- Reads an exponent; without digits there is none. -/
def readExponent : List Char → Option (Int × List Char)
  | mark :: rest =>
    if mark = 'e' ∨ mark = 'E' then
      match rest with
      | '-' :: rest => readExponentDigits true rest
      | '+' :: rest => readExponentDigits false rest
      | rest => readExponentDigits false rest
    else none
  | [] => none

/-- An integer may have at most this many digits. -/
def digitLimit : Nat := 4300

/-- Reads the fraction and exponent of a number with the given whole digits. -/
def readNumberRest (negative : Bool) (whole : List Char) (rest : List Char) :
    Option (Json × List Char) :=
  let (fraction, afterFraction) := (readFraction rest).getD ([], rest)
  let (exponent, afterExponent) := (readExponent afterFraction).getD (0, afterFraction)
  if afterExponent.length < rest.length then
    let digits := decimalValue (whole ++ fraction)
    some (float (Binary64.ofDecimal negative digits (exponent - fraction.length)), afterExponent)
  else if digitLimit < whole.length then none
  else
    let value : Int := decimalValue whole
    some (int (if negative then -value else value), rest)

/-- Reads a number without its sign. A leading zero is the whole part. -/
def readMagnitude (negative : Bool) : List Char → Option (Json × List Char)
  | '0' :: rest => readNumberRest negative ['0'] rest
  | characters =>
    let (whole, rest) := readDecimals characters
    if whole.isEmpty then none else readNumberRest negative whole rest

/-- The constants with their values. -/
def constants : List (String × Json) :=
  [("null", null), ("true", bool true), ("false", bool false), ("NaN", float .notANumber),
   ("Infinity", float (.infinite false)), ("-Infinity", float (.infinite true))]

/-- Reads a constant. -/
def readConstant (characters : List Char) : Option (Json × List Char) :=
  constants.findSome? fun (name, value) =>
    if name.toList.isPrefixOf characters then some (value, characters.drop name.length) else none

/-- Reads a constant or a number. -/
def readScalar (characters : List Char) : Option (Json × List Char) :=
  match readConstant characters with
  | some read => some read
  | none =>
    match characters with
    | '-' :: rest => readMagnitude true rest
    | characters => readMagnitude false characters

mutual

/-- Reads a value. The budget bounds the number of values and items that are begun. -/
def readValue : Nat → List Char → Option (Json × List Char)
  | 0, _ => none
  | budget + 1, characters =>
    match characters with
    | '"' :: rest => (readText rest).map fun (text, rest) => (str (String.ofList text), rest)
    | '[' :: rest =>
      match skipSpace rest with
      | ']' :: rest => some (arr [], rest)
      | rest => (readItems budget rest).map fun (items, rest) => (arr items, rest)
    | '{' :: rest =>
      match skipSpace rest with
      | '}' :: rest => some (obj [], rest)
      | rest => (readEntries budget rest).map fun (entries, rest) => (ofEntries entries, rest)
    | characters => readScalar characters

/-- Reads the items of a list after its opening bracket. -/
def readItems : Nat → List Char → Option (List Json × List Char)
  | 0, _ => none
  | budget + 1, characters =>
    match readValue budget characters with
    | none => none
    | some (item, rest) =>
      match skipSpace rest with
      | ']' :: rest => some ([item], rest)
      | ',' :: rest =>
        (readItems budget (skipSpace rest)).map fun (items, rest) => (item :: items, rest)
      | _ => none

/-- Reads the entries of an object after its opening brace. -/
def readEntries : Nat → List Char → Option (List (String × Json) × List Char)
  | 0, _ => none
  | budget + 1, characters =>
    match characters with
    | '"' :: rest =>
      match readText rest with
      | none => none
      | some (key, rest) =>
        match skipSpace rest with
        | ':' :: rest =>
          match readValue budget (skipSpace rest) with
          | none => none
          | some (value, rest) =>
            match skipSpace rest with
            | '}' :: rest => some ([(String.ofList key, value)], rest)
            | ',' :: rest =>
              (readEntries budget (skipSpace rest)).map fun (entries, rest) =>
                ((String.ofList key, value) :: entries, rest)
            | _ => none
        | _ => none
    | _ => none

end

/-- The value that a text consists of, blanks around it apart. -/
def parse? (text : String) : Option Json :=
  let characters := text.toList
  match readValue (2 * characters.length + 2) (skipSpace characters) with
  | some (value, rest) => if (skipSpace rest).isEmpty then some value else none
  | none => none

end WolframSyntax.Json
