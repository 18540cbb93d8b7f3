import WolframSyntax.Number.Binary64
import WolframSyntax.Text.DecimalDigit

/-!
# Layouts

How a value is to be set into a field: filled up to a width, cut off, with a sign, with separated
groups of digits, in another base or rounded. A layout is written as fill and alignment, sign,
marks, width, separator, precision and a letter, each of them optional and in this order. Numbers in
a layout may be written with the decimal digits of any script.
-/

namespace WolframSyntax

/-- Where a value stands in its field. -/
inductive Alignment where
  | left
  | right
  | center
  | afterSign
  deriving DecidableEq, Repr

/-- A part of a layout that not every value admits. -/
inductive LayoutPart where
  | sign
  | blankSign
  | unsignedZero
  | alternateForm
  | alignmentAfterSign
  | precision
  deriving DecidableEq, Repr

/-- Why a value cannot be laid out. -/
inductive LayoutError where
  | tooManyDigits
  | twoSeparators
  | missingPrecision
  | unreadable (layout typeName : String)
  | separatorWith (separator letter : Char)
  | unknownLetter (letter : Char) (typeName : String)
  | notAllowed (part : LayoutPart) (sort : String)
  | notAllowedForCharacter (part : LayoutPart)
  | notAdmitted (typeName : String)
  | precisionTooGreat
  | tooGreatToRound
  | tooGreatForCharacter
  | noCharacter
  | tooWide
  deriving DecidableEq, Repr

namespace LayoutPart

/-- The name of the part in reports. -/
def name : LayoutPart → String
  | sign => "Sign"
  | blankSign => "Space"
  | unsignedZero => "Negative zero coercion (z)"
  | alternateForm => "Alternate form (#)"
  | alignmentAfterSign => "'=' alignment"
  | precision => "Precision"

end LayoutPart

namespace LayoutError

/-- A letter as it is shown in reports. -/
def showLetter (letter : Char) : String :=
  if 0x20 < letter.toNat ∧ letter.toNat < 0x80 then "'" ++ String.singleton letter ++ "'"
  else "'\\x" ++ String.ofList (Nat.toDigits 16 letter.toNat) ++ "'"

/-- The report of a failure. -/
def message : LayoutError → String
  | tooManyDigits => "Too many decimal digits in format string"
  | twoSeparators => "Cannot specify both ',' and '_'."
  | missingPrecision => "Format specifier missing precision"
  | unreadable layout typeName =>
    "Invalid format specifier '" ++ layout ++ "' for object of type '" ++ typeName ++ "'"
  | separatorWith separator letter =>
    "Cannot specify " ++ showLetter separator ++ " with " ++ showLetter letter ++ "."
  | unknownLetter letter typeName =>
    "Unknown format code " ++ showLetter letter ++ " for object of type '" ++ typeName ++ "'"
  | notAllowed part sort => part.name ++ " not allowed in " ++ sort ++ " format specifier"
  | notAllowedForCharacter part =>
    part.name ++ " not allowed with integer format specifier 'c'"
  | notAdmitted typeName => "unsupported format string passed to " ++ typeName ++ ".__format__"
  | precisionTooGreat => "precision too big"
  | tooGreatToRound => "int too large to convert to float"
  | tooGreatForCharacter => "Python int too large to convert to C long"
  | noCharacter => "%c arg not in range(0x110000)"
  | tooWide => ""

end LayoutError

/-- How a value is laid out in a field. The alternate form of an integer has a mark of its base,
that of a floating-point number its point and all its digits. -/
structure Layout where
  fill : Option Char
  alignment : Option Alignment
  sign : Option Char
  unsignedZero : Bool
  alternateForm : Bool
  zeros : Bool
  width : Nat
  separator : Option Char
  precision : Option Nat
  letter : Option Char

namespace Layout

/-- The alignment that a character stands for. -/
def alignmentOf? : Char → Option Alignment
  | '<' => some .left
  | '>' => some .right
  | '^' => some .center
  | '=' => some .afterSign
  | _ => none

/-- Reads one character if it belongs to a class. -/
def readOne (belongs : Char → Bool) : List Char → Option Char × List Char
  | character :: rest =>
    if belongs character then (some character, rest) else (none, character :: rest)
  | [] => (none, [])

/-- Reads the fill and the alignment. -/
def readAlignment : List Char → Option Char × Option Alignment × List Char
  | fill :: mark :: rest =>
    match alignmentOf? mark, alignmentOf? fill with
    | some alignment, _ => (some fill, some alignment, rest)
    | none, some alignment => (none, some alignment, mark :: rest)
    | none, none => (none, none, fill :: mark :: rest)
  | [mark] =>
    match alignmentOf? mark with
    | some alignment => (none, some alignment, [])
    | none => (none, none, [mark])
  | [] => (none, none, [])

/-- Reads a number, which has to be an index. -/
def readNumber (characters : List Char) : Except LayoutError (Option Nat × List Char) :=
  let digits := characters.takeWhile Text.isDecimalDigit
  let number := Text.decimalNumber digits
  if indexBound ≤ number then .error .tooManyDigits
  else
    .ok (if digits.isEmpty then none else some number, characters.dropWhile Text.isDecimalDigit)

/-- Reads the separator between groups of digits. -/
def readSeparator : List Char → Except LayoutError (Option Char × List Char)
  | ',' :: '_' :: _ | '_' :: ',' :: _ => .error .twoSeparators
  | ',' :: rest => .ok (some ',', rest)
  | '_' :: rest => .ok (some '_', rest)
  | rest => .ok (none, rest)

/-- Reads the precision. -/
def readPrecision : List Char → Except LayoutError (Option Nat × List Char)
  | '.' :: rest => do
    let (precision, rest) ← readNumber rest
    if precision.isNone then throw .missingPrecision
    return (precision, rest)
  | rest => .ok (none, rest)

/-- The letters in whose base digits can be separated by an underscore only. -/
def isBaseLetter (letter : Char) : Bool :=
  letter == 'b' || letter == 'o' || letter == 'x' || letter == 'X'

/-- The character that stands for no letter. -/
def noLetter : Char := '\x00'

/-- Whether groups of digits may be separated in what a letter asks for. -/
def admitsSeparator (separator letter : Char) : Bool :=
  letter == noLetter || "defgEG%F".toList.contains letter
    || (separator == '_' && isBaseLetter letter)

/-- Reads the layout of a value of the given type. -/
def read (typeName : String) (usualLetter : Option Char) (characters : List Char) :
    Except LayoutError Layout := do
  let (fill, alignment, rest) := readAlignment characters
  let (sign, rest) := readOne (fun c => c == ' ' || c == '+' || c == '-') rest
  let (unsignedZero, rest) := readOne (· == 'z') rest
  let (alternateForm, rest) := readOne (· == '#') rest
  let (zero, rest) := readOne (fun c => fill.isNone && c == '0') rest
  let (width, rest) ← readNumber rest
  let (separator, rest) ← readSeparator rest
  let (precision, rest) ← readPrecision rest
  let (letter, rest) := readOne (fun _ => true) rest
  if !rest.isEmpty then throw (.unreadable (String.ofList characters) typeName)
  let letter := letter <|> usualLetter
  match separator, letter with
  | some separator, some letter =>
    if !admitsSeparator separator letter then throw (.separatorWith separator letter)
  | _, _ => pure ()
  return ⟨fill, alignment, sign, unsignedZero.isSome, alternateForm.isSome, zero.isSome,
    width.getD 0, separator, precision, letter⟩

end Layout

end WolframSyntax
