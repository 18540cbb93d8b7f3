import WolframSyntax.Json.Display
import WolframSyntax.Message.Layout

/-!
# Values in fields

Sets values into fields as their layouts ask for it. Texts stand at the left of their field and
numbers at the right. An integer is written in a base, as the character with its code point, or
rounded like a floating-point number; truth values are integers.
-/

namespace WolframSyntax

namespace Layout

/-- The character that fills up the field. -/
def filling (layout : Layout) : Char := layout.fill.getD (if layout.zeros then '0' else ' ')

/-- Where a number stands. -/
def numberAlignment (layout : Layout) : Alignment :=
  layout.alignment.getD (if layout.zeros then .afterSign else .right)

/-- Fields of this width are too wide to be filled, which is reported without words. -/
def widthBound : Nat := 0x10000000000

/-- Nothing, unless the field is too wide. -/
def checkWidth (layout : Layout) : Except LayoutError Unit :=
  if layout.width < widthBound then .ok () else .error .tooWide

/-- A value in its field, with its sign apart. -/
def place (layout : Layout) (alignment : Alignment) (sign body : String) : String :=
  let missing := layout.width - (sign.length + body.length)
  let fill (count : Nat) : String := String.ofList (List.replicate count layout.filling)
  match alignment with
  | .left => sign ++ body ++ fill missing
  | .right => fill missing ++ sign ++ body
  | .center => fill (missing / 2) ++ sign ++ body ++ fill (missing - missing / 2)
  | .afterSign => sign ++ fill missing ++ body

/-- The first part of a layout that holds for a value and is not admitted. -/
def firstOf (parts : List (Bool × LayoutPart)) : Option LayoutPart :=
  (parts.find? Prod.fst).map Prod.snd

/-- The parts of a layout that texts do not admit. -/
def textFault (layout : Layout) : Option LayoutPart :=
  firstOf [(layout.sign = some ' ', .blankSign), (layout.sign.isSome, .sign),
    (layout.unsignedZero, .unsignedZero), (layout.alternateForm, .alternateForm),
    (layout.alignment = some .afterSign, .alignmentAfterSign)]

/-- A text in its field; the precision cuts it off. -/
def applyText (layout : Layout) (text : String) : Except LayoutError String :=
  match layout.textFault with
  | some part => .error (.notAllowed part "string")
  | none => do
    layout.checkWidth
    let kept :=
      (layout.precision.map fun length => String.ofList (text.toList.take length)).getD text
    return layout.place (layout.alignment.getD .left) "" kept

/-- Digits in groups of `size`, counted from the last digit; `free` of them fit into the first
group. -/
def grouped (separator : Char) (size : Nat) (free : Nat) : List Char → List Char
  | [] => []
  | digit :: digits =>
    match free with
    | 0 => separator :: digit :: grouped separator size (size - 1) digits
    | free + 1 => digit :: grouped separator size free digits

/-- The least number of digits that fill a width with their separators. -/
def digitsFilling (size width : Nat) : Nat :=
  width - width / (size + 1) + (if width % (size + 1) = 0 then 1 else 0)

/-- The digits of a number with separators. Zeros that fill the field are separated too. -/
def separate (layout : Layout) (size reserved : Nat) (digits : List Char) : List Char :=
  match layout.separator, digits with
  | none, _ | _, [] => digits
  | some separator, _ =>
    let enough :=
      if layout.filling = '0' ∧ layout.numberAlignment = .afterSign then
        digitsFilling size (layout.width - reserved)
      else 0
    let digits := List.replicate (enough - digits.length) '0' ++ digits
    grouped separator size (if digits.length % size = 0 then size else digits.length % size) digits

/-- The sign that a number shows. -/
def signText (layout : Layout) (negative : Bool) : String :=
  if negative then "-"
  else match layout.sign with
    | some '+' => "+"
    | some ' ' => " "
    | _ => ""

/-- The base that a letter asks for, with the mark of the base. -/
def baseOf? : Char → Option (Nat × String)
  | 'd' | 'n' => some (10, "")
  | 'b' => some (2, "0b")
  | 'o' => some (8, "0o")
  | 'x' => some (16, "0x")
  | 'X' => some (16, "0X")
  | _ => none

/-- The parts of a layout that integers do not admit. -/
def integerFault (layout : Layout) : Option LayoutPart :=
  firstOf [(layout.precision.isSome, .precision), (layout.unsignedZero, .unsignedZero)]

/-- The parts of a layout that characters do not admit besides. -/
def characterFault (layout : Layout) : Option LayoutPart :=
  firstOf [(layout.sign.isSome, .sign), (layout.alternateForm, .alternateForm)]

/-- The character with a code point, in its field. -/
def applyCharacter (layout : Layout) (code : Int) : Except LayoutError String := do
  if let some part := layout.characterFault then throw (.notAllowedForCharacter part)
  if !isIndex code then throw .tooGreatForCharacter
  if code < 0 ∨ ¬ code.toNat.isValidChar then throw .noCharacter
  layout.checkWidth
  return layout.place layout.numberAlignment "" (String.singleton (Char.ofNat code.toNat))

/-- An integer in a base, in its field. -/
def applyBase (layout : Layout) (base : Nat) (mark : String) (value : Int) :
    Except LayoutError String := do
  layout.checkWidth
  let sign := layout.signText (decide (value < 0)) ++ (if layout.alternateForm then mark else "")
  let digits := Nat.toDigits base value.natAbs
  let digits := if layout.letter = some 'X' then digits.map Char.toUpper else digits
  let body := layout.separate (if base = 10 then 3 else 4) sign.length digits
  return layout.place layout.numberAlignment sign (String.ofList body)

/-- The places or digits of a rounded number if the layout does not tell them. -/
def usualPrecision : Nat := 6

/-- The form of a number that a letter asks for, with so many places or digits. -/
def formOf? (letter : Char) (precision : Nat) : Option NumberForm :=
  match letter with
  | 'e' | 'E' => some (.scientific precision)
  | 'f' | 'F' | '%' => some (.fixed precision)
  | 'g' | 'G' | 'n' => some (.general (max precision 1))
  | _ => none

/-- The form in which a floating-point number is written. -/
def numberForm? (layout : Layout) : Option NumberForm :=
  match layout.letter.filter (· != noLetter), layout.precision with
  | none, none => some .shortest
  | none, some digits => some (.rounded (max digits 1))
  | some letter, precision => formOf? letter (precision.getD usualPrecision)

/-- The greatest precision of a rounded number. -/
def greatestPrecision : Nat := 0x7FFFFFFF

/-- Whether a letter asks for capital letters. -/
def isCapitalLetter (letter : Char) : Bool := letter == 'E' || letter == 'F' || letter == 'G'

/-- A floating-point number in its field. -/
def applyFloat (layout : Layout) (typeName : String) (value : Binary64) :
    Except LayoutError String := do
  let letter := layout.letter.getD noLetter
  let some form := layout.numberForm? | throw (.unknownLetter letter typeName)
  if layout.precision.any (greatestPrecision < ·) then throw .precisionTooGreat
  layout.checkWidth
  let value := if letter = '%' then value.times 100 else value
  let (negative, numeral) := value.written form layout.alternateForm layout.unsignedZero
  let numeral := if isCapitalLetter letter then numeral.capital else numeral
  let rest := numeral.rest ++ (if letter = '%' then ['%'] else [])
  let sign := layout.signText negative
  let whole := layout.separate 3 (sign.length + rest.length) numeral.whole
  return layout.place layout.numberAlignment sign (String.ofList (whole ++ rest))

/-- An integer in its field. -/
def applyInteger (layout : Layout) (typeName : String) (value : Int) :
    Except LayoutError String := do
  let letter := layout.letter.getD 'd'
  match baseOf? letter, formOf? letter usualPrecision with
  | none, some _ =>
    let some number := Binary64.ofInteger? value | throw .tooGreatToRound
    layout.applyFloat typeName number
  | base?, _ =>
    if base?.isNone && letter != 'c' then throw (.unknownLetter letter typeName)
    if let some part := layout.integerFault then throw (.notAllowed part "integer")
    match base? with
    | some (base, mark) => layout.applyBase base mark value
    | none => layout.applyCharacter value

end Layout

/-- A value as plain text. -/
def Json.plain : Json → String
  | .str value => value
  | value => value.display

/-- A value laid out as a field asks for it. -/
def Json.layOut (value : Json) (layout : List Char) : Except LayoutError String := do
  if layout.isEmpty then return value.plain
  let typeName := value.typeName
  match value with
  | .str text =>
    let layout ← Layout.read typeName (some 's') layout
    match layout.letter with
    | some 's' => layout.applyText text
    | letter => throw (.unknownLetter (letter.getD 's') typeName)
  | .float value => (← Layout.read typeName none layout).applyFloat typeName value
  | value =>
    let some integer := value.asInteger? | throw (.notAdmitted typeName)
    (← Layout.read typeName (some 'd') layout).applyInteger typeName integer

end WolframSyntax
