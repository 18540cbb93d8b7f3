import WolframSyntax.Message.Placing

/-!
# Messages

A template is a text with fields in braces, into which arguments are filled. A field names its
argument by number, or takes the next one if it has no name; the two ways do not mix. The name may
go on to an item or an attribute of the argument. After it may stand a conversion and a layout, in
which fields are filled first. Doubled braces stand for themselves. The first fault from the left is
the one that is reported, be it a fault of the template or of an argument.

The templates of all messages on malformed texts are in one bundle. A key that is not in the bundle
is its own template, and a message without arguments is its template as it is written.
-/

namespace WolframSyntax

/-- Why a value has no item. -/
inductive ItemError where
  | emptyPart
  | partAfterItem
  | noAttribute (owner part : String)
  | notSubscriptable (owner : String)
  | outOfRange (sort : String)
  | textByName
  | listByName
  | noKey (shown : String)
  deriving DecidableEq, Repr

namespace ItemError

/-- The report of a failure. -/
def message : ItemError → String
  | emptyPart => "Empty attribute in format string"
  | partAfterItem => "Only '.' or '[' may follow ']' in format field specifier"
  | noAttribute owner part => owner ++ " has no attribute '" ++ part ++ "'"
  | notSubscriptable owner => owner ++ " is not subscriptable"
  | outOfRange sort => sort ++ " index out of range"
  | textByName => "string indices must be integers, not 'str'"
  | listByName => "list indices must be integers or slices, not str"
  | noKey shown => shown

end ItemError

/-- Why a template cannot be filled. -/
inductive TemplateError where
  | singleOpening
  | singleClosing
  | unclosedField
  | openingInName
  | unclosedLayout
  | missingConversion
  | missingLayout
  | unknownConversion (letter : Char)
  | automaticAfterManual
  | manualAfterAutomatic
  | noArgument (index : Nat)
  | noName (name : String)
  | nestedTooDeeply
  | badItem (error : ItemError)
  | badLayout (error : LayoutError)
  deriving DecidableEq, Repr

namespace TemplateError

/-- A conversion as it is shown in reports. -/
def showConversion (letter : Char) : String :=
  if 0x20 < letter.toNat ∧ letter.toNat < 0x7F then String.singleton letter
  else "\\x" ++ String.ofList (Nat.toDigits 16 letter.toNat)

/-- The report of a failure. -/
def message : TemplateError → String
  | singleOpening => "Single '" ++ String.singleton '{' ++ "' encountered in format string"
  | singleClosing => "Single '" ++ String.singleton '}' ++ "' encountered in format string"
  | unclosedField => "expected '" ++ String.singleton '}' ++ "' before end of string"
  | openingInName => "unexpected '" ++ String.singleton '{' ++ "' in field name"
  | unclosedLayout => "unmatched '" ++ String.singleton '{' ++ "' in format spec"
  | missingConversion => "end of string while looking for conversion specifier"
  | missingLayout => "expected ':' after conversion specifier"
  | unknownConversion letter => "Unknown conversion specifier " ++ showConversion letter
  | automaticAfterManual =>
    "cannot switch from manual field specification to automatic field numbering"
  | manualAfterAutomatic =>
    "cannot switch from automatic field numbering to manual field specification"
  | noArgument index =>
    "Replacement index " ++ toString index ++ " out of range for positional args tuple"
  | noName name => Text.quote name
  | nestedTooDeeply => "Max string recursion exceeded"
  | badItem error => error.message
  | badLayout error => error.message

end TemplateError

/-- A field of a template. -/
structure TemplateField where
  name : List Char
  conversion : Option Char
  layout : List Char

/-- A part of a template. -/
inductive TemplatePart where
  | letter (character : Char)
  | field (field : TemplateField)
  | fault (error : TemplateError)

namespace TemplateField

/-- Splits a text after the closing brace of a layout in which `depth` further braces are open. -/
def readLayout : Nat → List Char → Option (List Char × List Char)
  | _, [] => none
  | depth, '{' :: rest => (readLayout (depth + 1) rest).map fun (layout, rest) =>
    ('{' :: layout, rest)
  | 0, '}' :: rest => some ([], rest)
  | depth + 1, '}' :: rest => (readLayout depth rest).map fun (layout, rest) =>
    ('}' :: layout, rest)
  | depth, character :: rest => (readLayout depth rest).map fun (layout, rest) =>
    (character :: layout, rest)

/-- Reads the layout of a field up to its closing brace. -/
def readFieldLayout (name : List Char) (conversion : Option Char) (characters : List Char) :
    Except TemplateError (TemplateField × List Char) :=
  match readLayout 0 characters with
  | some (layout, rest) => .ok (⟨name, conversion, layout⟩, rest)
  | none => .error .unclosedLayout

/-- Reads the conversion of a field and what follows it. -/
def readConversion (name : List Char) :
    List Char → Except TemplateError (TemplateField × List Char)
  | [] => .error .missingConversion
  | letter :: '}' :: rest => .ok (⟨name, some letter, []⟩, rest)
  | letter :: ':' :: rest => readFieldLayout name (some letter) rest
  | [_] => .error .unclosedLayout
  | _ => .error .missingLayout

/-- Reads a field after its opening brace, when `name` has been read of its name. Inside brackets
nothing ends the name. -/
def readName (name : List Char) (inBrackets : Bool) :
    List Char → Except TemplateError (TemplateField × List Char)
  | [] => .error .unclosedField
  | character :: rest =>
    if inBrackets then readName (name ++ [character]) (character != ']') rest
    else if character = '{' then .error .openingInName
    else if character = '}' then .ok (⟨name, none, []⟩, rest)
    else if character = ':' then readFieldLayout name none rest
    else if character = '!' then readConversion name rest
    else readName (name ++ [character]) (character == '[') rest

end TemplateField

/-- The parts of a template. The budget bounds their number; a fault is the last part. -/
def templateParts : Nat → List Char → List TemplatePart
  | 0, _ => []
  | _, [] => []
  | budget + 1, '{' :: '{' :: rest => .letter '{' :: templateParts budget rest
  | budget + 1, '}' :: '}' :: rest => .letter '}' :: templateParts budget rest
  | _, ['{'] => [.fault .singleOpening]
  | _, '}' :: _ => [.fault .singleClosing]
  | budget + 1, '{' :: rest =>
    match TemplateField.readName [] false rest with
    | .ok (field, rest) => .field field :: templateParts budget rest
    | .error error => [.fault error]
  | budget + 1, character :: rest => .letter character :: templateParts budget rest

/-- How the fields so far have named their arguments. -/
inductive Numbering where
  | undecided
  | manual
  | automatic (next : Nat)

/-- What a field can stand for: a value, or the type of one. -/
inductive FieldValue where
  | value (value : Json)
  | typeNamed (name : String)

namespace FieldValue

/-- The parts of a number: every number is complex, every integer a fraction, and truth values are
integers. -/
def numberPart? (part : String) : Json → Option Json
  | .float number =>
    match part with
    | "real" => some (.float number)
    | "imag" => some (.float Binary64.zero)
    | _ => none
  | content => do
    let number ← content.asInteger?
    match part with
    | "real" | "numerator" => some (.int number)
    | "imag" => some (.int 0)
    | "denominator" => some (.int 1)
    | _ => none

/-- The attribute with a name. Values have a type and types have names; numbers have parts. -/
def attribute? (name : String) : FieldValue → Option FieldValue
  | value content =>
    if name = "__class__" then some (typeNamed content.typeName)
    else (numberPart? name content).map value
  | typeNamed typeName =>
    match name with
    | "__class__" => some (typeNamed "type")
    | "__name__" | "__qualname__" => some (value (.str typeName))
    | "__module__" => some (value (.str "builtins"))
    | _ => none

/-- How reports call the owner of an attribute. -/
def asOwner : FieldValue → String
  | value content => "'" ++ content.typeName ++ "' object"
  | typeNamed name => "type object '" ++ name ++ "'"

/-- How reports call the owner of an item. -/
def asContainer : FieldValue → String
  | value content => "'" ++ content.typeName ++ "' object"
  | typeNamed name => "type '" ++ name ++ "'"

/-- A value as plain text. -/
def plain : FieldValue → String
  | value content => content.plain
  | typeNamed name => "<class '" ++ name ++ "'>"

/-- A value as it is shown among other values. -/
def display : FieldValue → String
  | value content => content.display
  | named => named.plain

/-- A value laid out as a field asks for it. Types admit no layout. -/
def layOut (layout : List Char) : FieldValue → Except LayoutError String
  | value content => content.layOut layout
  | named => if layout.isEmpty then .ok named.plain else .error (.notAdmitted "type")

end FieldValue

namespace TemplateField

/-- The number that a name is. A name that begins with too great a number is reported as such. -/
def numberOf? (name : List Char) : Except TemplateError (Option Nat) := do
  let (number, rest) ← (Layout.readNumber name).mapError .badLayout
  return if rest.isEmpty then number else none

/-- The number of the argument of a field, and how fields name their arguments from there on. -/
def argumentNumber (numbering : Numbering) (name : List Char) :
    Except TemplateError (Nat × Numbering) := do
  if name.isEmpty then
    match numbering with
    | .undecided => return (0, .automatic 1)
    | .automatic next => return (next, .automatic (next + 1))
    | .manual => throw .automaticAfterManual
  else
    match ← numberOf? name, numbering with
    | none, _ => throw (.noName (String.ofList name))
    | some _, .automatic _ => throw .manualAfterAutomatic
    | some number, _ => return (number, .manual)

/-- Whether a character begins a further part of a name. -/
def beginsPart (character : Char) : Bool := character == '.' || character == '['

/-- The part of a name that names the argument. -/
def baseName (name : List Char) : List Char := name.takeWhile fun c => !beginsPart c

/-- The parts of a name that go on to items and attributes. -/
def itemPath (name : List Char) : List Char := name.dropWhile fun c => !beginsPart c

/-- The item with a number. -/
def itemAt (index : Nat) : FieldValue → Except ItemError FieldValue
  | .value (.str text) =>
    match text.toList[index]? with
    | some character => .ok (.value (.str (String.singleton character)))
    | none => .error (.outOfRange "string")
  | .value (.arr items) =>
    match items[index]? with
    | some item => .ok (.value item)
    | none => .error (.outOfRange "list")
  | .value (.obj _) => .error (.noKey (toString index))
  | owner => .error (.notSubscriptable owner.asContainer)

/-- The item with a name. -/
def itemNamed (name : String) : FieldValue → Except ItemError FieldValue
  | .value (.str _) => .error .textByName
  | .value (.arr _) => .error .listByName
  | .value (.obj entries) =>
    match Json.get? (· == ·) name entries with
    | some value => .ok (.value value)
    | none => .error (.noKey (Text.quote name))
  | owner => .error (.notSubscriptable owner.asContainer)

/-- The value at the end of a path of items and attributes. The budget bounds the number of
parts. -/
def follow : Nat → List Char → FieldValue → Except TemplateError FieldValue
  | _, [], value => .ok value
  | 0, _, _ => .error (.badItem .emptyPart)
  | budget + 1, '[' :: rest, value => do
    let inside := rest.takeWhile (· != ']')
    let number ← numberOf? inside
    if inside.isEmpty then throw (.badItem .emptyPart)
    let item ← (match number with
      | some index => itemAt index value
      | none => itemNamed (String.ofList inside) value).mapError .badItem
    follow budget (rest.drop (inside.length + 1)) item
  | budget + 1, '.' :: rest, value => do
    let part := rest.takeWhile fun c => !beginsPart c
    if part.isEmpty then throw (.badItem .emptyPart)
    let name := String.ofList part
    let some next := value.attribute? name | throw (.badItem (.noAttribute value.asOwner name))
    follow budget (rest.drop part.length) next
  | _, _, _ => .error (.badItem .partAfterItem)

/-- The value of a field after its conversion. The null character stands for none. -/
def convert (conversion : Option Char) (value : FieldValue) : Except TemplateError FieldValue :=
  let text (content : String) : FieldValue := .value (.str content)
  match conversion with
  | none | some '\x00' => .ok value
  | some 's' => .ok (text value.plain)
  | some 'r' => .ok (text value.display)
  | some 'a' => .ok (text (String.ofList (value.display.toList.flatMap Text.asciiCharacter)))
  | some letter => .error (.unknownConversion letter)

end TemplateField

/-- Layouts may hold fields, whose own layouts hold none. -/
def templateDepth : Nat := 2

/-- Fills the fields of a text. The depth bounds how far fields are nested in layouts. -/
def fillTemplate (arguments : List Json) : Nat → Numbering → List Char →
    Except TemplateError (String × Numbering)
  | 0, _, _ => .error .nestedTooDeeply
  | depth + 1, numbering, template =>
    let fillField (numbering : Numbering) (field : TemplateField) :
        Except TemplateError (String × Numbering) := do
      let (number, numbering) ←
        TemplateField.argumentNumber numbering (TemplateField.baseName field.name)
      match arguments[number]? with
      | none => throw (.noArgument number)
      | some argument =>
        let item ←
          TemplateField.follow field.name.length (TemplateField.itemPath field.name)
            (.value argument)
        let value ← TemplateField.convert field.conversion item
        let (layout, numbering) ←
          if field.layout.contains '{' then
            (fillTemplate arguments depth numbering field.layout).map fun (layout, numbering) =>
              (layout.toList, numbering)
          else .ok (field.layout, numbering)
        return (← (value.layOut layout).mapError .badLayout, numbering)
    (templateParts template.length template).foldlM
      (fun (text, numbering) part =>
        match part with
        | .letter character => .ok (text.push character, numbering)
        | .fault error => .error error
        | .field field => do
          let (filled, numbering) ← fillField numbering field
          return (text ++ filled, numbering))
      ("", numbering)

/-- A template with its fields filled in. -/
def formatTemplate (template : String) (arguments : List Json) : Except TemplateError String :=
  (fillTemplate arguments templateDepth .undecided template.toList).map Prod.fst

/-! ## The message bundle -/

/-- The templates by their keys. -/
def messageBundle : List (String × String) :=
  [("MessageName.no.symbol.or.string", "Symbol or string expected after '::'"),
   ("MessageName.arg", "Symbol or string expected after '::'"),
   ("general.expression.expected", "Expression expected"),
   ("general.closing.expected", "'{0}' expected"),
   ("general.unexpected.token", "Unexpected token '{0}'"),
   ("general.bad.character", "Bad character or unterminated literal '{0}'"),
   ("TagSet.assignment.expected", "'=' or ':=' expected after tag pattern"),
   ("Pattern.symbol.expected", "Pattern name must be a symbol")]

/-- The template under a key. -/
def messageTemplate (key : String) : String := (messageBundle.lookup key).getD key

/-- The message under a key with its arguments. -/
def formatMessage (key : String) (arguments : List Json) : Except TemplateError String :=
  if arguments.isEmpty then .ok (messageTemplate key)
  else formatTemplate (messageTemplate key) arguments

end WolframSyntax
