import WolframSyntax.Json.Display

/-!
# Sections of a configuration

A section is a list of entries with distinct keys. It may be written as an object or as a list of
pairs, where a text of two characters and an object of two entries count as pairs too; what is
empty is an empty section. A key in a list of pairs can be any scalar, and numbers that are equal
are the same key, `true` and `false` counting as one and zero.
-/

namespace WolframSyntax

/-- A scalar as a key. -/
inductive ScalarKey where
  | null
  | bool (value : Bool)
  | int (value : Int)
  | float (value : Binary64)
  | text (value : String)
  deriving DecidableEq, Repr

namespace ScalarKey

/-- The key that a value is, if it is a scalar. -/
def ofJson? : Json → Option ScalarKey
  | .null => some null
  | .bool value => some (bool value)
  | .int value => some (int value)
  | .float value => some (float value)
  | .str value => some (text value)
  | .arr _ | .obj _ => none

/-- The key as a value. -/
def toJson : ScalarKey → Json
  | null => .null
  | bool value => .bool value
  | int value => .int value
  | float value => .float value
  | text value => .str value

/-- The integer that a key is equal to, if it is a truth value or an integer. -/
def asInteger? : ScalarKey → Option Int
  | bool value => some (if value then 1 else 0)
  | int value => some value
  | _ => none

/-- Whether two keys are the same. -/
def same (left right : ScalarKey) : Bool :=
  match left, right with
  | float left, float right => left.sameValue right
  | float left, right => right.asInteger?.any left.equalsInteger
  | left, float right => left.asInteger?.any right.equalsInteger
  | left, right =>
    match left.asInteger?, right.asInteger? with
    | some left, some right => left == right
    | none, none => left == right
    | _, _ => false

/-- The key as it is shown in reports. -/
def display (key : ScalarKey) : String := key.toJson.display

end ScalarKey

namespace Json

/-- The items of a value that has items: those of a list, the characters of a text, the keys of an
object. -/
def items? : Json → Option (List Json)
  | arr items => some items
  | str value => some (value.toList.map fun character => str (String.singleton character))
  | obj entries => some (entries.map fun entry => str entry.1)
  | _ => none

end Json

/-- Why a value is no section. -/
inductive SectionError where
  | notIterable (typeName : String)
  | itemNotIterable (index : Nat)
  | itemLength (index length : Nat)
  | unhashable (typeName : String)
  deriving DecidableEq, Repr

namespace SectionError

/-- The report of a failure. -/
def message : SectionError → String
  | notIterable typeName => "'" ++ typeName ++ "' object is not iterable"
  | itemNotIterable index =>
    "cannot convert dictionary update sequence element #" ++ toString index ++ " to a sequence"
  | itemLength index length =>
    "dictionary update sequence element #" ++ toString index ++ " has length " ++ toString length
      ++ "; 2 is required"
  | unhashable typeName => "unhashable type: '" ++ typeName ++ "'"

end SectionError

/-- Entries with distinct keys. -/
abbrev ConfigSection := List (ScalarKey × Json)

namespace ConfigSection

/-- The entry that an item of a list of pairs is. -/
def entryOf (index : Nat) (item : Json) : Except SectionError (ScalarKey × Json) :=
  match item.items? with
  | none => .error (.itemNotIterable index)
  | some [key, value] =>
    match ScalarKey.ofJson? key with
    | some scalar => .ok (scalar, value)
    | none => .error (.unhashable key.typeName)
  | some items => .error (.itemLength index items.length)

/-- A section with further entries from a list of pairs. -/
def addPairs (entries : ConfigSection) (index : Nat) : List Json → Except SectionError ConfigSection
  | [] => .ok entries
  | item :: items => do
    let (key, value) ← entryOf index item
    addPairs (Json.put ScalarKey.same key value entries) (index + 1) items

/-- The section that a value is. -/
def ofJson (value : Json) : Except SectionError ConfigSection :=
  if value.isEmptyLike then .ok []
  else
    match value with
    | .obj entries => .ok (entries.map fun (key, value) => (.text key, value))
    | value =>
      match value.items? with
      | some items => addPairs [] 0 items
      | none => .error (.notIterable value.typeName)

end ConfigSection

end WolframSyntax
