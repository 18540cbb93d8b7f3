import WolframSyntax.Json.Basic
import WolframSyntax.Text.Quoted

/-!
# Displays of JSON values

How a value is shown in reports: texts are quoted, and the constants are `True`, `False` and
`None`.

Every value has a display. This assumes that an integer may be shown with all its digits, however
many there are, and that values may be nested to any depth; only the reader of JSON texts has a
limit on digits (`Json.digitLimit`).
-/

namespace WolframSyntax.Json

/-- The name of the type of a value, as reports give it. -/
def typeName : Json → String
  | null => "NoneType"
  | bool _ => "bool"
  | int _ => "int"
  | float _ => "float"
  | str _ => "str"
  | arr _ => "list"
  | obj _ => "dict"

mutual

/-- A value as it is shown in reports. Integers of any length are assumed to have a display. -/
def display : Json → String
  | null => "None"
  | bool value => if value then "True" else "False"
  | int value => toString value
  | float value => value.display
  | str value => Text.quote value
  | arr items => "[" ++ String.intercalate ", " (displayItems items) ++ "]"
  | obj entries =>
    String.singleton '{' ++ String.intercalate ", " (displayEntries entries)
      ++ String.singleton '}'

/-- The displays of the items of a list. -/
def displayItems : List Json → List String
  | [] => []
  | item :: items => item.display :: displayItems items

/-- The displays of the entries of an object. -/
def displayEntries : List (String × Json) → List String
  | [] => []
  | (key, value) :: entries => (Text.quote key ++ ": " ++ value.display) :: displayEntries entries

end

end WolframSyntax.Json
