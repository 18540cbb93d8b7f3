import WolframSyntax.Number.Numeral

/-!
# JSON values

Values whose objects keep the order of their entries. Integers and floating-point numbers are
different values, however they are written.
-/

namespace WolframSyntax

/-- A JSON value. -/
inductive Json where
  | null
  | bool (value : Bool)
  | int (value : Int)
  | float (value : Binary64)
  | str (value : String)
  | arr (items : List Json)
  | obj (entries : List (String × Json))

namespace Json

/-- The entry list with a value for a key. A key that is there already keeps its place. -/
def put {Key Value : Type} (same : Key → Key → Bool) (key : Key) (value : Value) :
    List (Key × Value) → List (Key × Value)
  | [] => [(key, value)]
  | entry :: entries =>
    if same entry.1 key then (entry.1, value) :: entries else entry :: put same key value entries

/-- The value of a key in an entry list. -/
def get? {Key Value : Type} (same : Key → Key → Bool) (key : Key) (entries : List (Key × Value)) :
    Option Value :=
  (entries.find? fun entry => same entry.1 key).map Prod.snd

/-- The object with the given entries; of entries with the same key, the first gives the place and
the last the value. -/
def ofEntries (entries : List (String × Json)) : Json :=
  obj (entries.foldl (fun all entry => put (· == ·) entry.1 entry.2 all) [])

/-- The value of a key of an object. -/
def field? (key : String) : Json → Option Json
  | obj entries => get? (· == ·) key entries
  | _ => none

/-- The integer that a value is. Truth values are the integers one and zero. -/
def asInteger? : Json → Option Int
  | int value => some value
  | bool value => some (if value then 1 else 0)
  | _ => none

/-- Zero, false, null and what is empty. -/
def isEmptyLike : Json → Bool
  | null => true
  | bool value => !value
  | int value => value == 0
  | float value => value.isZero
  | str value => value == ""
  | arr items => items.isEmpty
  | obj entries => entries.isEmpty

end Json

end WolframSyntax
