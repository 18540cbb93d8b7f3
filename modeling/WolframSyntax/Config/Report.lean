import WolframSyntax.Config.Basic
import WolframSyntax.Config.Sorting

/-!
# Reports of configurations

What has been configured, one entry on a line, in the order of the keys. Keys that are no texts can
only be reported if they can be ordered: numbers among themselves, but nothing else.
-/

namespace WolframSyntax

/-- Why a configuration cannot be reported. -/
inductive ReportError where
  | unordered (left right : String)
  | unformatted (typeName : String)
  deriving DecidableEq, Repr

namespace ReportError

/-- The report of a failure. -/
def message : ReportError → String
  | unordered left right =>
    "'<' not supported between instances of '" ++ left ++ "' and '" ++ right ++ "'"
  | unformatted typeName => "unsupported format string passed to " ++ typeName ++ ".__format__"

end ReportError

namespace ScalarKey

/-- A key among numbers, as a fraction with a positive denominator and a sign; the infinities are
kept apart, and so is what is no number and has no place among numbers. -/
inductive Magnitude where
  | least
  | value (numerator : Int) (denominator : Nat)
  | greatest
  | nowhere

/-- The number that a key is. -/
def magnitude? : ScalarKey → Option Magnitude
  | float (.finite negative significand exponent) =>
    let (numerator, denominator) := Binary64.scale 2 exponent (significand, 1)
    some (.value (if negative then -(numerator : Int) else numerator) denominator)
  | float (.infinite negative) => some (if negative then .least else .greatest)
  | float .notANumber => some .nowhere
  | key => key.asInteger?.map fun value => .value value 1

/-- Whether one number comes before another. -/
def Magnitude.before : Magnitude → Magnitude → Bool
  | nowhere, _ | _, nowhere => false
  | least, least | greatest, _ | value _ _, least => false
  | least, _ | value _ _, greatest => true
  | value left below, value right under => left * under < right * below

/-- Whether one key comes before another; keys of different sorts cannot be compared. -/
def before (left right : ScalarKey) : Except ReportError Bool :=
  match left, right with
  | text left, text right => .ok (left < right)
  | left, right =>
    match left.magnitude?, right.magnitude? with
    | some left, some right => .ok (left.before right)
    | _, _ => .error (.unordered left.toJson.typeName right.toJson.typeName)

/-- The width in which keys are reported. -/
def reportWidth : Nat := 20

/-- A text moved to the right end of a column. -/
def alignRight (width : Nat) (text : String) : String :=
  String.ofList (List.replicate (width - text.length) ' ') ++ text

/-- A key in its column. Truth values are written as numbers. -/
def column : ScalarKey → Except ReportError String
  | null => .error (.unformatted "NoneType")
  | text value => .ok (alignRight reportWidth value)
  | key => .ok (alignRight reportWidth ((key.asInteger?.map toString).getD key.display))

end ScalarKey

namespace Config

/-- The overrides in the order of the names of their operators. -/
def sortedPrecedences (config : Config) : List Override :=
  config.precedences.mergeSort fun left right => !decide (right.sign.name < left.sign.name)

/-- The constructs in the order of their keys, if the keys can be compared. -/
def sortedConstructs (config : Config) : Except ReportError (List (ScalarKey × Construct)) :=
  Sorting.sort (fun left right => ScalarKey.before left.1 right.1) config.constructs

/-- The line for an override. The precedence is assumed to have a display, however many digits it
has; the limit of the JSON reader is not one of reports. -/
def precedenceLine (entry : Override) : String :=
  ScalarKey.alignRight ScalarKey.reportWidth entry.sign.name ++ " → precedence "
    ++ toString entry.precedence

/-- The line for a construct. -/
def constructLine (entry : ScalarKey × Construct) : Except ReportError String := do
  return (← entry.1.column) ++ " → " ++ entry.2.memberName

/-- All that has been configured, one entry on a line. Only the heads can make it fail: integers are
shown with all their digits, without the limit that the JSON reader has. -/
def report (config : Config) : Except ReportError String := do
  let constructs ← config.sortedConstructs
  let lines ← constructs.mapM constructLine
  return String.intercalate "\n" (config.sortedPrecedences.map precedenceLine ++ lines)

end Config

end WolframSyntax
