import WolframSyntax.Config.Section
import WolframSyntax.Grammar.Basic
import WolframSyntax.Json.Reader
import WolframSyntax.Scope.Construct

/-!
# Configurations

A configuration gives operators other precedences and makes further heads localizing constructs.
It grows by values that are valid as a whole: an entry that contradicts an earlier one, or that
means nothing, is a conflict, and a value with conflicts changes nothing.
-/

namespace WolframSyntax

/-- A configured precedence. -/
structure Override where
  sign : Operator
  precedence : Int
  positive : 0 < precedence

/-- What has been configured, in the order in which it was, and the files it was loaded from. -/
structure Config where
  precedences : List Override
  constructs : List (ScalarKey × Construct)
  sources : List String

/-- An entry that cannot be applied. -/
inductive Conflict where
  | notAnOperator (key : ScalarKey)
  | notPositive (key : ScalarKey) (value : Json)
  | otherPrecedence (key : ScalarKey) (earlier later : Int)
  | unknownConstruct (key : ScalarKey) (value : Json)
  | otherConstruct (key : ScalarKey) (earlier later : Construct)

namespace Conflict

/-- The report of a conflict. Keys, values and precedences are assumed to have a display, however
many digits they have (`Json.display`). -/
def message : Conflict → String
  | notAnOperator key => "precedence of " ++ key.display ++ ": not an infix token type"
  | notPositive key value =>
    "precedence of " ++ key.display ++ ": " ++ value.display ++ " is not a positive integer"
  | otherPrecedence key earlier later =>
    "precedence of " ++ key.display ++ ": conflict between " ++ toString earlier ++ " and "
      ++ toString later
  | unknownConstruct key value =>
    "scoping construct " ++ key.display ++ ": unknown construct type " ++ value.display
  | otherConstruct key earlier later =>
    "scoping construct " ++ key.display ++ ": conflict between " ++ earlier.memberName ++ " and "
      ++ later.memberName

end Conflict

/-- Why a value cannot be applied to a configuration. -/
inductive ConfigError where
  | notAnObject
  | unknownKeys (keys : List String)
  | badSection (error : SectionError)
  | invalid (conflicts : List Conflict)
  | unreadable (reason : String)

namespace ConfigError

/-- What every report on a file that cannot be read begins with. -/
def unreadableMessage : String := "Failed to load grammar config"

/-- The report of a failure. -/
def message : ConfigError → String
  | notAnObject => "Configuration must be a JSON object"
  | unknownKeys _ => "Unknown configuration keys"
  | badSection error => error.message
  | invalid _ => "Invalid grammar configuration"
  | unreadable reason => unreadableMessage ++ ": " ++ reason

/-- The reports on single entries that go with the failure. -/
def details : ConfigError → List String
  | unknownKeys keys => keys.map Text.quote
  | invalid conflicts => conflicts.map Conflict.message
  | _ => []

end ConfigError

namespace Config

/-- The configuration in which nothing is configured. -/
def empty : Config := ⟨[], [], []⟩

/-- The configured precedence of an operator. -/
def precedence? (config : Config) (sign : Operator) : Option Int :=
  (config.precedences.find? fun entry => entry.sign == sign).map Override.precedence

/-- The operator that a key names, if the operator continues an expression. -/
def operator? : ScalarKey → Option Operator
  | .text name => (Operator.ofName? name).filter Continuation.continues
  | _ => none

/-- The override that an entry is, if it is valid and contradicts no earlier one. -/
def readPrecedence (config : Config) (entry : ScalarKey × Json) : Except Conflict Override :=
  match operator? entry.1, entry.2 with
  | none, _ => .error (.notAnOperator entry.1)
  | some sign, .int value =>
    if positive : 0 < value then
      match config.precedence? sign with
      | some earlier =>
        if earlier = value then .ok ⟨sign, value, positive⟩
        else .error (.otherPrecedence entry.1 earlier value)
      | none => .ok ⟨sign, value, positive⟩
    else .error (.notPositive entry.1 entry.2)
  | some _, _ => .error (.notPositive entry.1 entry.2)

/-- The construct that a value names. -/
def construct? : Json → Option Construct
  | .str name => Construct.ofName? name
  | _ => none

/-- The construct that an entry gives its key, if it contradicts no earlier one. -/
def readConstruct (config : Config) (entry : ScalarKey × Json) :
    Except Conflict (ScalarKey × Construct) :=
  match construct? entry.2 with
  | none => .error (.unknownConstruct entry.1 entry.2)
  | some construct =>
    match Json.get? ScalarKey.same entry.1 config.constructs with
    | some earlier =>
      if earlier = construct then .ok (entry.1, construct)
      else .error (.otherConstruct entry.1 earlier construct)
    | none => .ok (entry.1, construct)

/-- The failures among a list of results. -/
def failures {Error Value : Type} (results : List (Except Error Value)) : List Error :=
  results.filterMap fun result =>
    match result with
    | .error error => some error
    | .ok _ => none

/-- The values among a list of results. -/
def successes {Error Value : Type} (results : List (Except Error Value)) : List Value :=
  results.filterMap fun result =>
    match result with
    | .error _ => none
    | .ok value => some value

/-- The overrides with one more; an operator that is overridden already keeps its place. -/
def putOverride (override : Override) : List Override → List Override
  | [] => [override]
  | entry :: entries =>
    if entry.sign = override.sign then override :: entries
    else entry :: putOverride override entries

/-- The key of the section of precedences. -/
def precedenceKey : String := "precedence"

/-- The key of the section of localizing constructs. -/
def constructsKey : String := "scoping_constructs"

/-- The section of an object under a key; a missing one is empty. -/
def sectionOf (entries : List (String × Json)) (key : String) : Except SectionError ConfigSection :=
  ConfigSection.ofJson ((Json.get? (· == ·) key entries).getD .null)

/-- The keys of an object that no configuration has, in order. -/
def unknownKeys (entries : List (String × Json)) : List String :=
  ((entries.map Prod.fst).filter fun key => key != precedenceKey && key != constructsKey).mergeSort
    fun left right => !decide (right < left)

/-- A value that has been found valid for a configuration. -/
structure Update where
  precedences : List Override
  constructs : List (ScalarKey × Construct)

/-- The update that a value is for a configuration. -/
def readUpdate (config : Config) (value : Json) : Except ConfigError Update := do
  match value with
  | .obj entries =>
    match unknownKeys entries with
    | [] =>
      let precedenceSection ← (sectionOf entries precedenceKey).mapError .badSection
      let constructSection ← (sectionOf entries constructsKey).mapError .badSection
      let precedences := precedenceSection.map config.readPrecedence
      let constructs := constructSection.map config.readConstruct
      match failures precedences ++ failures constructs with
      | [] => return ⟨successes precedences, successes constructs⟩
      | conflicts => throw (.invalid conflicts)
    | keys => throw (.unknownKeys keys)
  | _ => throw .notAnObject

/-- The configuration after an update. -/
def apply (config : Config) (update : Update) : Config :=
  { config with
    precedences := update.precedences.foldl (fun all entry => putOverride entry all)
      config.precedences
    constructs := update.constructs.foldl
      (fun all entry => Json.put ScalarKey.same entry.1 entry.2 all) config.constructs }

/-- The configuration grown by a value. -/
def configure (config : Config) (value : Json) : Except ConfigError Config :=
  (config.readUpdate value).map config.apply

/-- The reason why a text that is no JSON text cannot be read. -/
def malformedReason : String := "not a JSON text"

/-- The update that the text of a file is for a configuration. -/
def readFile (config : Config) (text : String) : Except ConfigError Update :=
  match Json.parse? text with
  | some value => config.readUpdate value
  | none => .error (.unreadable malformedReason)

/-- The configuration grown by the text of a file. -/
def load (config : Config) (path text : String) : Except ConfigError Config := do
  let config := config.apply (← config.readFile text)
  return { config with sources := config.sources ++ [path] }

/-- The grammar with the configured precedences. -/
def grammar (config : Config) : Grammar :=
  config.precedences.foldl
    (fun grammar entry => grammar.override entry.sign entry.precedence entry.positive)
    Grammar.standard

/-- The table of heads with the configured ones in front. -/
def constructTable (config : Config) : ConstructTable :=
  (config.constructs.filterMap fun (key, construct) =>
    match key with
    | .text head => some (head, construct)
    | _ => none) ++ ConstructTable.standard

end Config

end WolframSyntax
