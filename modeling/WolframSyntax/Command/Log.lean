import WolframSyntax.Config.Basic
import WolframSyntax.Resolve.Symbol
import WolframSyntax.Tree.Gap

/-!
# The log

What a program notes down about its work: how the grammar was made, what is wrong with a text and
what was found out about names. Every entry names the part of the program that made it.
-/

namespace WolframSyntax

/-- How important an entry of the log is. -/
inductive LogLevel where
  | debug
  | info
  deriving DecidableEq, Repr

/-- An entry of the log. -/
structure LogEntry where
  level : LogLevel
  part : String
  text : String

namespace LogEntry

/-- The entry as a line. -/
def line (entry : LogEntry) : String :=
  let level :=
    match entry.level with
    | .debug => "DEBUG"
    | .info => "INFO"
  level ++ " wlparse." ++ entry.part ++ ": " ++ entry.text

/-- The entry on an update of a configuration. -/
def ofUpdate (update : Config.Update) : LogEntry :=
  ⟨.debug, "wl_config",
    "Configured " ++ toString update.precedences.length ++ " precedence override(s) and "
      ++ toString update.constructs.length ++ " scoping construct(s)"⟩

/-- The overrides of a configuration as they are shown in the log. -/
def displayOverrides (overrides : List Override) : String :=
  Json.display <| .obj <| overrides.map fun entry => (entry.sign.name, .int entry.precedence)

/-- The entries on the making of a grammar. -/
def ofGrammar (config : Option Config) : List LogEntry :=
  let overrides := (config.map Config.precedences).getD []
  let shown : List LogEntry :=
    if overrides.isEmpty then []
    else [⟨.debug, "wl_registry", "Precedence overrides: " ++ displayOverrides overrides⟩]
  shown ++
    [⟨.debug, "wl_registry",
      "Built registry with " ++ toString Grammar.openers.length ++ " prefix and "
        ++ toString Grammar.continuers.length ++ " infix parselets"⟩]

/-- The entries on what is wrong with a text. -/
def ofTree (tree : SyntaxTree) : List LogEntry :=
  let gaps := tree.gaps.map fun (index, message) =>
    (⟨.debug, "wl_builder", "Syntax error at token " ++ toString index ++ ": " ++ message⟩ :
      LogEntry)
  let count := tree.errors.length
  gaps ++
    (if count = 0 then []
     else [⟨.debug, "wl_parser", "Parsed with " ++ toString count ++ " syntax error(s)"⟩])

/-- The entry on something that was found out about names. -/
def ofScopeEvent (event : ScopeEvent) : LogEntry :=
  let part :=
    match event with
    | .classified _ _ => "wl_scope"
    | .foundLocal _ _ _ | .foundNothing _ => "wl_resolve"
  ⟨.debug, part, event.message⟩

end LogEntry

/-- Something a program does that can be seen: a line on the output, a line of complaint, or an
entry of the log. -/
inductive Action where
  | print (line : String)
  | complain (line : String)
  | log (entry : LogEntry)

namespace Classifier

/-- The entries of the journal in order, and the classifier with an empty journal. -/
def takeJournal (classifier : Classifier) : List LogEntry × Classifier :=
  (classifier.journal.reverse.map LogEntry.ofScopeEvent, { classifier with journal := [] })

/-- The description of a name with the entries it makes in the log. -/
def describeLogged (classifier : Classifier) (tree : StampedTree) (name : String) :
    List Action × String × Classifier :=
  let (text, classifier) := classifier.describe ⟨tree, []⟩ name
  let (entries, classifier) := classifier.takeJournal
  (entries.map .log, text, classifier)

end Classifier

end WolframSyntax
