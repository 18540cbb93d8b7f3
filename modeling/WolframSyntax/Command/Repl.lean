import WolframSyntax.Command.Log
import WolframSyntax.Reading.File
import WolframSyntax.Text.CodeRanges
import WolframSyntax.Text.BracketDepth
import WolframSyntax.Tree.Output

/-!
# Conversations

A conversation reads lines until they leave no bracket open, and then answers: it writes the tree
of the text with what is wrong with it, or carries out a command. Commands begin with a colon; they
change how trees are written or tell where a name gets its meaning.
-/

namespace WolframSyntax

/-- A conversation: how trees are written, what texts are read with, the last tree that was written
and the lines of a text that is not complete. -/
structure Repl where
  format : String
  verbose : Bool
  grammar : Grammar
  classifier : Classifier
  clock : Nat
  lastTree : Option StampedTree
  pending : List String

namespace Repl

/-- The line a conversation begins with. -/
def banner (format : String) : String :=
  "wlparse REPL [format=" ++ format ++ "]. Type 'exit' or 'quit' to leave."

/-- The line a conversation ends with. -/
def farewell : String := "Exiting wlparse REPL."

/-- A new conversation and its first line. -/
def start (format : String) (verbose : Bool) (config : Option Config) : Repl × List Action :=
  let table := (config.map Config.constructTable).getD ConstructTable.standard
  let grammar := (config.map Config.grammar).getD Grammar.standard
  (⟨format, verbose, grammar, Classifier.ofTable table, 0, none, []⟩,
    .print (banner format) :: (LogEntry.ofGrammar config).map .log)

/-- What is shown where a line is expected. -/
def prompt (repl : Repl) : String := if repl.pending.isEmpty then ">>> " else "... "

/-- What a conversation says when its input ends or is broken off. -/
def interrupted : List Action := [.print ("\n" ++ farewell)]

/-- Whether a line ends a conversation. -/
def leaves (line : String) : Bool :=
  let word := Text.trimBlank line
  word == "exit" || word == "quit"

/-- The report of a failure of the program itself. -/
def failureReport (message : String) : List Action :=
  [.print "[error] >>>", .print ("Traceback\nValueError: " ++ message ++ "\n")]

/-- The line for an error of a tree. -/
def errorLine {Label : Type} (node : Tree Label) : Action :=
  .print ("[syntax] >>> " ++ Classifier.placeText node.position ++ ": "
    ++ node.message.getD "None")

/-- The tree of a text as text, or the report of what is wrong with the format. -/
def render (format : String) (tree : SyntaxTree) : Except String String :=
  match OutputFormat.ofName? format with
  | none => .error (OutputFormat.unknownNameMessage format)
  | some format =>
    match format.render? [tree] with
    | some text => .ok text
    | none => .error Tree.headlessMessage

/-- Answers a text with its tree. -/
def answerText (repl : Repl) (text : String) : Repl × List Action :=
  let tree := parseSource repl.grammar text
  let log := (LogEntry.ofTree tree).map Action.log
  match render repl.format tree with
  | .error message => (repl, log ++ failureReport message)
  | .ok output =>
    let (forest, planted) := Forest.plant ⟨[], repl.clock⟩ tree
    let shown := if output.isEmpty then [] else [Action.print output]
    let display := if repl.verbose then [Action.print ("[tree] >>> " ++ tree.display)] else []
    ({ repl with clock := forest.clock, lastTree := some planted },
      log ++ shown ++ display ++ tree.errors.map errorLine)

/-- The command that tells where a name gets its meaning. -/
def resolveCommand : String := ":resolve"

/-- Carries out the command to tell where a name gets its meaning. -/
def answerResolve (repl : Repl) (name : String) : Repl × List Action :=
  if name.isEmpty then (repl, [.print "[error] >>> Usage: :resolve NAME"])
  else
    match repl.lastTree with
    | none => (repl, [.print "[error] >>> Nothing parsed yet."])
    | some tree =>
      let (log, text, classifier) := repl.classifier.describeLogged tree name
      ({ repl with classifier := classifier }, log ++ [.print ("[resolve] >>> " ++ text)])

/-- Answers a complete text, which may be a command. -/
def answer (repl : Repl) (text : String) : Repl × List Action :=
  if text.isEmpty then (repl, [])
  else if text = ":json" then
    ({ repl with format := "json" }, [.print "[mode] >>> Output format json"])
  else if text = ":fullform" then
    ({ repl with format := "fullform" }, [.print "[mode] >>> Output format fullform"])
  else if text = ":verbose" then
    let verbose := !repl.verbose
    ({ repl with verbose := verbose },
      [.print ("[mode] >>> Verbose mode " ++ (if verbose then "ON" else "OFF"))])
  else if resolveCommand.toList.isPrefixOf text.toList then
    let name := String.ofList (text.toList.drop resolveCommand.length)
    answerResolve repl (Text.trimBlank name)
  else answerText repl text

/-- Reads one line. There is no conversation any more if the line ends it. -/
def read (repl : Repl) (line : String) : Option Repl × List Action :=
  if repl.pending.isEmpty && leaves line then (none, [.print farewell])
  else
    let lines := repl.pending ++ [line]
    let text := String.intercalate "\n" lines
    if 0 < Text.bracketDepth text then (some { repl with pending := lines }, [])
    else
      let (repl, actions) := answer { repl with pending := [] } (Text.trimBlank text)
      (some repl, actions)

end Repl

end WolframSyntax
