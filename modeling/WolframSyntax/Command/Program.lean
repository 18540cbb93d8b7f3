import WolframSyntax.Command.Arguments
import WolframSyntax.Command.Repl
import WolframSyntax.Text.Utf8

/-!
# The program

What the program does with its arguments: it loads the configuration, reads a source, writes its
tree and reports errors and definitions, or it begins a conversation. Files and output are reached
through a host, so that the same program runs on real files and on given ones.
-/

namespace WolframSyntax

/-- Why a file cannot be opened. -/
inductive FileFault where
  | notFound
  | isDirectory
  | notADirectory
  | notPermitted
  deriving DecidableEq, Repr

namespace FileFault

/-- The number and the name of a fault. -/
def description : FileFault → String
  | notFound => "[Errno 2] No such file or directory"
  | isDirectory => "[Errno 21] Is a directory"
  | notADirectory => "[Errno 20] Not a directory"
  | notPermitted => "[Errno 13] Permission denied"

/-- The report of a fault with a file. -/
def message (fault : FileFault) (path : String) : String :=
  fault.description ++ ": " ++ Text.quote path

end FileFault

/-- What a program needs of its surroundings. -/
structure Host (m : Type → Type) where
  readFile : String → m (Except FileFault (List UInt8))
  writeFile : String → String → m (Except FileFault Unit)
  act : Action → m Unit

/-- How the work of the program ends: with a status, with a failure that it has no report for, or
by beginning a conversation. -/
inductive Ending where
  | exit (status : Nat)
  | failed (error : SectionError)
  | converse (repl : Repl)

namespace Program

/-- What the names of source files end in. -/
def sourceSuffixes : List String := [".m", ".wl"]

/-- Whether a path names a source file. -/
def isSourcePath (path : String) : Bool :=
  sourceSuffixes.any fun suffix => suffix.toList.isSuffixOf path.toList

/-- The report on a path that names no source file. -/
def unsupportedMessage : String := "Only .m and .wl files are supported."

/-- The status of a run that could not be done. -/
def refusedStatus : Nat := 2

/-- The status of a run that found errors and was to tell so. -/
def errorsStatus : Nat := 1

/-- A line of complaint. -/
def complaint (text : String) : Action := .complain ("wlparse: " ++ text)

variable {m : Type → Type} [Monad m]

/-- Acts several times, keeping entries of the log back unless they are wanted. -/
def actAll (host : Host m) (logging : Bool) (actions : List Action) : m Unit :=
  actions.forM fun action =>
    match action with
    | .log _ => if logging then host.act action else pure ()
    | action => host.act action

/-- Loads a file into a configuration. -/
def loadConfig (host : Host m) (logging : Bool) (config : Config) (path : String) :
    m (Except ConfigError Config) := do
  match ← host.readFile path with
  | .error fault => return .error (.unreadable (fault.message path))
  | .ok bytes =>
    match Text.decodeUtf8 bytes with
    | .error error => return .error (.unreadable error.message)
    | .ok text =>
      match config.readFile text with
      | .error error => return .error error
      | .ok update =>
        actAll host logging [.log (LogEntry.ofUpdate update)]
        return .ok { config.apply update with sources := config.sources ++ [path] }

/-- Loads files into a configuration, one after another, as long as none of them fails. -/
def loadConfigs (host : Host m) (logging : Bool) (config : Config) :
    List String → m (Except ConfigError Config)
  | [] => return .ok config
  | path :: paths => do
    match ← loadConfig host logging config path with
    | .error error => return .error error
    | .ok config => loadConfigs host logging config paths

/-- A text that has been given, unless it is empty. -/
def nonempty (text : Option String) : List String := (text.filter fun text => text != "").toList

/-- The text of the source, or the report on why there is none. -/
def readSource (host : Host m) (options : Options) (source : String) :
    m (Except String String) := do
  if options.isString then return .ok source
  else if !isSourcePath source then return .error unsupportedMessage
  else
    match ← host.readFile source with
    | .error fault => return .error (fault.message source)
    | .ok bytes =>
      match Text.decodeUtf8 bytes with
      | .error error => return .error error.message
      | .ok text => return .ok (String.ofList (Text.unifyLineBreaks text.toList))

/-- Writes the tree to where it is wanted. -/
def writeOutput (host : Host m) (options : Options) (output : String) : m (Except String Unit) := do
  match nonempty options.out with
  | [] =>
    host.act (.print output)
    return .ok ()
  | path :: _ =>
    match ← host.writeFile path (output ++ "\n") with
    | .error fault => return .error (fault.message path)
    | .ok () =>
      actAll host options.verbose
        [.log ⟨.info, "wl_cli", "Wrote " ++ options.format ++ " output to " ++ path⟩]
      return .ok ()

/-- The line for an error of a tree. -/
def errorLine (node : SyntaxTree) : Action :=
  .complain (Classifier.placeText node.position ++ ": " ++ node.message.getD "None")

/-- Reports the errors of a tree and where a name gets its meaning, as far as asked for. -/
def reportTree (host : Host m) (options : Options) (config : Config) (tree : SyntaxTree) :
    m Unit := do
  if options.showErrors then actAll host options.verbose (tree.errors.map errorLine)
  match nonempty options.resolve with
  | [] => pure ()
  | name :: _ =>
    let (log, text, _) := (Classifier.ofTable config.constructTable).describeLogged
      (Forest.plant Forest.empty tree).2 name
    actAll host options.verbose (log ++ [.print text])

/-- Reads a source and writes its tree. The number of its errors comes back, or the report on why
it cannot be done. -/
def process (host : Host m) (options : Options) (config : Config) (source : String) :
    m (Except String Nat) := do
  match ← readSource host options source with
  | .error report => return .error report
  | .ok text =>
    let tree := parseSource config.grammar text
    actAll host options.verbose
      ((LogEntry.ofGrammar (some config) ++ LogEntry.ofTree tree).map .log)
    match Repl.render options.format tree with
    | .error report => return .error report
    | .ok output =>
      match ← writeOutput host options output with
      | .error report => return .error report
      | .ok () =>
        reportTree host options config tree
        return .ok tree.errors.length

/-- What the program does with its options and a configuration. -/
def runConfigured (host : Host m) (options : Options) (config : Config) : m Ending := do
  match options.source with
  | none =>
    let (repl, actions) := Repl.start options.format options.verbose (some config)
    actAll host options.verbose actions
    return .converse repl
  | some source =>
    match ← process host options config source with
    | .error report =>
      host.act (complaint report)
      return .exit refusedStatus
    | .ok errors =>
      return .exit (if options.showErrors ∧ errors ≠ 0 then errorsStatus else 0)

/-- What the program does with its options. `configured` is the path of a configuration that is
given from outside. -/
def runOptions (host : Host m) (options : Options) (configured : Option String) : m Ending := do
  let paths := nonempty configured ++ nonempty options.config
  match ← loadConfigs host options.verbose Config.empty paths with
  | .ok config => runConfigured host options config
  | .error (.badSection error) => return .failed error
  | .error error =>
    host.act (complaint error.message)
    actAll host false (error.details.map fun detail => .complain (" - " ++ detail))
    return .exit refusedStatus

/-- What the program does with its arguments. Without any it begins a conversation at once. -/
def run (host : Host m) (arguments : List String) (configured : Option String) : m Ending := do
  if arguments.isEmpty then
    let (repl, actions) := Repl.start Options.standard.format false none
    actAll host false actions
    return .converse repl
  else
    match Arguments.parse arguments with
    | .error .helpWanted =>
      host.act (.print UsageError.usage)
      return .exit 0
    | .error error =>
      host.act (.complain UsageError.usage)
      host.act (.complain ("wlparse: error: " ++ error.message))
      return .exit refusedStatus
    | .ok options => runOptions host options configured

/-- Whether the log is wanted. -/
def wantsLog (arguments : List String) : Bool :=
  match Arguments.parse arguments with
  | .ok options => options.verbose
  | .error _ => false

end Program

end WolframSyntax
