import WolframSyntax.Command.Program

/-!
# Running on given files

The program on files, input lines and an environment that are given, with all that it writes. This
is the whole behaviour of the program as a function.
-/

namespace WolframSyntax

/-- Files in one directory, and what has been written so far: new files, the output and the
complaints. -/
structure Desk where
  files : List (String × List UInt8)
  made : List (String × String)
  output : String
  complaints : String

/-- Work on a desk. -/
abbrev DeskM := StateM Desk

namespace Desk

/-- A desk with files on which nothing has been written. -/
def ofFiles (files : List (String × List UInt8)) : Desk := ⟨files, [], "", ""⟩

/-- The names that a path leads through, the name of the file last. -/
def steps (path : String) : List String :=
  (path.splitOn "/").filter fun part => part != "." && part != ""

/-- The name of the file that a path leads to. -/
def fileName (path : String) : String := String.intercalate "/" (steps path)

/-- Whether there is a file with a name. -/
def hasFile (desk : Desk) (name : String) : Bool := (desk.files.lookup name).isSome

/-- Whether there are files in the directory with a name. -/
def hasDirectory (desk : Desk) (name : String) : Bool :=
  name = "" || desk.files.any fun entry => (name ++ "/").toList.isPrefixOf entry.1.toList

/-- The fault that keeps a path from leading from the names in front of it to its last name. -/
def obstacle? (desk : Desk) (front : String) : List String → Option FileFault
  | [] | [_] => none
  | name :: names =>
    let place := front ++ name
    if desk.hasFile place then some .notADirectory
    else if desk.hasDirectory place then obstacle? desk (place ++ "/") names
    else some .notFound

/-- The content of a file. -/
def readFile (path : String) : DeskM (Except FileFault (List UInt8)) := do
  let desk ← get
  let name := fileName path
  match desk.obstacle? "" (steps path), desk.files.lookup name with
  | some fault, _ => return .error fault
  | none, some bytes => return .ok bytes
  | none, none => return .error (if desk.hasDirectory name then .isDirectory else .notFound)

/-- Writes a file. Files that were there already are not listed as made. -/
def writeFile (path text : String) : DeskM (Except FileFault Unit) := do
  let desk ← get
  let name := fileName path
  match desk.obstacle? "" (steps path) with
  | some fault => return .error fault
  | none =>
    if desk.hasDirectory name ∨ path.toList.getLast? = some '/' then return .error .isDirectory
    else
      if !desk.hasFile name then set { desk with made := Json.put (· == ·) name text desk.made }
      return .ok ()

/-- Writes down what a program does. -/
def act (action : Action) : DeskM Unit :=
  modify fun desk =>
    match action with
    | .print line => { desk with output := desk.output ++ line ++ "\n" }
    | .complain line => { desk with complaints := desk.complaints ++ line ++ "\n" }
    | .log entry => { desk with complaints := desk.complaints ++ entry.line ++ "\n" }

/-- The desk as host. -/
def host : Host DeskM := ⟨readFile, writeFile, act⟩

/-- Carries a conversation on over input lines, until one ends it, one is missing or the input ends.
The prompts come back. -/
def converse (logging : Bool) (repl : Repl) : List (Option String) → DeskM (List String)
  | some line :: lines => do
    let (next, actions) := repl.read line
    Program.actAll host logging actions
    match next with
    | some next => return repl.prompt :: (← converse logging next lines)
    | none => return [repl.prompt]
  | _ => do
    Program.actAll host logging Repl.interrupted
    return [repl.prompt]

/-- Runs the program with input lines for a conversation. The status and the prompts come back, or
the failure that it has no report for. -/
def runProgram (arguments : List String) (configured : Option String)
    (lines : List (Option String)) : DeskM (Except SectionError (Nat × List String)) := do
  match ← Program.run host arguments configured with
  | .exit status => return .ok (status, [])
  | .failed error => return .error error
  | .converse repl =>
    return .ok (0, ← converse (Program.wantsLog arguments) repl lines)

/-- Carries a conversation on from its start. The prompts come back. -/
def runRepl (format : String) (verbose : Bool) (config : Option Config)
    (lines : List (Option String)) : DeskM (List String) := do
  let (repl, actions) := Repl.start format verbose config
  Program.actAll host false actions
  converse false repl lines

end Desk

end WolframSyntax
