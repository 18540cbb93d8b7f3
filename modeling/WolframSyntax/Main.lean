import WolframSyntax.Command.Program

/-!
# The executable

Runs the program on the files, the terminal and the environment of the machine.
-/

namespace WolframSyntax.Main

/-- The variable that names a configuration. -/
def configVariable : String := "WLPARSE_CONFIG"

/-- The fault of an error of the system. -/
def faultOf : IO.Error → FileFault
  | .noFileOrDirectory _ _ _ => .notFound
  | .inappropriateType _ _ _ => .isDirectory
  | _ => .notPermitted

/-- The result of an action that may fail with an error of the system. -/
def attempt {Value : Type} (action : IO Value) : IO (Except FileFault Value) := do
  try return .ok (← action) catch error => return .error (faultOf error)

/-- Carries out what a program does. -/
def act : Action → IO Unit
  | .print line => IO.println line
  | .complain line => IO.eprintln line
  | .log entry => IO.eprintln entry.line

/-- The machine as host. -/
def machine : Host IO where
  readFile path := attempt do return (← IO.FS.readBinFile path).toList
  writeFile path text := attempt (IO.FS.writeFile path text)
  act := act

/-- A line without its line break; none at the end of the input. -/
def readLine (input : IO.FS.Stream) : IO (Option String) := do
  let line ← input.getLine
  if line.isEmpty then return none
  else if line.endsWith "\n" then return some (line.dropEnd 1).toString
  else return some line

/-- Carries a conversation on to its end. -/
partial def converse (input : IO.FS.Stream) (logging : Bool) (repl : Repl) : IO Unit := do
  let output ← IO.getStdout
  output.putStr repl.prompt
  output.flush
  match ← readLine input with
  | none => Program.actAll machine logging Repl.interrupted
  | some line =>
    let (next, actions) := repl.read line
    Program.actAll machine logging actions
    match next with
    | some repl => converse input logging repl
    | none => pure ()

end WolframSyntax.Main

open WolframSyntax in
def main (arguments : List String) : IO UInt32 := do
  match ← Program.run Main.machine arguments (← IO.getEnv Main.configVariable) with
  | .exit status => return status.toUInt32
  | .failed error =>
    IO.eprintln error.message
    return 1
  | .converse repl =>
    Main.converse (← IO.getStdin) (Program.wantsLog arguments) repl
    return 0
