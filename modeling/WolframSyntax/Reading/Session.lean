import WolframSyntax.Reading.File

/-!
# Reading expressions one at a time

A session reads single expressions from a token list, with any strength from outside, and can step
over tokens in between. While brackets are open in a session, ends of lines are ignored.
-/

namespace WolframSyntax

/-- Why a session cannot go on. -/
inductive SessionError where
  | unended (length : Nat)
  | pastEnd (position : Position)
  deriving DecidableEq, Repr

namespace SessionError

/-- The report of a failure. -/
def message : SessionError → String
  | unended length => UnendedStream.message ⟨length⟩
  | pastEnd position =>
    "Attempted to advance past end of input at line " ++ toString position.line ++ ", col "
      ++ toString position.col

end SessionError

/-- A token list of which some words have been read. The end word, if there is one, is the last of
the words to come. -/
structure Session where
  grammar : Grammar
  length : Nat
  words : List Word
  openBrackets : Nat

namespace Session

/-- A session of which nothing has been read. -/
def ofTokens (grammar : Grammar) (tokens : List Token) : Session :=
  let stream := WordStream.ofTokens tokens
  ⟨grammar, tokens.length, stream.words ++ (stream.ending.map Prod.fst).toList, 0⟩

/-- Whether ends of lines are ignored. -/
def isBracketed (session : Session) : Bool := 0 < session.openBrackets

/-- The word in view. -/
def word (session : Session) : Except SessionError Word :=
  match session.words with
  | word :: _ => .ok word
  | [] => .error (.unended session.length)

/-- Reads on in an expression until it is finished: the outcome and the words from the one in view
on. There is no outcome if the words come to an end first. -/
def readOn (surroundings : Surroundings) : Reading → List Word → Option (Option Outcome) × List Word
  | _, [] => (none, [])
  | reading, word :: words =>
    match reading.read surroundings word with
    | .reading reading => readOn surroundings reading words
    | .finished outcome => (some outcome, word :: words)

/-- Reads one expression that the outside holds with the strength `floor`. There is no outcome if
no expression begins with the word in view. -/
def readExpression (session : Session) (floor : Int) :
    Except SessionError (Option Outcome) × Session :=
  let surroundings : Surroundings := ⟨session.grammar, floor, session.isBracketed⟩
  match readOn surroundings Reading.fresh session.words with
  | (some outcome, words) => (.ok outcome, { session with words := words })
  | (none, words) => (.error (.unended session.length), { session with words := words })

/-- Steps over one word. -/
def advance (session : Session) : Except SessionError Session :=
  match session.words with
  | [] => .error (.unended session.length)
  | word :: words =>
    if word.token.isEnd then .error (.pastEnd word.token.position)
    else .ok { session with words := words }

/-- Opens a bracket. -/
def openBracket (session : Session) : Session :=
  { session with openBrackets := session.openBrackets + 1 }

/-- Closes a bracket. -/
def closeBracket (session : Session) : Session :=
  { session with openBrackets := session.openBrackets - 1 }

end Session

end WolframSyntax
