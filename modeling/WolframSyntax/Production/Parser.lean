import WolframSyntax.Production.Build
import WolframSyntax.Reading.Step

/-!
# Parsing onto a production

A parser makes no nodes. It puts marks into a production: one in front of the first token of a
construct, one around an expression that an operator goes on from, and it closes a mark when the
construct is complete. An error is a mark of its own, so parsing goes on behind it. Only when the
whole list has been read does the production become a tree.

Every construct has its part of the parser, and the parts call one another. They are allowed calls
of one another to some depth only (`Parser.upTo`), and loops have as many turns. That this suffices,
and that no call of the production is refused, is not part of the definitions.
-/

namespace WolframSyntax

/-- Why parsing fails. -/
inductive ParserError where
  /-- The production refuses a call. -/
  | refused (error : ProductionError)
  /-- An operator is to go on from an expression that has no mark. -/
  | unmarked
  /-- The blank of a pattern begins no expression. -/
  | unopened
  /-- An operator without operands on its right makes no construct. -/
  | unknownSuffix
  /-- A mark is missing in the chain of its anchor. -/
  | strayMark

/-- What is known of an expression that has been parsed: its mark and what it was closed as, if
there was an expression, and whether it was parsed without an error of its own. -/
structure MarkedOutcome where
  mark : Option MarkId
  kind : Option NodeKind
  succeeded : Bool

namespace MarkedOutcome

/-- Nothing has been parsed. -/
def notParsed : MarkedOutcome := ⟨none, none, false⟩

end MarkedOutcome

namespace Surroundings

/-- The surroundings of an operand that is held with the strength `floor`. -/
def held (surroundings : Surroundings) (floor : Int) : Surroundings :=
  { surroundings with floor := floor }

/-- The surroundings between brackets. -/
def grouped (surroundings : Surroundings) : Surroundings :=
  { surroundings with bracketed := true }

end Surroundings

/-- What parses onto a production. It gives `none` if it does not end with the calls that it is
allowed. -/
abbrev Parsing : Type → Type := StateT Production (ExceptT ParserError Option)

namespace Parsing

variable {Result State : Type}

/-! ## Calls of the production -/

/-- A call of the production. -/
def ofCall (call : Production → Except ProductionError (Result × Production)) : Parsing Result :=
  fun production => some ((call production).mapError .refused)

/-- The token in view. -/
def token : Parsing Token := ofCall fun production =>
  production.token.map fun token => (token, production)

/-- Reads the token in view. -/
def advance : Parsing Unit := ofCall fun production =>
  production.advance.map fun next => ((), next)

/-- The kind of the token behind the one in view, trivia counted. -/
def lookahead : Parsing (Option TokenKind) := ofCall fun production =>
  (production.lookahead 1).map fun kind => (kind, production)

/-- Puts a mark in front of the token in view. -/
def mark : Parsing MarkId := ofCall fun production => .ok production.mark.swap

/-- Closes a mark. -/
def done (id : MarkId) (kind : NodeKind) : Parsing Unit := ofCall fun production =>
  (production.done id kind).map fun next => ((), next)

/-- Closes a mark as an error. -/
def fail (id : MarkId) (diagnostic : Diagnostic) : Parsing Unit := ofCall fun production =>
  match production.fail id diagnostic.message with
  | (next, none) => .ok ((), next)
  | (_, some error) => .error error

/-- Records a node without tokens. -/
def empty (kind : NodeKind) (message : Option String) : Parsing Unit := ofCall fun production =>
  (production.empty kind message).map fun made => ((), made.1)

/-- Records an error in front of the token in view. -/
def error (diagnostic : Diagnostic) : Parsing Unit := empty .error (some diagnostic.message)

/-- Drops a mark. -/
def drop (id : MarkId) : Parsing Unit := ofCall fun production => .ok ((), production.drop id)

/-- Puts a mark around another one, which has to be in the chain of its anchor. -/
def precede (id : MarkId) : Parsing MarkId := do
  let production ← get
  match production.marks[id]?.bind fun mark => production.marks[mark.anchor]? with
  | some anchor =>
    if id ∈ anchor.chain then ofCall fun production => (production.precede id).map Prod.swap
    else throw .strayMark
  | none => throw .strayMark

/-- The tree of the production. -/
def build : Parsing SyntaxTree := ofCall fun production =>
  production.build.2.map fun tree => (tree, production.build.1)

/-! ## Layout -/

/-- Whether the token in view is of the given kind. -/
def isAt (kind : TokenKind) : Parsing Bool := do
  let token ← token
  return token.kind == kind

/-- Whether there is trivia in front of the token in view. -/
def blankBefore : Parsing Bool := do
  let production ← get
  return production.blankBefore

/-- Whether the expression ends because a line ends in front of the token in view. -/
def atLineEnd (bracketed : Bool) : Parsing Bool := do
  let production ← get
  return !bracketed && production.lineEndBefore

/-- Whether the token in view goes on with an operator on the same line. -/
def continuesWith (bracketed : Bool) (kind : TokenKind) : Parsing Bool := do
  if ← isAt kind then
    let ends ← atLineEnd bracketed
    return !ends
  else return false

/-- Whether the token in view begins an expression on the same line. -/
def expressionFollows (bracketed : Bool) : Parsing Bool := do
  if ← atLineEnd bracketed then return false
  else
    let token ← token
    return (Opening.ofKind? token.kind).isSome

/-- Whether the token in view begins an expression that multiplies the one in front of it. -/
def juxtapositionFollows (bracketed : Bool) : Parsing Bool := do
  if ← expressionFollows bracketed then
    let token ← token
    match Continuation.ofKind? token.kind with
    | none => return true
    | some (_, continuation) =>
      let apart ← blankBefore
      return continuation.mustTouch && apart
  else return false

/-! ## Parts of constructs -/

/-- Takes turns until one of them comes to a result, as many as are allowed. -/
def iterate (turn : State → Parsing (State ⊕ Result)) : Nat → State → Parsing Result
  | 0, _ => fun _ => none
  | limit + 1, state => do
    match ← turn state with
    | .inl next => iterate turn limit next
    | .inr result => return result

/-- Closes the mark of a construct. -/
def finish (id : MarkId) (kind : NodeKind) (succeeded : Bool) : Parsing MarkedOutcome := do
  done id kind
  return ⟨some id, some kind, succeeded⟩

/-- Puts a mark around an expression that an operator goes on from. -/
def around (left : MarkedOutcome) : Parsing MarkId :=
  match left.mark with
  | some id => precede id
  | none => throw .unmarked

/-- Reads a closing bracket, or reports that it is missing. -/
def closing (sign : Operator) (text : String) : Parsing Bool := do
  if ← isAt (.operator sign) then
    advance
    return true
  else
    error (.closingExpected text)
    return false

/-- Reads the name that touches a blank. -/
def blankName : Parsing Unit := do
  if ← isAt .identifier then
    if ← blankBefore then return ()
    else
      let name ← mark
      advance
      done name .symbol
  else return ()

/-- Reads the sign in front of the next operand of a chain, if the chain goes on. -/
def nextOperand (bracketed : Bool) (kind : TokenKind) : Parsing Bool := do
  if ← continuesWith bracketed kind then
    advance
    return true
  else return false

/-- Reads the sign in front of the next factor, if there is one and the product goes on. -/
def nextFactor (bracketed : Bool) : Parsing Bool := do
  if ← nextOperand bracketed (.operator .times) then return true
  else juxtapositionFollows bracketed

/-- The construct that a token makes of a tag and its pattern. -/
def assignment? : TokenKind → Option NodeKind
  | .operator .set => some .tagSet
  | .operator .setDelayed => some .tagSetDelayed
  | _ => none

/-- How two expressions side by side multiply, if a token of the given kind begins the second. -/
def implicit? (kind : TokenKind) : Option (Operator × Continuation) :=
  if (Opening.ofKind? kind).isSome then some (.times, .product) else none

/-- The operator that goes on from an expression with the token in view. -/
def next? (bracketed : Bool) : Parsing (Option (Operator × Continuation)) := do
  if ← atLineEnd bracketed then return none
  else
    let token ← token
    let apart ← blankBefore
    match Continuation.ofKind? token.kind with
    | some (sign, continuation) =>
      if continuation.mustTouch && apart then return implicit? token.kind
      else return some (sign, continuation)
    | none => return implicit? token.kind

/-- Reads a token that has no place in an expression. -/
def skip : Parsing Unit := do
  let token ← token
  let diagnostic : Diagnostic :=
    if token.kind = .error then .badToken token.text else .unexpectedToken token.text
  let id ← mark
  advance
  fail id diagnostic

end Parsing

/-- What the parts of a parser call: what parses an expression, and how many turns a loop may
take. -/
structure Parser where
  limit : Nat
  expression : Surroundings → Parsing MarkedOutcome

namespace Parser

open Parsing

variable (parser : Parser)

/-! ## Operands -/

/-- Parses an operand, or reports that it is missing. -/
def operand (surroundings : Surroundings) : Parsing Bool := do
  let outcome ← parser.expression surroundings
  if outcome.mark.isSome then return outcome.succeeded
  else
    error .expressionExpected
    return false

/-- Parses one item between brackets. It is not the last one if a comma follows. -/
def item (surroundings : Surroundings) (succeeded : Bool) : Parsing (Bool ⊕ Bool) := do
  let parsed ← parser.operand (surroundings.held 0)
  if ← isAt (.operator .comma) then
    advance
    return .inl (succeeded && parsed)
  else return .inr (succeeded && parsed)

/-- Parses the items in front of a closing bracket. -/
def sequence (surroundings : Surroundings) (sign : Operator) : Parsing Bool := do
  if ← isAt (.operator sign) then return true
  else iterate (parser.item surroundings) parser.limit true

/-! ## Constructs that begin with a token -/

/-- Parses the construct that begins with the token in view. -/
def opened (surroundings : Surroundings) : Opening → Parsing MarkedOutcome
  | .atom kind => do
    let id ← mark
    advance
    finish id kind true
  | .blank kind => do
    let id ← mark
    advance
    blankName
    finish id kind true
  | .group => do
    let id ← mark
    advance
    let parsed ← parser.operand (surroundings.grouped.held 0)
    let closed ← closing .rightPar ")"
    finish id .group (closed && parsed)
  | .list => do
    let id ← mark
    advance
    let parsed ← parser.sequence surroundings.grouped .rightBrace
    let closed ← closing .rightBrace (String.singleton '}')
    finish id .list (closed && parsed)
  | .operator kind precedence => do
    let id ← mark
    advance
    let parsed ← parser.operand (surroundings.held precedence)
    finish id kind parsed

/-! ## Constructs that go on from an expression -/

/-- One turn of a chain: the sign, if the chain goes on, and an operand. The chain ends behind an
operand with an error. -/
def link (surroundings : Surroundings) (goesOn : Parsing Bool) (_ : Unit) :
    Parsing (Unit ⊕ Bool) := do
  if ← goesOn then
    if ← parser.operand surroundings then return .inl ()
    else return .inr false
  else return .inr true

/-- Parses a chain of operands from the first one on. -/
def chain (surroundings : Surroundings) (left : MarkedOutcome) (kind : NodeKind)
    (goesOn : TokenKind → Parsing Bool) : Parsing MarkedOutcome := do
  let id ← around left
  let sign ← token
  let succeeded ← iterate (parser.link surroundings (goesOn sign.kind)) parser.limit ()
  finish id kind succeeded

/-- Parses the arguments between brackets. A second bracket that touches the first asks for a
part. -/
def arguments (surroundings : Surroundings) (left : MarkedOutcome) : Parsing MarkedOutcome := do
  let id ← around left
  let behind ← lookahead
  advance
  if behind = some (.operator .leftBracket) then
    advance
    let parsed ← parser.sequence surroundings.grouped .rightBracket
    let inner ← closing .rightBracket "]]"
    let outer ← closing .rightBracket "]"
    finish id .part (outer && (inner && parsed))
  else
    let parsed ← parser.sequence surroundings.grouped .rightBracket
    let closed ← closing .rightBracket "]"
    finish id .functionCall (closed && parsed)

/-- Parses the tag behind a sign. The first flag tells whether there was any expression, the second
whether it was a name or a string. A name becomes the string of its text, and anything else is an
error. -/
def tag (surroundings : Surroundings) : Parsing (Bool × Bool) := do
  advance
  let outcome ← parser.expression surroundings
  match outcome.mark with
  | none =>
    error .tagExpected
    return (false, false)
  | some id =>
    if outcome.kind = some .symbol then
      let name ← precede id
      done name .stringifiedSymbol
      drop id
      return (true, outcome.succeeded)
    else if outcome.kind = some .string then return (true, outcome.succeeded)
    else
      let wrong ← precede id
      fail wrong .tagExpected
      return (true, false)

/-- Parses a second tag behind the first one, if there is a sign for it. -/
def secondTag (surroundings : Surroundings) (first : Bool × Bool) : Parsing Bool := do
  if first.1 then
    if ← isAt (.operator .doubleColon) then
      let second ← parser.tag surroundings
      return second.2
    else return first.2
  else return first.2

/-- Parses the expression behind a semicolon, which may be left out. -/
def statement (surroundings : Surroundings) (succeeded : Bool) : Parsing Bool := do
  if ← expressionFollows surroundings.bracketed then
    let parsed ← parser.operand surroundings
    return parsed && succeeded
  else
    empty .null none
    return succeeded

/-- One turn of a sequence of expressions: a semicolon and the expression behind it. -/
def statementTurn (surroundings : Surroundings) (succeeded : Bool) : Parsing (Bool ⊕ Bool) := do
  advance
  let succeeded ← parser.statement surroundings succeeded
  if ← continuesWith surroundings.bracketed (.operator .semicolon) then return .inl succeeded
  else return .inr succeeded

/-- Parses the value that is assigned to a tag and its pattern. -/
def assignment (surroundings : Surroundings) (precedence : Int) (id : MarkId) :
    Parsing MarkedOutcome := do
  let token ← token
  match assignment? token.kind with
  | none =>
    error .assignmentExpected
    finish id .tagSet false
  | some kind =>
    advance
    let parsed ← parser.operand (surroundings.held (precedence - 1))
    finish id kind parsed

/-- Parses the construct that goes on from an expression with an operator. -/
def applied (surroundings : Surroundings) (sign : Operator) (left : MarkedOutcome) :
    Continuation → Parsing MarkedOutcome :=
  let precedence := surroundings.grammar.precedence sign
  fun
  | .binary kind nestsRight => do
    let id ← around left
    advance
    let parsed ← parser.operand
      (surroundings.held (if nestsRight then precedence - 1 else precedence))
    finish id kind parsed
  | .flat kind =>
    parser.chain (surroundings.held precedence) left kind (nextOperand surroundings.bracketed)
  | .product =>
    parser.chain (surroundings.held precedence) left .times
      fun _ => nextFactor surroundings.bracketed
  | .suffix _ =>
    match (Continuation.ofOperator? sign).bind Continuation.suffixKind? with
    | none => throw .unknownSuffix
    | some kind => do
      let id ← around left
      advance
      finish id kind true
  | .call => parser.arguments surroundings left
  | .pattern _ => do
    let id ← around left
    let token ← token
    match Opening.ofKind? token.kind with
    | none => throw .unopened
    | some opening =>
      let blank ← parser.opened surroundings opening
      finish id .pattern blank.succeeded
  | .messageName => do
    let id ← around left
    let first ← parser.tag (surroundings.held precedence)
    let succeeded ← parser.secondTag (surroundings.held precedence) first
    finish id .messageName succeeded
  | .compound => do
    let id ← around left
    let succeeded ← iterate (parser.statementTurn (surroundings.held precedence)) parser.limit true
    finish id .compoundExpression succeeded
  | .tagSet => do
    let id ← around left
    advance
    if ← parser.operand (surroundings.held precedence) then
      parser.assignment surroundings precedence id
    else finish id .tagSet false

/-! ## Expressions and files -/

/-- One turn of the climb from operator to operator. The operator in view goes on from the
expression if it binds more strongly than the expression is held. -/
def climb (surroundings : Surroundings) (left : MarkedOutcome) :
    Parsing (MarkedOutcome ⊕ MarkedOutcome) := do
  if left.mark.isNone then return .inr left
  else
    match ← next? surroundings.bracketed with
    | none => return .inr left
    | some (sign, continuation) =>
      if surroundings.grammar.precedence sign ≤ surroundings.floor then return .inr left
      else
        let next ← parser.applied surroundings sign left continuation
        return .inl next

/-- The parser that leaves operands to the given one. -/
def above : Parser where
  limit := parser.limit + 1
  expression surroundings := do
    let token ← token
    match Opening.ofKind? token.kind with
    | none => return .notParsed
    | some opening =>
      let left ← parser.opened surroundings opening
      iterate (parser.climb surroundings) parser.limit left

/-- The parser with operands inside of one another to the given depth. -/
def upTo : Nat → Parser
  | 0 => ⟨0, fun _ _ => none⟩
  | depth + 1 => (upTo depth).above

/-- Parses one expression of a file, or reads one token that has no place in any, unless the end is
in view. -/
def fileTurn (grammar : Grammar) (_ : Unit) : Parsing (Unit ⊕ Unit) := do
  let token ← token
  if token.isEnd then return .inr ()
  else
    let outcome ← parser.expression (FileReading.surroundings grammar)
    if outcome.mark.isSome then return .inl ()
    else
      skip
      return .inl ()

/-- Parses a file onto a production of which nothing has been read, and builds the tree. -/
def file (depth : Nat) (grammar : Grammar) : Parsing SyntaxTree := do
  let root ← mark
  iterate ((upTo depth).fileTurn grammar) depth ()
  done root .file
  build

/-- What the file with the given tokens is parsed to, with calls to the given depth. -/
def parse (depth : Nat) (grammar : Grammar) (tokens : List Token) :
    Option (Except ParserError SyntaxTree) :=
  let parsed : Option (Except ParserError (SyntaxTree × Production)) :=
    file depth grammar (Production.ofTokens tokens)
  parsed.map fun result => result.map Prod.fst

end Parser

end WolframSyntax
