import WolframSyntax.Reading.Word

/-!
# Frames

A frame is a construct that is not yet complete: what it still waits for, how strongly it holds its
next operand, and the children it has so far. `Frame.receive` says what a frame does with a
complete operand when the next word is in view. The frame may take the word, be complete with it or
without it, or ask for another operand.

A missing operand is an error expression (`Frame.missing`), so that frames need not tell the two
cases apart. An error is placed in front of the trivia that precedes the word in view. What can be
wrong with a text (`Diagnostic`) never stops its reading; it becomes the message of an error node.
-/

namespace WolframSyntax

/-! ## Diagnostics -/

/-- Something wrong with a text. -/
inductive Diagnostic where
  | expressionExpected
  | closingExpected (mark : String)
  | tagExpected
  | assignmentExpected
  | unexpectedToken (text : String)
  | badToken (text : String)
  deriving DecidableEq, Repr

namespace Diagnostic

/-- The report of a diagnostic. -/
def message : Diagnostic → String
  | expressionExpected => "Expression expected"
  | closingExpected mark => "'" ++ mark ++ "' expected"
  | tagExpected => "Symbol or string expected after '::'"
  | assignmentExpected => "'=' or ':=' expected after tag pattern"
  | unexpectedToken text => "Unexpected token '" ++ text ++ "'"
  | badToken text => "Bad character or unterminated literal '" ++ text ++ "'"

end Diagnostic

/-! ## Frames -/

/-- A complete expression, and whether it was read without an error of its own. -/
structure Outcome where
  tree : SyntaxTree
  succeeded : Bool

/-- The three constructs that hold a list of expressions between brackets. -/
inductive Enclosure where
  | list
  | call
  | part
  deriving DecidableEq, Repr

namespace Enclosure

/-- The construct an enclosure makes. -/
def kind : Enclosure → NodeKind
  | list => .list
  | call => .functionCall
  | part => .part

/-- The bracket that ends the list of expressions. -/
def closing : Enclosure → Operator
  | list => .rightBrace
  | call | part => .rightBracket

/-- What is reported if the closing bracket is missing. The two brackets of a part are missing one
by one. -/
def unclosed : Enclosure → List Diagnostic
  | list => [.closingExpected (String.singleton '}')]
  | call => [.closingExpected "]"]
  | part => [.closingExpected "]]", .closingExpected "]"]

end Enclosure

/-- What an unfinished construct waits for. -/
inductive Role where
  /-- The expression in parentheses. -/
  | group
  /-- An item between brackets. -/
  | items (enclosure : Enclosure)
  /-- Its only or its last operand. -/
  | operand (kind : NodeKind)
  /-- An operand of a flat operator. -/
  | chain (kind : NodeKind) (sign : Operator)
  /-- An expression of a sequence. -/
  | compound
  /-- The tag of a message name, the last one it can have if `last` holds. -/
  | tag (last : Bool)
  /-- The pattern of an assignment to a tag. -/
  | tagPattern
  deriving DecidableEq, Repr

/-- An unfinished construct. Operators that bind no more strongly than `floor` do not go on from
its operand. -/
structure Frame where
  role : Role
  floor : Int
  children : List SyntaxTree
  succeeded : Bool

/-- What is expected of the next word. -/
inductive Focus where
  /-- The beginning of an expression. -/
  | operand
  /-- The first item of an enclosure or its closing bracket. -/
  | firstItem
  /-- The second bracket of a part or the first item of a call. -/
  | arguments
  /-- The second closing bracket of a part. -/
  | partEnd
  /-- The next expression of a sequence, which may be left out. -/
  | statement
  /-- The name that belongs to a blank, if it touches. A named blank is part of a pattern. -/
  | blankName (kind : NodeKind) (blank : Token) (named : Option SyntaxTree)
  /-- Anything that goes on from a complete expression. -/
  | complete (outcome : Outcome)

/-- What a frame does when an operand is complete and a word is in view. -/
inductive Reaction where
  /-- It takes the word and waits for more. -/
  | waits (frame : Frame) (focus : Focus)
  /-- It begins another operand with the word. -/
  | begins (frame : Frame) (opening : Opening)
  /-- It takes the word and is complete. -/
  | closes (outcome : Outcome)
  /-- It is complete without the word. -/
  | ends (outcome : Outcome)

namespace Frame

/-- Whether ends of lines are ignored inside the construct. -/
def brackets (frame : Frame) : Bool :=
  match frame.role with
  | .group | .items _ => true
  | _ => false

/-- The frame with one more child, which was read with or without an error. -/
def add (frame : Frame) (outcome : Outcome) : Frame :=
  { frame with
    children := frame.children ++ [outcome.tree]
    succeeded := frame.succeeded && outcome.succeeded }

/-- The frame with a word as further leaves. -/
def take (frame : Frame) (word : Word) : Frame :=
  { frame with children := frame.children ++ word.leaves }

/-- The frame with the trivia in front of a word as further leaves. -/
def takeLead (frame : Frame) (word : Word) : Frame :=
  { frame with children := frame.children ++ word.leadLeaves }

/-- The frame with errors that are reported in front of a word. -/
def fail (frame : Frame) (diagnostics : List Diagnostic) (word : Word) : Frame :=
  { frame with
    children := frame.children ++ diagnostics.map fun diagnostic =>
      SyntaxTree.absent .error (some diagnostic.message) word.token
    succeeded := false }

/-- The finished construct. -/
def outcome (frame : Frame) (kind : NodeKind) : Outcome :=
  ⟨SyntaxTree.ofKind kind frame.children, frame.succeeded⟩

/-- The error expression in place of an operand that does not begin with the word in view. -/
def missing (frame : Frame) (word : Word) : Outcome :=
  let diagnostic : Diagnostic :=
    match frame.role with
    | .tag _ => .tagExpected
    | _ => .expressionExpected
  ⟨SyntaxTree.absent .error (some diagnostic.message) word.token, false⟩

/-- A group or an enclosure ends with the word in view, or reports that it does not. -/
def close (frame : Frame) (kind : NodeKind) (closing : Operator) (unclosed : List Diagnostic)
    (word : Word) : Reaction :=
  if word.isOperator closing then .closes ((frame.take word).outcome kind)
  else .ends ((frame.fail unclosed word).outcome kind)

/-- An enclosure ends with the word in view. The first closing bracket of a part is followed by
the second. -/
def closeItems (frame : Frame) (enclosure : Enclosure) (word : Word) : Reaction :=
  if enclosure = .part ∧ word.isOperator enclosure.closing then .waits (frame.take word) .partEnd
  else frame.close enclosure.kind enclosure.closing enclosure.unclosed word

/-- The second closing bracket of a part is the word in view, or is reported missing. -/
def closePart (frame : Frame) (word : Word) : Reaction :=
  frame.close .part .rightBracket [.closingExpected "]"] word

/-- A message tag as it is kept: a name stands for its text, and only strings may stand beside
names. The flag tells whether anything was written at all. -/
def tagOutcome (outcome : Outcome) : Outcome × Bool :=
  match outcome.tree.kind with
  | .error => (outcome, false)
  | .symbol =>
    (⟨SyntaxTree.ofKind .stringifiedSymbol outcome.tree.children, outcome.succeeded⟩, true)
  | .string => (outcome, true)
  | _ => (⟨SyntaxTree.error Diagnostic.tagExpected.message [outcome.tree], false⟩, true)

/-- What the frame does with a complete operand when `word` is in view. -/
def receive (frame : Frame) (bracketed : Bool) (outcome : Outcome) (word : Word) : Reaction :=
  let fed := frame.add outcome
  match frame.role with
  | .group => fed.close .group .rightPar [.closingExpected ")"] word
  | .items enclosure =>
    if word.isOperator .comma then .waits (fed.take word) .operand
    else fed.closeItems enclosure word
  | .operand kind => .ends (fed.outcome kind)
  | .chain kind sign =>
    if !outcome.succeeded then .ends (fed.outcome kind)
    else
      match word.link? bracketed with
      | some (.sign next _) =>
        if next = sign then .waits (fed.take word) .operand else .ends (fed.outcome kind)
      | some (.factor opening) =>
        if sign = .times then .begins fed opening else .ends (fed.outcome kind)
      | none => .ends (fed.outcome kind)
  | .compound =>
    if word.isOperator .semicolon && (bracketed || !word.beginsLine) then
      .waits (fed.take word) .statement
    else .ends (fed.outcome .compoundExpression)
  | .tag last =>
    let (tag, present) := tagOutcome outcome
    let fed := { frame with children := frame.children ++ [tag.tree], succeeded := tag.succeeded }
    if present && !last && word.isOperator .doubleColon then
      .waits { fed.take word with role := .tag true } .operand
    else .ends (fed.outcome .messageName)
  | .tagPattern =>
    if !outcome.succeeded then .ends (fed.outcome .tagSet)
    else if word.isOperator .set then
      .waits { fed.take word with role := .operand .tagSet, floor := frame.floor - 1 } .operand
    else if word.isOperator .setDelayed then
      .waits { fed.take word with role := .operand .tagSetDelayed, floor := frame.floor - 1 }
        .operand
    else .ends ((fed.fail [.assignmentExpected] word).outcome .tagSet)

end Frame

end WolframSyntax
