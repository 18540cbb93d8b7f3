import WolframSyntax.Reading.Frame

/-!
# Reading an expression

An expression is read word by word. What has been read is a stack of frames, innermost first, and
a focus that says what is expected next. A word either becomes part of the expression, or it does
not belong to it and the expression is finished without it (`Reading.read`).

A complete expression is handed on by `settle`: an operator that binds more strongly than the
innermost frame holds its operand goes on from it, and otherwise the frame receives it and may be
complete in turn. Every turn leaves fewer frames, so a word is decided after finitely many.
-/

namespace WolframSyntax

/-- An expression that has been begun: the unfinished constructs, innermost first, and what is
expected next. -/
structure Reading where
  frames : List Frame
  focus : Focus

/-- The circumstances of an expression: the grammar, the strength with which the outside holds the
expression, and whether the outside ignores ends of lines. -/
structure Surroundings where
  grammar : Grammar
  floor : Int
  bracketed : Bool

/-- What becomes of an expression when a word is in view. -/
inductive Progress where
  /-- The word has become part of the expression. -/
  | reading (reading : Reading)
  /-- The expression is complete without the word; `none` if the word cannot begin one. -/
  | finished (outcome : Option Outcome)

namespace Surroundings

/-- Operators must bind more strongly than this to go on from a complete expression. -/
def floorOf (surroundings : Surroundings) : List Frame → Int
  | [] => surroundings.floor
  | frame :: _ => frame.floor

/-- Whether ends of lines are ignored. -/
def isBracketed (surroundings : Surroundings) (frames : List Frame) : Bool :=
  surroundings.bracketed || frames.any Frame.brackets

end Surroundings

namespace Reading

/-- The expression that begins with `token` inside `frames`. -/
def begin (frames : List Frame) (opening : Opening) (token : Token) : Reading :=
  let first := [SyntaxTree.leaf token]
  match opening with
  | .atom kind => ⟨frames, .complete ⟨SyntaxTree.ofKind kind first, true⟩⟩
  | .blank kind => ⟨frames, .blankName kind token none⟩
  | .group => ⟨⟨.group, 0, first, true⟩ :: frames, .operand⟩
  | .list => ⟨⟨.items .list, 0, first, true⟩ :: frames, .firstItem⟩
  | .operator kind precedence => ⟨⟨.operand kind, precedence, first, true⟩ :: frames, .operand⟩

/-- The expression that begins with a word as an operand of the innermost frame. The trivia in
front of the word stays with the frame. -/
def beginOperand (frame : Frame) (frames : List Frame) (opening : Opening) (word : Word) :
    Reading :=
  begin (frame.takeLead word :: frames) opening word.token

/-- The expression `left`, continued by the operator of a word. -/
def continueWith (grammar : Grammar) (frames : List Frame) (left : SyntaxTree) (sign : Operator)
    (continuation : Continuation) (word : Word) : Reading :=
  let precedence := grammar.precedence sign
  let taken := left :: word.leaves
  match continuation with
  | .binary kind nestsRight =>
    let floor := if nestsRight then precedence - 1 else precedence
    ⟨⟨.operand kind, floor, taken, true⟩ :: frames, .operand⟩
  | .flat kind => ⟨⟨.chain kind sign, precedence, taken, true⟩ :: frames, .operand⟩
  | .product => ⟨⟨.chain .times .times, precedence, taken, true⟩ :: frames, .operand⟩
  | .suffix kind => ⟨frames, .complete ⟨SyntaxTree.ofKind kind taken, true⟩⟩
  | .call => ⟨⟨.items .call, 0, taken, true⟩ :: frames, .arguments⟩
  | .pattern mark => ⟨frames, .blankName mark word.token (some left)⟩
  | .messageName => ⟨⟨.tag false, precedence, taken, true⟩ :: frames, .operand⟩
  | .compound => ⟨⟨.compound, precedence, taken, true⟩ :: frames, .statement⟩
  | .tagSet => ⟨⟨.tagPattern, precedence, taken, true⟩ :: frames, .operand⟩

/-- The product of `left` and the factor that begins with a word. -/
def multiply (grammar : Grammar) (frames : List Frame) (left : SyntaxTree) (opening : Opening)
    (word : Word) : Reading :=
  beginOperand ⟨.chain .times .times, grammar.precedence .times, [left], true⟩ frames opening word

/-- The expression in which a word goes on from the complete expression `left`, if the word can do
so and binds strongly enough. -/
def extend? (surroundings : Surroundings) (frames : List Frame) (left : SyntaxTree) (word : Word) :
    Option Reading :=
  let grammar := surroundings.grammar
  match word.link? (surroundings.isBracketed frames) with
  | some (.sign sign continuation) =>
    if surroundings.floorOf frames < grammar.precedence sign then
      some (continueWith grammar frames left sign continuation word)
    else none
  | some (.factor opening) =>
    if surroundings.floorOf frames < grammar.precedence .times then
      some (multiply grammar frames left opening word)
    else none
  | none => none

/-- A reaction as an expression that has taken the word, or as a construct that is complete without
it. -/
def ofReaction (frames : List Frame) (word : Word) : Reaction → Reading ⊕ Outcome
  | .waits frame focus => .inl ⟨frame :: frames, focus⟩
  | .begins frame opening => .inl (beginOperand frame frames opening word)
  | .closes outcome => .inl ⟨frames, .complete outcome⟩
  | .ends outcome => .inr outcome

/-- What becomes of a complete expression inside `frames` when a word is in view. -/
def settle (surroundings : Surroundings) (word : Word) : List Frame → Outcome → Progress
  | [], outcome =>
    match extend? surroundings [] outcome.tree word with
    | some reading => .reading reading
    | none => .finished (some outcome)
  | frame :: frames, outcome =>
    match extend? surroundings (frame :: frames) outcome.tree word with
    | some reading => .reading reading
    | none =>
      let bracketed := surroundings.isBracketed (frame :: frames)
      match ofReaction frames word (frame.receive bracketed outcome word) with
      | .inl reading => .reading reading
      | .inr outcome => settle surroundings word frames outcome

/-- What becomes of the expression when the construct inside `frames` has reacted to a word. -/
def react (surroundings : Surroundings) (frames : List Frame) (reaction : Reaction) (word : Word) :
    Progress :=
  match ofReaction frames word reaction with
  | .inl reading => .reading reading
  | .inr outcome => settle surroundings word frames outcome

/-- The innermost frame receives an operand without regard to what could go on from it. -/
def feed (surroundings : Surroundings) (frame : Frame) (frames : List Frame) (outcome : Outcome)
    (word : Word) : Progress :=
  react surroundings frames
    (frame.receive (surroundings.isBracketed (frame :: frames)) outcome word) word

/-- An expression has to begin with the word; if it cannot, the innermost frame goes without. -/
def readOperand (surroundings : Surroundings) (frames : List Frame) (word : Word) : Progress :=
  match frames, word.opening? with
  | [], some opening => .reading (begin [] opening word.token)
  | [], none => .finished none
  | frame :: frames, some opening => .reading (beginOperand frame frames opening word)
  | frame :: frames, none => feed surroundings frame frames (frame.missing word) word

/-- An enclosure ends at once or has its first item begin with the word. -/
def readFirstItem (surroundings : Surroundings) (frames : List Frame) (word : Word) : Progress :=
  match frames with
  | ⟨.items enclosure, floor, children, succeeded⟩ :: outer =>
    if word.isOperator enclosure.closing then
      react surroundings outer
        (Frame.closeItems ⟨.items enclosure, floor, children, succeeded⟩ enclosure word) word
    else readOperand surroundings frames word
  | frames => readOperand surroundings frames word

/-- A second bracket that touches the first turns a call into a part. -/
def readArguments (surroundings : Surroundings) (frames : List Frame) (word : Word) : Progress :=
  match frames with
  | frame :: outer =>
    if word.isOperator .leftBracket && word.touches then
      .reading ⟨{ frame.take word with role := .items .part } :: outer, .firstItem⟩
    else readFirstItem surroundings frames word
  | [] => readOperand surroundings [] word

/-- The next expression of a sequence begins on the same line, or an empty one stands for it. -/
def readStatement (surroundings : Surroundings) (frames : List Frame) (word : Word) : Progress :=
  match frames, word.openingInLine? (surroundings.isBracketed frames) with
  | frame :: frames, some opening => .reading (beginOperand frame frames opening word)
  | frame :: frames, none =>
    feed surroundings frame frames ⟨SyntaxTree.absent .null none word.token, true⟩ word
  | [], _ => readOperand surroundings [] word

/-- The tree of a blank, inside a pattern if the blank is named. -/
def blankTree (kind : NodeKind) (named : Option SyntaxTree) (children : List SyntaxTree) :
    SyntaxTree :=
  let blank := SyntaxTree.ofKind kind children
  match named with
  | some left => SyntaxTree.ofKind .pattern [left, blank]
  | none => blank

/-- A name that touches a blank belongs to it. -/
def readBlankName (surroundings : Surroundings) (frames : List Frame) (kind : NodeKind)
    (blank : Token) (named : Option SyntaxTree) (word : Word) : Progress :=
  let mark := SyntaxTree.leaf blank
  if word.token.kind = .identifier ∧ word.touches then
    .reading ⟨frames, .complete
      ⟨blankTree kind named [mark, SyntaxTree.ofKind .symbol [word.leaf]], true⟩⟩
  else settle surroundings word frames ⟨blankTree kind named [mark], true⟩

/-- What becomes of an expression when the next word is in view. -/
def read (surroundings : Surroundings) (reading : Reading) (word : Word) : Progress :=
  match reading.focus with
  | .operand => readOperand surroundings reading.frames word
  | .firstItem => readFirstItem surroundings reading.frames word
  | .arguments => readArguments surroundings reading.frames word
  | .partEnd =>
    match reading.frames with
    | frame :: frames => react surroundings frames (frame.closePart word) word
    | [] => readOperand surroundings [] word
  | .statement => readStatement surroundings reading.frames word
  | .blankName kind blank named =>
    readBlankName surroundings reading.frames kind blank named word
  | .complete outcome => settle surroundings word reading.frames outcome

/-- An expression that has not been begun. -/
def fresh : Reading := ⟨[], .operand⟩

end Reading

end WolframSyntax
