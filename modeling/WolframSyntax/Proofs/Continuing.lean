import WolframSyntax.Proofs.Driving

/-!
# Parsing on from an expression

Every construct that goes on from a complete expression with the word in view is parsed as it is
read (`Parsing.runs_applied`): message names, sequences of expressions, assignments to tags,
patterns, suffixes, and operators with two and with more operands. The construct takes the word, or
it is a product and its next factor does.
-/

namespace WolframSyntax

/-- The node that a continuation makes. -/
def Continuation.node : Continuation → NodeKind
  | binary kind _ | flat kind | suffix kind => kind
  | product => .times
  | call => .functionCall
  | pattern _ => .pattern
  | messageName => .messageName
  | compound => .compoundExpression
  | tagSet => .tagSet

/-- No operator makes an error. -/
theorem Continuation.node_ne_error {sign : Operator} {continuation : Continuation}
    (form : ofOperator? sign = some continuation) : continuation.node ≠ .error := by
  cases sign <;> cases form <;> decide

namespace Parsing

open Production

variable {production since : Production} {place : Nat} {id : MarkId}
  {children : List SyntaxTree} {parser : Parser} {unended : Prop} {surroundings : Surroundings}
  {whole : Option (Option Outcome × List Word)} {word : Word} {rest : List Word}

/-! ## Message names -/

/-- The tag of a message name has been parsed, and the name receives it. -/
def Tagged (surroundings : Surroundings) (since : Production) (place : Nat) (id : MarkId)
    (last : Bool) (floor : Int) (whole : Option (Option Outcome × List Word))
    (behind : List Word) (tag : Bool × Bool) (later : Production) : Prop :=
  ∃ held outcome succeeded,
    tag = ((Frame.tagOutcome outcome).2, (Frame.tagOutcome outcome).1.succeeded) ∧
    Unfinished since later place id (held ++ [(Frame.tagOutcome outcome).1.tree]) ∧
    later.words <:+ behind ∧
    whole = reacted surroundings (Frame.receive ⟨.tag last, floor, held, succeeded⟩
      surroundings.bracketed outcome) later.words

/-- An error in place of a tag is no tag. -/
theorem tagOutcome_of_error {outcome : Outcome} (kind : outcome.tree.kind = .error) :
    Frame.tagOutcome outcome = (outcome, false) := by
  rw [Frame.tagOutcome, kind]

/-- A name becomes the string of its text. -/
theorem tagOutcome_of_symbol {outcome : Outcome} (kind : outcome.tree.kind = .symbol) :
    Frame.tagOutcome outcome
      = (⟨SyntaxTree.ofKind .stringifiedSymbol outcome.tree.children, outcome.succeeded⟩,
        true) := by
  rw [Frame.tagOutcome, kind]

/-- A string is a tag. -/
theorem tagOutcome_of_string {outcome : Outcome} (kind : outcome.tree.kind = .string) :
    Frame.tagOutcome outcome = (outcome, true) := by
  rw [Frame.tagOutcome, kind]

/-- What is neither a name nor a string is inside of an error. -/
theorem tagOutcome_of_other {outcome : Outcome} (plain : outcome.tree.kind ≠ .error)
    (noSymbol : outcome.tree.kind ≠ .symbol) (noString : outcome.tree.kind ≠ .string) :
    Frame.tagOutcome outcome
      = (⟨SyntaxTree.error Diagnostic.tagExpected.message [outcome.tree], false⟩, true) := by
  unfold Frame.tagOutcome
  split
  · next kind => exact (plain kind).elim
  · next kind => exact (noSymbol kind).elim
  · next kind => exact (noString kind).elim
  · rfl

/-- Any mark can be dropped. -/
theorem drop_apply (id : MarkId) (production : Production) :
    drop id production = some (.ok ((), production.drop id)) := rfl

/-- A name that is a tag becomes the string of its text. -/
theorem runs_stringify {Next : Type} {next : Parsing Next} {left : Next → Production → Prop}
    {tree : SyntaxTree} (finished : Finished since production id tree)
    (made : ∀ later new, later.words = production.words →
      Finished since later new (SyntaxTree.ofKind .stringifiedSymbol tree.children) →
      next.Runs later unended left) :
    (do
      let name ← precede id
      done name .stringifiedSymbol
      drop id
      next : Parsing Next).Runs production unended left := by
  obtain ⟨-, mark, -, found, -⟩ := finished.precede_eq
  have apart : id ≠ production.marks.length := Nat.ne_of_lt (lt_length_of_getElem? found)
  refine runs_bind_of_eq (precede_apply finished) ⟨rfl, rfl⟩ ?_
  refine runs_bind_of_eq (done_apply finished.wrapped .stringifiedSymbol) ⟨rfl, rfl⟩ ?_
  refine runs_bind_of_eq (drop_apply id _) ⟨rfl, rfl⟩ ?_
  rw [drop_shut apart]
  exact made _ _ rfl (finished.wrapped_drop.finished .stringifiedSymbol none)

/-- What cannot be a tag is inside an error. -/
theorem runs_reject {Next : Type} {next : Parsing Next} {left : Next → Production → Prop}
    {tree : SyntaxTree} (finished : Finished since production id tree) (diagnostic : Diagnostic)
    (made : ∀ later new, later.words = production.words →
      Finished since later new (SyntaxTree.error diagnostic.message [tree]) →
      next.Runs later unended left) :
    (do
      let wrong ← precede id
      fail wrong diagnostic
      next : Parsing Next).Runs production unended left := by
  refine runs_bind_of_eq (precede_apply finished) ⟨rfl, rfl⟩ ?_
  refine runs_bind_of_eq (fail_apply finished.wrapped diagnostic) ⟨rfl, rfl⟩ ?_
  exact made _ _ rfl (finished.wrapped.finished .error _)

/-- The tag of a message name is parsed as it is read. -/
theorem runs_tag (reads : parser.Reads)
    (unfinished : Unfinished since production place id children)
    (words : production.words = word :: rest) (inner : word.token.isEnd = false)
    (short : production.words.length < parser.limit) {last : Bool} {floor : Int} {succeeded : Bool}
    (same : whole = Reading.run surroundings
      ⟨[⟨.tag last, floor, children ++ word.leaves, succeeded⟩], .operand⟩ rest) :
    (parser.tag (surroundings.held floor)).Runs production (whole = none)
      (Tagged surroundings since place id last floor whole rest) := by
  unfold Parser.tag
  refine runs_advance unfinished words inner fun later unfinished left => ?_
  have short' := length_lt_of_words short words
  subst left
  let frame : Frame := ⟨.tag last, floor, children ++ word.leaves, succeeded⟩
  have bracketed : surroundings.isBracketed [frame] = surroundings.bracketed :=
    isBracketed_singleton rfl
  have parsed := runs_expression reads unfinished.placed short' surroundings frame
  have inside : surroundings.inside frame = surroundings.held floor := inside_eq_held rfl
  rw [← same, inside] at parsed
  refine parsed.bind fun marked last' _ parsed => ?_
  obtain ⟨next, beyond, words', ⟨rfl, rfl, -, goesOn⟩ | ⟨outcome, marks, goesOn, consumes⟩⟩ :=
    parsed
  · refine runs_empty unfinished words' .error _ fun behind made same' => runs_pure ?_
    refine ⟨frame.children, frame.missing next, succeeded, ?_, ?_, same' ▸ List.suffix_refl _, ?_⟩
    · rw [tagOutcome_of_error rfl]
      rfl
    · rw [tagOutcome_of_error rfl]
      exact made
    · rw [same, goesOn, received_eq, bracketed, same']
  · obtain ⟨inner, rfl, finished, plain⟩ := marks
    obtain ⟨_, views⟩ := unfinished.placed.exists_views words'
    have goesOn' : whole = reacted surroundings (Frame.receive
        ⟨.tag last, floor, frame.children ++ next.leadLeaves, succeeded⟩ surroundings.bracketed
          outcome) last'.words := by
      rw [same, goesOn, received_eq, ← bracketed]
      rfl
    have operand {tree : SyntaxTree} {behind : Production} {new : MarkId}
        (finished : Finished later behind new tree) :
        Unfinished since behind place id (frame.children ++ next.leadLeaves ++ [tree]) := by
      rw [← views.leavesBetween_lead]
      exact unfinished.operand finished
    dsimp only
    split
    · next kind =>
      have tag := tagOutcome_of_symbol (Option.some.inj kind)
      refine runs_stringify finished fun behind new same finished => runs_pure ?_
      refine ⟨_, outcome, succeeded, by rw [tag], ?_, same ▸ consumes.1, same ▸ goesOn'⟩
      rw [tag]
      exact operand finished
    · next noSymbol =>
      split
      · next kind =>
        have tag := tagOutcome_of_string (Option.some.inj kind)
        refine runs_pure ⟨_, outcome, succeeded, by rw [tag], ?_, consumes.1, goesOn'⟩
        rw [tag]
        exact operand finished
      · next noString =>
        have tag := tagOutcome_of_other plain (fun kind => noSymbol (congrArg some kind))
          fun kind => noString (congrArg some kind)
        refine runs_reject finished .tagExpected fun behind new same finished => runs_pure ?_
        refine ⟨_, outcome, succeeded, by rw [tag], ?_, same ▸ consumes.1, same ▸ goesOn'⟩
        rw [tag]
        exact operand finished

/-- A message name has a second tag behind a sign, if the first one is there, and no third one. -/
theorem receive_tag (last : Bool) (floor : Int) (held : List SyntaxTree)
    (succeeded bracketed : Bool) (outcome : Outcome) (word : Word) :
    Frame.receive ⟨.tag last, floor, held, succeeded⟩ bracketed outcome word
      = if (Frame.tagOutcome outcome).2 && !last && word.isOperator .doubleColon then
          .waits ⟨.tag true, floor, held ++ [(Frame.tagOutcome outcome).1.tree] ++ word.leaves,
            (Frame.tagOutcome outcome).1.succeeded⟩ .operand
        else .ends ⟨SyntaxTree.ofKind .messageName
          (held ++ [(Frame.tagOutcome outcome).1.tree]), (Frame.tagOutcome outcome).1.succeeded⟩ :=
  rfl

/-- A message name is complete with a tag behind which no other one comes. -/
theorem ready_of_tagged {last : Bool} {floor : Int} {behind : List Word} {tag : Bool × Bool}
    (tagged : Tagged surroundings since since.index id last floor whole behind tag production)
    (ends : ∀ word ∈ production.words.head?,
      (tag.1 && !last && word.isOperator .doubleColon) = false) :
    Ready surroundings since id .messageName whole behind tag.2 production := by
  obtain ⟨held, outcome, succeeded, rfl, unfinished, further, goesOn⟩ := tagged
  refine ⟨_, unfinished, further, ?_⟩
  cases words : production.words with
  | nil => rw [goesOn, words]; rfl
  | cons word rest =>
    have stays := ends word (by rw [words]; rfl)
    rw [goesOn, words, reacted, receive_tag, stays]
    rfl

/-- A second tag is parsed as it is read, where there is a sign for it. -/
theorem runs_secondTag (reads : parser.Reads) {floor : Int} {behind : List Word}
    {first : Bool × Bool}
    (tagged : Tagged surroundings since since.index id false floor whole behind first production)
    (short : production.words.length < parser.limit) :
    (parser.secondTag (surroundings.held floor) first).Runs production (whole = none)
      (Ready surroundings since id .messageName whole behind) := by
  have alone := ready_of_tagged tagged
  obtain ⟨held, outcome, succeeded, rfl, unfinished, further, goesOn⟩ := tagged
  unfold Parser.secondTag
  cases present : (Frame.tagOutcome outcome).2 with
  | false =>
    rw [present] at alone
    exact runs_pure (alone fun _ _ => rfl)
  | true =>
    rw [present] at alone
    refine runs_isAt unfinished.placed (fun none => by rw [goesOn, none]; rfl) _
      fun word rest more words views => ?_
    change Runs (if word.isOperator .doubleColon then _ else _) _ _ _
    split
    · next sign =>
      have inner := isEnd_eq_false_of_kind (eq_of_beq sign)
      rw [words, reacted, receive_tag, present, sign] at goesOn
      refine (runs_tag reads unfinished words inner short goesOn).bind
        fun second last _ tagged => ?_
      obtain ⟨held, outcome, succeeded, tag, unfinished, within, goesOn⟩ := tagged
      have less : rest <:+ behind := (words ▸ List.suffix_cons word rest).trans further
      have tagged : Tagged surroundings since since.index id true floor whole behind second last :=
        ⟨held, outcome, succeeded, tag, unfinished, within.trans less, goesOn⟩
      refine runs_pure (ready_of_tagged tagged fun _ _ => ?_)
      simp
    · next other =>
      refine runs_pure (alone fun next inView => ?_)
      rw [words] at inView
      obtain rfl := Option.some.inj inView
      exact Bool.eq_false_iff.mpr other

/-- A message name is parsed as it is read. -/
theorem runs_messageName (reads : parser.Reads) {marked : MarkedOutcome} {outcome : Outcome}
    (marks : since.Marks production marked outcome)
    (words : production.words = word :: rest) (inner : word.token.isEnd = false)
    (short : production.words.length < parser.limit) {floor : Int}
    (same : whole = Reading.run surroundings
      ⟨[⟨.tag false, floor, outcome.tree :: word.leaves, true⟩], .operand⟩ rest) :
    (do
      let id ← around marked
      let first ← parser.tag (surroundings.held floor)
      let succeeded ← parser.secondTag (surroundings.held floor) first
      finish id .messageName succeeded : Parsing MarkedOutcome).Runs production
      (whole = none) (Complete surroundings since whole rest) := by
  obtain ⟨id, rfl, finished, -⟩ := marks
  refine runs_around finished _ _ fun later new left unfinished => ?_
  refine (runs_tag reads unfinished (left.trans words) inner (left ▸ short) same).bind
    fun first last _ tagged => ?_
  have short' : last.words.length < parser.limit := by
    obtain ⟨_, _, _, _, _, further, _⟩ := tagged
    exact Nat.lt_of_le_of_lt further.length_le (length_lt_of_words short words)
  exact (runs_secondTag reads tagged short').bind fun _ _ _ ready => ready.runs_finish (by decide)

/-! ## Sequences of expressions -/

/-- A sequence of expressions goes on behind a semicolon on the same line. -/
theorem receive_compound (floor : Int) (held : List SyntaxTree) (succeeded bracketed : Bool)
    (outcome : Outcome) (word : Word) :
    Frame.receive ⟨.compound, floor, held, succeeded⟩ bracketed outcome word
      = if word.continuesWith bracketed .semicolon then
          .waits ⟨.compound, floor, held ++ [outcome.tree] ++ word.leaves,
            succeeded && outcome.succeeded⟩ .statement
        else .ends ⟨SyntaxTree.ofKind .compoundExpression (held ++ [outcome.tree]),
          succeeded && outcome.succeeded⟩ := rfl

/-- An expression of a sequence has been parsed, or left out, and the sequence receives it. -/
def Stated (surroundings : Surroundings) (since : Production) (place : Nat) (id : MarkId)
    (floor : Int) (whole : Option (Option Outcome × List Word)) (behind : List Word)
    (succeeded : Bool) (later : Production) : Prop :=
  ∃ held outcome before, succeeded = (before && outcome.succeeded) ∧
    Unfinished since later place id (held ++ [outcome.tree]) ∧ later.words <:+ behind ∧
    whole = reacted surroundings (Frame.receive ⟨.compound, floor, held, before⟩
      surroundings.bracketed outcome) later.words

/-- Where no word is in view, no node is recorded. -/
theorem empty_fails (none : production.tokens[production.index]? = none) (kind : NodeKind)
    (message : Option String) :
    empty kind message production
      = some (.error (.refused (.unended production.tokens.length))) := by
  have failed : production.token = .error (.unended production.tokens.length) := by
    rw [Production.token, none]
  rw [empty, ofCall, Production.empty, failed]
  rfl

/-- Where no word is in view, a sequence fails behind its semicolon. -/
theorem statement_fails (none : production.tokens[production.index]? = none)
    (surroundings : Surroundings) (succeeded : Bool) :
    parser.statement surroundings succeeded production
      = some (.error (.refused (.unended production.tokens.length))) := by
  have ends : atLineEnd surroundings.bracketed production
      = some (.ok (!surroundings.bracketed && production.lineEndBefore, production)) := rfl
  rw [Parser.statement, bind_apply, expressionFollows, bind_apply, ends]
  dsimp only
  cases !surroundings.bracketed && production.lineEndBefore with
  | true =>
    change (empty .null Option.none >>= _ : Parsing Bool) production = _
    rw [bind_apply, empty_fails none]
  | false =>
    rw [if_neg Bool.false_ne_true, bind_apply, token_fails none]

/-- The expression behind a semicolon begins on its line, or an empty one stands for it. -/
theorem run_statement {frame : Frame} (open' : frame.brackets = false) (word : Word)
    (rest : List Word) :
    Reading.run surroundings ⟨[frame], .statement⟩ (word :: rest)
      = if (word.openingInLine? surroundings.bracketed).isSome then
          Reading.run surroundings ⟨[frame], .operand⟩ (word :: rest)
        else reacted surroundings (frame.receive surroundings.bracketed
          ⟨SyntaxTree.absent .null none word.token, true⟩) (word :: rest) := by
  have bracketed : surroundings.isBracketed [frame] = surroundings.bracketed :=
    isBracketed_singleton open'
  rw [Reading.run_cons]
  change (Reading.readStatement surroundings [frame] word).run surroundings word rest = _
  unfold Reading.readStatement
  rw [bracketed]
  cases opens : word.openingInLine? surroundings.bracketed with
  | some opening =>
    rw [Descent.run_operand (Word.opening?_of_openingInLine? opens)]
    rfl
  | none =>
    rw [← bracketed]
    rfl

/-- The expression behind a semicolon is parsed as it is read. -/
theorem runs_statement (reads : parser.Reads)
    (unfinished : Unfinished since production place id children)
    (short : production.words.length < parser.limit) {floor : Int} {succeeded : Bool}
    (same : whole = Reading.run surroundings ⟨[⟨.compound, floor, children, succeeded⟩], .statement⟩
      production.words) :
    (parser.statement (surroundings.held floor) succeeded).Runs production (whole = none)
      (Stated surroundings since place id floor whole production.words) := by
  let frame : Frame := ⟨.compound, floor, children, succeeded⟩
  rcases unfinished.placed.views with ⟨stream, none⟩ | ⟨word, more, views⟩
  · exact .inl ⟨statement_fails none _ _, by rw [same, words, stream]; rfl⟩
  obtain ⟨rest, words⟩ := views.exists_words
  rw [words, run_statement rfl, ← words] at same
  refine runs_bind_of_eq (expressionFollows_apply views _) (.refl _) ?_
  change Runs (if (word.openingInLine? surroundings.bracketed).isSome then _ else _) _ _ _
  split
  · next opens =>
    rw [if_pos opens] at same
    have operand := runs_operand reads surroundings frame unfinished short
      (inside_eq_held rfl) fun _ => Role.noConfusion
    rw [← same] at operand
    refine operand.bind fun parsed later _ fed => runs_pure ?_
    obtain ⟨held, outcome, rfl, unfinished, goesOn, further, -⟩ := fed
    refine ⟨held, outcome, succeeded, Bool.and_comm _ _, unfinished, further, ?_⟩
    rw [same, goesOn, received_eq, isBracketed_singleton rfl]
  · next closed =>
    rw [if_neg closed] at same
    refine runs_empty unfinished words .null none fun later made left => runs_pure ?_
    exact ⟨children, ⟨SyntaxTree.absent .null none word.token, true⟩, succeeded,
      (Bool.and_true _).symm, made, left ▸ List.suffix_refl _, left ▸ same⟩

/-- Another semicolon of a sequence is in view. -/
def StatementNext (surroundings : Surroundings) (since : Production) (id : MarkId) (floor : Int)
    (whole : Option (Option Outcome × List Word)) (behind : List Word) (succeeded : Bool)
    (later : Production) : Prop :=
  ∃ held word rest, later.words = word :: rest ∧ word.token.isEnd = false ∧
    Unfinished since later since.index id held ∧ rest <:+ behind ∧
    whole = Reading.run surroundings ⟨[⟨.compound, floor, held ++ word.leaves, succeeded⟩],
      .statement⟩ rest

/-- One turn of a sequence is parsed as it is read. It reads the semicolon. -/
theorem runs_statementTurn (reads : parser.Reads) {floor : Int} {behind : List Word}
    (short : behind.length < parser.limit) {succeeded : Bool}
    (next : StatementNext surroundings since id floor whole behind succeeded production) :
    (parser.statementTurn (surroundings.held floor) succeeded).Runs production (whole = none)
      (Turn production.words (StatementNext surroundings since id floor whole behind)
        (Ready surroundings since id .compoundExpression whole behind)) := by
  obtain ⟨held, word, rest, words, inner, unfinished, less, same⟩ := next
  unfold Parser.statementTurn
  refine runs_advance unfinished words inner fun later unfinished left => ?_
  subst left
  refine (runs_statement reads unfinished (Nat.lt_of_le_of_lt less.length_le short) same).bind
    fun succeeded last _ stated => ?_
  obtain ⟨held, outcome, before, rfl, unfinished, further, goesOn⟩ := stated
  refine runs_continuesWith unfinished.placed (fun none => by rw [goesOn, none]; rfl) _ _
    fun next beyond more words' views => ?_
  rw [words', reacted, receive_compound] at goesOn
  change Runs (if next.continuesWith surroundings.bracketed .semicolon then _ else _) _ _ _
  split
  · next goes =>
    rw [if_pos goes] at goesOn
    have tail : beyond <:+ last.words := words' ▸ List.suffix_cons _ _
    refine runs_pure ⟨⟨_, next, beyond, words', isEnd_eq_false_of_continuesWith goes, unfinished,
      (tail.trans further).trans less, goesOn⟩, ?_⟩
    rw [words]
    exact consumes_cons further
  · next ends =>
    rw [if_neg ends] at goesOn
    exact runs_pure ⟨_, unfinished, further.trans less, words' ▸ goesOn⟩

/-- A sequence of expressions is parsed as it is read. -/
theorem runs_compound (reads : parser.Reads) {marked : MarkedOutcome} {outcome : Outcome}
    (marks : since.Marks production marked outcome)
    (words : production.words = word :: rest) (inner : word.token.isEnd = false)
    (short : production.words.length < parser.limit) {floor : Int}
    (same : whole = Reading.run surroundings
      ⟨[⟨.compound, floor, outcome.tree :: word.leaves, true⟩], .statement⟩ rest) :
    (do
      let id ← around marked
      let succeeded ← iterate (parser.statementTurn (surroundings.held floor)) parser.limit true
      finish id .compoundExpression succeeded : Parsing MarkedOutcome).Runs production
      (whole = none) (Complete surroundings since whole rest) := by
  obtain ⟨id, rfl, finished, -⟩ := marks
  refine runs_around finished _ _ fun later new left unfinished => ?_
  have starts : StatementNext surroundings since new floor whole rest true later :=
    ⟨_, word, rest, left.trans words, inner, unfinished, List.suffix_refl _, same⟩
  have fewer := length_lt_of_words short words
  exact (runs_iterate (fun _ _ next => runs_statementTurn reads fewer next) starts
    (left ▸ short)).bind fun _ _ _ ready => ready.runs_finish (by decide)

/-! ## Assignments to tags -/

/-- A tag and its pattern are assigned a value at once or whenever it is needed. -/
theorem assignment?_eq (word : Word) :
    assignment? word.token.kind = if word.isOperator .set then some .tagSet
      else if word.isOperator .setDelayed then some .tagSetDelayed else none := by
  unfold Word.isOperator
  cases word.token.kind with
  | operator sign => cases sign <;> rfl
  | _ => rfl

/-- An assignment to a tag goes on behind its pattern if the pattern has no error and a sign of
assignment is in view. -/
theorem receive_tagPattern (floor : Int) (held : List SyntaxTree) (bracketed : Bool)
    (outcome : Outcome) (word : Word) :
    Frame.receive ⟨.tagPattern, floor, held, true⟩ bracketed outcome word
      = if outcome.succeeded then
          match assignment? word.token.kind with
          | some kind => .waits ⟨.operand kind, floor - 1, held ++ [outcome.tree] ++ word.leaves,
              true⟩ .operand
          | none => .ends ⟨SyntaxTree.ofKind .tagSet (held ++ [outcome.tree] ++
              [SyntaxTree.absent .error (some Diagnostic.assignmentExpected.message) word.token]),
                false⟩
        else .ends ⟨SyntaxTree.ofKind .tagSet (held ++ [outcome.tree]), false⟩ := by
  rw [assignment?_eq]
  cases success : outcome.succeeded <;> cases set : word.isOperator .set <;>
    cases delayed : word.isOperator .setDelayed <;>
    simp [Frame.receive, Frame.add, Frame.take, Frame.fail, Frame.outcome, success, set, delayed]

/-- The value that is assigned to a tag and its pattern is parsed as it is read. -/
theorem runs_assignment (reads : parser.Reads) {held : List SyntaxTree} {outcome : Outcome}
    (unfinished : Unfinished since production since.index id (held ++ [outcome.tree]))
    (succeeded : outcome.succeeded) (short : production.words.length < parser.limit)
    {sign : Operator} {behind : List Word}
    (read : production.words <:+ behind)
    (same : whole = reacted surroundings (Frame.receive
      ⟨.tagPattern, surroundings.grammar.precedence sign, held, true⟩ surroundings.bracketed
        outcome) production.words) :
    (parser.assignment surroundings (surroundings.grammar.precedence sign) id).Runs production
      (whole = none) (Complete surroundings since whole behind) := by
  unfold Parser.assignment
  refine runs_token unfinished.placed (fun none => by rw [same, none]; rfl)
    fun word rest more words views => ?_
  rw [words, reacted, receive_tagPattern, if_pos succeeded] at same
  cases form : assignment? word.token.kind with
  | none =>
    rw [form] at same
    have plain : NodeKind.tagSet ≠ .error := by decide
    refine runs_empty unfinished words .error _ fun later made left => ?_
    exact runs_finish_complete made plain (left ▸ words ▸ same) (left ▸ read)
  | some kind =>
    rw [form] at same
    have plain : kind ≠ .error := by
      rw [assignment?_eq] at form
      split at form
      · cases form
        decide
      · split at form
        · cases form
          decide
        · cases form
    have inner : word.token.isEnd = false := by
      cases sort : word.token.kind with
      | operator sign => exact isEnd_eq_false_of_kind sort
      | _ =>
        rw [sort] at form
        cases form
    refine runs_advance unfinished words inner fun later unfinished left => ?_
    subst left
    have fewer : later.words <:+ production.words := words ▸ List.suffix_cons _ _
    exact runs_last reads unfinished (Nat.lt_of_le_of_lt fewer.length_le short) plain same
      (fewer.trans read)

/-- An assignment to a tag is parsed as it is read. -/
theorem runs_tagSet (reads : parser.Reads) {marked : MarkedOutcome} {outcome : Outcome}
    (marks : since.Marks production marked outcome)
    (words : production.words = word :: rest) (inner : word.token.isEnd = false)
    (short : production.words.length < parser.limit) {sign : Operator}
    (same : whole = Reading.run surroundings ⟨[⟨.tagPattern, surroundings.grammar.precedence sign,
      outcome.tree :: word.leaves, true⟩], .operand⟩ rest) :
    (parser.applied surroundings sign marked .tagSet).Runs production
      (whole = none) (Complete surroundings since whole rest) := by
  obtain ⟨id, rfl, finished, -⟩ := marks
  have plain : NodeKind.tagSet ≠ .error := by decide
  refine runs_around finished _ _ fun later new left unfinished => ?_
  refine runs_advance unfinished (left.trans words) inner fun last unfinished left' => ?_
  have fewer := length_lt_of_words short words
  subst left'
  let frame : Frame := ⟨.tagPattern, surroundings.grammar.precedence sign,
    outcome.tree :: word.leaves, true⟩
  have operand := runs_operand reads surroundings frame unfinished fewer
    (inside_eq_held rfl) fun _ => Role.noConfusion
  rw [← same] at operand
  refine operand.bind fun parsed beyond _ fed => ?_
  obtain ⟨held, pattern, rfl, unfinished, goesOn, further, -⟩ := fed
  have goesOn' : whole = reacted surroundings (Frame.receive
      ⟨.tagPattern, surroundings.grammar.precedence sign, held, true⟩ surroundings.bracketed
        pattern) beyond.words := by
    rw [same, goesOn, received_eq, isBracketed_singleton rfl]
  split
  · next succeeded =>
    exact runs_assignment reads unfinished succeeded
      (Nat.lt_of_le_of_lt further.length_le fewer) further goesOn'
  · next failed =>
    refine runs_finish_complete unfinished plain ?_ further
    rw [goesOn']
    exact reacted_of_ends fun word => (receive_tagPattern _ _ _ _ word).trans (if_neg failed)

/-! ## Patterns -/

/-- A blank that goes on from an expression begins one as well. -/
theorem opening?_of_pattern {sign : Operator} {kind : NodeKind}
    (form : Continuation.ofOperator? sign = some (.pattern kind)) :
    Opening.ofKind? (.operator sign) = some (.blank kind) := by
  cases sign <;> cases form <;> rfl

/-- A pattern is parsed as it is read. -/
theorem runs_pattern {marked : MarkedOutcome} {outcome : Outcome}
    (marks : since.Marks production marked outcome)
    (words : production.words = word :: rest) {sign : Operator} {kind : NodeKind}
    (links : word.link? surroundings.bracketed = some (.sign sign (.pattern kind)))
    (same : whole = Reading.run surroundings
      ⟨[], .blankName kind word.token (some outcome.tree)⟩ rest) :
    (parser.applied surroundings sign marked (.pattern kind)).Runs production
      (whole = none) (Complete surroundings since whole rest) := by
  obtain ⟨id, rfl, finished, -⟩ := marks
  obtain ⟨sort, form, -, touches⟩ := Word.of_link?_eq_sign links
  have opens := opening?_of_pattern form
  have inner := isEnd_eq_false_of_kind sort
  have plain : kind ≠ .error := Opening.node_ne_error opens
  refine runs_around finished _ _ fun later new left unfinished => ?_
  obtain ⟨more, views⟩ := unfinished.placed.exists_views (left.trans words)
  refine runs_bind_of_eq (token_apply views) (.refl _) ?_
  rw [sort, opens]
  refine (runs_blank views (left.trans words) inner plain (fun none => by rw [same, none]; rfl)
    surroundings).bind fun blank last _ blanked => ?_
  obtain ⟨children, ⟨inner, rfl, finished, -⟩, read, blanked⟩ := blanked
  have bare : word.leadLeaves = [] := by
    rw [Word.leadLeaves, List.isEmpty_iff.mp (touches rfl)]
    rfl
  have taken := unfinished.operand finished
  rw [views.leavesBetween_lead, bare, List.append_nil] at taken
  have made : NodeKind.pattern ≠ .error := by decide
  exact runs_finish_complete taken made (same.trans (blanked _)) read

/-! ## Operators -/

/-- A suffix is parsed as it is read. -/
theorem runs_suffix {marked : MarkedOutcome} {outcome : Outcome}
    (marks : since.Marks production marked outcome)
    (words : production.words = word :: rest) (inner : word.token.isEnd = false)
    {sign : Operator} {kind : NodeKind} (form : Continuation.ofOperator? sign = some (.suffix kind))
    (same : whole = Reading.run surroundings
      ⟨[], .complete ⟨SyntaxTree.ofKind kind (outcome.tree :: word.leaves), true⟩⟩ rest) :
    (parser.applied surroundings sign marked (.suffix kind)).Runs production
      (whole = none) (Complete surroundings since whole rest) := by
  obtain ⟨id, rfl, finished, -⟩ := marks
  have plain : kind ≠ .error := Continuation.node_ne_error form
  unfold Parser.applied
  dsimp only
  rw [form]
  refine runs_around finished _ _ fun later new left unfinished => ?_
  refine runs_advance unfinished (left.trans words) inner fun last unfinished left' => ?_
  subst left'
  exact runs_finish_complete unfinished plain same (List.suffix_refl _)

/-- An operator between two operands is parsed as it is read. -/
theorem runs_binary (reads : parser.Reads) {marked : MarkedOutcome} {outcome : Outcome}
    (marks : since.Marks production marked outcome)
    (words : production.words = word :: rest) (inner : word.token.isEnd = false)
    (short : production.words.length < parser.limit) {kind : NodeKind} (plain : kind ≠ .error)
    {floor : Int}
    (same : whole = Reading.run surroundings
      ⟨[⟨.operand kind, floor, outcome.tree :: word.leaves, true⟩], .operand⟩ rest) :
    (do
      let id ← around marked
      advance
      let parsed ← parser.operand (surroundings.held floor)
      finish id kind parsed : Parsing MarkedOutcome).Runs production
      (whole = none) (Complete surroundings since whole rest) := by
  obtain ⟨id, rfl, finished, -⟩ := marks
  refine runs_around finished _ _ fun later new left unfinished => ?_
  refine runs_advance unfinished (left.trans words) inner fun last unfinished left' => ?_
  have fewer := length_lt_of_words short words
  subst left'
  exact runs_last reads unfinished fewer plain same (List.suffix_refl _)

/-- An operator between any number of operands is parsed as it is read. -/
theorem runs_flat (reads : parser.Reads) {marked : MarkedOutcome} {outcome : Outcome}
    (marks : since.Marks production marked outcome)
    (words : production.words = word :: rest) (short : production.words.length < parser.limit)
    {sign : Operator} {kind : NodeKind}
    (links : word.link? surroundings.bracketed = some (.sign sign (.flat kind)))
    (same : whole = Reading.run surroundings
      ⟨[⟨.chain kind sign, surroundings.grammar.precedence sign, outcome.tree :: word.leaves,
        true⟩], .operand⟩ rest) :
    (parser.applied surroundings sign marked (.flat kind)).Runs production
      (whole = none) (Complete surroundings since whole rest) := by
  obtain ⟨sort, form, -, -⟩ := Word.of_link?_eq_sign links
  have other : sign ≠ .times := by
    rintro rfl
    cases form
  have tests : Tests (nextOperand surroundings.bracketed word.token.kind) surroundings.bracketed
      sign := by
    intro since production place id children unended unfinished out
    rw [sort]
    simp only [if_neg other, Option.isSome_none]
    exact runs_nextOperand unfinished out _ _
  exact runs_chain reads marks words short form rfl (Continuation.node_ne_error form) tests
    (Frame.step_of_sign links rfl)
    (fun _ => Reaction.noConfusion) same

/-- A product is parsed as it is read. -/
theorem runs_product (reads : parser.Reads) {marked : MarkedOutcome} {outcome : Outcome}
    (marks : since.Marks production marked outcome)
    (words : production.words = word :: rest) (short : production.words.length < parser.limit)
    {reaction : Reaction} {floor : Int}
    (steps : Frame.step ⟨.chain .times .times, floor, [outcome.tree], true⟩ .times .times
      surroundings.bracketed word = reaction) (stays : ∀ outcome, reaction ≠ .ends outcome)
    (same : whole = (Reading.react surroundings [] reaction word).run surroundings word rest) :
    (parser.chain (surroundings.held floor) marked .times fun _ =>
      nextFactor surroundings.bracketed).Runs production
      (whole = none) (Complete surroundings since whole rest) := by
  have form : Continuation.ofOperator? .times = some .product := rfl
  have plain : NodeKind.times ≠ .error := by decide
  have tests : Tests (nextFactor surroundings.bracketed) surroundings.bracketed .times :=
    fun _ _ _ _ _ _ unfinished out => runs_nextFactor unfinished out _
  exact runs_chain reads marks words short form rfl plain tests steps stays same

/-- The construct that goes on from an expression with the word in view is parsed as it is read. -/
theorem runs_applied (reads : parser.Reads) {marked : MarkedOutcome} {outcome : Outcome}
    (marks : since.Marks production marked outcome)
    (words : production.words = word :: rest) (short : production.words.length < parser.limit)
    {link : Word.Link} (links : word.link? surroundings.bracketed = some link)
    (same : whole = (link.extend surroundings.grammar outcome.tree word).run surroundings rest) :
    (parser.applied surroundings link.operator marked link.continuation).Runs production
      (whole = none) (Complete surroundings since whole rest) := by
  have inner := Word.isEnd_eq_false_of_link? links
  cases link with
  | factor opening =>
    exact runs_product reads marks words short (Frame.step_of_factor links _)
      (fun _ => Reaction.noConfusion) same
  | sign sign continuation =>
    obtain ⟨sort, form, -, -⟩ := Word.of_link?_eq_sign links
    have plain := Continuation.node_ne_error form
    cases continuation with
    | binary kind nestsRight => exact runs_binary reads marks words inner short plain same
    | flat kind => exact runs_flat reads marks words short links same
    | product =>
      cases Continuation.eq_times_of_ofOperator? form
      exact runs_product reads marks words short (Frame.step_of_sign links rfl)
        (fun _ => Reaction.noConfusion) same
    | suffix kind => exact runs_suffix marks words inner form same
    | call => exact runs_arguments reads marks words inner short same
    | pattern kind => exact runs_pattern marks words links same
    | messageName => exact runs_messageName reads marks words inner short same
    | compound => exact runs_compound reads marks words inner short same
    | tagSet => exact runs_tagSet reads marks words inner short same

end Parsing

end WolframSyntax
