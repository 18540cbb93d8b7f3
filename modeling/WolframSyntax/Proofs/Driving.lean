import WolframSyntax.Proofs.Running

/-!
# Parsing is reading

A parser that parses operands as they are read (`Parser.Reads`) parses constructs as they are read.
What is compared is what reading comes to: `whole` is that from the beginning of a construct, and at
every point of parsing it is also what reading comes to from the frame that stands for the construct
and the words to come. When the construct is complete (`Parsing.Complete`) its marks make the tree
of the outcome with which reading goes on.

An operand is read inside of a frame as it is read alone (`runs_expression`), and the frame receives
it (`Parsing.Fed`) whether it is there or an error stands for it.
-/

namespace WolframSyntax

/-- The node that an opening makes. -/
def Opening.node : Opening → NodeKind
  | .atom kind | .blank kind | .operator kind _ => kind
  | .group => .group
  | .list => .list

/-- No word begins an error. -/
theorem Opening.node_ne_error {kind : TokenKind} {opening : Opening}
    (opens : ofKind? kind = some opening) : opening.node ≠ .error := by
  cases kind with
  | operator sign => cases sign <;> cases opens <;> decide
  | _ => cases opens <;> decide

/-! ## Expressions -/

/-- What is known of an expression that has been parsed since then is its outcome, and its marks
make its tree. -/
def Production.Marks (since later : Production) (marked : MarkedOutcome) (outcome : Outcome) :
    Prop :=
  ∃ id, marked = ⟨some id, some outcome.tree.kind, outcome.succeeded⟩ ∧
    Production.Finished since later id outcome.tree ∧ outcome.tree.kind ≠ .error

/-- What reading comes to when an expression is complete in front of some words. Without a word in
view it is not complete. -/
def Outcome.ended (outcome : Outcome) : List Word → Option (Option Outcome × List Word)
  | [] => none
  | word :: words => some (some outcome, word :: words)

/-- An expression has been parsed: none if the word in view begins none, or else the one that is
read from the words. -/
def Production.Parsed (surroundings : Surroundings) (production : Production)
    (marked : MarkedOutcome) (later : Production) : Prop :=
  (marked = .notParsed ∧ later = production ∧
      ∃ word rest, production.words = word :: rest ∧ word.opening? = none) ∨
    ∃ outcome, production.Marks later marked outcome ∧
      Reading.fresh.run surroundings production.words = outcome.ended later.words ∧
      Consumes production.words later.words

/-- A parser reads expressions where few enough words are to come. -/
def Parser.Reads (parser : Parser) : Prop :=
  ∀ surroundings (production : Production), production.IsPlaced →
    production.words.length < parser.limit → (parser.expression surroundings).Runs production
      (Reading.fresh.run surroundings production.words = none) (production.Parsed surroundings)

/-- The operand of a construct has been parsed, and the construct receives it, or an error in its
place. -/
def Production.ParsedInside (surroundings : Surroundings) (frame : Frame) (production : Production)
    (marked : MarkedOutcome) (later : Production) : Prop :=
  ∃ word rest, production.words = word :: rest ∧
    ((marked = .notParsed ∧ later = production ∧ word.opening? = none ∧
        Reading.run surroundings ⟨[frame], .operand⟩ production.words
          = Descent.received surroundings frame (some (frame.missing word)) production.words) ∨
      ∃ outcome, production.Marks later marked outcome ∧
        Reading.run surroundings ⟨[frame], .operand⟩ production.words
          = Descent.received surroundings (frame.takeLead word) (some outcome) later.words ∧
        Consumes production.words later.words)

namespace Parsing

open Production

variable {Next : Type} {production later since : Production} {unended : Prop}
  {left : Next → Production → Prop} {place : Nat} {id : MarkId} {children : List SyntaxTree}
  {parser : Parser}

/-- An expression that is complete in front of some words is what reading came to. -/
theorem eq_of_ended {outcome : Outcome} {other : Option Outcome} {words rest : List Word}
    (same : outcome.ended words = some (other, rest)) : other = some outcome ∧ rest = words := by
  cases words with
  | nil => cases same
  | cons word words =>
    cases same
    exact ⟨rfl, rfl⟩

/-- An expression is parsed inside of a construct as it is parsed alone. -/
theorem runs_expression (reads : parser.Reads) (placed : production.IsPlaced)
    (short : production.words.length < parser.limit) (surroundings : Surroundings) (frame : Frame) :
    (parser.expression (surroundings.inside frame)).Runs production
      (Reading.run surroundings ⟨[frame], .operand⟩ production.words = none)
      (production.ParsedInside surroundings frame) := by
  have alone := reads (surroundings.inside frame) production placed short
  cases words : production.words with
  | nil =>
    refine alone.mono (fun _ => rfl) fun marked later _ parsed => ?_
    rcases parsed with ⟨-, -, _, _, some, -⟩ | ⟨outcome, -, -, consumes⟩
    · cases words.symm.trans some
    · rw [words] at consumes
      cases consumes.2
  | cons word rest =>
    rw [words, Descent.run_fresh] at alone
    cases opens : word.opening? with
    | none =>
      rw [opens] at alone
      refine alone.mono (fun unended => by cases unended) fun marked later _ parsed =>
        ⟨word, rest, words, ?_⟩
      rcases parsed with ⟨nothing, same, -⟩ | ⟨outcome, -, same, -⟩
      · refine .inl ⟨nothing, same, opens, ?_⟩
        rw [words, Reading.run_cons]
        change (Reading.readOperand surroundings [frame] word).run surroundings word rest = _
        rw [Descent.readOperand_of_unopened opens]
        rfl
      · rw [words, Descent.run_fresh, opens] at same
        cases (eq_of_ended same.symm).1
    | some opening =>
      rw [opens] at alone
      dsimp only at alone
      have within : Reading.run surroundings ⟨[frame], .operand⟩ (word :: rest)
          = ((Reading.begin [] opening word.token).within [frame.takeLead word]).run
              surroundings rest := by
        rw [Descent.run_operand opens, Reading.beginOperand,
          ← List.nil_append [frame.takeLead word], ← Reading.within_begin]
        rfl
      have begun : (Reading.begin [] opening word.token).IsBegun := Reading.isBegun_begin _ _ _
      rw [within]
      have inside := Reading.run_inside surroundings (frame.takeLead word) begun rest
      refine alone.mono (fun none => ?_) fun marked later _ parsed => ⟨word, rest, words, ?_⟩
      · rcases inside with ⟨-, unended⟩ | ⟨outcome, last, beyond, -, ends, -⟩
        · exact unended
        · cases none.symm.trans ends
      · rcases parsed with ⟨-, -, first, more, same, unopened⟩ | ⟨outcome, marks, same, consumes⟩
        · cases words.symm.trans same
          cases opens.symm.trans unopened
        · refine .inr ⟨outcome, marks, ?_, consumes⟩
          rw [words, Descent.run_fresh, opens] at same
          rw [words, within]
          rcases inside with ⟨none, unended⟩ | ⟨other, last, beyond, -, ends, whole⟩
          · have unfinished := same.symm.trans none
            cases left : later.words with
            | nil => exact unended
            | cons last beyond =>
              rw [left] at unfinished
              cases unfinished
          · obtain ⟨is, left⟩ := eq_of_ended (same.symm.trans ends)
            obtain rfl := Option.some.inj is
            rw [← left]
            exact whole

/-- A construct has got an operand, and receives it with the words behind it. -/
def Fed (surroundings : Surroundings) (since production : Production) (place : Nat) (id : MarkId)
    (frame : Frame) (succeeded : Bool) (later : Production) : Prop :=
  ∃ held outcome, succeeded = outcome.succeeded ∧
    Unfinished since later place id (held ++ [outcome.tree]) ∧
    Reading.run surroundings ⟨[frame], .operand⟩ production.words
      = Descent.received surroundings { frame with children := held } (some outcome) later.words ∧
    later.words <:+ production.words ∧
    (Opens production.words → Consumes production.words later.words)

/-- But for tags, a missing operand is an error that says that an expression is expected. -/
theorem missing_eq {frame : Frame} (untagged : ∀ last, frame.role ≠ .tag last) (word : Word) :
    frame.missing word
      = ⟨SyntaxTree.absent .error (some Diagnostic.expressionExpected.message) word.token,
        false⟩ := by
  unfold Frame.missing
  split
  · next last role => exact absurd role (untagged last)
  · rfl

/-- The operand of a construct is parsed as it is read, and an error stands for a missing one. -/
theorem runs_operand (reads : parser.Reads) (surroundings : Surroundings) (frame : Frame)
    (unfinished : Unfinished since production place id frame.children)
    (short : production.words.length < parser.limit) {inner : Surroundings}
    (inside : surroundings.inside frame = inner) (untagged : ∀ last, frame.role ≠ .tag last) :
    (parser.operand inner).Runs production
      (Reading.run surroundings ⟨[frame], .operand⟩ production.words = none)
      (Fed surroundings since production place id frame) := by
  subst inside
  unfold Parser.operand
  refine (runs_expression reads unfinished.placed short surroundings frame).bind
    fun marked later _ parsed => ?_
  obtain ⟨word, rest, words, ⟨rfl, rfl, unopened, whole⟩ | ⟨outcome, marks, whole, consumes⟩⟩ :=
    parsed
  · have closed : ¬Opens later.words := by
      rintro ⟨first, more, opening, same, opens⟩
      cases words.symm.trans same
      cases unopened.symm.trans opens
    refine runs_empty unfinished words .error _ fun last made same => runs_pure ?_
    refine ⟨frame.children, frame.missing word, ?_, ?_, ?_, ?_, fun opens => (closed opens).elim⟩
    · rw [missing_eq untagged]
    · rw [missing_eq untagged]
      exact made
    · rw [same]
      exact whole
    · exact same ▸ List.suffix_refl _
  · obtain ⟨inner, rfl, finished, -⟩ := marks
    obtain ⟨more, views⟩ := unfinished.placed.exists_views words
    refine runs_pure ⟨frame.children ++ word.leadLeaves, outcome, rfl, ?_, whole, consumes.1,
      fun _ => consumes⟩
    rw [← views.leavesBetween_lead]
    exact unfinished.operand finished

/-! ## Reactions -/

/-- What a reading comes to when a construct reacts to the first of some words. -/
def reacted (surroundings : Surroundings) (reaction : Word → Reaction) :
    List Word → Option (Option Outcome × List Word)
  | [] => none
  | word :: words =>
    (Reading.react surroundings [] (reaction word) word).run surroundings word words

variable {surroundings : Surroundings} {frame : Frame} {outcome : Outcome} {words : List Word}
  {whole : Option (Option Outcome × List Word)}

/-- A construct that has received an operand goes on as it reacts to the word in view. -/
theorem received_eq :
    Descent.received surroundings frame (some outcome) words
      = reacted surroundings (frame.receive (surroundings.isBracketed [frame]) outcome) words := by
  cases words <;> rfl

/-- A construct that ends leaves a complete expression. -/
theorem reacted_of_ends {reaction : Word → Reaction}
    (ends : ∀ word, reaction word = .ends outcome) :
    reacted surroundings reaction words
      = Reading.run surroundings ⟨[], .complete outcome⟩ words := by
  cases words with
  | nil => rfl
  | cons word words =>
    rw [reacted, ends]
    rfl

/-- Outside of brackets a construct leaves it to its surroundings whether ends of lines count. -/
theorem isBracketed_singleton (open' : frame.brackets = false) :
    surroundings.isBracketed [frame] = surroundings.bracketed := by
  simp [Surroundings.isBracketed, open']

/-- The operand of a construct that is no bracket is held as strongly as the construct says. -/
theorem inside_eq_held (open' : frame.brackets = false) :
    surroundings.inside frame = surroundings.held frame.floor := by
  rw [Surroundings.inside, isBracketed_singleton open']
  rfl

/-- Between brackets ends of lines are ignored. -/
theorem inside_eq_grouped (brackets : frame.brackets = true) :
    surroundings.inside frame = surroundings.grouped.held frame.floor := by
  simp [Surroundings.inside, Surroundings.isBracketed, brackets, Surroundings.grouped,
    Surroundings.held]

/-- A construct has been parsed since then, and reading comes to what it would come to with the
complete construct. -/
def Complete (surroundings : Surroundings) (since : Production)
    (whole : Option (Option Outcome × List Word)) (behind : List Word) (marked : MarkedOutcome)
    (later : Production) : Prop :=
  ∃ outcome, since.Marks later marked outcome ∧
    whole = Reading.run surroundings ⟨[], .complete outcome⟩ later.words ∧ later.words <:+ behind

/-- A construct that waits for nothing more is closed. -/
theorem runs_finish_complete (unfinished : Unfinished since production since.index id children)
    {kind : NodeKind} (plain : kind ≠ .error) {succeeded : Bool}
    (same : whole = Reading.run surroundings
      ⟨[], .complete ⟨SyntaxTree.ofKind kind children, succeeded⟩⟩ production.words)
    {behind : List Word} (read : production.words <:+ behind) :
    (finish id kind succeeded).Runs production unended
      (Complete surroundings since whole behind) :=
  runs_finish unfinished kind succeeded fun _ words finished =>
    ⟨⟨SyntaxTree.ofKind kind children, succeeded⟩, ⟨id, rfl, finished, plain⟩, words ▸ same,
      words ▸ read⟩

/-- A construct ends with its last operand. -/
theorem runs_last (reads : parser.Reads)
    (unfinished : Unfinished since production since.index id children)
    (short : production.words.length < parser.limit) {kind : NodeKind} (plain : kind ≠ .error)
    {floor : Int}
    (same : whole = Reading.run surroundings ⟨[⟨.operand kind, floor, children, true⟩], .operand⟩
      production.words)
    {behind : List Word} (read : production.words <:+ behind) :
    (parser.operand (surroundings.held floor) >>= fun parsed => finish id kind parsed).Runs
      production (whole = none) (Complete surroundings since whole behind) := by
  let frame : Frame := ⟨.operand kind, floor, children, true⟩
  have operand := runs_operand reads surroundings frame unfinished short
    (inside_eq_held rfl) fun _ => Role.noConfusion
  rw [← same] at operand
  refine operand.bind fun parsed later _ fed => ?_
  obtain ⟨held, outcome, rfl, unfinished, goesOn, further, -⟩ := fed
  refine runs_finish_complete unfinished plain ?_ (further.trans read)
  rw [same, goesOn, received_eq]
  exact reacted_of_ends fun _ => rfl

/-! ## Brackets -/

/-- No operator is the end of the tokens. -/
theorem isEnd_eq_false_of_kind {token : Token} {sign : Operator}
    (kind : token.kind = .operator sign) : token.isEnd = false := by
  rw [Token.isEnd, kind]
  rfl

/-- A closing bracket has been read, or reported missing. -/
def Closed (since production : Production) (place : Nat) (id : MarkId) (children : List SyntaxTree)
    (sign : Operator) (text : String) (closed : Bool) (later : Production) : Prop :=
  ∃ word rest, production.words = word :: rest ∧ closed = word.isOperator sign ∧
    if word.isOperator sign then
      Unfinished since later place id (children ++ word.leaves) ∧ later.words = rest
    else Unfinished since later place id (children
      ++ [SyntaxTree.absent .error (some (Diagnostic.closingExpected text).message) word.token]) ∧
        later.words = word :: rest

/-- A closing bracket is read if it is in view, and reported otherwise. -/
theorem runs_closing (unfinished : Unfinished since production place id children)
    (out : production.words = [] → unended) (sign : Operator) (text : String) :
    (closing sign text).Runs production unended
      (Closed since production place id children sign text) := by
  unfold closing
  refine runs_isAt unfinished.placed out _ fun word rest more words views => ?_
  change Runs (if word.isOperator sign then _ else _) _ _ _
  split
  · next is =>
    have inner := isEnd_eq_false_of_kind (eq_of_beq is)
    refine runs_advance unfinished words inner fun later unfinished left => runs_pure ?_
    refine ⟨word, rest, words, is.symm, ?_⟩
    rw [if_pos is]
    exact ⟨unfinished, left⟩
  · next other =>
    refine runs_empty unfinished words .error _ fun last made same => runs_pure ?_
    refine ⟨word, rest, words, (Bool.eq_false_iff.mpr other).symm, ?_⟩
    rw [if_neg other]
    exact ⟨made, same.trans words⟩

/-- A construct in brackets ends with its closing bracket or without it. -/
theorem runs_close {role : Role} {floor : Int} {succeeded : Bool}
    (unfinished : Unfinished since production since.index id children) {kind : NodeKind}
    (plain : kind ≠ .error) (sign : Operator) (text : String)
    (same : whole = reacted surroundings
      (Frame.close ⟨role, floor, children, succeeded⟩ kind sign [.closingExpected text])
      production.words)
    {behind : List Word} (read : production.words <:+ behind) :
    (closing sign text >>= fun closed => finish id kind (closed && succeeded)).Runs production
      (whole = none) (Complete surroundings since whole behind) := by
  refine (runs_closing unfinished (fun none => by rw [same, none]; rfl) sign text).bind
    fun closed later _ done => ?_
  obtain ⟨word, rest, words, rfl, done⟩ := done
  rw [words] at same read
  rw [reacted, Frame.close] at same
  split at done
  · next is =>
    obtain ⟨unfinished, left⟩ := done
    rw [is] at same ⊢
    refine runs_finish_complete unfinished plain ?_ (left ▸ (List.suffix_cons _ _).trans read)
    rw [same, left, Bool.true_and]
    rfl
  · next other =>
    obtain ⟨unfinished, left⟩ := done
    rw [Bool.eq_false_iff.mpr other] at same ⊢
    refine runs_finish_complete unfinished plain ?_ (left ▸ read)
    rw [same, left]
    rfl

/-- Items between brackets go on behind a comma, and end at the closing bracket or without it. -/
theorem receive_items (enclosure : Enclosure) (floor : Int) (held : List SyntaxTree)
    (succeeded bracketed : Bool) (outcome : Outcome) (word : Word) :
    Frame.receive ⟨.items enclosure, floor, held, succeeded⟩ bracketed outcome word
      = if word.isOperator .comma then
          .waits ⟨.items enclosure, floor, held ++ [outcome.tree] ++ word.leaves,
            succeeded && outcome.succeeded⟩ .operand
        else Frame.closeItems ⟨.items enclosure, floor, held ++ [outcome.tree],
          succeeded && outcome.succeeded⟩ enclosure word := rfl

/-- The items between brackets have been parsed: the construct reacts to what is then in view as to
its closing bracket. -/
def Sequenced (surroundings : Surroundings) (since : Production) (place : Nat) (id : MarkId)
    (enclosure : Enclosure) (whole : Option (Option Outcome × List Word)) (behind : List Word)
    (succeeded : Bool) (later : Production) : Prop :=
  ∃ held, Unfinished since later place id held ∧ later.words <:+ behind ∧
    whole = reacted surroundings
      (Frame.closeItems ⟨.items enclosure, 0, held, succeeded⟩ enclosure) later.words

/-- Another item between brackets is to come. -/
def ItemNext (surroundings : Surroundings) (since : Production) (place : Nat) (id : MarkId)
    (enclosure : Enclosure) (whole : Option (Option Outcome × List Word)) (behind : List Word)
    (succeeded : Bool) (later : Production) : Prop :=
  ∃ held, Unfinished since later place id held ∧ later.words <:+ behind ∧
    whole = Reading.run surroundings ⟨[⟨.items enclosure, 0, held, succeeded⟩], .operand⟩
      later.words

/-- One item between brackets is parsed as it is read. -/
theorem runs_item (reads : parser.Reads) {enclosure : Enclosure} {behind : List Word}
    (short : behind.length < parser.limit) {succeeded : Bool}
    (next : ItemNext surroundings since place id enclosure whole behind succeeded production) :
    (parser.item surroundings.grouped succeeded).Runs production (whole = none)
      (Turn production.words (ItemNext surroundings since place id enclosure whole behind)
        (Sequenced surroundings since place id enclosure whole behind)) := by
  obtain ⟨held, unfinished, read, same⟩ := next
  let frame : Frame := ⟨.items enclosure, 0, held, succeeded⟩
  have operand := runs_operand reads surroundings frame unfinished
    (Nat.lt_of_le_of_lt read.length_le short)
    (inside_eq_grouped rfl) fun _ => Role.noConfusion
  rw [← same] at operand
  unfold Parser.item
  refine operand.bind fun parsed later _ fed => ?_
  obtain ⟨held, outcome, rfl, unfinished, goesOn, further, -⟩ := fed
  have goesOn' : whole = reacted surroundings
      (Frame.receive ⟨.items enclosure, 0, held, succeeded⟩ _ outcome) later.words :=
    same.trans (goesOn.trans received_eq)
  refine runs_isAt unfinished.placed (fun none => by rw [goesOn', none]; rfl) _
    fun word rest more words views => ?_
  change Runs (if word.isOperator .comma then _ else _) _ _ _
  split
  · next comma =>
    have inner := isEnd_eq_false_of_kind (eq_of_beq comma)
    refine runs_advance unfinished words inner fun last unfinished left => runs_pure ?_
    subst left
    have less : last.words <:+ later.words := words ▸ List.suffix_cons _ _
    refine ⟨⟨_, unfinished, (less.trans further).trans read, ?_⟩, (less.trans further), ?_⟩
    · rw [goesOn', words, reacted, receive_items, if_pos comma]
      rfl
    · have shorter := further.length_le
      rw [words] at shorter
      exact shorter
  · next other =>
    refine runs_pure ⟨_, unfinished, further.trans read, ?_⟩
    rw [goesOn', words, reacted, reacted, receive_items, if_neg other]

/-- The items between brackets are parsed as they are read. -/
theorem runs_sequence (reads : parser.Reads) (enclosure : Enclosure)
    (unfinished : Unfinished since production place id children)
    (short : production.words.length < parser.limit)
    (same : whole = Reading.run surroundings
      ⟨[⟨.items enclosure, 0, children, true⟩], .firstItem⟩ production.words) :
    (parser.sequence surroundings.grouped enclosure.closing).Runs production (whole = none)
      (Sequenced surroundings since place id enclosure whole production.words) := by
  unfold Parser.sequence
  refine runs_isAt unfinished.placed (fun none => by rw [same, none]; rfl) _
    fun word rest more words views => ?_
  change Runs (if word.isOperator enclosure.closing then _ else _) _ _ _
  rw [words, Reading.run_cons] at same
  change whole = (Reading.readFirstItem surroundings [⟨.items enclosure, 0, children, true⟩]
    word).run surroundings word rest at same
  unfold Reading.readFirstItem at same
  dsimp only at same
  split
  · next closes =>
    rw [if_pos closes] at same
    refine runs_pure ⟨children, unfinished, List.suffix_refl _, ?_⟩
    rw [same, words]
    rfl
  · next other =>
    rw [if_neg other] at same
    refine runs_iterate (fun succeeded later next => runs_item reads short next)
      ⟨children, unfinished, List.suffix_refl _, ?_⟩ short
    rw [same, words]
    rfl

/-! ## Constructs that begin with a word -/

/-- The children of a blank are complete: reading comes to the blank, whatever it names. -/
def Blanked (surroundings : Surroundings) (kind : NodeKind) (token : Token) (behind : List Word)
    (children : List SyntaxTree) (later : Production) : Prop :=
  later.words <:+ behind ∧
    ∀ named, Reading.run surroundings ⟨[], .blankName kind token named⟩ behind
      = Reading.run surroundings ⟨[], .complete ⟨Reading.blankTree kind named children, true⟩⟩
          later.words

/-- What a blank comes to: it takes an identifier that touches it. -/
theorem run_blankName (surroundings : Surroundings) (kind : NodeKind) (token : Token)
    (named : Option SyntaxTree) (word : Word) (rest : List Word) :
    Reading.run surroundings ⟨[], .blankName kind token named⟩ (word :: rest)
      = if word.token.kind = .identifier ∧ word.touches then
          Reading.run surroundings ⟨[], .complete ⟨Reading.blankTree kind named
            [SyntaxTree.leaf token, SyntaxTree.ofKind .symbol [word.leaf]], true⟩⟩ rest
        else Reading.run surroundings ⟨[], .complete ⟨Reading.blankTree kind named
          [SyntaxTree.leaf token], true⟩⟩ (word :: rest) := by
  rw [Reading.run_cons]
  change (Reading.readBlankName surroundings [] kind token named word).run surroundings word rest
    = _
  unfold Reading.readBlankName
  dsimp only
  split <;> rfl

/-- A blank takes the name that touches it. -/
theorem runs_blankName {token : Token}
    (unfinished : Unfinished since production place id [SyntaxTree.leaf token])
    (out : production.words = [] → unended) (surroundings : Surroundings) (kind : NodeKind) :
    blankName.Runs production unended fun _ later => ∃ children,
      Unfinished since later place id children ∧
        Blanked surroundings kind token production.words children later := by
  unfold blankName
  refine runs_isAt unfinished.placed out _ fun word rest more words views => ?_
  have stays (apart : ¬(word.token.kind = .identifier ∧ word.touches)) :
      Blanked surroundings kind token production.words [SyntaxTree.leaf token] production := by
    refine ⟨List.suffix_refl _, fun named => ?_⟩
    rw [words, run_blankName, if_neg apart]
  split
  · next is =>
    have kinded := eq_of_beq is
    refine runs_bind_of_eq (blankBefore_apply views) (.refl _) ?_
    cases touches : word.touches with
    | false => exact runs_pure ⟨_, unfinished, stays (by simp [touches])⟩
    | true =>
      have inner : word.token.isEnd = false := by rw [Token.isEnd, kinded]; rfl
      refine runs_mark views words inner fun later name begun left => ?_
      subst left
      refine runs_of_eq (done_apply begun .symbol) ⟨rfl, rfl⟩ ⟨_,
        unfinished.operand (begun.finished .symbol none), ?_, fun named => ?_⟩
      · exact words ▸ List.suffix_cons _ _
      · have bare : word.leadLeaves = [] := by
          rw [Word.leadLeaves, List.isEmpty_iff.mp touches]
          rfl
        rw [words, run_blankName, if_pos ⟨kinded, touches⟩, views.leavesBetween_lead, bare]
        rfl
  · next other =>
    refine runs_pure ⟨_, unfinished, stays fun is => other ?_⟩
    rw [is.1]
    rfl

/-- A blank is parsed with the name that touches it. -/
theorem runs_blank (views : production.Views word more) {rest : List Word}
    (words : production.words = word :: rest) (inner : word.token.isEnd = false)
    {kind : NodeKind} (plain : kind ≠ .error) (out : rest = [] → unended)
    (surroundings : Surroundings) :
    (parser.opened surroundings (.blank kind)).Runs production unended fun marked later =>
      ∃ children, production.Marks later marked ⟨SyntaxTree.ofKind kind children, true⟩ ∧
        Blanked surroundings kind word.token rest children later := by
  refine runs_mark views words inner fun later id unfinished left => ?_
  subst left
  refine (runs_blankName unfinished out surroundings kind).bind fun _ last _ blanked => ?_
  obtain ⟨children, unfinished, read, same⟩ := blanked
  exact runs_finish unfinished kind true fun final words finished =>
    ⟨children, ⟨id, rfl, finished, plain⟩, words ▸ read, words ▸ same⟩

/-- The end word begins no expression. -/
theorem inner_of_opening? {word : Word} {opening : Opening} (opens : word.opening? = some opening) :
    word.token.isEnd = false := by
  rw [← Bool.not_eq_true]
  intro ends
  rw [(Word.isForeign_of_isEnd ends).unopened] at opens
  cases opens

/-- The construct that begins with the word in view is parsed as it is read. -/
theorem runs_opened (reads : parser.Reads) (views : production.Views word more)
    {rest : List Word} (words : production.words = word :: rest)
    (short : rest.length < parser.limit) {opening : Opening}
    (opens : word.opening? = some opening) (surroundings : Surroundings) :
    (parser.opened surroundings opening).Runs production
      (Reading.run surroundings (Reading.begin [] opening word.token) rest = none)
      (Complete surroundings production
        (Reading.run surroundings (Reading.begin [] opening word.token) rest) rest) := by
  have inner := inner_of_opening? opens
  have plain := Opening.node_ne_error opens
  cases opening with
  | atom kind =>
    refine runs_mark views words inner fun later id unfinished left => ?_
    subst left
    exact runs_finish_complete unfinished plain rfl (List.suffix_refl _)
  | blank kind =>
    refine (runs_blank views words inner plain (fun none => by rw [none]; rfl) surroundings).mono id
      fun marked later _ blanked => ?_
    obtain ⟨children, marks, read, same⟩ := blanked
    exact ⟨_, marks, same none, read⟩
  | group =>
    refine runs_mark views words inner fun later id unfinished left => ?_
    subst left
    have operand := runs_operand reads surroundings ⟨.group, 0, [word.leaf], true⟩ unfinished short
      (inside_eq_grouped rfl) fun _ => Role.noConfusion
    refine operand.bind fun parsed last _ fed => ?_
    obtain ⟨held, outcome, rfl, unfinished, goesOn, further, -⟩ := fed
    exact runs_close unfinished plain .rightPar ")" (goesOn.trans received_eq) further
  | list =>
    refine runs_mark views words inner fun later id unfinished left => ?_
    subst left
    refine (runs_sequence reads .list unfinished short rfl).bind fun parsed last _ sequenced => ?_
    obtain ⟨held, unfinished, read, same⟩ := sequenced
    exact runs_close unfinished plain .rightBrace (String.singleton '}') same read
  | operator kind precedence =>
    refine runs_mark views words inner fun later id unfinished left => ?_
    subst left
    exact runs_last reads unfinished short plain rfl (List.suffix_refl _)

/-! ## Chains -/

/-- A chain is about to test whether it goes on with the word in view. It does with the first
one. -/
def ChainNext (surroundings : Surroundings) (since : Production) (id : MarkId) (kind : NodeKind)
    (sign : Operator) (floor : Int) (whole : Option (Option Outcome × List Word))
    (behind : List Word) (_ : Unit) (later : Production) : Prop :=
  ∃ held, Unfinished since later since.index id held ∧
    (later.words <:+ behind ∨ ∃ word, later.words = word :: behind ∧
      ∀ outcome, Frame.step ⟨.chain kind sign, floor, held, true⟩ kind sign surroundings.bracketed
        word ≠ .ends outcome) ∧
    whole = reacted surroundings (Frame.step ⟨.chain kind sign, floor, held, true⟩ kind sign
      surroundings.bracketed) later.words

/-- A construct is complete but for the closing of its mark. -/
def Ready (surroundings : Surroundings) (since : Production) (id : MarkId) (kind : NodeKind)
    (whole : Option (Option Outcome × List Word)) (behind : List Word) (succeeded : Bool)
    (later : Production) : Prop :=
  ∃ held, Unfinished since later since.index id held ∧ later.words <:+ behind ∧
    whole = Reading.run surroundings
      ⟨[], .complete ⟨SyntaxTree.ofKind kind held, succeeded⟩⟩ later.words

/-- A construct that waits for nothing more is closed. -/
theorem Ready.runs_finish {kind : NodeKind} {behind : List Word} {succeeded : Bool}
    (ready : Ready surroundings since id kind whole behind succeeded production)
    (plain : kind ≠ .error) :
    (finish id kind succeeded).Runs production unended
      (Complete surroundings since whole behind) := by
  obtain ⟨held, unfinished, read, same⟩ := ready
  exact runs_finish_complete unfinished plain same read

/-- The end word goes on from nothing. -/
theorem isEnd_eq_false_of_continuesWith {word : Word} {bracketed : Bool} {sign : Operator}
    (goesOn : word.continuesWith bracketed sign) : word.token.isEnd = false := by
  rw [Word.continuesWith, Bool.and_eq_true] at goesOn
  exact isEnd_eq_false_of_kind (eq_of_beq goesOn.1)

/-- A chain has looked at the word in view: it has taken its sign, or it has not, and goes on if
`other` holds of the word. -/
def Decided (since production : Production) (place : Nat) (id : MarkId) (held : List SyntaxTree)
    (bracketed : Bool) (sign : Operator) (other : Word → Bool) (goesOn : Bool)
    (later : Production) : Prop :=
  ∃ word rest, production.words = word :: rest ∧
    if word.continuesWith bracketed sign then
      goesOn = true ∧ later.words = rest ∧ Unfinished since later place id (held ++ word.leaves)
    else goesOn = other word ∧ later = production

/-- A chain that has an operator between all its operands takes the operator or ends. -/
theorem runs_nextOperand (unfinished : Unfinished since production place id children)
    (out : production.words = [] → unended) (bracketed : Bool) (sign : Operator) :
    (nextOperand bracketed (.operator sign)).Runs production unended
      (Decided since production place id children bracketed sign fun _ => false) := by
  unfold nextOperand
  refine runs_continuesWith unfinished.placed out bracketed sign
    fun word rest more words views => ?_
  split
  · next goesOn =>
    refine runs_advance unfinished words (isEnd_eq_false_of_continuesWith goesOn)
      fun later unfinished left => runs_pure ⟨word, rest, words, ?_⟩
    rw [if_pos goesOn]
    exact ⟨rfl, left, unfinished⟩
  · next other =>
    refine runs_pure ⟨word, rest, words, ?_⟩
    rw [if_neg other]
    exact ⟨rfl, rfl⟩

/-- A product takes its sign, or goes on if the word in view begins another factor. -/
theorem runs_nextFactor (unfinished : Unfinished since production place id children)
    (out : production.words = [] → unended) (bracketed : Bool) :
    (nextFactor bracketed).Runs production unended
      (Decided since production place id children bracketed .times fun word =>
        (word.factor? bracketed).isSome) := by
  unfold nextFactor
  refine (runs_nextOperand unfinished out bracketed .times).bind fun goesOn later _ decided => ?_
  obtain ⟨word, rest, words, decided⟩ := decided
  split at decided
  · next takes =>
    obtain ⟨rfl, left, taken⟩ := decided
    refine runs_pure ⟨word, rest, words, ?_⟩
    rw [if_pos takes]
    exact ⟨rfl, left, taken⟩
  · next other =>
    obtain ⟨rfl, rfl⟩ := decided
    obtain ⟨more, views⟩ := unfinished.placed.exists_views words
    refine runs_of_eq (juxtapositionFollows_apply views bracketed) (.refl _) ⟨word, rest, words, ?_⟩
    rw [if_neg other]
    exact ⟨rfl, rfl⟩

/-- How the test of a chain decides where it does not take its sign. -/
def Tests (goesOn : Parsing Bool) (bracketed : Bool) (sign : Operator) : Prop :=
  ∀ (since production : Production) (place : Nat) (id : MarkId) (children : List SyntaxTree)
    (unended : Prop), Unfinished since production place id children →
    (production.words = [] → unended) → goesOn.Runs production unended
      (Decided since production place id children bracketed sign fun word =>
        (if sign = .times then word.factor? bracketed else none).isSome)

/-- A chain tests the word behind every operand, unless the operand has an error. -/
theorem receive_chain {kind : NodeKind} {sign : Operator} {floor : Int} {held : List SyntaxTree}
    (regular : Frame.IsRegular ⟨.chain kind sign, floor, held, true⟩) (bracketed : Bool)
    (outcome : Outcome) (word : Word) :
    Frame.receive ⟨.chain kind sign, floor, held, true⟩ bracketed outcome word
      = if outcome.succeeded then
          Frame.step ⟨.chain kind sign, floor, held ++ [outcome.tree], outcome.succeeded⟩ kind sign
            bracketed word
        else .ends ⟨SyntaxTree.ofKind kind (held ++ [outcome.tree]), outcome.succeeded⟩ := by
  rw [← Frame.proceed_eq_receive regular]
  rfl

/-- What is left when the first word and more may have been read. -/
theorem suffix_of_consumes_cons {word : Word} {words rest : List Word}
    (consumes : Consumes (word :: words) rest) : rest <:+ words := by
  rcases List.suffix_cons_iff.mp consumes.1 with rfl | behind
  · exact (Nat.lt_irrefl _ consumes.2).elim
  · exact behind

/-- A chain that goes on gets an operand, and tests the word behind it unless there is an error. -/
theorem runs_link_operand (reads : parser.Reads) {kind : NodeKind} {sign : Operator} {floor : Int}
    {continuation : Continuation} (form : Continuation.ofOperator? sign = some continuation)
    (free : continuation.mustTouch = false) {held : List SyntaxTree} {behind words : List Word}
    (unfinished : Unfinished since production since.index id held)
    (read : ∀ last, Consumes words last → last <:+ behind)
    (short : production.words.length < parser.limit)
    (same : whole = Reading.run surroundings ⟨[⟨.chain kind sign, floor, held, true⟩], .operand⟩
      production.words)
    (consumes : ∀ rest, rest <:+ production.words →
      (Opens production.words → Consumes production.words rest) → Consumes words rest) :
    (do
      if ← parser.operand (surroundings.held floor) then return .inl ()
      else return .inr false : Parsing (Unit ⊕ Bool)).Runs production (whole = none)
      (Turn words (ChainNext surroundings since id kind sign floor whole behind)
        (Ready surroundings since id kind whole behind)) := by
  let frame : Frame := ⟨.chain kind sign, floor, held, true⟩
  have operand := runs_operand reads surroundings frame unfinished short
    (inside_eq_held rfl) fun _ => Role.noConfusion
  rw [← same] at operand
  refine operand.bind fun parsed later _ fed => ?_
  obtain ⟨held, outcome, rfl, unfinished, goesOn, further, opening⟩ := fed
  have goesOn' : whole = reacted surroundings (Frame.receive ⟨.chain kind sign, floor, held, true⟩
      (surroundings.isBracketed [⟨.chain kind sign, floor, held, true⟩]) outcome) later.words :=
    same.trans (goesOn.trans received_eq)
  have regular : Frame.IsRegular ⟨.chain kind sign, floor, held, true⟩ :=
    Frame.isRegular_of_form form free floor held
  have receives := receive_chain regular
    (surroundings.isBracketed [⟨.chain kind sign, floor, held, true⟩]) outcome
  split
  · next succeeded =>
    have taken := consumes _ further opening
    refine runs_pure ⟨⟨_, unfinished, .inl (read _ taken), ?_⟩, taken⟩
    rw [goesOn', funext receives, isBracketed_singleton rfl, succeeded]
    rfl
  · next failed =>
    refine runs_pure ⟨_, unfinished, read _ (consumes _ further opening), ?_⟩
    rw [goesOn', funext receives]
    simp only [failed, if_false, Bool.false_eq_true]
    exact reacted_of_ends fun _ => rfl

/-- One turn of a chain is parsed as it is read. A turn with which the chain goes on reads a word.
-/
theorem runs_link (reads : parser.Reads) {kind : NodeKind} {sign : Operator} {floor : Int}
    {continuation : Continuation} (form : Continuation.ofOperator? sign = some continuation)
    (free : continuation.mustTouch = false) {goesOn : Parsing Bool}
    (tests : Tests goesOn surroundings.bracketed sign) {behind : List Word}
    (short : behind.length + 1 < parser.limit) {state : Unit}
    (next : ChainNext surroundings since id kind sign floor whole behind state production) :
    (parser.link (surroundings.held floor) goesOn state).Runs production (whole = none)
      (Turn production.words (ChainNext surroundings since id kind sign floor whole behind)
        (Ready surroundings since id kind whole behind)) := by
  obtain ⟨held, unfinished, front, same⟩ := next
  -- In the first turn the word with which the chain goes on is still in view.
  have short' : production.words.length < parser.limit := by
    rcases front with read | ⟨word, words, -⟩
    · exact Nat.lt_of_le_of_lt read.length_le (Nat.lt_of_succ_lt short)
    · rw [words]
      exact short
  have read (last : List Word) (consumes : Consumes production.words last) :
      last <:+ behind := by
    rcases front with read | ⟨word, words, -⟩
    · exact consumes.1.trans read
    · rw [words] at consumes
      exact suffix_of_consumes_cons consumes
  unfold Parser.link
  refine (tests since production _ id held _ unfinished fun none => by
    rw [same, none]; rfl).bind fun goes later _ decided => ?_
  obtain ⟨word, rest, words, decided⟩ := decided
  rw [words, reacted] at same
  split at decided
  · next takes =>
    obtain ⟨rfl, left, unfinished⟩ := decided
    rw [Frame.step, if_pos takes] at same
    have fewer : later.words <:+ production.words := left ▸ words ▸ List.suffix_cons _ _
    refine runs_link_operand reads form free unfinished read
      (Nat.lt_of_le_of_lt fewer.length_le short') (left ▸ same) fun last further _ => ?_
    rw [words]
    exact consumes_cons (left ▸ further)
  · next other =>
    obtain ⟨decides, rfl⟩ := decided
    dsimp only at decides
    rcases Option.eq_none_or_eq_some
      (if sign = .times then word.factor? surroundings.bracketed else none) with
      factor | ⟨opening, factor⟩
    · have ends : Frame.step ⟨.chain kind sign, floor, held, true⟩ kind sign surroundings.bracketed
          word = .ends (Frame.outcome ⟨.chain kind sign, floor, held, true⟩ kind) := by
        rw [Frame.step, if_neg other, factor]
      rw [factor] at decides
      rw [decides, Option.isSome_none, if_neg Bool.false_ne_true]
      rcases front with read | ⟨first, begins, goesOn⟩
      · refine runs_pure ⟨held, unfinished, read, ?_⟩
        rw [same, ends, words]
        rfl
      · obtain ⟨rfl, -⟩ := List.cons.inj (words.symm.trans begins)
        exact (goesOn _ ends).elim
    · have opens : word.opening? = some opening := by
        split at factor
        · exact Word.opening?_of_openingInLine? (Word.openingInLine?_of_link?_eq_factor
            (Word.factor?_eq_some_iff.mp factor))
        · cases factor
      rw [Frame.step, if_neg other, factor] at same
      rw [factor] at decides
      rw [decides, Option.isSome_some, if_pos rfl]
      refine runs_link_operand reads form free unfinished read short' ?_
        fun last _ opening => opening ⟨word, rest, _, words, opens⟩
      rw [same, words, Descent.run_operand opens]
      rfl

/-- A chain that goes on with the word in view is parsed as it is read. -/
theorem runs_chain (reads : parser.Reads) {marked : MarkedOutcome} {left : Outcome}
    (marks : since.Marks production marked left) {word : Word}
    {rest : List Word} (words : production.words = word :: rest)
    (short : production.words.length < parser.limit) {kind : NodeKind} {sign : Operator}
    {floor : Int} {continuation : Continuation}
    (form : Continuation.ofOperator? sign = some continuation)
    (free : continuation.mustTouch = false) (plain : kind ≠ .error)
    {goesOn : TokenKind → Parsing Bool}
    (tests : Tests (goesOn word.token.kind) surroundings.bracketed sign) {reaction : Reaction}
    (steps : Frame.step ⟨.chain kind sign, floor, [left.tree], true⟩ kind sign
      surroundings.bracketed word = reaction) (stays : ∀ outcome, reaction ≠ .ends outcome)
    (same : whole = (Reading.react surroundings [] reaction word).run surroundings word rest) :
    (parser.chain (surroundings.held floor) marked kind goesOn).Runs production (whole = none)
      (Complete surroundings since whole rest) := by
  obtain ⟨id, rfl, finished, -⟩ := marks
  subst steps
  unfold Parser.chain
  refine runs_around finished _ _ fun later new left unfinished => ?_
  obtain ⟨more, views⟩ := unfinished.placed.exists_views (left.trans words)
  refine runs_bind_of_eq (token_apply views) (.refl _) ?_
  have starts : ChainNext surroundings since new kind sign floor whole rest () later :=
    ⟨_, unfinished, .inr ⟨word, left.trans words, stays⟩, left ▸ words ▸ same⟩
  rw [words] at short
  exact (runs_iterate (fun _ _ next => runs_link reads form free tests short next) starts
    (left ▸ words ▸ short)).bind fun _ _ _ ready => ready.runs_finish plain

/-! ## Calls and parts -/

/-- The kind of the token behind the word in view is known, if there is a token. -/
theorem lookahead_apply (views : production.Views word more) :
    lookahead production = some (.ok (more.head?.map Token.kind, production)) := by
  have behind : production.tokens[production.index + 1]? = more.head? := by
    rw [← views.drop_read, List.head?_drop]
    rfl
  have ahead : production.lookahead 1
      = .ok (production.tokens[production.index + 1]?.map Token.kind) := by
    unfold Production.lookahead
    have inside : ¬((production.index : Int) + 1 < -indexBound) := by
      simp only [indexBound]
      omega
    have positive : ¬((production.index : Int) + 1 < 0) := by omega
    dsimp only
    rw [if_neg inside, if_neg positive, if_neg positive]
    rfl
  rw [lookahead, ofCall, ahead, behind]
  rfl

/-- The token behind the last one read is a given operator just if that operator is in view and
touches what has been read. -/
theorem head?_map_kind_eq_iff (placed : production.IsPlaced) (sign : Operator) :
    (production.tokens.drop production.lastEnd).head?.map Token.kind = some (.operator sign) ↔
      ∃ word rest, production.words = word :: rest ∧ word.isOperator sign ∧ word.touches := by
  constructor
  · intro kind
    obtain ⟨token, head, kind⟩ := Option.map_eq_some_iff.mp kind
    have plain : token.isTrivia = false := by
      rw [Token.isTrivia, kind]
      rfl
    obtain ⟨tokens, behind⟩ := List.head?_eq_some_iff.mp head
    rcases placed.views with ⟨-, none⟩ | ⟨word, more, views⟩
    · have here : production.index = production.lastEnd := by
        rw [placed, behind, triviaCount, List.takeWhile_cons_of_neg (by simp [plain])]
        rfl
      rw [here, ← List.head?_drop, head] at none
      cases none
    · obtain ⟨rest, words⟩ := views.exists_words
      have parts := views.tokens.symm.trans behind
      have bare : word.lead = [] := by
        cases lead : word.lead with
        | nil => rfl
        | cons first _ =>
          rw [lead] at parts
          have trivia := views.trivia first (lead ▸ List.mem_cons_self)
          rw [(List.cons.inj parts).1, plain] at trivia
          cases trivia
      rw [bare] at parts
      refine ⟨word, rest, words, beq_iff_eq.mpr ?_, List.isEmpty_iff.mpr bare⟩
      rw [(List.cons.inj parts).1, kind]
  · rintro ⟨word, rest, words, is, touches⟩
    obtain ⟨more, views⟩ := placed.exists_views words
    rw [views.tokens, List.isEmpty_iff.mp touches]
    exact congrArg some (eq_of_beq is)

/-- A part ends with its two brackets or without them. -/
theorem runs_close_part {floor : Int} {succeeded : Bool}
    (unfinished : Unfinished since production since.index id children)
    (same : whole = reacted surroundings
      (Frame.closeItems ⟨.items .part, floor, children, succeeded⟩ .part) production.words)
    {behind : List Word} (read : production.words <:+ behind) :
    (do
      let inner ← closing .rightBracket "]]"
      let outer ← closing .rightBracket "]"
      finish id .part (outer && (inner && succeeded)) : Parsing MarkedOutcome).Runs production
      (whole = none) (Complete surroundings since whole behind) := by
  refine (runs_closing unfinished (fun none => by rw [same, none]; rfl) _ _).bind
    fun inner later _ closed => ?_
  obtain ⟨word, rest, words, rfl, closed⟩ := closed
  rw [words] at same read
  cases is : word.isOperator .rightBracket with
  | true =>
    rw [is] at closed
    obtain ⟨unfinished, left⟩ := closed
    have waits : Frame.closeItems ⟨.items .part, floor, children, succeeded⟩ .part word
        = .waits (Frame.take ⟨.items .part, floor, children, succeeded⟩ word) .partEnd :=
      if_pos ⟨rfl, is⟩
    have goesOn : whole = reacted surroundings (Frame.closePart
        ⟨.items .part, floor, children ++ word.leaves, true && succeeded⟩) later.words := by
      rw [same, reacted, waits, left, Bool.true_and]
      cases rest <;> rfl
    have plain : NodeKind.part ≠ .error := by decide
    exact runs_close unfinished plain _ _ goesOn (left ▸ (List.suffix_cons _ _).trans read)
  | false =>
    rw [is] at closed
    obtain ⟨unfinished, left⟩ := closed
    refine (runs_closing unfinished (fun none => by rw [left] at none; cases none) _ _).bind
      fun outer last _ closed => ?_
    obtain ⟨next, beyond, words', rfl, closed⟩ := closed
    obtain ⟨rfl, rfl⟩ := List.cons.inj (left.symm.trans words')
    rw [is] at closed ⊢
    obtain ⟨unfinished, left⟩ := closed
    have ends : Frame.closeItems ⟨.items .part, floor, children, succeeded⟩ .part word
        = .ends ((Frame.fail ⟨.items .part, floor, children, succeeded⟩ Enclosure.part.unclosed
            word).outcome .part) := by
      have other : ¬word.isOperator .rightBracket := Bool.eq_false_iff.mp is
      exact (if_neg fun both => other both.2).trans (if_neg other)
    have plain : NodeKind.part ≠ .error := by decide
    refine runs_finish_complete unfinished plain ?_ (left ▸ read)
    rw [same, reacted, ends, left, List.append_assoc]
    rfl

/-- Arguments that do not begin with a bracket which touches are items. -/
theorem run_arguments {frame : Frame} {words : List Word}
    (other : ¬∃ word rest, words = word :: rest ∧ word.isOperator .leftBracket ∧ word.touches) :
    Reading.run surroundings ⟨[frame], .arguments⟩ words
      = Reading.run surroundings ⟨[frame], .firstItem⟩ words := by
  cases words with
  | nil => rfl
  | cons word rest =>
    have apart : ¬(word.isOperator .leftBracket && word.touches) = true := fun both =>
      other ⟨word, rest, rfl, Bool.and_eq_true_iff.mp both⟩
    rw [Reading.run_cons, Reading.run_cons]
    change (Reading.readArguments surroundings [frame] word).run surroundings word rest = _
    rw [Reading.readArguments, if_neg apart]
    rfl

/-- Arguments are parsed as they are read. -/
theorem runs_arguments (reads : parser.Reads) {marked : MarkedOutcome} {outcome : Outcome}
    (marks : since.Marks production marked outcome) {word : Word} {rest : List Word}
    (words : production.words = word :: rest) (inner : word.token.isEnd = false)
    (short : production.words.length < parser.limit)
    (same : whole = Reading.run surroundings
      ⟨[⟨.items .call, 0, outcome.tree :: word.leaves, true⟩], .arguments⟩ rest) :
    (parser.arguments surroundings marked).Runs production (whole = none)
      (Complete surroundings since whole rest) := by
  obtain ⟨id, rfl, finished, -⟩ := marks
  unfold Parser.arguments
  refine runs_around finished _ _ fun later new left unfinished => ?_
  obtain ⟨more, views⟩ := unfinished.placed.exists_views (left.trans words)
  refine runs_bind_of_eq (lookahead_apply views) (.refl _) ?_
  refine runs_bind_of_eq (advance_apply views inner) (reaches_read views inner) ?_
  have read := unfinished.read views inner
  have touching := head?_map_kind_eq_iff read.placed .leftBracket
  have dropped : later.read.tokens.drop later.read.lastEnd = more := views.drop_read
  rw [dropped] at touching
  have behind : later.read.words = rest := views.words_read (left.trans words) inner
  have short' : rest.length < parser.limit := length_lt_of_words short words
  rw [← behind] at same short'
  split
  · next second =>
    obtain ⟨next, beyond, words', is, touches⟩ := touching.mp second
    refine runs_advance read words' (isEnd_eq_false_of_kind (eq_of_beq is))
      fun last unfinished left => ?_
    subst left
    have same' : whole = Reading.run surroundings
        ⟨[⟨.items .part, 0, outcome.tree :: word.leaves ++ next.leaves, true⟩], .firstItem⟩
        last.words := by
      rw [same, words', Reading.run_cons]
      change (Reading.readArguments surroundings
        [⟨.items .call, 0, outcome.tree :: word.leaves, true⟩] next).run surroundings next _ = _
      rw [Reading.readArguments, if_pos (Bool.and_eq_true_iff.mpr ⟨is, touches⟩)]
      rfl
    have shorter := length_lt_of_words short' words'
    refine (runs_sequence reads .part unfinished shorter same').bind fun parsed _ _ sequenced => ?_
    obtain ⟨held, unfinished, further, same⟩ := sequenced
    refine runs_close_part unfinished same (further.trans ?_)
    rw [← behind, words']
    exact List.suffix_cons _ _
  · next single =>
    rw [run_arguments (mt touching.mpr single)] at same
    refine (runs_sequence reads .call read short' same).bind fun parsed last _ sequenced => ?_
    obtain ⟨held, unfinished, further, same⟩ := sequenced
    have closes : Frame.closeItems ⟨.items .call, 0, held, parsed⟩ .call
        = Frame.close ⟨.items .call, 0, held, parsed⟩ .functionCall .rightBracket
            [.closingExpected "]"] :=
      funext fun word => if_neg fun both => Enclosure.noConfusion both.1
    rw [closes] at same
    have plain : NodeKind.functionCall ≠ .error := by decide
    exact runs_close unfinished plain .rightBracket "]" same (behind ▸ further)

end Parsing

end WolframSyntax
