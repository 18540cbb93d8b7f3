import Mathlib.Logic.Relation
import WolframSyntax.Reading.Step

/-!
# Moves of a reading

What a word in view can do to a reading, as relations. A reading passes on when its innermost
construct is complete without the word (`Reading.Passes`), and takes the word when the word becomes
part of the expression (`Reading.Takes`). Reading a word means to pass on as often as possible and
then to take the word or to finish (`Reading.exists_settles_decides`), so whatever is to hold of
all readings has to be checked for single moves only.
-/

namespace WolframSyntax

/-- Whether an expression has to begin with the next word, unless an enclosure is empty. -/
def Focus.wantsOperand : Focus → Bool
  | .operand | .firstItem | .arguments => true
  | _ => false

/-- Whether an expression has been read to its end, apart from the name of a blank. -/
def Focus.hasOperand : Focus → Bool
  | .blankName .. | .complete _ => true
  | _ => false

/-- Whether an enclosure may end before its first item. -/
def Focus.beginsItems : Focus → Bool
  | .firstItem | .arguments => true
  | _ => false

/-- A word that goes on by its operator is that operator, stands on the line of the expression
unless line ends are ignored, and touches the expression if it has to. -/
theorem Word.of_link?_eq_sign {bracketed : Bool} {word : Word} {sign : Operator}
    {continuation : Continuation} (link : word.link? bracketed = some (.sign sign continuation)) :
    word.token.kind = .operator sign ∧ Continuation.ofOperator? sign = some continuation ∧
      (bracketed = false → word.beginsLine = false) ∧
      (continuation.mustTouch → word.touches) := by
  unfold link? at link
  split at link
  · cases link
  · next inLine =>
    have inLine : bracketed = false → word.beginsLine = false := by simpa using inLine
    split at link
    · next operator form found =>
      have same : word.token.kind = .operator operator ∧
          Continuation.ofOperator? operator = some form := by
        unfold Continuation.ofKind? at found
        split at found
        · next kind =>
          obtain ⟨_, isForm, pair⟩ := Option.map_eq_some_iff.mp found
          cases pair
          exact ⟨kind, isForm⟩
        · cases found
      split at link
      · obtain ⟨_, _, factor⟩ := Option.map_eq_some_iff.mp link
        cases factor
      · next near =>
        cases link
        exact ⟨same.1, same.2, inLine, by simpa using near⟩
    · obtain ⟨_, _, factor⟩ := Option.map_eq_some_iff.mp link
      cases factor

/-- A word that goes on as a factor begins an expression, and stands on the line of the expression
unless line ends are ignored. -/
theorem Word.of_link?_eq_factor {bracketed : Bool} {word : Word} {opening : Opening}
    (link : word.link? bracketed = some (.factor opening)) :
    word.opening? = some opening ∧ (bracketed = false → word.beginsLine = false) := by
  unfold link? at link
  split at link
  · cases link
  · next inLine =>
    refine ⟨?_, by simpa using inLine⟩
    split at link
    · split at link
      · obtain ⟨_, opens, same⟩ := Option.map_eq_some_iff.mp link
        cases same
        exact opens
      · cases link
    · obtain ⟨_, opens, same⟩ := Option.map_eq_some_iff.mp link
      cases same
      exact opens

/-- A word that begins an expression on the same line begins an expression. -/
theorem Word.opening?_of_openingInLine? {bracketed : Bool} {word : Word} {opening : Opening}
    (opens : word.openingInLine? bracketed = some opening) : word.opening? = some opening := by
  unfold openingInLine? at opens
  split at opens
  · cases opens
  · exact opens

/-- A continuing operator that touches the expression in front of it goes on from it. -/
theorem Word.link?_of_touches {word : Word} {sign : Operator} {continuation : Continuation}
    (same : word.token.kind = .operator sign)
    (form : Continuation.ofOperator? sign = some continuation) (touches : word.touches)
    (bracketed : Bool) : word.link? bracketed = some (.sign sign continuation) := by
  have nothing : word.lead = [] := List.isEmpty_iff.mp touches
  simp [link?, beginsLine, Word.touches, nothing, same, Continuation.ofKind?, form]

/-- A word that begins an expression is none of the operators that begin none. -/
theorem Word.isOperator_of_opening? {word : Word} {opening : Opening}
    (opens : word.opening? = some opening) {sign : Operator}
    (unopened : Opening.ofOperator? sign = none) : word.isOperator sign = false := by
  rw [isOperator, beq_eq_false_iff_ne]
  intro same
  rw [opening?, same, Opening.ofKind?, unopened] at opens
  cases opens

namespace Frame

variable {frame next : Frame} {word : Word} {opening : Opening}

/-- A bracketed construct that receives its close begins no other one. -/
theorem close_ne_begins {kind : NodeKind} {closing : Operator} {unclosed : List Diagnostic} :
    frame.close kind closing unclosed word ≠ .begins next opening := by
  unfold close
  split <;> exact Reaction.noConfusion

/-- Items that receive their close begin no other construct. -/
theorem closeItems_ne_begins {enclosure : Enclosure} :
    frame.closeItems enclosure word ≠ .begins next opening := by
  unfold closeItems
  split
  · exact Reaction.noConfusion
  · exact close_ne_begins

/-- A frame begins another operand only with a word that is a factor. -/
theorem opening?_of_receive_eq_begins {bracketed : Bool} {outcome : Outcome}
    (begun : frame.receive bracketed outcome word = .begins next opening) :
    word.opening? = some opening := by
  obtain ⟨role, floor, children, succeeded⟩ := frame
  unfold receive at begun
  cases role with
  | group => exact (close_ne_begins begun).elim
  | items enclosure =>
    dsimp only at begun
    split at begun
    · cases begun
    · exact (closeItems_ne_begins begun).elim
  | operand kind => cases begun
  | chain kind sign =>
    dsimp only at begun
    split at begun
    · cases begun
    split at begun
    · split at begun <;> cases begun
    · next link =>
      split at begun
      · cases begun
        exact (Word.of_link?_eq_factor link).1
      · cases begun
    · cases begun
  | compound =>
    dsimp only at begun
    split at begun <;> cases begun
  | tag last =>
    dsimp only at begun
    split at begun <;> cases begun
  | tagPattern =>
    dsimp only at begun
    split at begun
    · cases begun
    split at begun
    · cases begun
    split at begun <;> cases begun

end Frame

namespace Reading

variable {surroundings : Surroundings} {word : Word}

/-- A word that goes on from an expression binds more strongly than the expression is held, and
makes it the first operand of a construct. -/
theorem eq_of_extend?_eq_some {frames : List Frame} {left : SyntaxTree} {next : Reading}
    (goesOn : extend? surroundings frames left word = some next) :
    (∃ sign continuation,
      word.link? (surroundings.isBracketed frames) = some (.sign sign continuation) ∧
        surroundings.floorOf frames < surroundings.grammar.precedence sign ∧
        next = continueWith surroundings.grammar frames left sign continuation word) ∨
      ∃ opening, word.link? (surroundings.isBracketed frames) = some (.factor opening) ∧
        surroundings.floorOf frames < surroundings.grammar.precedence .times ∧
        next = multiply surroundings.grammar frames left opening word := by
  unfold extend? at goesOn
  dsimp only at goesOn
  split at goesOn
  · next sign continuation link =>
    split at goesOn
    · next stronger =>
      cases goesOn
      exact .inl ⟨sign, continuation, link, stronger, rfl⟩
    · cases goesOn
  · next opening link =>
    split at goesOn
    · next stronger =>
      cases goesOn
      exact .inr ⟨opening, link, stronger, rfl⟩
    · cases goesOn
  · cases goesOn

/-- How the innermost construct of a reading reacts to a word that does not go on from its operand,
and the frames around the construct. -/
inductive Reacts (surroundings : Surroundings) (word : Word) :
    Reading → List Frame → Reaction → Prop where
  /-- The operand is complete and the word does not go on from it. -/
  | complete {frame : Frame} {frames : List Frame} {outcome : Outcome}
      (stays : extend? surroundings (frame :: frames) outcome.tree word = none) :
      Reacts surroundings word ⟨frame :: frames, .complete outcome⟩ frames
        (frame.receive (surroundings.isBracketed (frame :: frames)) outcome word)
  /-- The operand does not begin with the word. -/
  | missing {frame : Frame} {frames : List Frame} {focus : Focus} (wants : focus.wantsOperand)
      (unopened : word.opening? = none) :
      Reacts surroundings word ⟨frame :: frames, focus⟩ frames
        (frame.receive (surroundings.isBracketed (frame :: frames)) (frame.missing word) word)
  /-- The next expression of a sequence is left out. -/
  | absent {frame : Frame} {frames : List Frame}
      (unopened : word.openingInLine? (surroundings.isBracketed (frame :: frames)) = none) :
      Reacts surroundings word ⟨frame :: frames, .statement⟩ frames
        (frame.receive (surroundings.isBracketed (frame :: frames))
          ⟨SyntaxTree.absent .null none word.token, true⟩ word)
  /-- An enclosure ends before its first item. -/
  | empty {frame : Frame} {frames : List Frame} {focus : Focus} {enclosure : Enclosure}
      (begins : focus.beginsItems) (role : frame.role = .items enclosure)
      (closing : word.isOperator enclosure.closing) :
      Reacts surroundings word ⟨frame :: frames, focus⟩ frames (frame.closeItems enclosure word)
  /-- The second closing bracket of a part is in view or missing. -/
  | partEnd {frame : Frame} {frames : List Frame} :
      Reacts surroundings word ⟨frame :: frames, .partEnd⟩ frames (frame.closePart word)

/-- A construct begins another operand only with a word that begins one. -/
theorem Reacts.opening?_of_begins {reading : Reading} {frames : List Frame} {frame : Frame}
    {opening : Opening} (reacts : Reacts surroundings word reading frames (.begins frame opening)) :
    word.opening? = some opening := by
  generalize begun : Reaction.begins frame opening = reaction at reacts
  cases reacts with
  | complete | missing | absent => exact Frame.opening?_of_receive_eq_begins begun.symm
  | empty => exact (Frame.closeItems_ne_begins begun.symm).elim
  | partEnd => exact (Frame.close_ne_begins begun.symm).elim

/-- The innermost construct of a reading is complete without the word. -/
inductive Passes (surroundings : Surroundings) (word : Word) : Reading → Reading → Prop where
  /-- The innermost frame ends. -/
  | ends {reading : Reading} {frames : List Frame} {outcome : Outcome}
      (reacts : Reacts surroundings word reading frames (.ends outcome)) :
      Passes surroundings word reading ⟨frames, .complete outcome⟩
  /-- A blank has no name after it. -/
  | unnamed {frames : List Frame} {kind : NodeKind} {blank : Token} {named : Option SyntaxTree}
      (apart : ¬(word.token.kind = .identifier ∧ word.touches)) :
      Passes surroundings word ⟨frames, .blankName kind blank named⟩
        ⟨frames, .complete ⟨blankTree kind named [SyntaxTree.leaf blank], true⟩⟩

/-- The word becomes part of the expression. -/
inductive Takes (surroundings : Surroundings) (word : Word) : Reading → Reading → Prop where
  /-- The word begins an expression that stands alone. -/
  | alone {focus : Focus} {opening : Opening} (unfinished : focus.hasOperand = false)
      (opens : word.opening? = some opening) :
      Takes surroundings word ⟨[], focus⟩ (begin [] opening word.token)
  /-- The word begins an operand. -/
  | operand {frame : Frame} {frames : List Frame} {focus : Focus} {opening : Opening}
      (wants : focus.wantsOperand) (opens : word.opening? = some opening) :
      Takes surroundings word ⟨frame :: frames, focus⟩ (beginOperand frame frames opening word)
  /-- The word begins the next expression of a sequence. -/
  | statement {frame : Frame} {frames : List Frame} {opening : Opening}
      (opens : word.openingInLine? (surroundings.isBracketed (frame :: frames)) = some opening) :
      Takes surroundings word ⟨frame :: frames, .statement⟩
        (beginOperand frame frames opening word)
  /-- The word goes on from a complete expression. -/
  | continues {frames : List Frame} {outcome : Outcome} {next : Reading}
      (goesOn : extend? surroundings frames outcome.tree word = some next) :
      Takes surroundings word ⟨frames, .complete outcome⟩ next
  /-- The innermost frame takes the word. -/
  | reacts {reading next : Reading} {frames : List Frame} {reaction : Reaction}
      (reacts : Reacts surroundings word reading frames reaction)
      (taken : ofReaction frames word reaction = .inl next) :
      Takes surroundings word reading next
  /-- The second opening bracket of a part. -/
  | part {frame : Frame} {frames : List Frame} (bracket : word.isOperator .leftBracket)
      (touches : word.touches) :
      Takes surroundings word ⟨frame :: frames, .arguments⟩
        ⟨{ frame.take word with role := .items .part } :: frames, .firstItem⟩
  /-- The name of a blank. -/
  | name {frames : List Frame} {kind : NodeKind} {blank : Token} {named : Option SyntaxTree}
      (identifier : word.token.kind = .identifier) (touches : word.touches) :
      Takes surroundings word ⟨frames, .blankName kind blank named⟩
        ⟨frames, .complete ⟨blankTree kind named
          [SyntaxTree.leaf blank, SyntaxTree.ofKind .symbol [word.leaf]], true⟩⟩

/-- What becomes of a reading that no longer passes on. -/
inductive Decides (surroundings : Surroundings) (word : Word) : Reading → Progress → Prop where
  | takes {reading next : Reading} (taken : Takes surroundings word reading next) :
      Decides surroundings word reading (.reading next)
  | finishes {outcome : Outcome} (stays : extend? surroundings [] outcome.tree word = none) :
      Decides surroundings word ⟨[], .complete outcome⟩ (.finished (some outcome))
  | unbegun {focus : Focus} (unfinished : focus.hasOperand = false)
      (unopened : word.opening? = none) :
      Decides surroundings word ⟨[], focus⟩ (.finished none)

/-- A reading passes on any number of times. -/
def Settles (surroundings : Surroundings) (word : Word) : Reading → Reading → Prop :=
  Relation.ReflTransGen (Passes surroundings word)

/-- What every single pass keeps, all of them keep. -/
theorem Settles.keeps {before after : Reading} (settles : Settles surroundings word before after)
    (holds : Reading → Prop)
    (pass : ∀ before after, Passes surroundings word before after → holds before → holds after)
    (initially : holds before) : holds after := by
  induction settles with
  | refl => exact initially
  | tail _ passes ih => exact pass _ _ passes ih

/-- The reading settles and the word is decided. -/
def Arrives (surroundings : Surroundings) (word : Word) (reading : Reading) (progress : Progress) :
    Prop :=
  ∃ settled, Settles surroundings word reading settled ∧
    Decides surroundings word settled progress

/-- A reading that decides at once arrives without passing on. -/
theorem Arrives.of_decides {reading : Reading} {progress : Progress}
    (decides : Decides surroundings word reading progress) :
    Arrives surroundings word reading progress :=
  ⟨reading, .refl, decides⟩

/-- One more construct that ends before the decision changes nothing about the decision. -/
theorem Arrives.of_passes {before after : Reading} {progress : Progress}
    (passes : Passes surroundings word before after)
    (arrives : Arrives surroundings word after progress) :
    Arrives surroundings word before progress := by
  obtain ⟨settled, settles, decides⟩ := arrives
  exact ⟨settled, .head passes settles, decides⟩

/-- A complete operand is given to the frames around it until one of them takes the word or none is
left. -/
theorem arrives_settle (frames : List Frame) (outcome : Outcome) :
    Arrives surroundings word ⟨frames, .complete outcome⟩
      (settle surroundings word frames outcome) := by
  induction frames generalizing outcome with
  | nil =>
    unfold settle
    split
    · next reading goesOn => exact .of_decides (.takes (.continues goesOn))
    · next stays => exact .of_decides (.finishes stays)
  | cons frame frames ih =>
    unfold settle
    split
    · next reading goesOn => exact .of_decides (.takes (.continues goesOn))
    · next stays =>
      have reacts : Reacts surroundings word _ frames _ := .complete stays
      dsimp only
      generalize frame.receive (surroundings.isBracketed (frame :: frames)) outcome word = reaction
        at reacts ⊢
      cases reaction with
      | ends left => exact .of_passes (.ends reacts) (ih left)
      | waits | begins | closes => exact .of_decides (.takes (.reacts reacts rfl))

/-- A construct that reacts to a word takes it, or is complete and settles without it. -/
theorem Reacts.arrives {reading : Reading} {frames : List Frame} {reaction : Reaction}
    (reacts : Reacts surroundings word reading frames reaction) :
    Arrives surroundings word reading (react surroundings frames reaction word) := by
  cases reaction with
  | ends outcome => exact .of_passes (.ends reacts) (arrives_settle frames outcome)
  | waits | begins | closes => exact .of_decides (.takes (.reacts reacts rfl))

/-- Where an operand is wanted, the word begins one or reports that it is missing. -/
theorem arrives_readOperand {frames : List Frame} {focus : Focus}
    (wants : focus.wantsOperand ∨ frames = [] ∧ focus.hasOperand = false) :
    Arrives surroundings word ⟨frames, focus⟩ (readOperand surroundings frames word) := by
  have unfinished : focus.hasOperand = false := by
    rcases wants with wants | ⟨_, unfinished⟩
    · cases focus <;> first | rfl | cases wants
    · exact unfinished
  unfold readOperand
  split
  · next opens => exact .of_decides (.takes (.alone unfinished opens))
  · next unopened => exact .of_decides (.unbegun unfinished unopened)
  · next opens =>
    have wants : focus.wantsOperand := wants.resolve_right fun empty => by cases empty.1
    exact .of_decides (.takes (.operand wants opens))
  · next unopened =>
    have wants : focus.wantsOperand := wants.resolve_right fun empty => by cases empty.1
    exact (Reacts.missing wants unopened).arrives

/-- Where items begin, the word is the first of them or closes the list. -/
theorem arrives_readFirstItem {frames : List Frame} {focus : Focus} (begins : focus.beginsItems) :
    Arrives surroundings word ⟨frames, focus⟩ (readFirstItem surroundings frames word) := by
  have wants : focus.wantsOperand := by cases focus <;> first | rfl | cases begins
  unfold readFirstItem
  split
  · split
    · next closing => exact (Reacts.empty begins rfl closing).arrives
    · exact arrives_readOperand (.inl wants)
  · exact arrives_readOperand (.inl wants)

/-- Where arguments begin, the word is their bracket's second half or begins the first argument. -/
theorem arrives_readArguments (frames : List Frame) :
    Arrives surroundings word ⟨frames, .arguments⟩ (readArguments surroundings frames word) := by
  unfold readArguments
  split
  · split
    · next bracket =>
      obtain ⟨bracket, touches⟩ := Bool.and_eq_true_iff.mp bracket
      exact .of_decides (.takes (.part bracket touches))
    · exact arrives_readFirstItem rfl
  · exact arrives_readOperand (.inl rfl)

theorem arrives_readStatement (frames : List Frame) :
    Arrives surroundings word ⟨frames, .statement⟩ (readStatement surroundings frames word) := by
  unfold readStatement
  split
  · next opens => exact .of_decides (.takes (.statement opens))
  · next unopened => exact (Reacts.absent unopened).arrives
  · exact arrives_readOperand (.inr ⟨rfl, rfl⟩)

/-- The word is the name of a blank if it touches the blank, and otherwise comes after it. -/
theorem arrives_readBlankName (frames : List Frame) (kind : NodeKind) (blank : Token)
    (named : Option SyntaxTree) :
    Arrives surroundings word ⟨frames, .blankName kind blank named⟩
      (readBlankName surroundings frames kind blank named word) := by
  unfold readBlankName
  split
  · next attached => exact .of_decides (.takes (.name attached.1 attached.2))
  · next apart => exact .of_passes (.unnamed apart) (arrives_settle _ _)

/-- Reading a word is to settle and then to decide the word. -/
theorem exists_settles_decides (surroundings : Surroundings) (reading : Reading) (word : Word) :
    ∃ settled, Settles surroundings word reading settled ∧
      Decides surroundings word settled (reading.read surroundings word) := by
  obtain ⟨frames, focus⟩ := reading
  change Arrives surroundings word ⟨frames, focus⟩ _
  cases focus with
  | operand => exact arrives_readOperand (.inl rfl)
  | firstItem => exact arrives_readFirstItem rfl
  | arguments => exact arrives_readArguments frames
  | partEnd =>
    cases frames with
    | nil => exact arrives_readOperand (.inr ⟨rfl, rfl⟩)
    | cons frame frames => exact Reacts.partEnd.arrives
  | statement => exact arrives_readStatement frames
  | blankName kind blank named => exact arrives_readBlankName frames kind blank named
  | complete outcome => exact arrives_settle frames outcome

/-- Some construct is unfinished or an operand has been read. -/
def IsBegun (reading : Reading) : Prop := reading.frames = [] → reading.focus.hasOperand

/-- A reading with a frame has begun, whatever it waits for. -/
theorem isBegun_of_cons (frame : Frame) (frames : List Frame) (focus : Focus) :
    IsBegun ⟨frame :: frames, focus⟩ := fun none => by cases none

theorem isBegun_begin (frames : List Frame) (opening : Opening) (token : Token) :
    (begin frames opening token).IsBegun := by
  cases opening with
  | atom | blank => exact fun _ => rfl
  | group | list | operator => exact isBegun_of_cons _ _ _

theorem isBegun_of_extend? {frames : List Frame} {left : SyntaxTree} {next : Reading}
    (goesOn : extend? surroundings frames left word = some next) : next.IsBegun := by
  rcases eq_of_extend?_eq_some goesOn with ⟨_, continuation, _, _, rfl⟩ | ⟨_, _, _, rfl⟩
  · cases continuation with
    | suffix | pattern => exact fun _ => rfl
    | _ => exact isBegun_of_cons _ _ _
  · exact isBegun_begin _ _ _

/-- An end of a construct leaves a complete operand. -/
theorem Passes.isBegun {before after : Reading} (passes : Passes surroundings word before after) :
    after.IsBegun := by
  cases passes with
  | ends | unnamed => exact fun _ => rfl

/-- A word that is taken leaves a reading that has begun. -/
theorem Takes.isBegun {before after : Reading} (takes : Takes surroundings word before after) :
    after.IsBegun := by
  cases takes with
  | alone | operand | statement => exact isBegun_begin _ _ _
  | continues goesOn => exact isBegun_of_extend? goesOn
  | @reacts _ _ _ reaction reacts taken =>
    cases reaction with
    | waits => cases taken; exact isBegun_of_cons _ _ _
    | begins => cases taken; exact isBegun_begin _ _ _
    | closes => cases taken; exact fun _ => rfl
    | ends => cases taken
  | part => exact isBegun_of_cons _ _ _
  | name => exact fun _ => rfl

end Reading

/-! ## Words that belong to no expression -/

namespace Word

variable {word : Word}

/-- Whether the word is no operator and begins nothing. The end of a stream is such a word. -/
structure IsForeign (word : Word) : Prop where
  unopened : word.opening? = none
  unsigned : ∀ sign, word.isOperator sign = false

/-- The end of the file goes into no expression. -/
theorem isForeign_of_isEnd (ends : word.token.isEnd) : word.IsForeign := by
  have kind : word.token.kind = .endOfFile := by simpa [Token.isEnd] using ends
  refine ⟨?_, fun sign => by simp [isOperator, kind]⟩
  rw [opening?, kind]
  rfl

/-- A token in error goes into no expression. -/
theorem isForeign_of_error (failed : word.token.kind = .error) : word.IsForeign := by
  refine ⟨?_, fun sign => by simp [isOperator, failed]⟩
  rw [opening?, failed]
  rfl

/-- A word that goes into no expression links nothing. -/
theorem IsForeign.link?_eq_none (foreign : word.IsForeign) (bracketed : Bool) :
    word.link? bracketed = none := by
  have silent : Continuation.ofKind? word.token.kind = none := by
    unfold Continuation.ofKind?
    split
    · next sign kind =>
      have signed : word.isOperator sign := by simp [isOperator, kind]
      rw [foreign.unsigned sign] at signed
      cases signed
    · rfl
  unfold link?
  rw [foreign.unopened, silent]
  split <;> rfl

end Word

namespace Frame

variable {frame : Frame} {word : Word}

/-- A bracketed construct ends before a word that goes into no expression. -/
theorem exists_close_eq_ends (foreign : word.IsForeign) (kind : NodeKind) (closing : Operator)
    (unclosed : List Diagnostic) :
    ∃ left, frame.close kind closing unclosed word = .ends left := by
  simp [close, foreign.unsigned]

/-- Items end before a word that goes into no expression. -/
theorem exists_closeItems_eq_ends (foreign : word.IsForeign) (enclosure : Enclosure) :
    ∃ left, frame.closeItems enclosure word = .ends left := by
  simp [closeItems, close, foreign.unsigned]

/-- Every construct is complete in front of a foreign word. -/
theorem exists_receive_eq_ends (foreign : word.IsForeign) (bracketed : Bool) (outcome : Outcome) :
    ∃ left, frame.receive bracketed outcome word = .ends left := by
  unfold receive
  cases frame.role with
  | group => exact exists_close_eq_ends foreign _ _ _
  | items enclosure =>
    simp only [foreign.unsigned]
    exact exists_closeItems_eq_ends foreign enclosure
  | operand kind => exact ⟨_, rfl⟩
  | chain kind sign =>
    simp only [foreign.link?_eq_none]
    split <;> exact ⟨_, rfl⟩
  | compound => simp [foreign.unsigned]
  | tag last => simp [foreign.unsigned]
  | tagPattern =>
    simp only [foreign.unsigned]
    split <;> exact ⟨_, rfl⟩

end Frame

/-- A foreign word becomes no part of an expression. -/
theorem Reading.Takes.not_isForeign {surroundings : Surroundings} {word : Word}
    {before after : Reading} (takes : Takes surroundings word before after) : ¬word.IsForeign := by
  intro foreign
  have unopened := foreign.unopened
  cases takes with
  | alone unfinished opens =>
    rw [unopened] at opens
    cases opens
  | operand wants opens =>
    rw [unopened] at opens
    cases opens
  | statement opens =>
    rw [Word.opening?_of_openingInLine? opens] at unopened
    cases unopened
  | continues goesOn =>
    rcases eq_of_extend?_eq_some goesOn with ⟨_, _, link, _⟩ | ⟨_, link, _⟩
    all_goals
      rw [foreign.link?_eq_none] at link
      cases link
  | @reacts _ _ frames reaction reacts taken =>
    have left : ∃ outcome, reaction = .ends outcome := by
      cases reacts with
      | complete | missing | absent => exact Frame.exists_receive_eq_ends foreign _ _
      | empty => exact Frame.exists_closeItems_eq_ends foreign _
      | partEnd => exact Frame.exists_close_eq_ends foreign _ _ _
    obtain ⟨outcome, rfl⟩ := left
    cases taken
  | part bracket touches =>
    rw [foreign.unsigned] at bracket
    cases bracket
  | name identifier touches =>
    rw [Word.opening?, identifier] at unopened
    cases unopened

/-- A word that a reading takes is one that goes into expressions. -/
theorem Reading.not_isForeign_of_read {surroundings : Surroundings} {word : Word}
    {reading next : Reading} (reads : reading.read surroundings word = .reading next) :
    ¬word.IsForeign := by
  obtain ⟨settled, -, decides⟩ := exists_settles_decides surroundings reading word
  rw [reads] at decides
  cases decides with
  | takes taken => exact taken.not_isForeign

/-- The end of a stream becomes no part of an expression. -/
theorem Reading.isEnd_eq_false_of_read {surroundings : Surroundings} {word : Word}
    {reading next : Reading} (reads : reading.read surroundings word = .reading next) :
    word.token.isEnd = false := by
  rw [← Bool.not_eq_true]
  exact fun ends => not_isForeign_of_read reads (Word.isForeign_of_isEnd ends)

end WolframSyntax
