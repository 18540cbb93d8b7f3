import WolframSyntax.Proofs.Climbing
import WolframSyntax.Proofs.Faults
import WolframSyntax.Proofs.Lossless

/-!
# Brackets are matched

The closing brackets that a reading expects are told by the roles of its frames, as long as what is
read is free of errors: an opening bracket adds one, and a closing bracket is only taken if it is
the one that is expected next (`Reading.expected?_read`). So the brackets of a file without errors
are the tokens of a bracket word (`FileReading.expectedBehind?_foldl_read`, `Token.matched_iff`).
-/

namespace WolframSyntax

namespace Operator

/-- The bracket that closes what an operator opens, if it is an opening bracket. -/
def closer? : Operator → Option Operator
  | .leftBracket => some .rightBracket
  | .leftBrace => some .rightBrace
  | .leftPar => some .rightPar
  | _ => none

/-- Whether an operator is a closing bracket. -/
def isCloser : Operator → Bool
  | .rightBracket | .rightBrace | .rightPar => true
  | _ => false

/-- Whether an operator is a bracket. -/
def isBracket (sign : Operator) : Bool := sign.closer?.isSome || sign.isCloser

/-- The closing brackets that are expected behind an operator, the next one first, when `closers`
are expected in front of it. There are none if the operator closes anything else. -/
def expected? (closers : List Operator) (sign : Operator) : Option (List Operator) :=
  match sign.closer? with
  | some closing => some (closing :: closers)
  | none =>
    if sign.isCloser then if closers.head? = some sign then some closers.tail else none
    else some closers

/-- Behind an opening bracket its own closing bracket is expected first. -/
theorem expected?_of_closer? {sign closing : Operator} (opens : sign.closer? = some closing)
    (closers : List Operator) : sign.expected? closers = some (closing :: closers) := by
  rw [expected?, opens]

/-- A closing bracket opens nothing. -/
theorem closer?_of_isCloser {sign : Operator} (closes : sign.isCloser) : sign.closer? = none := by
  cases sign <;> first | rfl | cases closes

/-- A closing bracket closes what is expected first. -/
theorem expected?_of_isCloser {sign : Operator} (closes : sign.isCloser)
    (closers : List Operator) : sign.expected? (sign :: closers) = some closers := by
  rw [expected?, closer?_of_isCloser closes]
  simp [closes]

/-- An operator that is no bracket changes nothing about what is expected. -/
theorem expected?_of_plain {sign : Operator} (plain : sign.isBracket = false)
    (closers : List Operator) : sign.expected? closers = some closers := by
  simp only [isBracket, Bool.or_eq_false_iff, Option.isSome_eq_false_iff,
    Option.isNone_iff_eq_none] at plain
  rw [expected?, plain.1]
  simp [plain.2]

/-- What a closing bracket leaves was expected behind it. -/
theorem eq_cons_of_expected? {sign : Operator} {closers left : List Operator}
    (closes : sign.isCloser) (expects : sign.expected? closers = some left) :
    closers = sign :: left := by
  rw [expected?, closer?_of_isCloser closes] at expects
  simp only [closes, if_true] at expects
  split at expects
  · next first =>
    obtain ⟨rest, rfl⟩ := List.head?_eq_some_iff.mp first
    cases expects
    rfl
  · cases expects

end Operator

namespace Token

/-- Whether a token is a bracket. -/
def isBracket (token : Token) : Bool :=
  match token.kind with
  | .operator sign => sign.isBracket
  | _ => false

/-- The closing brackets that are expected behind a token, as for an operator. -/
def expected? (closers : List Operator) (token : Token) : Option (List Operator) :=
  match token.kind with
  | .operator sign => sign.expected? closers
  | _ => some closers

/-- The closing brackets that are expected behind a list of tokens, if none of the tokens closes
anything else than what was opened last. -/
def expectedBehind? (closers : List Operator) (tokens : List Token) : Option (List Operator) :=
  tokens.foldlM expected? closers

/-- Every bracket is closed by one of its own shape, and what stands between the two is matched as
well. Other tokens may stand anywhere. -/
inductive Matched : List Token → Prop where
  | nil : Matched []
  | plain {token : Token} {tokens : List Token} (plain : token.isBracket = false)
      (matched : Matched tokens) : Matched (token :: tokens)
  | pair {left right : Token} {opening closing : Operator} {inside behind : List Token}
      (opens : left.kind = .operator opening) (closes : right.kind = .operator closing)
      (fits : opening.closer? = some closing) (inner : Matched inside) (later : Matched behind) :
      Matched (left :: (inside ++ right :: behind))

variable {token : Token} {tokens : List Token} {closers left : List Operator}

/-- What is expected behind an operator's token is so behind the operator. -/
theorem expected?_of_operator {sign : Operator} (kind : token.kind = .operator sign)
    (closers : List Operator) : token.expected? closers = sign.expected? closers := by
  rw [expected?, kind]

/-- A token that is no bracket changes nothing about what is expected. -/
theorem expected?_of_plain (plain : token.isBracket = false) (closers : List Operator) :
    token.expected? closers = some closers := by
  unfold isBracket at plain
  unfold expected?
  split
  · next sign kind =>
    rw [kind] at plain
    exact Operator.expected?_of_plain plain closers
  · rfl

theorem isBracket_of_isTrivia (trivia : token.isTrivia) : token.isBracket = false := by
  unfold isBracket
  split
  · next sign kind =>
    rw [Token.isTrivia, kind] at trivia
    cases trivia
  · rfl

@[simp] theorem expectedBehind?_nil (closers : List Operator) :
    expectedBehind? closers [] = some closers := rfl

/-- What is expected behind tokens is so behind the first one and then the others. -/
theorem expectedBehind?_cons (closers : List Operator) (token : Token) (tokens : List Token) :
    expectedBehind? closers (token :: tokens)
      = (token.expected? closers).bind fun next => expectedBehind? next tokens :=
  List.foldlM_cons

/-- What is expected behind two lists is so behind the first one and then the second. -/
theorem expectedBehind?_append (closers : List Operator) (first second : List Token) :
    expectedBehind? closers (first ++ second)
      = (expectedBehind? closers first).bind fun next => expectedBehind? next second :=
  List.foldlM_append

/-- Trivia are no brackets. -/
theorem expectedBehind?_filter_plain (closers : List Operator) (tokens : List Token) :
    expectedBehind? closers (tokens.filter fun token => !token.isTrivia)
      = expectedBehind? closers tokens := by
  induction tokens generalizing closers with
  | nil => rfl
  | cons token tokens ih =>
    cases blank : token.isTrivia with
    | true =>
      rw [List.filter_cons_of_neg (by simp [blank]), ih, expectedBehind?_cons,
        expected?_of_plain (isBracket_of_isTrivia blank), Option.bind_some]
    | false =>
      rw [List.filter_cons_of_pos (by simp [blank]), expectedBehind?_cons, expectedBehind?_cons]
      simp only [ih]

/-- A bracket is an opening one or a closing one. -/
theorem exists_of_isBracket (bracket : token.isBracket) :
    ∃ sign, token.kind = .operator sign ∧
      ((∃ closing, sign.closer? = some closing) ∨ sign.isCloser) := by
  unfold isBracket at bracket
  split at bracket
  · next sign kind =>
    refine ⟨sign, kind, ?_⟩
    rwa [Operator.isBracket, Bool.or_eq_true_iff, Option.isSome_iff_exists] at bracket
  · cases bracket

/-- Matched tokens leave open what was open in front of them. -/
theorem Matched.expectedBehind?_eq (matched : Matched tokens) (closers : List Operator) :
    expectedBehind? closers tokens = some closers := by
  induction matched generalizing closers with
  | nil => rfl
  | plain plain _ ih => rw [expectedBehind?_cons, expected?_of_plain plain, Option.bind_some, ih]
  | @pair left right opening closing inside behind opens closes fits _ _ innerIh laterIh =>
    have isCloser : closing.isCloser := by
      cases opening <;> cases fits <;> rfl
    rw [expectedBehind?_cons, expected?_of_operator opens, Operator.expected?_of_closer? fits,
      Option.bind_some, expectedBehind?_append, innerIh, Option.bind_some, expectedBehind?_cons,
      expected?_of_operator closes, Operator.expected?_of_isCloser isCloser, Option.bind_some,
      laterIh]

/-- Tokens behind which nothing is expected are matched up to the bracket that was expected first,
and so on behind it. -/
theorem exists_matched_of_expectedBehind? {closing : Operator}
    (expects : expectedBehind? (closing :: closers) tokens = some []) :
    ∃ inside right behind, tokens = inside ++ right :: behind ∧ Matched inside ∧
      right.kind = .operator closing ∧ expectedBehind? closers behind = some [] := by
  -- What stands behind an inner pair of brackets is shorter but no tail of the list in the cases.
  induction length : tokens.length using Nat.strongRecOn generalizing tokens closers closing with
  | ind bound ih =>
    cases tokens with
    | nil => cases expects
    | cons token tokens =>
      rw [expectedBehind?_cons] at expects
      obtain ⟨next, step, expects⟩ := Option.bind_eq_some_iff.mp expects
      have shorter : tokens.length < bound := by
        rw [← length]
        exact Nat.lt_succ_self _
      cases bracket : token.isBracket with
      | false =>
        rw [expected?_of_plain bracket] at step
        cases step
        obtain ⟨inside, right, behind, rfl, matched, closes, later⟩ := ih _ shorter expects rfl
        exact ⟨token :: inside, right, behind, rfl, .plain bracket matched, closes, later⟩
      | true =>
        obtain ⟨sign, kind, ⟨inner, opens⟩ | isCloser⟩ := exists_of_isBracket bracket
        · rw [expected?_of_operator kind, Operator.expected?_of_closer? opens] at step
          cases step
          obtain ⟨first, close, rest, rfl, firstMatched, closesFirst, expects⟩ :=
            ih _ shorter expects rfl
          have shorterRest : rest.length < bound := by
            simp only [List.length_append, List.length_cons] at shorter
            omega
          obtain ⟨second, right, behind, rfl, secondMatched, closes, later⟩ :=
            ih _ shorterRest expects rfl
          refine ⟨token :: (first ++ close :: second), right, behind, by simp, ?_, closes, later⟩
          exact .pair kind closesFirst opens firstMatched secondMatched
        · rw [expected?_of_operator kind] at step
          cases Operator.eq_cons_of_expected? isCloser step
          exact ⟨[], token, tokens, rfl, .nil, kind, expects⟩

/-- Tokens are matched if no closing bracket is expected behind them. -/
theorem matched_iff : Matched tokens ↔ expectedBehind? [] tokens = some [] := by
  refine ⟨fun matched => matched.expectedBehind?_eq [], fun expects => ?_⟩
  induction length : tokens.length using Nat.strongRecOn generalizing tokens with
  | ind bound ih =>
    cases tokens with
    | nil => exact .nil
    | cons token tokens =>
      rw [expectedBehind?_cons] at expects
      obtain ⟨next, step, expects⟩ := Option.bind_eq_some_iff.mp expects
      have shorter : tokens.length < bound := by
        rw [← length]
        exact Nat.lt_succ_self _
      cases bracket : token.isBracket with
      | false =>
        rw [expected?_of_plain bracket] at step
        cases step
        exact .plain bracket (ih _ shorter expects rfl)
      | true =>
        obtain ⟨sign, kind, ⟨inner, opens⟩ | isCloser⟩ := exists_of_isBracket bracket
        · rw [expected?_of_operator kind, Operator.expected?_of_closer? opens] at step
          cases step
          obtain ⟨inside, right, behind, rfl, matched, closes, later⟩ :=
            exists_matched_of_expectedBehind? expects
          refine .pair kind closes opens matched (ih behind.length ?_ later rfl)
          simp only [List.length_append, List.length_cons] at shorter
          omega
        · rw [expected?_of_operator kind] at step
          cases Operator.eq_cons_of_expected? isCloser step

/-- Whether tokens are matched can be found out. -/
instance (tokens : List Token) : Decidable (Matched tokens) := decidable_of_iff _ matched_iff.symm

end Token

/-! ## Constructs -/

/-- The closing brackets that a construct expects which waits for what its role says. -/
def Role.closers : Role → List Operator
  | .group => [.rightPar]
  | .items .list => [.rightBrace]
  | .items .call => [.rightBracket]
  | .items .part => [.rightBracket, .rightBracket]
  | _ => []

/-- The closing brackets that a frame expects with a given focus: at the end of a part, one of the
two has been read. -/
def Frame.closers (frame : Frame) : Focus → List Operator
  | .partEnd => frame.role.closers.tail
  | _ => frame.role.closers

/-- The closing brackets that are expected inside frames. -/
def Frame.closersOf (frames : List Frame) : List Operator :=
  frames.flatMap fun frame => frame.role.closers

/-- The closing brackets that a reading expects. -/
def Reading.closers : Reading → List Operator
  | ⟨[], _⟩ => []
  | ⟨frame :: frames, focus⟩ => frame.closers focus ++ Frame.closersOf frames

/-- The closing bracket of what an opening opens. -/
def Opening.closers : Opening → List Operator
  | .group => [.rightPar]
  | .list => [.rightBrace]
  | _ => []

/-- The closing bracket of what a continuation opens. -/
def Continuation.closers : Continuation → List Operator
  | .call => [.rightBracket]
  | _ => []

/-- A token that begins an expression opens what its opening says. -/
theorem Opening.expected?_of_ofKind? {token : Token} {opening : Opening}
    (opens : Opening.ofKind? token.kind = some opening) (closers : List Operator) :
    token.expected? closers = some (opening.closers ++ closers) := by
  cases kind : token.kind with
  | operator sign =>
    rw [kind] at opens
    have known : Opening.ofOperator? sign = some opening := opens
    rw [Token.expected?_of_operator kind]
    cases sign <;> cases known <;> rfl
  | identifier | number | string | slot | slotSequence =>
    rw [kind] at opens
    cases opens
    rw [Token.expected?, kind]
    rfl
  | whitespace | lineBreak | comment | error | endOfFile | other =>
    rw [kind] at opens
    cases opens

/-- An operator that continues an expression opens what its continuation says. -/
theorem Continuation.expected?_of_ofOperator? {sign : Operator} {continuation : Continuation}
    (form : ofOperator? sign = some continuation) (closers : List Operator) :
    sign.expected? closers = some (continuation.closers ++ closers) := by
  cases sign <;> cases form <;> rfl

/-- A word that is an operator is expected as the operator is. -/
theorem Word.expected?_of_isOperator {word : Word} {sign : Operator} (same : word.isOperator sign)
    (closers : List Operator) : word.token.expected? closers = sign.expected? closers :=
  Token.expected?_of_operator (beq_iff_eq.mp same) closers

/-- What a construct expects that expected `own` before it reacted to a token. -/
def Reaction.Expects (own : List Operator) (token : Token) : Reaction → Prop
  | .waits frame focus =>
    ∀ outer, token.expected? (own ++ outer) = some (frame.closers focus ++ outer)
  | .begins frame _ => frame.role.closers = own
  | .closes _ => ∀ outer, token.expected? (own ++ outer) = some outer
  | .ends _ => True

namespace Frame

variable {frame : Frame} {word : Word} {outcome : Outcome}

@[simp] theorem closersOf_cons (frame : Frame) (frames : List Frame) :
    closersOf (frame :: frames) = frame.role.closers ++ closersOf frames := rfl

/-- A construct without brackets expects no closing bracket. -/
theorem closers_eq_nil_of_open (open' : frame.brackets = false) : frame.role.closers = [] := by
  cases role : frame.role <;> first | rfl | simp [brackets, role] at open'

/-- A bracketed construct expects its closing bracket until it is there. -/
theorem expects_close {kind : NodeKind} {closing : Operator} {unclosed : List Diagnostic}
    (isCloser : closing.isCloser) :
    (frame.close kind closing unclosed word).Expects [closing] word.token := by
  unfold close
  split
  · next same =>
    intro outer
    rw [Word.expected?_of_isOperator same]
    exact Operator.expected?_of_isCloser isCloser outer
  · trivial

/-- Items expect their closing bracket until it is there. -/
theorem expects_closeItems {enclosure : Enclosure} (role : frame.role = .items enclosure) :
    (frame.closeItems enclosure word).Expects frame.role.closers word.token := by
  unfold closeItems
  split
  · next part =>
    obtain ⟨rfl, closing⟩ := part
    intro outer
    rw [Word.expected?_of_isOperator closing, role]
    change _ = some (frame.role.closers.tail ++ outer)
    rw [role]
    rfl
  · next single =>
    rw [role]
    cases enclosure with
    | list | call => exact expects_close rfl
    | part =>
      unfold close
      rw [if_neg fun closing => single ⟨rfl, closing⟩]
      trivial

/-- A frame that takes an operator that is no bracket expects what it expected before. -/
theorem expects_waits {own : List Operator} {next : Frame} {focus : Focus} {sign : Operator}
    (same : word.isOperator sign) (plain : sign.isBracket = false)
    (closers : next.closers focus = own) :
    (Reaction.waits next focus).Expects own word.token := by
  intro outer
  rw [Word.expected?_of_isOperator same, Operator.expected?_of_plain plain, closers]

/-- What a frame does with an operand leaves it expecting what has to be expected behind the
word. -/
theorem expects_receive {bracketed : Bool}
    (plain : ∀ kind sign, frame.role = .chain kind sign → sign.isBracket = false) :
    (frame.receive bracketed outcome word).Expects frame.role.closers word.token := by
  obtain ⟨role, floor, children, succeeded⟩ := frame
  unfold receive
  cases role with
  | group => exact expects_close rfl
  | items enclosure =>
    dsimp only
    split
    · next comma => exact expects_waits comma rfl rfl
    · exact expects_closeItems rfl
  | operand kind => trivial
  | chain kind sign =>
    dsimp only
    split
    · trivial
    split
    · next next _ link =>
      split
      · next same =>
        have own := (Word.of_link?_eq_sign link).1
        rw [same] at own
        exact expects_waits (beq_iff_eq.mpr own) (plain kind sign rfl) rfl
      · trivial
    · split
      · rfl
      · trivial
    · trivial
  | compound =>
    dsimp only
    split
    · next semicolon => exact expects_waits (Bool.and_eq_true_iff.mp semicolon).1 rfl rfl
    · trivial
  | tag last =>
    dsimp only
    split
    · next colon => exact expects_waits (Bool.and_eq_true_iff.mp colon).2 rfl rfl
    · trivial
  | tagPattern =>
    dsimp only
    split
    · trivial
    split
    · next set => exact expects_waits set rfl rfl
    split
    · next set => exact expects_waits set rfl rfl
    · trivial

end Frame

/-! ## Readings -/

namespace Reading

variable {surroundings : Surroundings} {word : Word} {frames : List Frame}
  {before after : Reading}

/-- The innermost frame expects its closing brackets first. -/
theorem closers_cons (frame : Frame) (frames : List Frame) (focus : Focus) :
    closers ⟨frame :: frames, focus⟩ = frame.closers focus ++ Frame.closersOf frames := rfl

/-- Outside the end of a part every frame expects all of its brackets. -/
theorem closers_of_ne_partEnd (frames : List Frame) (focus : Focus) (inner : focus ≠ .partEnd) :
    closers ⟨frames, focus⟩ = Frame.closersOf frames := by
  cases frames with
  | nil => rfl
  | cons frame frames =>
    rw [closers_cons, Frame.closersOf_cons]
    cases focus <;> first | rfl | exact absurd rfl inner

theorem closers_of_hasOperand (frames : List Frame) (focus : Focus) (finished : focus.hasOperand) :
    closers ⟨frames, focus⟩ = Frame.closersOf frames :=
  closers_of_ne_partEnd frames focus fun same => by cases same ▸ finished

theorem closers_of_wantsOperand (frames : List Frame) (focus : Focus) (wants : focus.wantsOperand) :
    closers ⟨frames, focus⟩ = Frame.closersOf frames :=
  closers_of_ne_partEnd frames focus fun same => by cases same ▸ wants

/-- A word that begins an expression is expected to be closed first. -/
theorem closers_begin (frames : List Frame) (opening : Opening) (token : Token) :
    (begin frames opening token).closers = opening.closers ++ Frame.closersOf frames := by
  cases opening with
  | atom | blank => exact closers_of_hasOperand frames _ rfl
  | group | list | operator => rfl

/-- A word that begins an operand is expected to be closed before what is around it. -/
theorem expected?_beginOperand (frame : Frame) (frames : List Frame) {opening : Opening}
    (opens : word.opening? = some opening) :
    word.token.expected? (frame.role.closers ++ Frame.closersOf frames)
      = some (beginOperand frame frames opening word).closers := by
  rw [Opening.expected?_of_ofKind? opens, beginOperand, closers_begin]
  rfl

/-- A word that goes on from an expression opens a bracket if it is one. -/
theorem expected?_of_extend? {left : SyntaxTree}
    (goesOn : extend? surroundings frames left word = some after) :
    word.token.expected? (Frame.closersOf frames) = some after.closers := by
  rcases eq_of_extend?_eq_some goesOn
    with ⟨sign, continuation, link, _, rfl⟩ | ⟨opening, link, _, rfl⟩
  · obtain ⟨kind, form, _⟩ := Word.of_link?_eq_sign link
    rw [Token.expected?_of_operator kind, Continuation.expected?_of_ofOperator? form]
    cases continuation with
    | suffix | pattern => exact congrArg some (closers_of_hasOperand frames _ rfl).symm
    | _ => rfl
  · exact expected?_beginOperand ⟨.chain .times .times, _, _, _⟩ frames
      (Word.of_link?_eq_factor link).1

/-- The operator of a chain is no bracket. -/
theorem Awaits.isBracket_of_chain {frame : Frame} {focus : Focus}
    (awaits : Awaits surroundings word ⟨frame :: frames, focus⟩) (kind : NodeKind) (sign : Operator)
    (role : frame.role = .chain kind sign) : sign.isBracket = false := by
  obtain ⟨own, continuation, left, made, follows, _⟩ :=
    awaits.frames.1.stands.exists_isMadeBy (by simp [role]) (by simp [role])
  rw [role] at follows
  obtain ⟨rfl, form, _⟩ := follows
  have opens := Continuation.expected?_of_ofOperator? made.form []
  have none : continuation.closers = [] := by
    rcases form with rfl | ⟨rfl, _⟩ <;> rfl
  rw [none] at opens
  cases sign <;> first | rfl | cases opens

/-- A construct that reacts to a word expects what has to be expected behind it. -/
theorem Reacts.expects {reaction : Reaction}
    (reacts : Reacts surroundings word before frames reaction)
    (awaits : before.Awaits surroundings word) :
    ∃ own, before.closers = own ++ Frame.closersOf frames ∧ reaction.Expects own word.token := by
  cases reacts with
  | complete stays => exact ⟨_, rfl, Frame.expects_receive awaits.isBracket_of_chain⟩
  | @missing frame _ focus wants unopened =>
    exact ⟨_, closers_of_wantsOperand _ focus wants,
      Frame.expects_receive awaits.isBracket_of_chain⟩
  | absent unopened => exact ⟨_, rfl, Frame.expects_receive awaits.isBracket_of_chain⟩
  | @empty frame _ focus enclosure begins role closing =>
    have wants : focus.wantsOperand := by cases focus <;> first | rfl | cases begins
    exact ⟨_, closers_of_wantsOperand _ focus wants, Frame.expects_closeItems role⟩
  | @partEnd frame frames =>
    have part : frame.role = .items .part := awaits.suits frame rfl
    refine ⟨[.rightBracket], ?_, Frame.expects_close rfl⟩
    rw [closers_cons, Frame.closers, part]
    rfl

/-- Taking a word leaves a reading expecting what has to be expected behind it. -/
theorem Takes.expected? (takes : Takes surroundings word before after)
    (awaits : before.Awaits surroundings word) (begun : before.IsBegun) :
    word.token.expected? before.closers = some after.closers := by
  cases takes with
  | alone unfinished opens => exact absurd (begun rfl) (by simp [unfinished])
  | @operand frame frames focus opening wants opens =>
    rw [closers_of_wantsOperand _ focus wants]
    exact expected?_beginOperand frame frames opens
  | @statement frame frames opening opens =>
    exact expected?_beginOperand frame frames (Word.opening?_of_openingInLine? opens)
  | @continues frames outcome _ goesOn =>
    rw [closers_of_hasOperand frames (.complete outcome) rfl]
    exact expected?_of_extend? goesOn
  | @reacts _ _ frames reaction reacts taken =>
    obtain ⟨own, expected, expects⟩ := reacts.expects awaits
    rw [expected]
    cases reaction with
    | waits frame focus =>
      cases taken
      exact expects _
    | begins frame opening =>
      cases taken
      rw [← show frame.role.closers = own from expects]
      exact expected?_beginOperand frame frames reacts.opening?_of_begins
    | closes outcome =>
      cases taken
      rw [closers_of_hasOperand frames (.complete outcome) rfl]
      exact expects _
    | ends outcome => cases taken
  | @part frame frames bracket touches =>
    have call : frame.role = .items .call := awaits.suits frame rfl
    rw [Word.expected?_of_isOperator bracket, closers_of_wantsOperand _ .arguments rfl,
      Frame.closersOf_cons, call]
    rfl
  | @name frames kind blank named identifier touches =>
    rw [closers_of_hasOperand frames (.blankName kind blank named) rfl,
      closers_of_hasOperand frames (.complete _) rfl, Token.expected?, identifier]

/-- A construct that is complete without the word expects nothing, unless it is an error. -/
theorem Passes.closers_eq (passes : Passes surroundings word before after)
    (clean : after.IsClean) : before.closers = after.closers := by
  obtain ⟨_, unclosed, same⟩ := passes.frames_of_isClean clean
  have complete : after.closers = Frame.closersOf after.frames := by
    cases passes <;> exact closers_of_hasOperand _ (.complete _) rfl
  have open' : before.closers = Frame.closersOf before.frames :=
    closers_of_ne_partEnd before.frames before.focus unclosed
  rw [complete, open']
  rcases same with same | ⟨frame, open', same⟩
  · rw [same]
  · rw [same, Frame.closersOf_cons, Frame.closers_eq_nil_of_open open', List.nil_append]

/-- Reading a word without errors leaves a reading expecting what has to be expected behind the
word, and what is finished expects nothing. -/
theorem expected?_read {reading : Reading} (fits : reading.Fits)
    (rests : reading.Rests surroundings) (begun : reading.IsBegun)
    (clean : (reading.read surroundings word).IsClean) :
    match reading.read surroundings word with
    | .reading next => word.token.expected? reading.closers = some next.closers
    | .finished _ => reading.closers = [] := by
  obtain ⟨settled, settles, decides⟩ := exists_settles_decides surroundings reading word
  have kept : settled.Fits ∧ settled.Awaits surroundings word ∧ settled.IsBegun :=
    settles.keeps
      (fun settled => settled.Fits ∧ settled.Awaits surroundings word ∧ settled.IsBegun)
      (fun _ _ passes held =>
        ⟨passes.fits held.1, passes.awaits held.1 held.2.1, passes.isBegun⟩)
      ⟨fits, rests.awaits word, begun⟩
  have same : settled.IsClean → reading.closers = settled.closers :=
    settles.keeps (fun settled => settled.IsClean → reading.closers = settled.closers)
      (fun _ _ passes held clean => (held (passes.isClean clean)).trans (passes.closers_eq clean))
      fun _ => rfl
  obtain ⟨_, awaits, settledBegun⟩ := kept
  generalize reading.read surroundings word = progress at decides clean
  cases decides with
  | takes taken =>
    dsimp only
    rw [same (taken.isClean clean)]
    exact taken.expected? awaits settledBegun
  | finishes stays => exact same ⟨List.forall_mem_nil _, clean _ rfl⟩
  | unbegun unfinished unopened => exact absurd (settledBegun rfl) (by simp [unfinished])

end Reading

/-! ## Files -/

namespace FileReading

/-- The closing brackets that the current expression of a file expects. -/
def closers (file : FileReading) : List Operator := (file.current.map Reading.closers).getD []

variable {grammar : Grammar} {file : FileReading} {word : Word}

/-- A file expects what its current expression does. -/
theorem closers_of_current {reading : Reading} (current : file.current = some reading) :
    file.closers = reading.closers := by
  rw [closers, current]
  rfl

/-- A word that begins an expression leaves what is expected behind it. -/
theorem expected?_beginWith {children : List SyntaxTree}
    (clean : (beginWith children word).IsClean) :
    word.token.expected? [] = some (beginWith children word).closers := by
  obtain ⟨_, opening, opens, begun⟩ := isClean_of_beginWith clean
  rw [begun, closers_of_current rfl, Reading.closers_begin]
  exact Opening.expected?_of_ofKind? opens []

/-- Reading a word of a file without errors leaves it expecting what has to be expected behind the
word. -/
theorem expected?_read (sound : file.IsSound) (agrees : file.Agrees grammar)
    (clean : (file.read grammar word).IsClean) :
    word.token.expected? file.closers = some (file.read grammar word).closers := by
  obtain ⟨_, readClean, _⟩ := isClean_of_read clean
  unfold FileReading.read at clean ⊢
  split
  · next none =>
    simp only [none] at clean
    rw [show file.closers = [] by rw [closers, none]; rfl]
    exact expected?_beginWith clean
  · next reading current =>
    simp only [current] at clean
    have step := Reading.expected?_read (sound.fits.current reading current)
      (agrees.current reading current) (sound.begun reading current) (readClean reading current)
    rw [closers_of_current current]
    split
    · next next progress =>
      rw [progress] at step
      exact step
    · next outcome progress =>
      simp only [progress] at clean
      rw [progress] at step
      rw [show reading.closers = [] from step]
      exact expected?_beginWith clean

/-- A file without errors expects what has to be expected behind its tokens. -/
theorem expectedBehind?_foldl_read {words : List Word} (sound : file.IsSound)
    (agrees : file.Agrees grammar) (clean : (words.foldl (read grammar) file).IsClean) :
    Token.expectedBehind? file.closers (words.map Word.token)
      = some (words.foldl (read grammar) file).closers := by
  induction words generalizing file with
  | nil => rfl
  | cons word words ih =>
    have soundAfter := (sound.read grammar word).1
    rw [List.foldl_cons] at clean ⊢
    have readClean := (isClean_of_foldl_read clean).1
    rw [List.map_cons, Token.expectedBehind?_cons, expected?_read sound agrees readClean,
      Option.bind_some]
    exact ih soundAfter (agrees.read sound.fits word) clean

end FileReading

end WolframSyntax
