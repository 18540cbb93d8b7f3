import WolframSyntax.Proofs.Advancing
import WolframSyntax.Proofs.Marking

/-!
# Runs of a parser

What parsing comes to on a production (`Parsing.Runs`): it ends, either because the tokens have run
out or with a value and a production that has got further. That the tokens run out is the one
failure there may be, and a run says when it is the case. Runs are put together by `Runs.bind`, and
loops by `runs_iterate`: a loop ends if every turn with which it goes on reads a word.

The rest are the runs of the single calls. What looks at the token in view finds the word in view
(`runs_look`), and the marks that are made and closed are those of a construct that is not complete
(`runs_mark`, `runs_advance`, `runs_empty`) or complete (`runs_finish`, `runs_around`).
-/

namespace WolframSyntax

/-- The continuation that a link stands for. -/
def Word.Link.continuation : Word.Link → Continuation
  | sign _ continuation => continuation
  | factor _ => .product

/-! ## Runs -/

/-- Of a production that has got further, the tokens and the end are those of the earlier one. -/
structure Production.Reaches (production later : Production) : Prop where
  tokens : later.tokens = production.tokens
  ending : later.stream.ending = production.stream.ending

theorem Production.Reaches.refl (production : Production) : production.Reaches production :=
  ⟨rfl, rfl⟩

/-- What is reached from what has been reached is reached. -/
theorem Production.Reaches.trans {first second third : Production} (early : first.Reaches second)
    (late : second.Reaches third) : first.Reaches third :=
  ⟨late.tokens.trans early.tokens, late.ending.trans early.ending⟩

namespace Parsing

open Production

variable {Result Next State : Type} {production later : Production} {unended : Prop}

/-- Parsing ends: either the tokens run out, of which `unended` is the case then, or it comes to a
value and leaves a production. No other failure is possible. -/
def Runs (parsing : Parsing Result) (production : Production) (unended : Prop)
    (left : Result → Production → Prop) : Prop :=
  parsing production = some (.error (.refused (.unended production.tokens.length))) ∧ unended ∨
    ∃ value later, parsing production = some (.ok (value, later)) ∧ production.Reaches later ∧
      left value later

/-- A sequence of two steps fails with the first, or goes on with what the first has come to. -/
theorem bind_apply (parsing : Parsing Result) (next : Result → Parsing Next)
    (production : Production) :
    (parsing >>= next) production
      = match parsing production with
        | some (.ok (value, later)) => next value later
        | some (.error error) => some (.error error)
        | none => none := by
  simp only [bind, StateT.bind, ExceptT.bind, ExceptT.mk]
  rcases parsing production with _ | _ | ⟨value, later⟩ <;> rfl

/-- What only gives a value comes to that value. -/
theorem runs_pure {value : Result} {left : Result → Production → Prop}
    (holds : left value production) : Runs (pure value) production unended left :=
  .inr ⟨value, production, rfl, .refl _, holds⟩

/-- What comes to a value and leaves a later production has run. -/
theorem runs_of_eq {parsing : Parsing Result} {value : Result} {left : Result → Production → Prop}
    (ends : parsing production = some (.ok (value, later))) (reaches : production.Reaches later)
    (holds : left value later) : parsing.Runs production unended left :=
  .inr ⟨value, later, ends, reaches, holds⟩

/-- Behind a step that is known to come to a value, a sequence runs as its second step does. -/
theorem runs_bind_of_eq {parsing : Parsing Result} {next : Result → Parsing Next} {value : Result}
    {left : Next → Production → Prop} (ends : parsing production = some (.ok (value, later)))
    (reaches : production.Reaches later) (runs : (next value).Runs later unended left) :
    (parsing >>= next).Runs production unended left := by
  rw [Runs, bind_apply, ends]
  rcases runs with ⟨failed, out⟩ | ⟨value, last, ends, further, holds⟩
  · exact .inl ⟨by rw [← reaches.tokens]; exact failed, out⟩
  · exact .inr ⟨value, last, ends, reaches.trans further, holds⟩

/-- A sequence runs if its second step runs from wherever its first one leads. -/
theorem Runs.bind {parsing : Parsing Result} {next : Result → Parsing Next}
    {middle : Result → Production → Prop} {left : Next → Production → Prop}
    (first : parsing.Runs production unended middle)
    (second : ∀ value later, production.Reaches later → middle value later →
      (next value).Runs later unended left) :
    (parsing >>= next).Runs production unended left := by
  rcases first with ⟨failed, out⟩ | ⟨value, later, ends, reaches, holds⟩
  · exact .inl ⟨by rw [bind_apply, failed], out⟩
  · exact runs_bind_of_eq ends reaches (second value later reaches holds)

/-- What a run leaves may be known less well than it is. -/
theorem Runs.mono {parsing : Parsing Result} {left more : Result → Production → Prop}
    {other : Prop} (runs : parsing.Runs production unended left) (out : unended → other)
    (weaker : ∀ value later, production.Reaches later → left value later → more value later) :
    parsing.Runs production other more := by
  rcases runs with ⟨failed, none⟩ | ⟨value, later, ends, reaches, holds⟩
  · exact .inl ⟨failed, out none⟩
  · exact .inr ⟨value, later, ends, reaches, weaker value later reaches holds⟩

/-- What a turn of a loop leaves: the loop goes on behind fewer words, or comes to a result. -/
def Turn (words : List Word) (goesOn : State → Production → Prop)
    (left : Result → Production → Prop) : State ⊕ Result → Production → Prop
  | .inl state, later => goesOn state later ∧ Consumes words later.words
  | .inr result, later => left result later

/-- A loop ends if every turn with which it goes on reads a word, and one turn more is allowed than
there are words to come. -/
theorem runs_iterate {turn : State → Parsing (State ⊕ Result)}
    {goesOn : State → Production → Prop} {left : Result → Production → Prop}
    (turns : ∀ state production, goesOn state production →
      (turn state).Runs production unended (Turn production.words goesOn left))
    {limit : Nat} {state : State} (holds : goesOn state production)
    (enough : production.words.length < limit) :
    (iterate turn limit state).Runs production unended left := by
  -- More turns are left than words are to come, since a turn with which the loop goes on reads one.
  induction limit generalizing state production with
  | zero => cases enough
  | succ limit ih =>
    refine (turns state production holds).bind fun next later _ taken => ?_
    cases next with
    | inl state =>
      exact ih taken.1 (Nat.lt_of_lt_of_le taken.2.2 (Nat.le_of_lt_succ enough))
    | inr result => exact runs_pure taken

/-! ## Looking ahead -/

variable {next : Result → Parsing Next} {left : Next → Production → Prop} {word : Word}
  {more : List Token}

/-- Where a word is in view, its token is found. -/
theorem token_apply (views : production.Views word more) :
    token production = some (.ok (word.token, production)) := by
  rw [token, ofCall, views.token_eq]
  rfl

/-- Where no word is in view, a token is asked for in vain. -/
theorem token_fails (none : production.tokens[production.index]? = none) :
    token production = some (.error (.refused (.unended production.tokens.length))) := by
  rw [token, ofCall, Production.token, none]
  rfl

/-- Where a word is in view, it is told whether its token is of a given kind. -/
theorem isAt_apply (views : production.Views word more) (kind : TokenKind) :
    isAt kind production = some (.ok (word.token.kind == kind, production)) := by
  rw [isAt, bind_apply, token_apply views]
  rfl

/-- Where no word is in view, its kind is asked for in vain. -/
theorem isAt_fails (none : production.tokens[production.index]? = none) (kind : TokenKind) :
    isAt kind production = some (.error (.refused (.unended production.tokens.length))) := by
  rw [isAt, bind_apply, token_fails none]

/-- What looks at the word in view comes to a value, or fails where there is none. -/
theorem runs_look {look : Parsing Result} (placed : production.IsPlaced)
    (out : production.words = [] → unended) {value : Word → Result}
    (found : ∀ word more, production.Views word more →
      look production = some (.ok (value word, production)))
    (fails : production.tokens[production.index]? = none →
      look production = some (.error (.refused (.unended production.tokens.length))))
    (seen : ∀ word rest more, production.words = word :: rest → production.Views word more →
      (next (value word)).Runs production unended left) :
    (look >>= next).Runs production unended left := by
  rcases placed.views with ⟨stream, none⟩ | ⟨word, more, views⟩
  · exact .inl ⟨by rw [bind_apply, fails none], out (by rw [words, stream]; rfl)⟩
  · obtain ⟨rest, words⟩ := views.exists_words
    exact runs_bind_of_eq (found word more views) (.refl _) (seen word rest more words views)

/-- The word in view is looked at, or asked for in vain. -/
theorem runs_token {next : Token → Parsing Next} (placed : production.IsPlaced)
    (out : production.words = [] → unended)
    (seen : ∀ word rest more, production.words = word :: rest → production.Views word more →
      (next word.token).Runs production unended left) :
    (token >>= next).Runs production unended left :=
  runs_look placed out (fun _ _ => token_apply) token_fails seen

/-- The word in view is of a given kind or not. -/
theorem runs_isAt {next : Bool → Parsing Next} (placed : production.IsPlaced)
    (out : production.words = [] → unended) (kind : TokenKind)
    (seen : ∀ word rest more, production.words = word :: rest → production.Views word more →
      (next (word.token.kind == kind)).Runs production unended left) :
    (isAt kind >>= next).Runs production unended left :=
  runs_look placed out (fun _ _ views => isAt_apply views kind) (isAt_fails · kind) seen

/-- Trivia in front of the word in view is found. -/
theorem blankBefore_apply (views : production.Views word more) :
    blankBefore production = some (.ok (!word.touches, production)) := by
  rw [← views.blankBefore_eq]
  rfl

/-- A line end in front of the word in view is found, unless lines are ignored. -/
theorem atLineEnd_apply (views : production.Views word more) (bracketed : Bool) :
    atLineEnd bracketed production = some (.ok (!bracketed && word.beginsLine, production)) := by
  rw [← views.lineEndBefore_eq]
  rfl

/-- The test whether a chain goes on is that of the word in view. -/
theorem continuesWith_apply (views : production.Views word more) (bracketed : Bool)
    (sign : Operator) :
    continuesWith bracketed (.operator sign) production
      = some (.ok (word.continuesWith bracketed sign, production)) := by
  rw [continuesWith, bind_apply, isAt_apply views]
  change (if word.isOperator sign then _ else _ : Parsing Bool) production = _
  rw [Word.continuesWith]
  cases word.isOperator sign with
  | false => rfl
  | true =>
    rw [if_pos rfl, bind_apply, atLineEnd_apply views]
    cases bracketed <;> cases word.beginsLine <;> rfl

/-- The word in view goes on with an operator or not. -/
theorem runs_continuesWith {next : Bool → Parsing Next} (placed : production.IsPlaced)
    (out : production.words = [] → unended) (bracketed : Bool) (sign : Operator)
    (seen : ∀ word rest more, production.words = word :: rest → production.Views word more →
      (next (word.continuesWith bracketed sign)).Runs production unended left) :
    (continuesWith bracketed (.operator sign) >>= next).Runs production unended left :=
  runs_look placed out (fun _ _ views => continuesWith_apply views bracketed sign)
    (fun none => by rw [continuesWith, bind_apply, isAt_fails none]) seen

/-- The test whether an expression follows finds how the word in view begins one on its line. -/
theorem expressionFollows_apply (views : production.Views word more) (bracketed : Bool) :
    expressionFollows bracketed production
      = some (.ok ((word.openingInLine? bracketed).isSome, production)) := by
  rw [expressionFollows, bind_apply, atLineEnd_apply views, Word.openingInLine?]
  dsimp only
  split
  · rfl
  · rw [bind_apply, token_apply views]
    rfl

/-- The test for another factor finds the words that begin one (`Word.factor?`). -/
theorem juxtapositionFollows_apply (views : production.Views word more) (bracketed : Bool) :
    juxtapositionFollows bracketed production
      = some (.ok ((word.factor? bracketed).isSome, production)) := by
  rw [juxtapositionFollows, bind_apply, expressionFollows_apply views, Word.factor?]
  cases word.openingInLine? bracketed with
  | none => rfl
  | some opening =>
    dsimp only
    rw [Option.isSome_some, if_pos rfl, bind_apply, token_apply views]
    dsimp only
    cases Continuation.ofKind? word.token.kind with
    | none => rfl
    | some form =>
      dsimp only
      rw [bind_apply, blankBefore_apply views]
      dsimp only
      cases form.2.mustTouch && !word.touches <;> rfl

/-- An expression that stands beside another one is its factor. -/
theorem implicit?_eq (word : Word) :
    implicit? word.token.kind = (word.opening?.map Word.Link.factor).map fun link =>
      (link.operator, link.continuation) := by
  unfold implicit? Word.opening?
  cases Opening.ofKind? word.token.kind <;> rfl

/-- The operator that goes on from an expression is the one by which the word is linked to it. -/
theorem next?_apply (views : production.Views word more) (bracketed : Bool) :
    next? bracketed production
      = some (.ok ((word.link? bracketed).map fun link => (link.operator, link.continuation),
          production)) := by
  rw [next?, bind_apply, atLineEnd_apply views, Word.link?]
  dsimp only
  cases !bracketed && word.beginsLine with
  | true => rfl
  | false =>
    simp only [Bool.false_eq_true, if_false]
    rw [bind_apply, token_apply views]
    dsimp only
    rw [bind_apply, blankBefore_apply views]
    dsimp only
    rcases Continuation.ofKind? word.token.kind with _ | ⟨sign, continuation⟩
    · dsimp only
      rw [implicit?_eq]
      rfl
    · dsimp only
      cases continuation.mustTouch && !word.touches with
      | true =>
        rw [if_pos rfl, if_pos rfl, implicit?_eq]
        rfl
      | false => rfl

/-! ## Marking constructs -/

variable {since : Production} {place : Nat} {id : MarkId} {children : List SyntaxTree}
  {rest : List Word}

/-- Where few enough words are to come, few enough are behind the first one. -/
theorem length_lt_of_words {limit : Nat} (short : production.words.length < limit)
    (words : production.words = word :: rest) : rest.length < limit := by
  rw [words] at short
  exact Nat.lt_of_succ_lt short

/-- A word in view that is not the end can be read. -/
theorem advance_apply (views : production.Views word more) (inner : word.token.isEnd = false) :
    advance production = some (.ok ((), production.read)) := by
  rw [advance, ofCall, views.advance_eq inner]
  rfl

/-- Reading a word changes neither the tokens nor the end. -/
theorem reaches_read (views : production.Views word more) (inner : word.token.isEnd = false) :
    production.Reaches production.read := ⟨rfl, (views.words_eq inner).2⟩

/-- A mark in front of a word that is read begins a construct. -/
theorem runs_mark {after : MarkId → Parsing Next} (views : production.Views word more)
    (words : production.words = word :: rest) (inner : word.token.isEnd = false)
    (begun : ∀ later id, Unfinished production later production.index id [word.leaf] →
      later.words = rest → (after id).Runs later unended left) :
    (mark >>= fun id => advance >>= fun _ => after id).Runs production unended left := by
  have marked : production.mark.1.Views word more := views.of_eq rfl rfl rfl
  refine runs_bind_of_eq (by rfl) ⟨by rfl, by rfl⟩ ?_
  refine runs_bind_of_eq (advance_apply marked inner) (reaches_read marked inner) ?_
  exact begun _ _ (unfinished_mark views inner) (views.words_read words inner)

/-- A word that is read becomes a child of the construct. -/
theorem runs_advance {after : Parsing Next}
    (unfinished : Unfinished since production place id children)
    (words : production.words = word :: rest) (inner : word.token.isEnd = false)
    (read : ∀ later, Unfinished since later place id (children ++ word.leaves) →
      later.words = rest → after.Runs later unended left) :
    (advance >>= fun _ => after).Runs production unended left := by
  obtain ⟨more, views⟩ := unfinished.placed.exists_views words
  exact runs_bind_of_eq (advance_apply views inner) (reaches_read views inner)
    (read _ (unfinished.read views inner) (views.words_read words inner))

/-- What is missing in front of the word in view becomes a child of the construct. -/
theorem runs_empty {after : Parsing Next}
    (unfinished : Unfinished since production place id children)
    (words : production.words = word :: rest) (kind : NodeKind) (message : Option String)
    (made : ∀ later, Unfinished since later place id
        (children ++ [SyntaxTree.absent kind message word.token]) →
      later.words = production.words → after.Runs later unended left) :
    (empty kind message >>= fun _ => after).Runs production unended left := by
  obtain ⟨more, views⟩ := unfinished.placed.exists_views words
  have recorded : empty kind message production = some (.ok ((),
      production.withAbsent kind message word.token.position)) := by
    rw [empty, ofCall, empty_eq views]
    rfl
  exact runs_bind_of_eq recorded ⟨rfl, rfl⟩
    (made _ (unfinished.withAbsent kind message word.token) rfl)

/-- The mark of a construct that is not complete can be closed. -/
theorem done_apply (unfinished : Unfinished since production since.index id children)
    (kind : NodeKind) :
    done id kind production = some (.ok ((), production.shut id kind none)) := by
  rw [done, ofCall, unfinished.done_eq kind]
  rfl

/-- The mark of a construct that is not complete can be closed as an error. -/
theorem fail_apply (unfinished : Unfinished since production since.index id children)
    (diagnostic : Diagnostic) :
    fail id diagnostic production
      = some (.ok ((), production.shut id .error (some diagnostic.message))) := by
  rw [fail, ofCall, unfinished.fail_eq]
  rfl

/-- The mark of a construct that is complete is closed. -/
theorem runs_finish (unfinished : Unfinished since production since.index id children)
    (kind : NodeKind) (succeeded : Bool) {left : MarkedOutcome → Production → Prop}
    (finished : ∀ later, later.words = production.words →
      Finished since later id (SyntaxTree.ofKind kind children) →
      left ⟨some id, some kind, succeeded⟩ later) :
    (finish id kind succeeded).Runs production unended left :=
  runs_bind_of_eq (done_apply unfinished kind) ⟨rfl, rfl⟩
    (runs_pure (finished _ rfl (unfinished.finished kind none)))

/-- A construct that is complete can get a mark around it. -/
theorem precede_apply {tree : SyntaxTree} (finished : Finished since production id tree) :
    precede id production = some (.ok (production.marks.length,
      production.wrapped since.index since.marks.length id)) := by
  obtain ⟨preceded, mark, anchor, found, anchored, chained⟩ := finished.precede_eq
  have known : (production.marks[id]?.bind fun mark => production.marks[mark.anchor]?)
      = some anchor := by
    rw [found]
    exact anchored
  have here : (get : Parsing Production) production = some (.ok (production, production)) := rfl
  rw [Parsing.precede, bind_apply, here]
  dsimp only
  rw [known]
  dsimp only
  rw [if_pos chained, ofCall, preceded]
  rfl

/-- A mark is put around a finished construct. -/
theorem runs_around {next : MarkId → Parsing Next} {tree : SyntaxTree}
    (finished : Finished since production id tree) (kind : Option NodeKind) (succeeded : Bool)
    (begun : ∀ later new, later.words = production.words →
      Unfinished since later since.index new [tree] → (next new).Runs later unended left) :
    (around ⟨some id, kind, succeeded⟩ >>= next).Runs production unended left :=
  runs_bind_of_eq (precede_apply finished) ⟨rfl, rfl⟩ (begun _ _ rfl finished.wrapped)

end Parsing

end WolframSyntax
