import WolframSyntax.Proofs.Continuing
import WolframSyntax.Proofs.Lossless

/-!
# Parsing onto a production never fails

An expression is its first construct and what climbs from it, and with operands to one depth less
it is parsed as it is read (`Parsing.reads_above`), so calls to a depth above the number of words
suffice (`Parsing.reads_upTo`). A file is parsed turn by turn (`Parsing.runs_fileTurn`) until the
end is in view. When its mark is then closed, the record assembles to the tree that is read from the
tokens (`Parsing.parse_eq`).
-/

namespace WolframSyntax

namespace Parsing

open Production

variable {production since : Production} {id : MarkId} {children : List SyntaxTree}
  {parser : Parser} {surroundings : Surroundings} {whole : Option (Option Outcome × List Word)}
  {word : Word} {rest : List Word}

/-! ## Expressions -/

/-- An expression has been parsed since then, and it is what reading comes to. -/
def Climbed (since : Production) (whole : Option (Option Outcome × List Word)) (behind : List Word)
    (marked : MarkedOutcome) (later : Production) : Prop :=
  ∃ outcome, since.Marks later marked outcome ∧ whole = outcome.ended later.words ∧
    later.words <:+ behind

/-- Where no word is in view, no operator is found, or it is asked for in vain. -/
theorem next?_of_none (none : production.tokens[production.index]? = none) (bracketed : Bool) :
    next? bracketed production = some (.ok (Option.none, production)) ∨
      next? bracketed production
        = some (.error (.refused (.unended production.tokens.length))) := by
  have ends : atLineEnd bracketed production
      = some (.ok (!bracketed && production.lineEndBefore, production)) := rfl
  rw [next?, bind_apply, ends]
  dsimp only
  cases !bracketed && production.lineEndBefore with
  | true => exact .inl rfl
  | false =>
    rw [if_neg Bool.false_ne_true, bind_apply, token_fails none]
    exact .inr rfl

/-- What a complete expression comes to with a word in view. -/
theorem run_complete (outcome : Outcome) (word : Word) (rest : List Word) :
    Reading.run surroundings ⟨[], .complete outcome⟩ (word :: rest)
      = match word.link? surroundings.bracketed with
        | none => some (some outcome, word :: rest)
        | some link =>
          if surroundings.floor < surroundings.grammar.precedence link.operator then
            Reading.run surroundings (link.extend surroundings.grammar outcome.tree word) rest
          else some (some outcome, word :: rest) := by
  rw [Reading.run_cons]
  change (Reading.settle surroundings word [] outcome).run surroundings word rest = _
  rw [Reading.settle_nil, Reading.extend?_eq]
  cases word.link? surroundings.bracketed with
  | none => rfl
  | some link =>
    dsimp only
    split <;> rfl

/-- One turn of the climb takes the operator in view if reading goes on with it. -/
theorem runs_climb (reads : parser.Reads) {behind : List Word}
    (short : behind.length < parser.limit) {marked : MarkedOutcome}
    (complete : Complete surroundings since whole behind marked production) :
    (parser.climb surroundings marked).Runs production (whole = none)
      (Turn production.words (Complete surroundings since whole behind)
        (Climbed since whole behind)) := by
  obtain ⟨outcome, marks, same, further⟩ := complete
  have stays (ended : whole = outcome.ended production.words) :
      Climbed since whole behind marked production := ⟨outcome, marks, ended, further⟩
  have marked' : marked.mark.isNone = false := by
    obtain ⟨id, rfl, -, -⟩ := marks
    rfl
  have placed : production.IsPlaced := by
    obtain ⟨id, -, finished, -⟩ := marks
    exact finished.placed
  unfold Parser.climb
  rw [marked', if_neg Bool.false_ne_true]
  rcases placed.views with ⟨stream, none⟩ | ⟨word, more, views⟩
  · have empty : production.words = [] := by rw [words, stream]; rfl
    rw [empty] at same stays
    rcases next?_of_none none surroundings.bracketed with found | failed
    · exact runs_bind_of_eq found (.refl _) (runs_pure (stays same))
    · exact .inl ⟨by rw [bind_apply, failed], same⟩
  obtain ⟨rest, words⟩ := views.exists_words
  rw [words] at stays
  rw [words, run_complete] at same
  refine runs_bind_of_eq (next?_apply views _) (.refl _) ?_
  cases links : word.link? surroundings.bracketed with
  | none =>
    rw [links] at same
    exact runs_pure (stays same)
  | some link =>
    rw [links] at same
    dsimp only [Option.map_some] at same ⊢
    split
    · next weak =>
      rw [if_neg (Int.not_lt.mpr weak)] at same
      exact runs_pure (stays same)
    · next strong =>
      rw [if_pos (Int.not_le.mp strong)] at same
      refine (runs_applied reads marks words (Nat.lt_of_le_of_lt further.length_le short) links
        same).bind fun next later _ complete => ?_
      obtain ⟨outcome, marks, same, less⟩ := complete
      have tail : rest <:+ behind := (words ▸ List.suffix_cons word rest).trans further
      refine runs_pure ⟨⟨outcome, marks, same, less.trans tail⟩, ?_⟩
      rw [words]
      exact consumes_cons less

/-- With operands one level deeper, expressions with one more word are parsed as they are read. -/
theorem reads_above (reads : parser.Reads) : parser.above.Reads := by
  intro surroundings production placed short
  refine runs_token placed (fun none => by rw [none]; rfl) fun word rest more words views => ?_
  have fewer : rest.length < parser.limit := by
    rw [words] at short
    exact Nat.lt_of_succ_lt_succ short
  rw [words, Descent.run_fresh]
  cases kind : Opening.ofKind? word.token.kind with
  | none =>
    have unopened : word.opening? = none := kind
    exact runs_pure (.inl ⟨rfl, rfl, word, rest, words, unopened⟩)
  | some opening =>
    have opens : word.opening? = some opening := kind
    rw [opens]
    refine (runs_opened reads views words fewer opens surroundings).bind
      fun left middle _ complete => ?_
    have enough : middle.words.length < parser.limit := by
      obtain ⟨_, _, _, less⟩ := complete
      exact Nat.lt_of_le_of_lt less.length_le fewer
    refine (runs_iterate (fun _ _ => runs_climb reads fewer) complete enough).mono id
      fun marked later _ climbed => ?_
    obtain ⟨outcome, marks, same, less⟩ := climbed
    refine .inr ⟨outcome, marks, ?_, ?_⟩
    · rw [words, Descent.run_fresh, opens]
      exact same
    · rw [words]
      exact consumes_cons less

/-- Parsers are as deep as loops are long. -/
theorem limit_upTo (depth : Nat) : (Parser.upTo depth).limit = depth := by
  induction depth with
  | zero => rfl
  | succ depth ih => exact congrArg Nat.succ ih

/-- Calls to the depth of one more than the number of words suffice. -/
theorem reads_upTo (depth : Nat) : (Parser.upTo depth).Reads := by
  -- An operand stands behind a word of its construct, so its parser can be one level less deep.
  induction depth with
  | zero => exact fun _ _ _ short => absurd short (Nat.not_lt_zero _)
  | succ depth ih => exact reads_above ih

/-! ## Files -/

/-- A word that has no place in an expression becomes an error. -/
theorem runs_skip {unended : Prop} (unfinished : Unfinished since production 0 id children)
    {more : List Token} (views : production.Views word more) (inner : word.token.isEnd = false) :
    skip.Runs production unended fun _ later => production.words = word :: later.words ∧
      Unfinished since later 0 id (children ++ word.leadLeaves ++ [FileReading.skipped word]) := by
  refine runs_bind_of_eq (token_apply views) (.refl _) ?_
  obtain ⟨rest, words⟩ := views.exists_words
  refine runs_mark views words inner fun later id begun left => ?_
  subst left
  refine runs_of_eq (fail_apply begun _) ⟨rfl, rfl⟩ ⟨words, ?_⟩
  rw [← views.leavesBetween_lead]
  exact unfinished.operand (begun.finished .error _)

/-- The expressions of a file of which some have been parsed, if the file has an end. -/
def filed (grammar : Grammar) (children : List SyntaxTree) (stream : WordStream) :
    Option (List SyntaxTree) :=
  stream.ending.map fun ending =>
    (stream.words.foldl (FileReading.read grammar) ⟨children, none⟩).finish grammar ending.1

/-- Another expression of a file is to come. -/
def FileNext (grammar : Grammar) (since : Production) (limit : Nat)
    (whole : Option (List SyntaxTree)) (_ : Unit) (later : Production) : Prop :=
  ∃ children, Unfinished since later 0 0 children ∧ later.words.length < limit ∧
    whole = filed grammar children later.stream

/-- The expressions of a file have been parsed, and the end is in view. -/
def Filed (since : Production) (whole : Option (List SyntaxTree)) (_ : Unit)
    (later : Production) : Prop :=
  ∃ children word more, Unfinished since later 0 0 children ∧ later.Views word more ∧
    word.token.isEnd ∧ whole = some children

/-- A file goes on behind an expression. -/
theorem filed_of_opening (grammar : Grammar) {stream : WordStream} {opening : Opening}
    (ends : ∀ ending ∈ stream.ending, ending.1.token.isEnd)
    (opens : word.opening? = some opening) (children : List SyntaxTree) :
    Reading.run (FileReading.surroundings grammar) (Reading.begin [] opening word.token)
          (stream.words ++ (stream.ending.map Prod.fst).toList) = none ∧
        stream.ending = none ∨
      ∃ outcome rest, rest <:+ stream.words ∧
        Reading.run (FileReading.surroundings grammar) (Reading.begin [] opening word.token)
            (stream.words ++ (stream.ending.map Prod.fst).toList)
          = some (outcome, rest ++ (stream.ending.map Prod.fst).toList) ∧
        filed grammar children { stream with words := word :: stream.words }
          = filed grammar (children ++ word.leadLeaves ++ (outcome.map Outcome.tree).toList)
              { stream with words := rest } := by
  have final : ∀ last ∈ stream.ending.map Prod.fst, last.token.isEnd := by
    intro last inside
    obtain ⟨ending, held, rfl⟩ := Option.map_eq_some_iff.mp inside
    exact ends ending held
  rcases FileReading.exists_finish_foldl_read final (Reading.begin [] opening word.token)
    stream.words (children ++ word.leadLeaves) with unended | ⟨outcome, rest, behind, runs, same⟩
  · refine .inl ⟨unended, Option.eq_none_iff_forall_ne_some.mpr fun ending held => ?_⟩
    have inner := Reading.isEnd_eq_false_of_run_eq_none unended ending.1 (by simp [held])
    exact absurd (ends ending held) (by simp [inner])
  · refine .inr ⟨outcome, rest, behind, runs, Option.map_congr fun ending held => ?_⟩
    have begun : FileReading.read grammar ⟨children, none⟩ word
        = ⟨children ++ word.leadLeaves, some (Reading.begin [] opening word.token)⟩ := by
      rw [FileReading.read, FileReading.beginWith, opens]
    rw [List.foldl_cons, begun]
    exact same ending.1 (Option.mem_map_of_mem _ held)

/-- The last word of a list, if there is one, is its end. -/
theorem isEnd_of_ending (tokens : List Token) :
    ∀ ending ∈ (WordStream.ofTokens tokens).ending, ending.1.token.isEnd := by
  intro ending found
  have covers := WordStream.covers_ofTokens tokens
  unfold WordStream.Covers at covers
  rw [found] at covers
  exact covers.2.1

/-- What is to come behind a word that is not the end. -/
theorem words_of_stream_of_inner {more : List Token} (views : production.Views word more)
    (inner : word.token.isEnd = false) :
    production.words = word :: ((WordStream.ofTokens more).words
      ++ ((WordStream.ofTokens more).ending.map Prod.fst).toList) := by
  rw [Production.words, views.stream_of_inner inner]
  rfl

/-- What follows an expression of a file is the end of what followed the word it begins with. -/
theorem stream_eq_of_words {stream later : WordStream} (ending : later.ending = stream.ending)
    {rest : List Word}
    (words : later.words ++ (later.ending.map Prod.fst).toList
      = rest ++ (stream.ending.map Prod.fst).toList) :
    later = { stream with words := rest } := by
  obtain ⟨words', ending'⟩ := later
  obtain rfl : ending' = stream.ending := ending
  obtain rfl : words' = rest := List.append_cancel_right words
  rfl

/-- An expression of a file is parsed as it is read. -/
theorem runs_file_expression (reads : parser.Reads) {grammar : Grammar}
    {whole : Option (List SyntaxTree)} (unfinished : Unfinished since production 0 0 children)
    {more : List Token} (views : production.Views word more) (inner : word.token.isEnd = false)
    (short : production.words.length < parser.limit)
    (same : whole = filed grammar children production.stream) :
    (parser.expression (FileReading.surroundings grammar)).Runs production (whole = none)
      fun marked later =>
        (marked = .notParsed ∧ later = production ∧ word.opening? = none) ∨
          marked.mark.isSome ∧ FileNext grammar since parser.limit whole () later ∧
            Consumes production.words later.words := by
  have inside := views.stream_of_inner inner
  have ends := isEnd_of_ending more
  have words := words_of_stream_of_inner views inner
  rw [inside] at same
  have alone := reads (FileReading.surroundings grammar) production unfinished.placed short
  rw [words, Descent.run_fresh] at alone
  cases opens : word.opening? with
  | none =>
    rw [opens] at alone
    refine alone.mono (fun unended => by cases unended) fun marked later _ parsed => ?_
    rcases parsed with ⟨nothing, here, -⟩ | ⟨outcome, -, same, -⟩
    · exact .inl ⟨nothing, here, rfl⟩
    · rw [words, Descent.run_fresh, opens] at same
      cases (eq_of_ended same.symm).1
  | some opening =>
    rw [opens] at alone
    dsimp only at alone
    have goesOn := filed_of_opening grammar ends opens children
    refine alone.mono (fun unended => ?_) fun marked later reaches parsed => ?_
    · rcases goesOn with ⟨-, none⟩ | ⟨outcome, rest, -, runs, -⟩
      · rw [same, filed, none]
        rfl
      · cases unended.symm.trans runs
    · rcases parsed with ⟨-, -, first, rest, same, unopened⟩ | ⟨outcome, marks, runs, consumes⟩
      · cases words.symm.trans same
        cases opens.symm.trans unopened
      · obtain ⟨id, rfl, finished, -⟩ := marks
        rw [words, Descent.run_fresh, opens] at runs
        dsimp only at runs
        refine .inr ⟨rfl, ⟨children ++ word.leadLeaves ++ [outcome.tree], ?_,
          Nat.lt_trans consumes.2 short, ?_⟩, consumes⟩
        · rw [← views.leavesBetween_lead]
          exact unfinished.operand finished
        · have ending : later.stream.ending = (WordStream.ofTokens more).ending :=
            reaches.ending.trans (by rw [inside])
          rcases goesOn with ⟨-, none⟩ | ⟨other, rest, -, runs', same'⟩
          · rw [same, filed, filed, ending, none]
            rfl
          · obtain ⟨rfl, words'⟩ := eq_of_ended (runs.symm.trans runs')
            rw [same, stream_eq_of_words ending words'.symm]
            exact same'

/-- One turn of a file parses an expression or skips a word, unless the end is in view. -/
theorem runs_fileTurn {grammar : Grammar} {whole : Option (List SyntaxTree)}
    (reads : parser.Reads) {turn : Unit}
    (next : FileNext grammar since parser.limit whole turn production) :
    (parser.fileTurn grammar turn).Runs production (whole = none)
      (Turn production.words (FileNext grammar since parser.limit whole) (Filed since whole)) := by
  obtain ⟨children, unfinished, short, same⟩ := next
  rcases unfinished.placed.views with ⟨stream, none⟩ | ⟨word, more, views⟩
  · refine .inl ⟨?_, by rw [same, stream]; rfl⟩
    rw [Parser.fileTurn, bind_apply, token_fails none]
  refine runs_bind_of_eq (token_apply views) (.refl _) ?_
  cases ends : word.token.isEnd with
  | true =>
    refine runs_pure ⟨children, word, more, unfinished, views, ends, ?_⟩
    rw [same, views.stream_of_isEnd ends]
    rfl
  | false =>
    rw [if_neg Bool.false_ne_true]
    refine (runs_file_expression reads unfinished views ends short same).bind
      fun marked later _ parsed => ?_
    rcases parsed with ⟨rfl, rfl, unopened⟩ | ⟨some, next, consumes⟩
    · refine (runs_skip unfinished views ends).bind fun _ last reaches skipped => ?_
      obtain ⟨left, made⟩ := skipped
      have consumes : Consumes later.words last.words := by
        rw [left]
        exact consumes_cons (List.suffix_refl _)
      refine runs_pure ⟨⟨_, made, Nat.lt_trans consumes.2 short, ?_⟩, consumes⟩
      have inside := views.stream_of_inner ends
      rw [words_of_stream_of_inner views ends] at left
      rw [same, inside, stream_eq_of_words (reaches.ending.trans (by rw [inside]))
        (List.cons.inj left).2.symm]
      rw [filed, List.foldl_cons, FileReading.read, FileReading.beginWith, unopened]
      rfl
    · rw [some, if_pos rfl]
      exact runs_pure ⟨next, consumes⟩

/-- What is left of the tokens when the end of a file is in view. -/
theorem leavesBetween_ending {more : List Token} (views : production.Views word more)
    (ends : word.token.isEnd) :
    leavesBetween production.tokens production.lastEnd production.tokens.length
      = word.leadLeaves ++ (more.filter fun token => !token.isEnd).map SyntaxTree.leaf := by
  rw [leavesBetween, List.take_length, views.tokens, List.filter_append,
    WordStream.filter_of_trivia views.trivia, List.filter_cons_of_neg (by simp [ends]),
    List.map_append]
  rfl

/-- A file whose end is in view becomes the tree of what has been parsed. -/
theorem build_of_filed {later : Production} {whole : Option (List SyntaxTree)}
    (filed : Filed production whole () later) (start : production = ofTokens later.tokens) :
    ∃ children word more built, whole = some children ∧ later.stream.ending = some (word, more) ∧
      (done 0 .file >>= fun _ => build) later = some (.ok
        (SyntaxTree.ofKind .file (children ++ (word.leadLeaves
          ++ (more.filter fun token => !token.isEnd).map SyntaxTree.leaf)), built)) := by
  obtain ⟨children, word, more, unfinished, views, ends, rfl⟩ := filed
  rw [start] at unfinished
  have reached : later.lastEnd ≤ later.tokens.length := by
    have behind := congrArg List.length views.tokens
    simp only [List.length_drop, List.length_append, List.length_cons] at behind
    omega
  obtain ⟨closed, done, built⟩ := unfinished.build reached .file
  refine ⟨children, word, more, closed.build.1, rfl, ?_, ?_⟩
  · rw [views.stream_of_isEnd ends]
  · have closes : Parsing.done 0 .file later = some (.ok ((), closed)) := by
      rw [Parsing.done, ofCall, done]
      rfl
    rw [bind_apply, closes]
    dsimp only
    rw [Parsing.build, ofCall, built, leavesBetween_ending views ends]
    rfl

/-- A file is parsed as it is read, to its tree or to the end of tokens that lack an end token. -/
theorem parse_eq (grammar : Grammar) {depth : Nat} {tokens : List Token}
    (enough : tokens.length < depth) :
    Parser.parse depth grammar tokens = some ((parseTokens grammar tokens).mapError fun failure =>
      .refused (.unended failure.length)) := by
  let start : Production := (ofTokens tokens).mark.1
  have stream : start.stream = WordStream.ofTokens tokens := rfl
  have fewer : start.words.length < (Parser.upTo depth).limit := by
    rw [limit_upTo]
    exact Nat.lt_of_le_of_lt (WordStream.length_words_le [] tokens) enough
  have starts : FileNext grammar (ofTokens tokens) (Parser.upTo depth).limit
      (filed grammar [] (WordStream.ofTokens tokens)) () start :=
    ⟨[], unfinished_root tokens, fewer, rfl⟩
  have loop := runs_iterate
    (fun _ _ next => runs_fileTurn (reads_upTo depth) next) starts fewer
  rw [limit_upTo] at loop
  have begins : mark (ofTokens tokens) = some (.ok (0, start)) := rfl
  unfold Parser.parse Parser.file
  rw [bind_apply, begins]
  dsimp only
  rw [bind_apply]
  rcases loop with ⟨failed, unended⟩ | ⟨_, later, ends, reaches, filed⟩
  · have none : (WordStream.ofTokens tokens).ending = none := Option.map_eq_none_iff.mp unended
    rw [failed, parseTokens, none]
    rfl
  · have same : ofTokens tokens = ofTokens later.tokens := by
      rw [reaches.tokens]
      rfl
    obtain ⟨children, word, more, built, whole, ending, builds⟩ := build_of_filed filed same
    rw [ends]
    dsimp only
    rw [builds, parseTokens]
    have found : (WordStream.ofTokens tokens).ending = some (word, more) :=
      (stream ▸ reaches.ending).symm.trans ending
    rw [Parsing.filed, found] at whole
    have finished := Option.some.inj whole
    have tree : FileReading.tree grammar (WordStream.ofTokens tokens).words word more
        = SyntaxTree.ofKind .file (children ++ (word.leadLeaves
          ++ (more.filter fun token => !token.isEnd).map SyntaxTree.leaf)) := by
      rw [← finished, ← List.append_assoc]
      rfl
    rw [found, Option.map_some]
    dsimp only
    rw [tree]
    rfl

end Parsing

open SyntaxTree in
/-- With calls to any depth above the number of tokens, parsing a list onto a production ends. No
call of the production is refused but for the one that asks for a token behind the last one, which
happens just if there is no end token. A list with an end token becomes the file that is read from
it, whose leaves are the other tokens in order. The file of a text has that text. -/
theorem Parser.parse_lossless (grammar : Grammar) :
    (∀ (tokens : List Token) (depth : Nat), tokens.length < depth →
      match Parser.parse depth grammar tokens with
      | none => False
      | some (.error error) =>
        error = .refused (.unended tokens.length) ∧ tokens.any Token.isEnd = false
      | some (.ok tree) =>
        tokens.any Token.isEnd = true ∧ parseTokens grammar tokens = .ok tree ∧
          tree.kind = .file ∧
          tree.leaves = (tokens.filter fun token => !token.isEnd).map leaf ∧
          tree.tokens = tokens.filter fun token => !token.isEnd) ∧
      ∀ (source : String) (depth : Nat), (tokenize source).length < depth →
        ∃ tree, Parser.parse depth grammar (tokenize source) = some (.ok tree) ∧
          parseSource grammar source = tree ∧ tree.text = source := by
  constructor
  · intro tokens depth enough
    have lossless := (parseTokens_lossless grammar tokens).1
    rw [Parsing.parse_eq grammar enough]
    cases parsed : parseTokens grammar tokens with
    | error failure =>
      rw [parsed] at lossless
      obtain ⟨unended, same⟩ := lossless
      exact ⟨congrArg (fun length => ParserError.refused (.unended length)) same, unended⟩
    | ok tree =>
      rw [parsed] at lossless
      exact ⟨lossless.1, rfl, lossless.2⟩
  · intro source depth enough
    refine ⟨_, ?_, rfl, (parseTokens_lossless grammar []).2 source⟩
    rw [Parsing.parse_eq grammar enough, parseTokens_tokenize]
    rfl

/-- Brackets that are never closed leave no mark open, and a list without an end token is refused
for that. -/
theorem Parser.parse_lossless_unclosed :
    (tokenize "f[a::b, (x_ /: 2").length < 18 ∧
      (∃ tree, Parser.parse 18 .standard (tokenize "f[a::b, (x_ /: 2") = some (.ok tree) ∧
        tree.text = "f[a::b, (x_ /: 2") ∧
      Parser.parse 2 .standard [⟨.identifier, "x", 1, 1⟩]
        = some (.error (.refused (.unended 1))) := by
  have short : (tokenize "f[a::b, (x_ /: 2").length < 18 := by decide +kernel
  refine ⟨short, ?_, ?_⟩
  · obtain ⟨tree, parsed, -, text⟩ := (Parser.parse_lossless .standard).2 _ 18 short
    exact ⟨tree, parsed, text⟩
  · have ends := (Parser.parse_lossless .standard).1 [⟨.identifier, "x", 1, 1⟩] 2 (by decide)
    split at ends
    · exact ends.elim
    · next error parsed => rw [parsed, ends.1]; rfl
    · cases ends.1

end WolframSyntax
