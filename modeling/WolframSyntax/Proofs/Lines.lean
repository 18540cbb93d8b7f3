import WolframSyntax.Proofs.FullForm
import WolframSyntax.Proofs.LineEnds
import WolframSyntax.Proofs.Layout
import WolframSyntax.Proofs.Trivia
import WolframSyntax.Proofs.Within

/-!
# Lines compose

A word that begins an expression on a new line ends whatever the end of a text would end, and leaves
the same behind (`FileReading.read_of_isApart`). So texts that have no errors one by one and do not
end inside of a comment can be joined line by line: the file has no errors, and its expressions are
those of the texts one after another (`fullForm?_parseSource_lines`).
-/

namespace WolframSyntax

open SyntaxTree WolframSyntax.Tree

/-! ## Words that go on from nothing -/

namespace Word

variable {word : Word}

/-- Outside of brackets the word goes on from nothing: it belongs to no expression, or it begins one
on a new line. -/
def IsApart (word : Word) : Prop := word.IsForeign ∨ word.beginsLine ∧ word.opening?.isSome

theorem IsApart.stops (apart : word.IsApart) : word.Stops false := by
  rcases apart with foreign | ⟨line, opens⟩
  · exact stops_of_isForeign foreign false
  · obtain ⟨opening, opens⟩ := Option.isSome_iff_exists.mp opens
    refine ⟨link?_of_beginsLine line, openingInLine?_of_beginsLine line, ?_,
      fun sign _ begins => isOperator_of_opening? opens begins⟩
    rintro ⟨_, touches⟩
    rw [touches_eq_false_of_beginsLine line] at touches
    cases touches

end Word

/-- Where an expression is ended by a foreign word without errors, every word that goes on from
nothing ends it, with the same gist. -/
theorem Reading.exists_read_of_isApart {surroundings : Surroundings} {reading : Reading}
    {word ending : Word} (outside : surroundings.bracketed = false) (begun : reading.IsBegun)
    (foreign : ending.IsForeign) (clean : (reading.read surroundings ending).IsClean)
    (apart : word.IsApart) :
    ∃ left right, reading.read surroundings ending = .finished (some left) ∧
      reading.read surroundings word = .finished (some right) ∧ left.gist = right.gist := by
  have stops : word.Stops (surroundings.isBracketed []) := by
    rw [Surroundings.isBracketed, outside]
    exact apart.stops
  obtain ⟨left, right, ends, settles, lefts⟩ :=
    exists_read_of_stops outside begun foreign clean stops
  rw [within_nil, settle_nil_of_stops stops] at settles
  exact ⟨left, right, ends, settles, lefts⟩

/-! ## Files and lists of tokens -/

/-- Every token that is neither trivia nor an end stands in some word. -/
theorem WordStream.exists_mem_words {tokens : List Token}
    (unended : tokens.any Token.isEnd = false) {token : Token} (present : token ∈ tokens)
    (plain : token.isTrivia = false) (lead : List Token) :
    ∃ word ∈ (after lead tokens).words, word.token = token := by
  rw [← List.mem_map, map_token_words unended]
  exact List.mem_filter.mpr ⟨present, by simp [plain]⟩

namespace FileReading

variable {grammar : Grammar} {file : FileReading} {word ending : Word}

/-- Where the end of a file ends the last expression without errors, a word that goes on from
nothing ends it as well, and leaves the same behind. -/
theorem read_of_isApart (sound : file.IsSound) (foreign : ending.IsForeign)
    (clean : ∀ reading ∈ file.current, (reading.read (surroundings grammar) ending).IsClean)
    (apart : word.IsApart) :
    file.read grammar word = beginWith (file.finish grammar word) word ∧
      gistAll (file.finish grammar word) = gistAll (file.finish grammar ending) := by
  unfold FileReading.read finish
  cases current : file.current with
  | none => exact ⟨rfl, rfl⟩
  | some reading =>
    obtain ⟨left, right, ends, wordEnds, lefts⟩ := Reading.exists_read_of_isApart rfl
      (sound.begun reading current) foreign (clean reading current) apart
    dsimp only
    rw [ends, wordEnds]
    refine ⟨rfl, ?_⟩
    dsimp only
    rw [gistAll_append, gistAll_append]
    exact congrArg _ (Outcome.gistAll_of_gist_eq lefts).symm

/-- Tokens that differ in their places only are read to the same gist. -/
theorem exists_parseTokens_of_unplaced {tokens twins : List Token}
    (same : tokens.map Token.unplaced = twins.map Token.unplaced) {tree : SyntaxTree}
    (parsed : parseTokens grammar tokens = .ok tree) :
    ∃ twin, parseTokens grammar twins = .ok twin ∧
      gistAll twin.children = gistAll tree.children := by
  rw [parseTokens_eq_ok_iff, WordStream.ofTokens] at parsed
  have self : Behind [] empty empty := ⟨rfl, rfl⟩
  obtain ⟨twin, ended, gists⟩ := self.readToEnd? rfl same parsed
  exact ⟨twin, parseTokens_eq_ok_iff.mpr ended, gists⟩

/-- What has no errors as a file of its own is read to the same on a new line behind a file that
could end there. -/
theorem exists_readToEnd?_line (sound : file.IsSound) (foreign : ending.IsForeign)
    (inView : ∀ reading ∈ file.current, (reading.read (surroundings grammar) ending).IsClean)
    {lead other rest : List Token} {token : Token} (plain : token.isTrivia = false)
    (line : Word.beginsLine ⟨other, token⟩)
    (leads : gistAll (lead.map leaf) = gistAll (other.map leaf)) {next : SyntaxTree}
    (ended : empty.readToEnd? grammar (WordStream.after lead (token :: rest)) = some next)
    (clean : next.IsClean) :
    ∃ joined, file.readToEnd? grammar (WordStream.after other (token :: rest)) = some joined ∧
      gistAll joined.children = gistAll (file.finish grammar ending) ++ gistAll next.children := by
  cases ends : token.isEnd with
  | true =>
    rw [readToEnd?_of_isEnd ends] at ended ⊢
    cases ended
    have apart : Word.IsApart ⟨other, token⟩ := .inl (Word.isForeign_of_isEnd ends)
    obtain ⟨_, same⟩ := read_of_isApart sound foreign inView apart
    refine ⟨_, rfl, ?_⟩
    change gistAll (childrenAtEnd _ _ _ _) = _ ++ gistAll (childrenAtEnd _ _ _ _)
    simp only [childrenAtEnd, gistAll_append, same, Word.leadLeaves, ← leads]
    rfl
  | false =>
    rw [readToEnd?_of_plain plain ends] at ended ⊢
    -- A file without errors begins with a word that begins an expression.
    have begun : (beginWith [] ⟨lead, token⟩).IsClean :=
      isClean_of_readToEnd? ended clean
    obtain ⟨_, opening, opens, _⟩ := isClean_of_beginWith begun
    have apart : Word.IsApart ⟨other, token⟩ := .inr ⟨line, Option.isSome_of_eq_some opens⟩
    obtain ⟨read, same⟩ := read_of_isApart sound foreign inView apart
    have front : gistAll (file.finish grammar ⟨other, token⟩)
        = gistAll (file.finish grammar ending) ++ gistAll [] := by
      rw [same, gistAll_nil, List.append_nil]
    have behind : Behind _ (beginWith [] ⟨lead, token⟩)
        (beginWith (file.finish grammar ⟨other, token⟩) ⟨other, token⟩) :=
      behind_beginWith front rfl leads
    rw [read]
    exact behind.readToEnd? rfl rfl ended

/-- A file that has no errors and ends behind some trivia can go on with a line break and another
such file. -/
theorem exists_parseTokens_lines {body tail tokens : List Token} {final feed : Token}
    (unended : body.any Token.isEnd = false) (trivia : ∀ token ∈ tail, token.isTrivia)
    (ends : final.isEnd) (lineBreak : feed.kind = .lineBreak) {tree next : SyntaxTree}
    (parsed : parseTokens grammar (body ++ (tail ++ [final])) = .ok tree) (clean : tree.IsClean)
    (nextParsed : parseTokens grammar tokens = .ok next) (nextClean : next.IsClean) :
    ∃ joined, parseTokens grammar (body ++ feed :: tokens) = .ok joined ∧
      gistAll joined.children = gistAll tree.children ++ gistAll next.children := by
  obtain ⟨blanks, token, rest, rfl, isTrivia, plain⟩ :=
    exists_plain_of_any_isEnd (tokens_of_parseTokens nextParsed).1
  have feedTrivia : feed.isTrivia := by rw [Token.isTrivia, lineBreak]; rfl
  have earlier := WordStream.isTrivia_of_mem_pending (List.forall_mem_nil _) body
  have later : ∀ token ∈ feed :: blanks, token.isTrivia :=
    List.forall_mem_cons.mpr ⟨feedTrivia, isTrivia⟩
  rw [parseTokens_append_eq_ok_iff unended, WordStream.after_append_of_isTrivia trivia,
    readToEnd?_of_isEnd ends] at parsed
  rw [parseTokens_eq_ok_iff, WordStream.ofTokens, WordStream.after_append_of_isTrivia isTrivia,
    List.nil_append] at nextParsed
  cases parsed
  have sound := isSound_afterTokens grammar body
  obtain ⟨_, inView⟩ := isClean_of_childrenAtEnd ends clean
  have leads : gistAll (blanks.map leaf)
      = gistAll ((WordStream.pending [] body ++ feed :: blanks).map leaf) := by
    rw [gistAll_map_leaf_of_isTrivia isTrivia,
      gistAll_map_leaf_of_isTrivia (List.forall_mem_append.mpr ⟨earlier, later⟩)]
  obtain ⟨joined, ended, same⟩ := exists_readToEnd?_line sound (Word.isForeign_of_isEnd ends) inView
    plain (by simp [Word.beginsLine, lineBreak]) leads nextParsed nextClean
  refine ⟨joined, ?_, ?_⟩
  · rwa [← List.cons_append, parseTokens_append_eq_ok_iff unended,
      WordStream.after_append_of_isTrivia later]
  · have trailing : gistAll ((WordStream.pending [] body ++ tail).map leaf) = [] :=
      gistAll_map_leaf_of_isTrivia (List.forall_mem_append.mpr ⟨earlier, trivia⟩)
    rw [same]
    change _ = gistAll (childrenAtEnd _ _ _ _) ++ _
    rw [childrenAtEnd, gistAll_append, gistAll_append, Word.leadLeaves, trailing]
    simp

/-- The tokens of a file without errors are good ones. -/
theorem kind_ne_error_of_parseTokens {body : List Token} {final : Token}
    (unended : body.any Token.isEnd = false) (ends : final.isEnd) {tree : SyntaxTree}
    (parsed : parseTokens grammar (body ++ [final]) = .ok tree) (clean : tree.IsClean) :
    ∀ token ∈ body, token.kind ≠ .error := by
  intro token present failed
  rw [parseTokens_append_eq_ok_iff unended, readToEnd?_of_isEnd ends] at parsed
  cases parsed
  have before := (isClean_of_childrenAtEnd ends clean).1
  have placed := (isClean_of_foldl_read before).2
  have plain : token.isTrivia = false := by rw [Token.isTrivia, failed]; rfl
  obtain ⟨word, among, rfl⟩ := WordStream.exists_mem_words unended present plain []
  exact placed word among (Word.isForeign_of_error failed)

end FileReading

/-! ## Texts -/

/-- The tokens of a text are its end and, in front of that, tokens that are none. -/
theorem exists_tokensFrom_eq (position : Position) (characters : List Char) :
    ∃ body final, tokensFrom position characters = body ++ [final] ∧
      body.any Token.isEnd = false ∧ final.isEnd := by
  fun_induction tokensFrom position characters with
  | case1 position => exact ⟨[], _, rfl, rfl, rfl⟩
  | case2 position character rest lexeme ih =>
    obtain ⟨body, final, same, unended, ends⟩ := ih
    have inner : (lexeme.token position).isEnd = false :=
      beq_false_of_ne (Lexeme.kind_readFrom_ne_endOfFile character rest)
    refine ⟨lexeme.token position :: body, final, ?_, ?_, ends⟩
    · rw [same, List.cons_append]
    · rw [List.any_cons, inner, unended, Bool.or_false]

variable {grammar : Grammar} {source : String}

/-- A source that is read free of errors has no token in error. -/
theorem kind_ne_error_of_parseSource (clean : (parseSource grammar source).IsClean) :
    ∀ token ∈ tokenize source, token.kind ≠ .error := by
  obtain ⟨body, final, same, unended, ends⟩ := exists_tokensFrom_eq Position.start source.toList
  have parsed := parseTokens_tokenize grammar source
  rw [tokenize, same] at parsed
  rw [tokenize, same]
  refine List.forall_mem_append.mpr
    ⟨FileReading.kind_ne_error_of_parseTokens unended ends parsed clean, ?_⟩
  refine List.forall_mem_singleton.mpr fun failed => ?_
  rw [Token.isEnd, failed] at ends
  cases ends

/-- Wherever a text begins, its tokens are read to the same gist, with errors or without. -/
theorem exists_parseTokens_tokensFrom (grammar : Grammar) (text : String) (position : Position) :
    ∃ tree, parseTokens grammar (tokensFrom position text.toList) = .ok tree ∧
      gistAll tree.children = gistAll (parseSource grammar text).children ∧
      (tree.IsClean ↔ (parseSource grammar text).IsClean) := by
  have parsed := parseTokens_tokenize grammar text
  obtain ⟨tree, treeParsed, same⟩ := FileReading.exists_parseTokens_of_unplaced
    (map_unplaced_tokensFrom Position.start position text.toList) parsed
  have reports := (meaning_of_parseTokens parsed treeParsed same).2
  exact ⟨tree, treeParsed, same, by
    rw [isClean_iff_messages_eq_nil, isClean_iff_messages_eq_nil, reports]⟩

/-- Two texts without errors, of which the first does not end inside of a comment, are read line by
line as they are read one by one. -/
theorem gistAll_parseSource_append {first second : String}
    (clean : (parseSource grammar first).IsClean) (closed : endsInComment first = false)
    (nextClean : (parseSource grammar second).IsClean) :
    gistAll (parseSource grammar (first ++ "\n" ++ second)).children
      = gistAll (parseSource grammar first).children
        ++ gistAll (parseSource grammar second).children := by
  have closedEach : ∀ token ∈ tokenize first, token.lexeme.openAtEnd = 0 := by
    simpa [endsInComment] using closed
  obtain ⟨body, tail, final, feed, after, alone, together, unended, trivia, ends, lineBreak⟩ :=
    exists_tokensFrom_append Position.start (kind_ne_error_of_parseSource clean) closedEach
      second.toList
  have parsed := parseTokens_tokenize grammar first
  rw [tokenize, alone] at parsed
  -- In the joined text the tokens of the second one have other places.
  obtain ⟨next, nextParsed, same, cleanAlike⟩ := exists_parseTokens_tokensFrom grammar second after
  obtain ⟨joined, joinedParsed, gists⟩ := FileReading.exists_parseTokens_lines unended trivia ends
    lineBreak parsed clean nextParsed (cleanAlike.mpr nextClean)
  have text : (first ++ "\n" ++ second).toList = first.toList ++ '\n' :: second.toList := by simp
  have whole := parseTokens_tokenize grammar (first ++ "\n" ++ second)
  rw [tokenize, text, together] at whole
  cases whole.symm.trans joinedParsed
  rw [gists, same]

/-- A text that is read to the gist of trees without errors has no errors, and its expressions have
the full forms of those trees. -/
theorem meaning_of_gistAll_parseSource {trees : List SyntaxTree}
    (fits : ∀ tree ∈ trees, tree.Everywhere Fits) (clean : ∀ tree ∈ trees, tree.IsClean)
    (same : gistAll (parseSource grammar source).children = gistAll trees) :
    (parseSource grammar source).IsClean ∧
      fullFormOperands (parseSource grammar source).children = fullFormOperands trees := by
  obtain ⟨children, isFile, childrenFit⟩ :=
    everywhere_fits_of_parseTokens (parseTokens_tokenize grammar source)
  rw [isFile] at same ⊢
  obtain ⟨forms, reports⟩ := meaning_of_gistAll_eq childrenFit fits same
  refine ⟨isClean_ofKind.mpr ⟨NodeKind.noConfusion, fun child present => ?_⟩, forms⟩
  have silent : trees.flatMap messages = [] :=
    List.flatMap_eq_nil_iff.mpr fun tree among => isClean_iff_messages_eq_nil.mp (clean tree among)
  rw [silent, List.flatMap_eq_nil_iff] at reports
  exact isClean_iff_messages_eq_nil.mpr (reports child present)

theorem everywhere_fits_of_mem_children {tree : SyntaxTree}
    (present : tree ∈ (parseSource grammar source).children) : tree.Everywhere Fits := by
  obtain ⟨children, isFile, fits⟩ :=
    everywhere_fits_of_parseTokens (parseTokens_tokenize grammar source)
  rw [isFile] at present
  exact fits tree present

theorem isClean_of_mem_children {tree : SyntaxTree} (clean : (parseSource grammar source).IsClean)
    (present : tree ∈ (parseSource grammar source).children) : tree.IsClean := by
  obtain ⟨children, isFile, _⟩ :=
    everywhere_fits_of_parseTokens (parseTokens_tokenize grammar source)
  rw [isFile] at clean present
  exact (isClean_ofKind.mp clean).2 tree present

/-- The trees of texts one after another. -/
def treesOfEach (grammar : Grammar) (texts : List String) : List SyntaxTree :=
  texts.flatMap fun text => (parseSource grammar text).children

theorem fits_treesOfEach {texts : List String} :
    ∀ tree ∈ treesOfEach grammar texts, tree.Everywhere Fits := by
  intro tree present
  obtain ⟨text, _, below⟩ := List.mem_flatMap.mp present
  exact everywhere_fits_of_mem_children below

theorem isClean_treesOfEach {texts : List String}
    (clean : ∀ text ∈ texts, (parseSource grammar text).IsClean) :
    ∀ tree ∈ treesOfEach grammar texts, tree.IsClean := by
  intro tree present
  obtain ⟨text, among, below⟩ := List.mem_flatMap.mp present
  exact isClean_of_mem_children (clean text among) below

/-- The gist of several lines is that of each of them. -/
theorem gistAll_parseSource_lines {texts : List String}
    (clean : ∀ text ∈ texts, (parseSource grammar text).IsClean)
    (closed : ∀ text ∈ texts, endsInComment text = false) :
    gistAll (parseSource grammar ("\n".intercalate texts)).children
      = gistAll (treesOfEach grammar texts) := by
  induction texts with
  | nil =>
    have parsed := parseTokens_tokenize grammar ""
    rw [tokenize, String.toList_empty, tokensFrom] at parsed
    rw [String.intercalate_nil, ← Except.ok.inj parsed]
    rfl
  | cons first texts ih =>
    obtain ⟨firstClean, clean⟩ := List.forall_mem_cons.mp clean
    obtain ⟨firstClosed, closed⟩ := List.forall_mem_cons.mp closed
    cases texts with
    | nil => rw [String.intercalate_singleton, treesOfEach, List.flatMap_singleton]
    | cons second texts =>
      have later := ih clean closed
      have laterClean := (meaning_of_gistAll_parseSource fits_treesOfEach
        (isClean_treesOfEach clean) later).1
      rw [String.intercalate_cons_cons,
        gistAll_parseSource_append firstClean firstClosed laterClean, later, ← gistAll_append]
      rfl

/-- The full forms of two lists of trees follow one another. -/
theorem fullFormOperands_append (left right : List SyntaxTree) :
    fullFormOperands (left ++ right) = fullFormOperands left ++ fullFormOperands right := by
  simp only [fullFormOperands_eq_map, List.filter_append, List.map_append]

/-- Attempts that all come to something are what they come to. -/
theorem eq_map_some_of_allSome {Value : Type} {attempts : List (Option Value)} {values : List Value}
    (all : allSome attempts = some values) : attempts = values.map some := by
  induction attempts generalizing values with
  | nil =>
    cases all
    rfl
  | cons attempt attempts ih =>
    cases attempt with
    | none => cases all
    | some value =>
      obtain ⟨later, held, rfl⟩ := Option.map_eq_some_iff.mp all
      rw [List.map_cons, ih held]

/-- The full forms of the expressions of a file are those of its children. -/
theorem map_fullForm?_expressions (source : String) :
    (parseSource grammar source).expressions.map Tree.fullForm?
      = fullFormOperands (parseSource grammar source).children :=
  (fullFormOperands_eq_map _).symm

/-- Every expression of a text has a full form. -/
theorem exists_forms_of_parseSource (grammar : Grammar) (source : String) :
    ∃ forms : List String,
      (parseSource grammar source).expressions.map Tree.fullForm? = forms.map some := by
  obtain ⟨terms, _, form⟩ := exists_terms_of_parseSource grammar source
  obtain ⟨children, isFile, _⟩ :=
    everywhere_fits_of_parseTokens (parseTokens_tokenize grammar source)
  rw [isFile, ofKind, fullForm?, compose] at form
  obtain ⟨forms, all, _⟩ := Option.map_eq_some_iff.mp form
  refine ⟨forms, ?_⟩
  rw [map_fullForm?_expressions, isFile]
  exact eq_map_some_of_allSome all

/-- Texts that have no errors one by one and do not end inside of a comment have none when they are
joined line by line, and the full forms of the joined expressions are those of the single texts one
after another. -/
theorem fullForm?_parseSource_lines (grammar : Grammar) (texts : List String)
    (clean : ∀ text ∈ texts, (parseSource grammar text).errors = [])
    (closed : ∀ text ∈ texts, endsInComment text = false) :
    ∃ forms : String → List String,
      (∀ text ∈ texts,
        (parseSource grammar text).expressions.map Tree.fullForm? = (forms text).map some) ∧
      (parseSource grammar ("\n".intercalate texts)).errors = [] ∧
      (parseSource grammar ("\n".intercalate texts)).expressions.map Tree.fullForm?
        = (texts.flatMap forms).map some := by
  obtain ⟨forms, each⟩ := Classical.skolem.mp (exists_forms_of_parseSource grammar)
  have allClean : ∀ text ∈ texts, (parseSource grammar text).IsClean :=
    fun text among => isClean_iff_errors_eq_nil.mpr (clean text among)
  obtain ⟨joinedClean, joined⟩ := meaning_of_gistAll_parseSource fits_treesOfEach
    (isClean_treesOfEach allClean) (gistAll_parseSource_lines allClean closed)
  refine ⟨forms, fun text _ => each text, isClean_iff_errors_eq_nil.mp joinedClean, ?_⟩
  calc (parseSource grammar ("\n".intercalate texts)).expressions.map Tree.fullForm?
      = fullFormOperands (treesOfEach grammar texts) := by rw [map_fullForm?_expressions, joined]
    _ = texts.flatMap fun text =>
          (parseSource grammar text).expressions.map Tree.fullForm? := by
        rw [fullFormOperands_eq_map, treesOfEach, List.filter_flatMap, List.map_flatMap]
        rfl
    _ = (texts.flatMap forms).map some := by simp only [each, List.map_flatMap]

/-- A sequence that could go on, a sign that could stand between two operands, and a blank that
could belong to a pattern. -/
theorem fullForm?_three_lines_that_could_go_on :
    let texts := ["a;", "-b", "_c"]
    (∀ text ∈ texts, (parseSource .standard text).errors = []) ∧
      (∀ text ∈ texts, endsInComment text = false) ∧
      ∃ forms : String → List String,
        (∀ text ∈ texts,
          (parseSource .standard text).expressions.map Tree.fullForm? = (forms text).map some) ∧
        (parseSource .standard ("\n".intercalate texts)).errors = [] ∧
        (parseSource .standard ("\n".intercalate texts)).expressions.map Tree.fullForm?
          = (texts.flatMap forms).map some := by
  intro texts
  have clean : ∀ text ∈ texts, (parseSource .standard text).errors = [] := by
    have none : texts.all fun text => (parseSource .standard text).errors.isEmpty := by
      decide +kernel
    exact fun text among => List.isEmpty_iff.mp (List.all_eq_true.mp none text among)
  have closed : ∀ text ∈ texts, endsInComment text = false := by decide +kernel
  exact ⟨clean, closed, fullForm?_parseSource_lines .standard texts clean closed⟩

/-- A line behind a comment that is not closed is lost. -/
example : endsInComment "a (*" ∧ (parseSource .standard "a (*\nb").expressions.length = 1 := by
  decide +kernel

end WolframSyntax
