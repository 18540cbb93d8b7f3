import WolframSyntax.Proofs.Alone
import WolframSyntax.Proofs.Lines
import WolframSyntax.Proofs.Writing

/-!
# Arguments of calls

A text in one line that is a single expression without errors can stand as an argument between the
brackets of a call (`exists_completesCall`). So the call of a name with such texts has no errors,
and its full form is the call of the name with their full forms (`fullForm?_parseSource_bracketed`).
-/

namespace WolframSyntax

open SyntaxTree WolframSyntax.Tree

/-- A text in one line that is a single expression without errors. -/
structure IsArgument (grammar : Grammar) (text : String) : Prop where
  clean : (parseSource grammar text).errors = []
  single : (parseSource grammar text).expressions.length = 1
  inLine : ∀ token ∈ tokenize text, token.kind ≠ .lineBreak
  closed : endsInComment text = false

instance (grammar : Grammar) (text : String) : Decidable (IsArgument grammar text) :=
  decidable_of_iff
    ((parseSource grammar text).errors.isEmpty ∧ (parseSource grammar text).expressions.length = 1 ∧
      (∀ token ∈ tokenize text, token.kind ≠ .lineBreak) ∧ endsInComment text = false)
    ⟨fun ⟨clean, single, inLine, closed⟩ => ⟨List.isEmpty_iff.mp clean, single, inLine, closed⟩,
      fun argument => ⟨List.isEmpty_iff.mpr argument.clean, argument.single, argument.inLine,
        argument.closed⟩⟩

/-! ## Tokens at any place -/

namespace SyntaxTree

theorem operandCount_gistAll (trees : List SyntaxTree) :
    operandCount (gistAll trees) = operandCount trees := by
  induction trees with
  | nil => rfl
  | cons tree trees ih =>
    rw [gistAll]
    by_cases blank : tree.kind = .whitespace
    · have leaf : tree.isLeaf := by rw [isLeaf, blank]; rfl
      rw [if_pos blank, ih, operandCount, operandCount, List.countP_cons_of_neg (by simp [leaf])]
    · rw [if_neg blank, operandCount, operandCount, List.countP_cons, List.countP_cons,
        isLeaf_gist]
      exact congrArg (· + _) ih

end SyntaxTree

/-- The lexemes of a text do not depend on where the text begins. -/
theorem map_lexeme_tokensFrom (position : Position) (text : String) :
    (tokensFrom position text.toList).map Token.lexeme = (tokenize text).map Token.lexeme := by
  have same := congrArg (List.map Token.lexeme)
    (map_unplaced_tokensFrom position Position.start text.toList)
  rwa [List.map_map, List.map_map] at same

/-- What holds of the lexemes of a text does so wherever the text stands. -/
theorem forall_lexeme_tokensFrom (holds : Lexeme → Prop) {text : String}
    (each : ∀ token ∈ tokenize text, holds token.lexeme) (position : Position) :
    ∀ token ∈ tokensFrom position text.toList, holds token.lexeme := by
  refine List.forall_mem_map.mp ?_
  rw [map_lexeme_tokensFrom]
  exact List.forall_mem_map.mpr each

/-- The leaf of a lexeme at the beginning of a text. -/
def Lexeme.leaf (lexeme : Lexeme) : SyntaxTree := SyntaxTree.leaf (lexeme.token Position.start)

theorem Token.gistAll_leaf_lexeme (token : Token) :
    gistAll [leaf token] = gistAll [token.lexeme.leaf] := by
  refine gistAll_singleton_congr ?_
  rw [Lexeme.leaf, gist_leaf, gist_leaf, Lexeme.token, Token.lexeme, String.ofList_toList]
  rfl

/-! ## A single argument -/

namespace IsArgument

variable {grammar : Grammar} {text : String}

/-- Behind any text and in front of a comma or a square bracket, an argument has tokens that are
read as it is. -/
theorem exists_parseTokens (argument : IsArgument grammar text) {delimiter : Char}
    (delimits : delimiter ∈ Lexeme.delimiters) (inked : delimiter ∉ [' ', '\n'])
    (position : Position) (more : List Char) :
    ∃ body ending after tree,
      tokensFrom position (text.toList ++ delimiter :: more)
        = body ++ tokensFrom after (delimiter :: more) ∧
      body.any Token.isEnd = false ∧ ending.isEnd ∧ (∀ token ∈ body, token.kind ≠ .lineBreak) ∧
      parseTokens grammar (body ++ [ending]) = .ok tree ∧ tree.IsClean ∧
      operandCount tree.children = 1 ∧
      gistAll tree.children = gistAll (parseSource grammar text).children := by
  have clean := isClean_iff_errors_eq_nil.mpr argument.clean
  have closed : ∀ token ∈ tokenize text, token.lexeme.openAtEnd = 0 := by
    simpa [endsInComment] using argument.closed
  have soundHere := forall_lexeme_tokensFrom (fun lexeme => lexeme.kind ≠ .error)
    (kind_ne_error_of_parseSource clean) position
  have inLine := forall_lexeme_tokensFrom (fun lexeme => lexeme.kind ≠ .lineBreak)
    argument.inLine position
  have closedHere := forall_lexeme_tokensFrom (fun lexeme => lexeme.openAtEnd = 0) closed position
  obtain ⟨body, ending, after, alone, joined, unended, ends⟩ :=
    exists_tokensFrom_append_delimiter delimits inked position soundHere closedHere more
  obtain ⟨tree, parsed, same, cleanAlike⟩ := exists_parseTokens_tokensFrom grammar text position
  refine ⟨body, ending, after, tree, joined, unended, ends, ?_, ?_, cleanAlike.mpr clean, ?_, same⟩
  · rw [alone] at inLine
    exact fun token present => inLine token (List.mem_append_left _ present)
  · rwa [← alone]
  · rw [← operandCount_gistAll, same, operandCount_gistAll, ← argument.single, operandCount,
      List.countP_eq_length_filter]
    rfl

/-- Behind any text and in front of a comma or a closing bracket, the words of an argument make up
an operand with the gist of the argument. -/
theorem exists_readsOperand (argument : IsArgument grammar text) {sign : Operator}
    (separates : sign ∈ [Operator.rightBracket, .comma]) (position : Position) (more : List Char) :
    ∃ words word after,
      WordStream.ofTokens (tokensFrom position (text.toList ++ sign.spelling ++ more))
        = ⟨words ++ word :: (WordStream.ofTokens (tokensFrom after more)).words,
          (WordStream.ofTokens (tokensFrom after more)).ending⟩ ∧
      word.token.kind = .operator sign ∧
      gistAll word.leaves = gistAll [(Lexeme.sign sign).leaf] ∧
      Reading.ReadsOperand (FileReading.surroundings grammar) words word
        (gistAll (parseSource grammar text).children) := by
  obtain ⟨delimiter, delimits, inked, spelled, ends, begins⟩ : ∃ delimiter ∈ Lexeme.delimiters,
      delimiter ∉ [' ', '\n'] ∧ sign.spelling = [delimiter] ∧
        Continuation.ofOperator? sign = none ∧ Opening.ofOperator? sign = none := by
    simp only [List.mem_cons, List.not_mem_nil, or_false] at separates
    rcases separates with rfl | rfl <;> exact ⟨_, by decide, by decide, rfl, rfl, rfl⟩
  have separator : (Lexeme.sign sign).IsSeparator :=
    Lexeme.isSeparator_sign (List.mem_cons_of_mem _ separates)
  obtain ⟨body, ending, after, tree, tokens, unended, isEnd, inLine, parsed, clean, single, same⟩ :=
    argument.exists_parseTokens delimits inked position more
  have reads : Lexeme.readFrom delimiter more = (Lexeme.sign sign, more) := by
    have whole := separator.reads more
    rwa [show (Lexeme.sign sign).characters = [delimiter] from spelled] at whole
  rw [tokensFrom_cons, reads] at tokens
  refine ⟨(WordStream.ofTokens body).words,
    ⟨WordStream.pending [] body, (Lexeme.sign sign).token after⟩,
    after.advance (Lexeme.sign sign).characters, ?_, rfl, ?_, ?_⟩
  · rw [spelled, List.append_assoc, List.singleton_append, tokens, WordStream.ofTokens,
      WordStream.after_append_of_unended unended, WordStream.after_of_plain rfl rfl]
    rfl
  · have leading : gistAll ((WordStream.pending [] body).map leaf) = [] :=
      gistAll_map_leaf_of_isTrivia (WordStream.isTrivia_of_mem_pending (List.forall_mem_nil _) body)
    rw [Word.leaves, Word.leadLeaves, Word.leaf, gistAll_append, leading, Token.gistAll_leaf_lexeme,
      Lexeme.lexeme_token, List.nil_append]
  · have parsed : parseTokens (FileReading.surroundings grammar).grammar (body ++ [ending])
        = .ok tree := parsed
    rw [← same]
    exact Reading.readsOperand_of_parseTokens unended isEnd inLine parsed clean single
      (Word.stops_of_separator rfl ends begins)

end IsArgument

/-! ## All arguments -/

namespace Reading

variable {surroundings : Surroundings} {focus : Focus} {words more : List Word} {word : Word}
  {gist gists : List SyntaxTree}

/-- Some words complete every call that has come to a focus. What they add to the call has the given
gist. -/
def CompletesCall (surroundings : Surroundings) (focus : Focus) (words : List Word)
    (gist : List SyntaxTree) : Prop :=
  ∀ (frame : Frame) (frames : List Frame), frame.role = .items .call → frame.floor = 0 →
    ∃ children succeeded,
      Reads surroundings ⟨frame :: frames, focus⟩ words
        ⟨frames, .complete ⟨ofKind .functionCall children, succeeded⟩⟩ ∧
      gistAll children = gistAll frame.children ++ gist

/-- A closing bracket right after the opening one completes a call. -/
theorem completesCall_closingBracket (surroundings : Surroundings)
    (kind : word.token.kind = .operator .rightBracket) :
    CompletesCall surroundings .arguments [word] (gistAll word.leaves) := by
  intro frame frames call _
  refine ⟨frame.children ++ word.leaves, _, .single (read_emptyBrackets call frames kind), ?_⟩
  rw [gistAll_append]

/-- The last argument and a closing bracket complete a call. -/
theorem ReadsOperand.closes (operand : ReadsOperand surroundings words word gist)
    (wants : focus.wantsOperand) (kind : word.token.kind = .operator .rightBracket) :
    CompletesCall surroundings focus (words ++ [word]) (gist ++ gistAll word.leaves) := by
  intro frame frames call weak
  obtain ⟨children, last, outcome, reads, settles, gists⟩ := operand frame frames focus weak wants
  have call : Frame.role { frame with children := children } = .items .call := call
  have closes := settles.trans (settle_closingBracket call frames outcome kind)
  refine ⟨children ++ [outcome.tree] ++ word.leaves, _, reads.append (.single closes), ?_⟩
  rw [gistAll_append, gists, List.append_assoc]

/-- An argument, a comma and what completes a call then complete a call. -/
theorem ReadsOperand.goesOn (operand : ReadsOperand surroundings words word gist)
    (wants : focus.wantsOperand) (kind : word.token.kind = .operator .comma)
    (completes : CompletesCall surroundings .operand more gists) :
    CompletesCall surroundings focus (words ++ word :: more)
      (gist ++ gistAll word.leaves ++ gists) := by
  intro frame frames call weak
  obtain ⟨children, last, outcome, reads, settles, before⟩ := operand frame frames focus weak wants
  have call : Frame.role { frame with children := children } = .items .call := call
  have goesOn := settles.trans (settle_comma call frames outcome kind)
  obtain ⟨all, succeeded, readsMore, after⟩ :=
    completes (Frame.take (Frame.add { frame with children := children } outcome) word) frames call
      weak
  refine ⟨all, succeeded, reads.append ⟨_, goesOn, readsMore⟩, after.trans ?_⟩
  change gistAll (children ++ [outcome.tree] ++ word.leaves) ++ gists = _
  rw [gistAll_append, before, List.append_assoc, List.append_assoc, List.append_assoc]

end Reading

/-- What some texts are read as, with commas between them. -/
def argumentTrees (grammar : Grammar) (texts : List String) : List SyntaxTree :=
  List.intercalate [(Lexeme.sign .comma).leaf]
    (texts.map fun text => (parseSource grammar text).children)

/-- The first argument is followed by a comma and the other arguments. -/
theorem argumentTrees_cons_cons (grammar : Grammar) (first second : String) (texts : List String) :
    argumentTrees grammar (first :: second :: texts)
      = (parseSource grammar first).children ++ [(Lexeme.sign .comma).leaf]
        ++ argumentTrees grammar (second :: texts) := by
  rw [argumentTrees, List.map_cons, List.map_cons, List.intercalate_cons_cons]
  rfl

/-- Some arguments with commas between them and a closing bracket behind them complete a call. -/
theorem exists_completesCall_arguments {grammar : Grammar} {text : String} {texts : List String}
    (arguments : ∀ argument ∈ text :: texts, IsArgument grammar argument) {focus : Focus}
    (wants : focus.wantsOperand) (position : Position) :
    ∃ words final,
      WordStream.ofTokens (tokensFrom position
        (List.intercalate [','] ((text :: texts).map String.toList) ++ [']']))
          = ⟨words, some (⟨[], final⟩, [])⟩ ∧ final.isEnd ∧
      Reading.CompletesCall (FileReading.surroundings grammar) focus words (gistAll
        (argumentTrees grammar (text :: texts) ++ [(Lexeme.sign .rightBracket).leaf])) := by
  induction texts generalizing text focus position with
  | nil =>
    obtain ⟨words, word, after, stream, kind, closing, operand⟩ :=
      (arguments text List.mem_cons_self).exists_readsOperand List.mem_cons_self position []
    rw [tokensFrom, List.append_nil] at stream
    refine ⟨words ++ [word], (Lexeme.read []).1.token after, ?_, rfl, ?_⟩
    · rw [List.map_singleton, List.intercalate_singleton]
      exact stream
    · rw [argumentTrees, List.map_singleton, List.intercalate_singleton, gistAll_append, ← closing]
      exact operand.closes wants kind
  | cons next texts ih =>
    obtain ⟨first, others⟩ := List.forall_mem_cons.mp arguments
    obtain ⟨words, word, after, stream, kind, comma, operand⟩ :=
      first.exists_readsOperand (List.mem_cons_of_mem _ List.mem_cons_self) position
        (List.intercalate [','] ((next :: texts).map String.toList) ++ [']'])
    have wantsNext : Focus.wantsOperand .operand := rfl
    obtain ⟨more, final, later, ends, completes⟩ := ih others wantsNext after
    rw [later] at stream
    refine ⟨words ++ word :: more, final, ?_, ends, ?_⟩
    · rw [List.map_cons, List.map_cons, List.intercalate_cons_cons, List.append_assoc]
      exact stream
    · have all := operand.goesOn wants kind completes
      rwa [comma, ← gistAll_append, ← gistAll_append, ← List.append_assoc,
        ← argumentTrees_cons_cons] at all

/-- Some arguments in brackets complete a call. -/
theorem exists_completesCall {grammar : Grammar} {texts : List String}
    (arguments : ∀ text ∈ texts, IsArgument grammar text) (position : Position) :
    ∃ words final,
      WordStream.ofTokens (tokensFrom position
        (List.intercalate [','] (texts.map String.toList) ++ [']']))
          = ⟨words, some (⟨[], final⟩, [])⟩ ∧ final.isEnd ∧
      Reading.CompletesCall (FileReading.surroundings grammar) .arguments words
        (gistAll (argumentTrees grammar texts ++ [(Lexeme.sign .rightBracket).leaf])) := by
  cases texts with
  | nil =>
    have separator : (Lexeme.sign .rightBracket).IsSeparator := Lexeme.isSeparator_sign (by decide)
    have reads : Lexeme.readFrom ']' [] = (Lexeme.sign .rightBracket, []) := separator.reads []
    refine ⟨[((Lexeme.sign .rightBracket).token position).word],
      (Lexeme.read []).1.token (position.advance (Lexeme.sign .rightBracket).characters), ?_, rfl,
      ?_⟩
    · rw [List.map_nil, List.intercalate_nil, List.nil_append, tokensFrom_cons, reads, tokensFrom]
      rfl
    · have kind : ((Lexeme.sign .rightBracket).token position).word.token.kind
          = .operator .rightBracket := rfl
      have completes :=
        Reading.completesCall_closingBracket (FileReading.surroundings grammar) kind
      rwa [Word.leaves_word, Token.gistAll_leaf_lexeme, Lexeme.lexeme_token] at completes
  | cons text texts => exact exists_completesCall_arguments arguments rfl position

/-- The call of a name with what some texts are read as. -/
def callTree (grammar : Grammar) (head : String) (texts : List String) : SyntaxTree :=
  let name : Lexeme := ⟨.identifier, head.toList⟩
  ofKind .functionCall ([ofKind .symbol [name.leaf], (Lexeme.sign .leftBracket).leaf]
    ++ argumentTrees grammar texts ++ [(Lexeme.sign .rightBracket).leaf])

/-- A list whose words make up a complete expression is read as a file with that expression. -/
theorem FileReading.parseTokens_of_complete {grammar : Grammar} {tokens : List Token}
    {words : List Word} {final : Token} (ends : final.isEnd)
    (stream : WordStream.ofTokens tokens = ⟨words, some (⟨[], final⟩, [])⟩) {outcome : Outcome}
    (folds : words.foldl (read grammar) empty = ⟨[], some ⟨[], .complete outcome⟩⟩) :
    parseTokens grammar tokens = .ok (ofKind .file [outcome.tree]) := by
  have foreign : Word.IsForeign ⟨[], final⟩ := Word.isForeign_of_isEnd ends
  have finished : finish grammar ⟨[], some ⟨[], .complete outcome⟩⟩ ⟨[], final⟩
      = [outcome.tree] := by
    rw [finish]
    dsimp only
    rw [read_finished (foreign.link?_eq_none false)]
    rfl
  rw [parseTokens_eq_ok_iff, stream, readToEnd?]
  dsimp only
  rw [folds, childrenAtEnd, finished]
  rfl

/-- The words of the call of a name with some arguments are those of the name, the opening bracket
and what follows that. -/
theorem exists_stream_bracketed {head : String} (name : Lexeme.IsAtom ⟨.identifier, head.toList⟩)
    (texts : List String) :
    ∃ (first bracket : Token) (after : Position), first.lexeme = ⟨.identifier, head.toList⟩ ∧
      bracket.lexeme = Lexeme.sign .leftBracket ∧
      ∀ words ending,
        WordStream.ofTokens (tokensFrom after
          (List.intercalate [','] (texts.map String.toList) ++ [']'])) = ⟨words, ending⟩ →
        WordStream.ofTokens (tokenize (bracketed head texts))
          = ⟨first.word :: bracket.word :: words, ending⟩ := by
  have characters : (bracketed head texts).toList
      = Lexeme.spelled [⟨.identifier, head.toList⟩, Lexeme.sign .leftBracket]
        ++ (List.intercalate [','] (texts.map String.toList) ++ [']']) := by
    simp [bracketed, String.toList_intercalate, Lexeme.sign, Operator.spelling]
  have opening : (Lexeme.sign .leftBracket).IsSeparator := Lexeme.isSeparator_sign (by decide)
  have readBefore : Lexeme.ReadBefore (List.intercalate [','] (texts.map String.toList) ++ [']'])
      [⟨.identifier, head.toList⟩, Lexeme.sign .leftBracket] :=
    ⟨⟨name.characters_ne_nil, name.read_append (opening.delimited _)⟩,
      ⟨opening.characters_ne_nil, opening.reads _⟩, trivial⟩
  obtain ⟨tokens, after, same, written⟩ := exists_tokensFrom_eq_append readBefore Position.start
  obtain ⟨first, rest, rfl, isName, restWritten⟩ := List.map_eq_cons_iff.mp written
  obtain ⟨bracket, nothing, rfl, isBracket, nothingWritten⟩ := List.map_eq_cons_iff.mp restWritten
  cases List.map_eq_nil_iff.mp nothingWritten
  have nameKind : first.kind = .identifier := congrArg Lexeme.kind isName
  have bracketKind : bracket.kind = .operator .leftBracket := congrArg Lexeme.kind isBracket
  have plain : ∀ token ∈ [first, bracket], token.isTrivia = false ∧ token.isEnd = false := by
    simp [Token.isTrivia, Token.isEnd, nameKind, bracketKind, TokenKind.isTrivia]
  refine ⟨first, bracket, after, isName, isBracket, fun words ending stream => ?_⟩
  rw [tokenize, characters, same, WordStream.ofTokens, WordStream.after_append plain,
    ← WordStream.ofTokens, stream]
  rfl

/-- The call of a name with some arguments is read as the call of the name with what the arguments
are read as. -/
theorem gistAll_parseSource_bracketed {grammar : Grammar} {head : String}
    (name : Lexeme.IsAtom ⟨.identifier, head.toList⟩) {texts : List String}
    (arguments : ∀ text ∈ texts, IsArgument grammar text) :
    gistAll (parseSource grammar (bracketed head texts)).children
      = gistAll [callTree grammar head texts] := by
  obtain ⟨first, bracket, after, isName, isBracket, whole⟩ := exists_stream_bracketed name texts
  obtain ⟨words, final, stream, ends, completes⟩ := exists_completesCall arguments after
  obtain ⟨children, succeeded, inside, gists⟩ :=
    completes ⟨.items .call, 0, [ofKind .symbol [leaf first], leaf bracket], true⟩ [] rfl rfl
  have nameKind : first.kind = .identifier := congrArg Lexeme.kind isName
  have begins : FileReading.empty.read grammar first.word
      = ⟨[], some ⟨[], .complete ⟨ofKind .symbol [leaf first], true⟩⟩⟩ :=
    FileReading.beginWith_of_atom (by rw [nameKind]; rfl)
  have folds :
      (first.word :: bracket.word :: words).foldl (FileReading.read grammar) FileReading.empty
        = ⟨[], some ⟨[], .complete ⟨ofKind .functionCall children, succeeded⟩⟩⟩ := by
    rw [List.foldl_cons, begins]
    exact FileReading.foldl_read_of_reads ⟨_, Reading.read_openingBracket
      (congrArg Lexeme.kind isBracket) (Int.le_refl 0), inside⟩
  have parsed := FileReading.parseTokens_of_complete ends (whole words _ stream) folds
  rw [parseTokens_tokenize] at parsed
  rw [Except.ok.inj parsed]
  change gistAll [ofKind .functionCall children] = _
  have symbols : gistAll [ofKind .symbol [leaf first]]
      = gistAll [ofKind .symbol [Lexeme.leaf ⟨.identifier, head.toList⟩]] := by
    apply gistAll_singleton_congr
    rw [gist_ofKind, gist_ofKind, Token.gistAll_leaf_lexeme, isName]
  have beginnings : gistAll [ofKind .symbol [leaf first], leaf bracket]
      = gistAll [ofKind .symbol [Lexeme.leaf ⟨.identifier, head.toList⟩],
          (Lexeme.sign .leftBracket).leaf] := by
    rw [gistAll_cons, gistAll_cons (ofKind .symbol [Lexeme.leaf _]), symbols,
      Token.gistAll_leaf_lexeme, isBracket]
  apply gistAll_singleton_congr
  rw [callTree, gist_ofKind, gist_ofKind, gists, beginnings, List.append_assoc, ← gistAll_append]

/-! ## Full forms -/

section CallTree

variable {grammar : Grammar} {head : String} {texts : List String}

theorem forall_mem_children_callTree {holds : SyntaxTree → Prop}
    (atom : ∀ token : Token, token.kind = .identifier → holds (ofKind .symbol [leaf token]))
    (leaves : ∀ token, holds (leaf token))
    (below : ∀ text ∈ texts, ∀ tree ∈ (parseSource grammar text).children, holds tree) :
    ∀ child ∈ (callTree grammar head texts).children, holds child := by
  refine List.forall_mem_append.mpr ⟨List.forall_mem_append.mpr ⟨?_, fun tree present => ?_⟩, ?_⟩
  · exact List.forall_mem_cons.mpr ⟨atom _ rfl, List.forall_mem_singleton.mpr (leaves _)⟩
  · rcases Term.eq_or_mem_of_mem_intercalate present with rfl | ⟨line, held, inside⟩
    · exact leaves _
    · obtain ⟨text, among, rfl⟩ := List.mem_map.mp held
      exact below text among tree inside
  · exact List.forall_mem_singleton.mpr (leaves _)

/-- A call with arguments that have been read fits the schema. -/
theorem everywhere_fits_callTree : (callTree grammar head texts).Everywhere Fits := by
  refine everywhere_fits_construct rfl ?_ (forall_mem_children_callTree ?_ everywhere_fits_leaf
    fun text _ tree => everywhere_fits_of_mem_children)
  · rw [operandCount_append, operandCount_append]
    exact decide_eq_true (Nat.le_add_right_of_le (Nat.le_add_right 1 _))
  · exact fun token kind => everywhere_fits_atom (congrArg some kind.symm)

/-- A call with arguments free of errors is free of errors. -/
theorem isClean_callTree (clean : ∀ text ∈ texts, (parseSource grammar text).IsClean) :
    (callTree grammar head texts).IsClean := by
  refine isClean_ofKind.mpr ⟨NodeKind.noConfusion, forall_mem_children_callTree ?_ isClean_leaf
    fun text among tree => isClean_of_mem_children (clean text among)⟩
  exact fun token _ => isClean_ofKind.mpr
    ⟨NodeKind.noConfusion, List.forall_mem_singleton.mpr (isClean_leaf token)⟩

/-- A call has the full forms of its arguments in its own. -/
theorem fullForm?_callTree {forms : List String}
    (same : fullFormOperands (argumentTrees grammar texts) = forms.map some) :
    (callTree grammar head texts).fullForm? = some (bracketed head forms) := by
  have name : (ofKind .symbol [Lexeme.leaf ⟨.identifier, head.toList⟩]).fullForm? = some head :=
    congrArg some (String.append_empty.trans String.ofList_toList)
  have inner : (ofKind .symbol [Lexeme.leaf ⟨.identifier, head.toList⟩]).isLeaf = false := rfl
  have ofLeaf : ∀ lexeme : Lexeme, fullFormOperands [lexeme.leaf] = [] := fun lexeme => by
    rw [Lexeme.leaf, fullFormOperands, if_pos (isLeaf_leaf _)]
    rfl
  have beginning : fullFormOperands [ofKind .symbol [Lexeme.leaf ⟨.identifier, head.toList⟩],
      (Lexeme.sign .leftBracket).leaf] = [some head] := by
    rw [fullFormOperands, inner, if_neg Bool.false_ne_true, name, ofLeaf]
  rw [callTree, ofKind, fullForm?, fullFormOperands_append, fullFormOperands_append, beginning,
    same, ofLeaf, List.append_nil]
  simp only [List.singleton_append, compose, applyFirst, allSome_map_some]
  rfl

end CallTree

/-- The full form of an argument is that of its only expression. -/
theorem IsArgument.exists_form {grammar : Grammar} {text : String}
    (argument : IsArgument grammar text) :
    ∃ form, (parseSource grammar text).fullForm? = some form ∧
      fullFormOperands (parseSource grammar text).children = [some form] := by
  obtain ⟨forms, same⟩ := exists_forms_of_parseSource grammar text
  have single := congrArg List.length same
  rw [List.length_map, argument.single, List.length_map] at single
  obtain ⟨form, rfl⟩ := List.length_eq_one_iff.mp single.symm
  rw [map_fullForm?_expressions] at same
  refine ⟨form, ?_, same⟩
  obtain ⟨children, isFile, _⟩ :=
    everywhere_fits_of_parseTokens (parseTokens_tokenize grammar text)
  rw [isFile] at same ⊢
  change fullFormOperands children = _ at same
  rw [ofKind, fullForm?, same]
  rfl

/-- Arguments have full forms. -/
theorem exists_forms_of_arguments {grammar : Grammar} {texts : List String}
    (arguments : ∀ text ∈ texts, IsArgument grammar text) :
    ∃ forms : List String,
      texts.map (fun text => (parseSource grammar text).fullForm?) = forms.map some ∧
      fullFormOperands (argumentTrees grammar texts) = forms.map some := by
  induction texts with
  | nil => exact ⟨[], rfl, rfl⟩
  | cons text texts ih =>
    obtain ⟨first, others⟩ := List.forall_mem_cons.mp arguments
    obtain ⟨form, isForm, operand⟩ := first.exists_form
    obtain ⟨forms, areForms, operands⟩ := ih others
    refine ⟨form :: forms, ?_, ?_⟩
    · rw [List.map_cons, List.map_cons, isForm, areForms]
    · cases texts with
      | nil =>
        cases List.map_eq_nil_iff.mp areForms.symm
        rw [argumentTrees, List.map_singleton, List.intercalate_singleton, operand]
        rfl
      | cons next texts =>
        rw [argumentTrees_cons_cons, fullFormOperands_append, fullFormOperands_append, operand,
          operands]
        rfl

/-- The call of a name with texts in one line that are single expressions without errors is a
single expression without errors. Its full form is the call of the name with the full forms of the
texts. -/
theorem fullForm?_parseSource_bracketed (grammar : Grammar) (head : String)
    (name : Lexeme.IsAtom ⟨.identifier, head.toList⟩) (texts : List String)
    (arguments : ∀ text ∈ texts, IsArgument grammar text) :
    ∃ forms : List String,
      texts.map (fun text => (parseSource grammar text).fullForm?) = forms.map some ∧
      (parseSource grammar (bracketed head texts)).errors = [] ∧
      (parseSource grammar (bracketed head texts)).expressions.map Tree.fullForm?
        = [some (bracketed head forms)] := by
  obtain ⟨forms, areForms, operands⟩ := exists_forms_of_arguments arguments
  have fits : ∀ tree ∈ [callTree grammar head texts], tree.Everywhere Fits :=
    List.forall_mem_singleton.mpr everywhere_fits_callTree
  have clean : ∀ tree ∈ [callTree grammar head texts], tree.IsClean :=
    List.forall_mem_singleton.mpr
      (isClean_callTree fun text among =>
        isClean_iff_errors_eq_nil.mpr (arguments text among).clean)
  obtain ⟨wholeClean, form⟩ := meaning_of_gistAll_parseSource fits clean
    (gistAll_parseSource_bracketed name arguments)
  refine ⟨forms, areForms, isClean_iff_errors_eq_nil.mp wholeClean, ?_⟩
  rw [map_fullForm?_expressions, form, fullFormOperands_eq_map]
  exact congrArg (fun form => [form]) (fullForm?_callTree operands)

/-- Arguments that end with an operator, a comment, a blank or an open number, or hold a comma and a
line feed in a string. -/
theorem fullForm?_call_of_arguments_that_could_go_on :
    let texts := ["a; ", "x::y", " b_ (* , *)", "-c!", "u /: v = 1.", "\x7b\"],\n\"\x7d", "#2 &"]
    Lexeme.IsAtom ⟨.identifier, "f`$g".toList⟩ ∧
      (∀ text ∈ texts, IsArgument .standard text) ∧
      ∃ forms : List String,
        texts.map (fun text => (parseSource .standard text).fullForm?) = forms.map some ∧
        (parseSource .standard (bracketed "f`$g" texts)).errors = [] ∧
        (parseSource .standard (bracketed "f`$g" texts)).expressions.map Tree.fullForm?
          = [some (bracketed "f`$g" forms)] := by
  intro texts
  have name : Lexeme.IsAtom ⟨.identifier, "f`$g".toList⟩ :=
    Lexeme.isAtom_iff_tokenize.mpr ⟨by decide, by decide +kernel⟩
  have arguments : ∀ text ∈ texts, IsArgument .standard text := by decide +kernel
  exact ⟨name, arguments, fullForm?_parseSource_bracketed .standard _ name texts arguments⟩

end WolframSyntax
