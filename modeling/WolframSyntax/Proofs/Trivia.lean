import WolframSyntax.Proofs.Streams

/-!
# Trivia are insignificant

Blanks and comments may stand between any two tokens that do not bind each other (`Token.Binds`),
and in a file without errors a line may be broken or not wherever a bracket is open: the full form
and the messages of the errors stay the same (`fullForm?_insert_blank_and_join_lines`).
-/

namespace WolframSyntax

open SyntaxTree WolframSyntax.Tree

/-- Whether a token means something else when it touches the token in front of it: a blank that can
be named, a name of a blank, and the second opening bracket of a part. -/
def Token.Binds (previous next : Token) : Prop :=
  previous.isTrivia = false ∧ next.isBlank ∨ previous.isBlank ∧ next.kind = .identifier ∨
    previous.kind = .operator .leftBracket ∧ next.kind = .operator .leftBracket

/-- Spaces matter in front of a bracket that may end a part, and of a name that a blank may have. -/
theorem Focus.of_minds {focus : Focus} {kind : TokenKind} (minds : focus.minds kind) :
    focus = .arguments ∧ kind = .operator .leftBracket ∨
      (∃ blankKind blank named, focus = .blankName blankKind blank named) ∧ kind = .identifier := by
  unfold Focus.minds at minds
  split at minds
  · exact .inl ⟨rfl, rfl⟩
  · exact .inr ⟨⟨_, _, _, rfl⟩, rfl⟩
  · cases minds

/-- A blank's token is a blank. -/
theorem Opening.isBlank_of_ofKind? {token : Token} {kind : NodeKind}
    (opens : Opening.ofKind? token.kind = some (.blank kind)) : token.isBlank := by
  unfold Token.isBlank
  cases held : token.kind with
  | operator sign =>
    rw [held] at opens
    cases sign <;> first | rfl | cases opens
  | _ =>
    rw [held] at opens
    cases opens

namespace Frame

variable {frame next : Frame} {word : Word} {focus : Focus} {kind : TokenKind}

/-- A bracketed construct that reacts to a word waits for nothing more. -/
theorem close_ne_waits {made : NodeKind} {closing : Operator} {unclosed : List Diagnostic} :
    frame.close made closing unclosed word ≠ .waits next focus := by
  unfold close
  split <;> exact Reaction.noConfusion

theorem minds_of_closeItems {enclosure : Enclosure}
    (waits : frame.closeItems enclosure word = .waits next focus) : focus.minds kind = false := by
  unfold closeItems at waits
  split at waits
  · cases waits
    rfl
  · exact (close_ne_waits waits).elim

/-- A frame that has taken a word does not mind whether the next one touches it. -/
theorem minds_of_receive {bracketed : Bool} {outcome : Outcome}
    (waits : frame.receive bracketed outcome word = .waits next focus) :
    focus.minds kind = false := by
  unfold receive at waits
  cases role : frame.role with
  | group =>
    simp only [role] at waits
    exact (close_ne_waits waits).elim
  | items enclosure =>
    simp only [role] at waits
    split at waits
    · cases waits
      rfl
    · exact minds_of_closeItems waits
  | operand kind =>
    simp only [role] at waits
    cases waits
  | chain kind sign =>
    simp only [role] at waits
    split at waits
    · cases waits
    split at waits
    · split at waits <;> cases waits
      rfl
    · split at waits <;> cases waits
    · cases waits
  | compound =>
    simp only [role] at waits
    split at waits <;> cases waits
    rfl
  | tag last =>
    simp only [role] at waits
    split at waits <;> cases waits
    rfl
  | tagPattern =>
    simp only [role] at waits
    split at waits
    · cases waits
    split at waits
    · cases waits
      rfl
    split at waits <;> cases waits
    rfl

end Frame

namespace Reading

variable {surroundings : Surroundings} {word : Word} {frames : List Frame}
  {before after : Reading} {token : Token}

/-- A word that begins an expression minds spaces behind it only if it binds the next token. -/
theorem binds_of_begin {opening : Opening} {first : Token}
    (opens : Opening.ofKind? first.kind = some opening)
    (minds : (begin frames opening first).focus.minds token.kind) : first.Binds token := by
  cases opening with
  | blank kind =>
    rcases Focus.of_minds minds with ⟨arguments, _⟩ | ⟨_, name⟩
    · cases arguments
    · exact .inr (.inl ⟨Opening.isBlank_of_ofKind? opens, name⟩)
  | _ => cases minds

/-- An operator that goes on minds spaces behind it only if it binds the next token. -/
theorem binds_of_continueWith {grammar : Grammar} {left : SyntaxTree} {sign : Operator}
    {continuation : Continuation} (same : word.token.kind = .operator sign)
    (form : Continuation.ofOperator? sign = some continuation)
    (minds : (continueWith grammar frames left sign continuation word).focus.minds token.kind) :
    word.token.Binds token := by
  cases continuation with
  | call =>
    have bracket : sign = .leftBracket := by cases sign <;> first | rfl | cases form
    rcases Focus.of_minds minds with ⟨_, second⟩ | ⟨⟨_, _, _, blankName⟩, _⟩
    · exact .inr (.inr ⟨bracket ▸ same, second⟩)
    · cases blankName
  | pattern mark =>
    have found : Continuation.ofKind? word.token.kind = some (sign, .pattern mark) := by
      rw [same]
      exact congrArg (Option.map fun continuation => (sign, continuation)) form
    rcases Focus.of_minds minds with ⟨arguments, _⟩ | ⟨_, name⟩
    · cases arguments
    · exact .inr (.inl ⟨Word.isBlank_of_mustTouch found rfl, name⟩)
  | _ => cases minds

/-- A word that goes on minds spaces behind it only if it binds the next token. -/
theorem binds_of_extend? {left : SyntaxTree}
    (goesOn : extend? surroundings frames left word = some after)
    (minds : after.focus.minds token.kind) : word.token.Binds token := by
  rcases eq_of_extend?_eq_some goesOn with ⟨sign, _, link, _, rfl⟩ | ⟨opening, link, _, rfl⟩
  · obtain ⟨same, form, _⟩ := Word.of_link?_eq_sign link
    exact binds_of_continueWith same form minds
  · exact binds_of_begin (Word.of_link?_eq_factor link).1 minds

/-- Whether the next token touches the word that was taken matters only to tokens that the word
binds. -/
theorem Takes.binds (takes : Takes surroundings word before after)
    (minds : after.focus.minds token.kind) : word.token.Binds token := by
  cases takes with
  | alone unfinished opens => exact binds_of_begin opens minds
  | operand wants opens => exact binds_of_begin opens minds
  | statement opens => exact binds_of_begin (Word.opening?_of_openingInLine? opens) minds
  | continues goesOn => exact binds_of_extend? goesOn minds
  | @reacts _ _ frames reaction reacts taken =>
    cases reaction with
    | waits frame focus =>
      cases taken
      have still : focus.minds token.kind = false := by
        generalize same : Reaction.waits frame focus = reaction at reacts
        cases reacts with
        | complete | missing | absent => exact Frame.minds_of_receive same.symm
        | empty => exact Frame.minds_of_closeItems same.symm
        | partEnd => exact (Frame.close_ne_waits same.symm).elim
      exact absurd minds (by simp [still])
    | begins frame opening =>
      cases taken
      exact binds_of_begin reacts.opening?_of_begins minds
    | closes outcome =>
      cases taken
      cases minds
    | ends outcome => cases taken
  | part bracket touches => cases minds
  | name identifier touches => cases minds

end Reading

namespace FileReading

variable {grammar : Grammar} {file : FileReading} {word : Word} {token : Token}

theorem binds_of_beginWith {children : List SyntaxTree} {reading : Reading}
    (current : (beginWith children word).current = some reading)
    (minds : reading.focus.minds token.kind) : word.token.Binds token := by
  unfold beginWith at current
  dsimp only at current
  split at current
  · next opening opens =>
    cases current
    exact Reading.binds_of_begin opens minds
  · cases current

/-- After a word spaces matter only if the word binds the next token. -/
theorem binds_of_read {reading : Reading}
    (current : (file.read grammar word).current = some reading)
    (minds : reading.focus.minds token.kind) : word.token.Binds token := by
  unfold FileReading.read at current
  split at current
  · exact binds_of_beginWith current minds
  · next before _ =>
    split at current
    · next next progress =>
      cases current
      obtain ⟨_, _, decides⟩ := Reading.exists_settles_decides (surroundings grammar) before word
      rw [progress] at decides
      cases decides with
      | takes taken => exact taken.binds minds
    · exact binds_of_beginWith current minds

end FileReading

/-! ## Token lists that differ in trivia -/

/-- A list with an end token begins with trivia and then has a token that is none. -/
theorem exists_plain_of_any_isEnd {tokens : List Token} (present : tokens.any Token.isEnd) :
    ∃ trivia token rest, tokens = trivia ++ token :: rest ∧
      (∀ token ∈ trivia, token.isTrivia) ∧ token.isTrivia = false := by
  induction tokens with
  | nil => cases present
  | cons token tokens ih =>
    cases blank : token.isTrivia with
    | false => exact ⟨[], token, tokens, rfl, List.forall_mem_nil _, blank⟩
    | true =>
      have later : tokens.any Token.isEnd := by
        rw [List.any_cons, isEnd_eq_false_of_isTrivia blank] at present
        exact present
      obtain ⟨trivia, plain, rest, rfl, blanks, isPlain⟩ := ih later
      exact ⟨token :: trivia, plain, rest, rfl, List.forall_mem_cons.mpr ⟨blank, blanks⟩, isPlain⟩

/-- Behind the end of a file nothing counts but the tokens that are no trivia. -/
theorem exists_parseTokens_beyond (grammar : Grammar) {first : List Token}
    (ended : first.any Token.isEnd) {left right : List Token}
    (same : gistAll ((left.filter fun token => !token.isEnd).map leaf)
      = gistAll ((right.filter fun token => !token.isEnd).map leaf)) :
    ∃ tree twin, parseTokens grammar (first ++ left) = .ok tree ∧
      parseTokens grammar (first ++ right) = .ok twin ∧
        gistAll twin.children = gistAll tree.children := by
  obtain ⟨final, held, ends⟩ := List.any_eq_true.mp ended
  obtain ⟨⟨ending, beyond⟩, found⟩ := Option.isSome_iff_exists.mp (exists_ending_after held ends [])
  have parsed : ∀ more, parseTokens grammar (first ++ more) = .ok (ofKind .file
      (FileReading.childrenAtEnd grammar (FileReading.afterTokens grammar first) ending
        (beyond ++ more))) := by
    intro more
    rw [FileReading.parseTokens_eq_ok_iff, WordStream.ofTokens,
      WordStream.after_append_of_ending found]
    rfl
  refine ⟨_, _, parsed left, parsed right, ?_⟩
  change gistAll (FileReading.childrenAtEnd _ _ _ _) = gistAll (FileReading.childrenAtEnd _ _ _ _)
  simp only [FileReading.childrenAtEnd, List.filter_append, List.map_append, gistAll_append, same]

/-- Whether the trivia in front of a token matter alike can be told from two facts about them. -/
theorem triviaAgree_of_isTrivia {grammar : Grammar} {file : FileReading} {left right : List Token}
    {token : Token} (leftTrivia : ∀ token ∈ left, token.isTrivia)
    (rightTrivia : ∀ token ∈ right, token.isTrivia)
    (near : left.isEmpty ≠ right.isEmpty → token.isBlank = false ∧
      ∀ reading ∈ file.current, reading.focus.minds token.kind = false)
    (lines : ∀ reading ∈ file.current, Reading.LinesAgree (FileReading.surroundings grammar)
      reading.frames (reading.read (FileReading.surroundings grammar) ⟨left, token⟩) ⟨left, token⟩
      ⟨right, token⟩) :
    FileReading.TriviaAgree grammar file ⟨left, token⟩ ⟨right, token⟩ := by
  refine ⟨⟨rfl, ?_, fun blank => ?_⟩, fun reading current minds => ?_, lines⟩
  · exact (gistAll_map_leaf_of_isTrivia leftTrivia).trans
      (gistAll_map_leaf_of_isTrivia rightTrivia).symm
  · by_contra apart
    rw [(near apart).1] at blank
    cases blank
  · by_contra apart
    rw [(near apart).2 reading current] at minds
    cases minds

/-- Trivia behind the end of a file have no gist. -/
theorem gistAll_trailing_of_isTrivia {blank : Token} (trivia : blank.isTrivia)
    (rest : List Token) :
    gistAll (((blank :: rest).filter fun token => !token.isEnd).map leaf)
      = gistAll ((rest.filter fun token => !token.isEnd).map leaf) := by
  rw [List.filter_cons_of_pos (by simp [isEnd_eq_false_of_isTrivia trivia]), List.map_cons,
    gistAll_cons, gistAll_leaf_of_isTrivia trivia, List.nil_append]

/-- A file keeps its gist when the trivia in front of one token are exchanged for others that matter
alike. -/
theorem exists_parseTokens_exchange {grammar : Grammar} {first left right rest : List Token}
    {token : Token} (unended : first.any Token.isEnd = false)
    (leftTrivia : ∀ token ∈ left, token.isTrivia) (rightTrivia : ∀ token ∈ right, token.isTrivia)
    (plain : token.isTrivia = false)
    (agree : FileReading.TriviaAgree grammar (FileReading.afterTokens grammar first)
      ⟨WordStream.pending [] first ++ left, token⟩ ⟨WordStream.pending [] first ++ right, token⟩)
    {tree : SyntaxTree}
    (parsed : parseTokens grammar (first ++ (left ++ token :: rest)) = .ok tree) :
    ∃ twin, parseTokens grammar (first ++ (right ++ token :: rest)) = .ok twin ∧
      gistAll twin.children = gistAll tree.children := by
  rw [FileReading.parseTokens_append_eq_ok_iff unended,
    WordStream.after_append_of_isTrivia leftTrivia] at parsed
  have self : FileReading.Behind [] (FileReading.afterTokens grammar first)
      (FileReading.afterTokens grammar first) := ⟨rfl, rfl⟩
  obtain ⟨twin, twinParsed, same⟩ := self.readToEnd?_cons plain agree parsed
  refine ⟨twin, ?_, same⟩
  rw [FileReading.parseTokens_append_eq_ok_iff unended,
    WordStream.after_append_of_isTrivia rightTrivia]
  exact twinParsed

/-- What a file expects behind a token that is no trivia and no end. -/
theorem binds_of_afterTokens {grammar : Grammar} {before : List Token} {previous token : Token}
    (unended : (before ++ [previous]).any Token.isEnd = false)
    (plain : previous.isTrivia = false) {reading : Reading}
    (current : (FileReading.afterTokens grammar (before ++ [previous])).current = some reading)
    (minds : reading.focus.minds token.kind) : previous.Binds token := by
  rw [List.any_append, Bool.or_eq_false_iff] at unended
  have inner : previous.isEnd = false := by simpa using unended.2
  rw [FileReading.afterTokens, WordStream.ofTokens,
    WordStream.words_append_singleton unended.1 plain inner, List.foldl_append] at current
  have binds := FileReading.binds_of_read current minds
  exact binds

/-- A blank or a comment between two tokens that do not bind each other leaves the gist of a file as
it is. -/
theorem exists_parseTokens_insert (grammar : Grammar) {before after : List Token}
    {previous blank next : Token} (kind : blank.kind = .whitespace ∨ blank.kind = .comment)
    (free : ¬previous.Binds next)
    (present : (before ++ previous :: next :: after).any Token.isEnd) :
    ∃ tree twin, parseTokens grammar (before ++ previous :: next :: after) = .ok tree ∧
      parseTokens grammar (before ++ previous :: blank :: next :: after) = .ok twin ∧
        gistAll twin.children = gistAll tree.children := by
  have blanks : blank.isTrivia := by
    rcases kind with kind | kind <;> rw [Token.isTrivia, kind] <;> rfl
  rw [List.append_cons] at present ⊢
  rw [List.append_cons before previous (blank :: next :: after)]
  by_cases ended : (before ++ [previous]).any Token.isEnd
  · apply exists_parseTokens_beyond grammar ended
    exact (gistAll_trailing_of_isTrivia blanks _).symm
  · have unended : (before ++ [previous]).any Token.isEnd = false := by simpa using ended
    obtain ⟨final, held, ends⟩ := List.any_eq_true.mp present
    obtain ⟨tree, parsed⟩ := exists_parseTokens_eq_ok grammar held ends
    rw [List.any_append, unended, Bool.false_or] at present
    obtain ⟨trivia, token, rest, split, isTrivia, plain⟩ := exists_plain_of_any_isEnd present
    have earlier :=
      WordStream.isTrivia_of_mem_pending (List.forall_mem_nil _) (before ++ [previous])
    have isTriviaToo : ∀ token ∈ blank :: trivia, token.isTrivia :=
      List.forall_mem_cons.mpr ⟨blanks, isTrivia⟩
    rw [split] at parsed ⊢
    obtain ⟨twin, twinParsed, same⟩ : ∃ twin, parseTokens grammar
        (before ++ [previous] ++ (blank :: trivia ++ token :: rest)) = .ok twin ∧
          gistAll twin.children = gistAll tree.children := by
      refine exists_parseTokens_exchange unended isTrivia isTriviaToo plain
        (triviaAgree_of_isTrivia (List.forall_mem_append.mpr ⟨earlier, isTrivia⟩)
          (List.forall_mem_append.mpr ⟨earlier, isTriviaToo⟩) (fun apart => ?_)
          fun reading current => .inl ?_) parsed
      · -- Only where nothing stood between the two tokens does the new trivia part anything.
        have nothing : WordStream.pending [] (before ++ [previous]) ++ trivia = [] := by
          by_contra some
          exact apart ((List.isEmpty_eq_false_iff.mpr some).trans
            (List.isEmpty_eq_false_iff.mpr (List.append_ne_nil_of_right_ne_nil _
              (List.cons_ne_nil _ _))).symm)
        obtain ⟨none, rfl⟩ := List.append_eq_nil_iff.mp nothing
        obtain ⟨rfl, rfl⟩ := List.cons.inj split
        have visible : previous.isTrivia = false := by
          by_contra hidden
          simp only [Bool.not_eq_false] at hidden
          rw [WordStream.pending_append, WordStream.pending_of_isTrivia hidden] at none
          exact List.append_ne_nil_of_right_ne_nil _ (List.cons_ne_nil _ _) none
        refine ⟨by_contra fun blank => free (.inl ⟨visible, by simpa using blank⟩),
          fun reading current => by_contra fun minds => free ?_⟩
        exact binds_of_afterTokens unended visible current (by simpa using minds)
      · have silent : (blank.kind == .lineBreak) = false := by
          rcases kind with kind | kind <;> rw [kind] <;> rfl
        simp [Word.beginsLine, silent]
    exact ⟨tree, twin, parsed, twinParsed, same⟩

/-- A line that ends inside of brackets need not end there if the file has no errors. -/
theorem exists_parseTokens_join {grammar : Grammar} {before after : List Token} {line blank : Token}
    (lineKind : line.kind = .lineBreak) (blankKind : blank.kind = .whitespace)
    (open' : 0 < Token.depth before) {tree : SyntaxTree}
    (parsed : parseTokens grammar (before ++ line :: after) = .ok tree) (clean : tree.IsClean) :
    ∃ twin, parseTokens grammar (before ++ blank :: after) = .ok twin ∧
      gistAll twin.children = gistAll tree.children := by
  have lineTrivia : line.isTrivia := by rw [Token.isTrivia, lineKind]; rfl
  have blankTrivia : blank.isTrivia := by rw [Token.isTrivia, blankKind]; rfl
  by_cases ended : before.any Token.isEnd
  · obtain ⟨_, twin, parsedToo, twinParsed, same⟩ := exists_parseTokens_beyond grammar ended
      ((gistAll_trailing_of_isTrivia lineTrivia after).trans
        (gistAll_trailing_of_isTrivia blankTrivia after).symm)
    cases parsed.symm.trans parsedToo
    exact ⟨twin, twinParsed, same⟩
  · have unended : before.any Token.isEnd = false := by simpa using ended
    have present := (tokens_of_parseTokens parsed).1
    rw [List.any_append, unended, List.any_cons, isEnd_eq_false_of_isTrivia lineTrivia,
      Bool.false_or, Bool.false_or] at present
    obtain ⟨trivia, token, rest, rfl, isTrivia, plain⟩ := exists_plain_of_any_isEnd present
    have earlier := WordStream.isTrivia_of_mem_pending (List.forall_mem_nil _) before
    have leftTrivia : ∀ token ∈ line :: trivia, token.isTrivia :=
      List.forall_mem_cons.mpr ⟨lineTrivia, isTrivia⟩
    have rightTrivia : ∀ token ∈ blank :: trivia, token.isTrivia :=
      List.forall_mem_cons.mpr ⟨blankTrivia, isTrivia⟩
    have read := parsed
    rw [← List.cons_append, FileReading.parseTokens_append_eq_ok_iff unended,
      WordStream.after_append_of_isTrivia leftTrivia] at read
    obtain ⟨before', inView⟩ := FileReading.isClean_of_readToEnd?_cons plain read clean
    have depth := FileReading.depth_afterTokens unended before'
    refine exists_parseTokens_exchange unended leftTrivia rightTrivia plain
      (triviaAgree_of_isTrivia (List.forall_mem_append.mpr ⟨earlier, leftTrivia⟩)
        (List.forall_mem_append.mpr ⟨earlier, rightTrivia⟩) ?_ ?_) parsed
    · refine fun apart => absurd ?_ apart
      rw [List.isEmpty_eq_false_iff.mpr (by simp), List.isEmpty_eq_false_iff.mpr (by simp)]
    · refine fun reading current => .inr ⟨?_, inView reading current⟩
      rw [FileReading.depth_of_current current] at depth
      exact Reading.isBracketed_of_depth_pos (by omega)

/-- Files with the same gist have the same full form and the same messages. -/
theorem meaning_of_parseTokens {grammar : Grammar} {tokens twins : List Token}
    {tree twin : SyntaxTree} (parsed : parseTokens grammar tokens = .ok tree)
    (twinParsed : parseTokens grammar twins = .ok twin)
    (same : gistAll twin.children = gistAll tree.children) :
    twin.fullForm? = tree.fullForm? ∧ twin.messages = tree.messages := by
  obtain ⟨children, rfl, fits⟩ := everywhere_fits_of_parseTokens parsed
  obtain ⟨twinChildren, rfl, twinFits⟩ := everywhere_fits_of_parseTokens twinParsed
  obtain ⟨forms, reports⟩ := meaning_of_gistAll_eq twinFits fits same
  constructor
  · rw [ofKind, ofKind, fullForm?, fullForm?, forms]
    rfl
  · rw [ofKind, ofKind, messages_node, messages_node, reports]

/-- A blank or a comment between two tokens that do not bind each other changes neither the full
form of a file nor the messages of its errors. In a file without errors, a line that ends inside of
brackets can go on there without a change of the full form and without an error. -/
theorem fullForm?_insert_blank_and_join_lines (grammar : Grammar) :
    (∀ (before after : List Token) (previous blank next : Token),
      blank.kind = .whitespace ∨ blank.kind = .comment → ¬previous.Binds next →
      (before ++ previous :: next :: after).any Token.isEnd →
      ∃ tree twin, parseTokens grammar (before ++ previous :: next :: after) = .ok tree ∧
        parseTokens grammar (before ++ previous :: blank :: next :: after) = .ok twin ∧
        twin.fullForm? = tree.fullForm? ∧
        twin.errors.map Tree.message = tree.errors.map Tree.message) ∧
    ∀ (before after : List Token) (line blank : Token) (tree : SyntaxTree),
      line.kind = .lineBreak → blank.kind = .whitespace → 0 < Token.depth before →
      parseTokens grammar (before ++ line :: after) = .ok tree → tree.errors = [] →
      ∃ twin, parseTokens grammar (before ++ blank :: after) = .ok twin ∧
        twin.fullForm? = tree.fullForm? ∧ twin.errors = [] := by
  constructor
  · intro before after previous blank next kind free present
    obtain ⟨tree, twin, parsed, twinParsed, same⟩ :=
      exists_parseTokens_insert grammar kind free present
    exact ⟨tree, twin, parsed, twinParsed, meaning_of_parseTokens parsed twinParsed same⟩
  · intro before after line blank tree lineKind blankKind open' parsed none
    have clean : tree.IsClean := isClean_iff_errors_eq_nil.mpr none
    obtain ⟨twin, twinParsed, same⟩ := exists_parseTokens_join lineKind blankKind open' parsed clean
    obtain ⟨forms, reports⟩ := meaning_of_parseTokens parsed twinParsed same
    rw [isClean_iff_messages_eq_nil, ← reports, ← isClean_iff_messages_eq_nil,
      isClean_iff_errors_eq_nil] at clean
    exact ⟨twin, twinParsed, forms, clean⟩

/-- A comment in a sum, and a call whose argument stands on a line of its own. -/
theorem fullForm?_sum_with_comment_and_call_over_lines :
    let before : List Token := [⟨.identifier, "a", 1, 1⟩]
    let plus : Token := ⟨.operator .plus, "+", 1, 2⟩
    let comment : Token := ⟨.comment, "(* *)", 1, 3⟩
    let second : Token := ⟨.identifier, "b", 1, 3⟩
    let last : Token := ⟨.endOfFile, "", 2, 3⟩
    let call : List Token := [⟨.identifier, "f", 1, 1⟩, ⟨.operator .leftBracket, "[", 1, 2⟩]
    let line : Token := ⟨.lineBreak, "\n", 1, 3⟩
    let blank : Token := ⟨.whitespace, " ", 1, 3⟩
    let after : List Token := [⟨.identifier, "x", 2, 1⟩, ⟨.operator .rightBracket, "]", 2, 2⟩, last]
    (comment.kind = .comment ∧ ¬plus.Binds second ∧
      ∃ tree twin, parseTokens .standard (before ++ plus :: second :: [last]) = .ok tree ∧
        parseTokens .standard (before ++ plus :: comment :: second :: [last]) = .ok twin ∧
        twin.fullForm? = tree.fullForm? ∧
        twin.errors.map Tree.message = tree.errors.map Tree.message) ∧
    0 < Token.depth call ∧
      ∃ tree, parseTokens .standard (call ++ line :: after) = .ok tree ∧ tree.errors = [] ∧
        ∃ twin, parseTokens .standard (call ++ blank :: after) = .ok twin ∧
          twin.fullForm? = tree.fullForm? ∧ twin.errors = [] := by
  intro before plus comment second last call line blank after
  have free : ¬plus.Binds second := by
    rintro (⟨_, blank⟩ | ⟨blank, _⟩ | ⟨bracket, _⟩)
    · cases blank
    · cases blank
    · cases bracket
  obtain ⟨insert, join⟩ := fullForm?_insert_blank_and_join_lines .standard
  have clean : (parseTokens .standard (call ++ line :: after)).toOption.all
      fun tree => tree.errors.isEmpty := by
    decide +kernel
  have ending : last ∈ call ++ line :: after := by simp [call, after]
  obtain ⟨tree, parsed⟩ := exists_parseTokens_eq_ok .standard ending rfl
  rw [parsed] at clean
  have none : tree.errors = [] := List.isEmpty_iff.mp clean
  exact ⟨⟨rfl, free, insert before [last] plus comment second (.inr rfl) free (by decide +kernel)⟩,
    by decide, tree, parsed, none,
    join call after line blank tree rfl rfl (by decide) parsed none⟩

end WolframSyntax
