import WolframSyntax.Proofs.Comparing
import WolframSyntax.Proofs.Nesting

/-!
# Joined token lists

The words of a token list that is joined of two are those of the first part and those of the second,
which begins behind the trivia that the first part ends with (`WordStream.after_append_of_unended`).
So token lists that differ in the trivia in front of a single token are read to the same gist if the
trivia matter alike at that place (`FileReading.Behind.readToEnd?_cons`).
-/

namespace WolframSyntax

open SyntaxTree WolframSyntax.Tree

namespace WordStream

/-- The trivia at the end of a token list that continues after the trivia `lead`. -/
def pending (lead : List Token) : List Token → List Token
  | [] => lead
  | token :: tokens =>
    if token.isTrivia then pending (lead ++ [token]) tokens else pending [] tokens

/-- Trivia are pending until the next word. -/
theorem pending_of_isTrivia {token : Token} (trivia : token.isTrivia) (lead tokens : List Token) :
    pending lead (token :: tokens) = pending (lead ++ [token]) tokens := by
  rw [pending, if_pos trivia]

/-- A word takes all trivia that are pending. -/
theorem pending_of_plain {token : Token} (plain : token.isTrivia = false)
    (lead tokens : List Token) : pending lead (token :: tokens) = pending [] tokens := by
  rw [pending, if_neg (by simp [plain])]

theorem isTrivia_of_mem_pending {lead : List Token} (trivia : ∀ token ∈ lead, token.isTrivia)
    (tokens : List Token) : ∀ token ∈ pending lead tokens, token.isTrivia := by
  induction tokens generalizing lead with
  | nil => exact trivia
  | cons token tokens ih =>
    cases blank : token.isTrivia with
    | true =>
      rw [pending_of_isTrivia blank]
      exact ih (List.forall_mem_append.mpr ⟨trivia, List.forall_mem_singleton.mpr blank⟩)
    | false =>
      rw [pending_of_plain blank]
      exact ih (List.forall_mem_nil _)

/-- What is pending behind two lists is so behind the second one. -/
theorem pending_append (lead first second : List Token) :
    pending lead (first ++ second) = pending (pending lead first) second := by
  induction first generalizing lead with
  | nil => rfl
  | cons token first ih =>
    cases blank : token.isTrivia with
    | true => rw [List.cons_append, pending_of_isTrivia blank, pending_of_isTrivia blank, ih]
    | false => rw [List.cons_append, pending_of_plain blank, pending_of_plain blank, ih]

/-- A list without an end token has no ending, and its words stand in front of those of whatever
follows. -/
theorem after_append_of_unended {first : List Token} (unended : first.any Token.isEnd = false)
    (lead second : List Token) :
    after lead (first ++ second)
      = ⟨(after lead first).words ++ (after (pending lead first) second).words,
        (after (pending lead first) second).ending⟩ := by
  induction first generalizing lead with
  | nil => rfl
  | cons token first ih =>
    obtain ⟨inner, unended⟩ := Bool.or_eq_false_iff.mp unended
    cases blank : token.isTrivia with
    | true =>
      rw [List.cons_append, after_of_isTrivia blank, after_of_isTrivia blank,
        pending_of_isTrivia blank, ih unended]
    | false =>
      rw [List.cons_append, after_of_plain blank inner, after_of_plain blank inner,
        pending_of_plain blank, ih unended]
      rfl

/-- Behind its end token, a list can go on with anything. -/
theorem after_append_of_ending {lead first : List Token} {ending : Word} {beyond : List Token}
    (found : (after lead first).ending = some (ending, beyond)) (second : List Token) :
    after lead (first ++ second)
      = ⟨(after lead first).words, some (ending, beyond ++ second)⟩ := by
  induction first generalizing lead with
  | nil => cases found
  | cons token first ih =>
    cases blank : token.isTrivia with
    | true =>
      rw [after_of_isTrivia blank] at found
      rw [List.cons_append, after_of_isTrivia blank, after_of_isTrivia blank, ih found]
    | false =>
      cases ends : token.isEnd with
      | true =>
        rw [after_of_isEnd ends] at found
        cases found
        rw [List.cons_append, after_of_isEnd ends, after_of_isEnd ends]
      | false =>
        rw [after_of_plain blank ends] at found
        rw [List.cons_append, after_of_plain blank ends, after_of_plain blank ends, ih found]

/-- Trivia stand in front of what follows. -/
theorem after_append_of_isTrivia {trivia : List Token} (blank : ∀ token ∈ trivia, token.isTrivia)
    (lead tokens : List Token) : after lead (trivia ++ tokens) = after (lead ++ trivia) tokens := by
  induction trivia generalizing lead with
  | nil => rw [List.nil_append, List.append_nil]
  | cons token trivia ih =>
    obtain ⟨first, later⟩ := List.forall_mem_cons.mp blank
    rw [List.cons_append, after_of_isTrivia first, ih later, List.append_assoc,
      List.singleton_append]

/-- The tokens of the words of a list are those that are no trivia. -/
theorem map_token_words {tokens : List Token} (unended : tokens.any Token.isEnd = false)
    (lead : List Token) :
    (after lead tokens).words.map Word.token = tokens.filter fun token => !token.isTrivia := by
  induction tokens generalizing lead with
  | nil => rfl
  | cons token tokens ih =>
    obtain ⟨inner, unended⟩ := Bool.or_eq_false_iff.mp unended
    cases blank : token.isTrivia with
    | true => rw [after_of_isTrivia blank, ih unended, List.filter_cons_of_neg (by simp [blank])]
    | false =>
      rw [after_of_plain blank inner, List.map_cons, ih unended,
        List.filter_cons_of_pos (by simp [blank])]

/-- The words of a list without end token, when one more plain token is read. -/
theorem words_append_singleton {tokens : List Token} (unended : tokens.any Token.isEnd = false)
    {token : Token} (plain : token.isTrivia = false) (inner : token.isEnd = false)
    (lead : List Token) :
    (after lead (tokens ++ [token])).words
      = (after lead tokens).words ++ [⟨pending lead tokens, token⟩] := by
  rw [after_append_of_unended unended, after_of_plain plain inner]
  rfl

/-- A list of tokens has at least as many tokens as words, with the end word. -/
theorem length_words_le (lead tokens : List Token) :
    ((after lead tokens).words ++ ((after lead tokens).ending.map Prod.fst).toList).length
      ≤ tokens.length := by
  induction tokens generalizing lead with
  | nil => exact Nat.le_refl _
  | cons token tokens ih =>
    cases blank : token.isTrivia with
    | true =>
      rw [after_of_isTrivia blank]
      exact Nat.le_succ_of_le (ih _)
    | false =>
      cases ends : token.isEnd with
      | true =>
        rw [after_of_isEnd ends]
        exact Nat.succ_le_succ (Nat.zero_le _)
      | false =>
        rw [after_of_plain blank ends]
        exact Nat.succ_le_succ (ih [])

/-- The end word is not among the words of a stream. -/
theorem isEnd_eq_false_of_mem {tokens : List Token} {lead : List Token} :
    ∀ word ∈ (after lead tokens).words, word.token.isEnd = false := by
  induction tokens generalizing lead with
  | nil => exact List.forall_mem_nil _
  | cons token tokens ih =>
    cases blank : token.isTrivia with
    | true =>
      rw [after_of_isTrivia blank]
      exact ih
    | false =>
      cases ends : token.isEnd with
      | true =>
        rw [after_of_isEnd ends]
        exact List.forall_mem_nil _
      | false =>
        rw [after_of_plain blank ends]
        exact List.forall_mem_cons.mpr ⟨ends, ih⟩

end WordStream

namespace FileReading

/-- The file after the words of a token list without end token. -/
def afterTokens (grammar : Grammar) (tokens : List Token) : FileReading :=
  (WordStream.ofTokens tokens).words.foldl (read grammar) empty

variable {grammar : Grammar}

/-- After any tokens the file is sound. -/
theorem isSound_afterTokens (grammar : Grammar) (tokens : List Token) :
    (afterTokens grammar tokens).IsSound :=
  (isSound_empty.foldl_read grammar _).1

/-- The brackets that are open in a file without errors are those among its tokens. -/
theorem depth_afterTokens {tokens : List Token} (unended : tokens.any Token.isEnd = false)
    (clean : (afterTokens grammar tokens).IsClean) :
    (afterTokens grammar tokens).depth = Token.depth tokens := by
  rw [afterTokens, depth_foldl_read isSound_empty (agrees_empty grammar) clean,
    WordStream.ofTokens, WordStream.map_token_words unended, Token.depth_filter_plain]
  exact Int.zero_add _

/-- The closing brackets that a file without errors expects are those that its tokens leave open. -/
theorem expectedBehind?_afterTokens {tokens : List Token}
    (unended : tokens.any Token.isEnd = false) (clean : (afterTokens grammar tokens).IsClean) :
    Token.expectedBehind? [] tokens = some (afterTokens grammar tokens).closers := by
  rw [← Token.expectedBehind?_filter_plain, ← WordStream.map_token_words unended []]
  exact expectedBehind?_foldl_read isSound_empty (agrees_empty grammar) clean

/-- The children of a file when its end is in view and some tokens lie beyond it. -/
def childrenAtEnd (grammar : Grammar) (file : FileReading) (ending : Word) (beyond : List Token) :
    List SyntaxTree :=
  file.finish grammar ending
    ++ (ending.leadLeaves ++ (beyond.filter fun token => !token.isEnd).map leaf)

/-- The tree of a file when the words and the ending of a stream follow, if it has an ending. -/
def readToEnd? (grammar : Grammar) (file : FileReading) (stream : WordStream) :
    Option SyntaxTree :=
  match stream.ending with
  | some (ending, beyond) =>
    some (ofKind .file
      (childrenAtEnd grammar (stream.words.foldl (read grammar) file) ending beyond))
  | none => none

/-- Words are read before those that follow them. -/
theorem readToEnd?_append (file : FileReading) (words more : List Word)
    (ending : Option (Word × List Token)) :
    file.readToEnd? grammar ⟨words ++ more, ending⟩
      = (words.foldl (read grammar) file).readToEnd? grammar ⟨more, ending⟩ := by
  rw [readToEnd?, readToEnd?, List.foldl_append]

/-- An end token ends the file. -/
theorem readToEnd?_of_isEnd {token : Token} (ends : token.isEnd) (file : FileReading)
    (lead rest : List Token) :
    file.readToEnd? grammar (WordStream.after lead (token :: rest))
      = some (ofKind .file (childrenAtEnd grammar file ⟨lead, token⟩ rest)) := by
  rw [WordStream.after_of_isEnd ends]
  rfl

/-- A token that is no trivia is read as a word. -/
theorem readToEnd?_of_plain {token : Token} (plain : token.isTrivia = false)
    (inner : token.isEnd = false) (file : FileReading) (lead rest : List Token) :
    file.readToEnd? grammar (WordStream.after lead (token :: rest))
      = (file.read grammar ⟨lead, token⟩).readToEnd? grammar (WordStream.after [] rest) := by
  rw [WordStream.after_of_plain plain inner, ← List.singleton_append, readToEnd?_append]
  rfl

/-- A token list has the tree to which its words are read. -/
theorem parseTokens_eq_ok_iff {tokens : List Token} {tree : SyntaxTree} :
    parseTokens grammar tokens = .ok tree ↔
      empty.readToEnd? grammar (WordStream.ofTokens tokens) = some tree := by
  unfold parseTokens readToEnd?
  cases found : (WordStream.ofTokens tokens).ending with
  | none => simp [found]
  | some pair => simp [found, FileReading.tree, childrenAtEnd]

/-- A token list is read by reading the first part and then the rest. -/
theorem parseTokens_append_eq_ok_iff {first second : List Token}
    (unended : first.any Token.isEnd = false) {tree : SyntaxTree} :
    parseTokens grammar (first ++ second) = .ok tree ↔
      (afterTokens grammar first).readToEnd? grammar
        (WordStream.after (WordStream.pending [] first) second) = some tree := by
  rw [parseTokens_eq_ok_iff, WordStream.ofTokens, WordStream.after_append_of_unended unended,
    readToEnd?_append]
  rfl

theorem isClean_of_childrenAtEnd {file : FileReading} {ending : Word} {beyond : List Token}
    (ends : ending.token.isEnd)
    (clean : (ofKind .file (childrenAtEnd grammar file ending beyond)).IsClean) :
    file.IsClean ∧ ∀ reading ∈ file.current,
      (reading.read (surroundings grammar) ending).IsClean :=
  isClean_of_finish ends fun child present =>
    (isClean_ofKind.mp clean).2 child (List.mem_append_left _ present)

/-- What is read to the end without errors had none before. -/
theorem isClean_of_readToEnd? {file : FileReading} {tokens : List Token} {tree : SyntaxTree}
    (ended : file.readToEnd? grammar (WordStream.ofTokens tokens) = some tree)
    (clean : tree.IsClean) : file.IsClean := by
  have covers := WordStream.covers_ofTokens tokens
  unfold readToEnd? at ended
  unfold WordStream.Covers at covers
  split at ended
  · next ending beyond found =>
    cases ended
    rw [found] at covers
    exact (isClean_of_foldl_read (isClean_of_childrenAtEnd covers.2.1 clean).1).1
  · cases ended

/-- What is read to the end without errors had none before the first word and while that was in
view. -/
theorem isClean_of_readToEnd?_cons {file : FileReading} {lead rest : List Token} {token : Token}
    (plain : token.isTrivia = false) {tree : SyntaxTree}
    (ended : file.readToEnd? grammar (WordStream.after lead (token :: rest)) = some tree)
    (clean : tree.IsClean) :
    file.IsClean ∧ ∀ reading ∈ file.current,
      (reading.read (surroundings grammar) ⟨lead, token⟩).IsClean := by
  cases ends : token.isEnd with
  | true =>
    rw [readToEnd?_of_isEnd ends] at ended
    cases ended
    exact isClean_of_childrenAtEnd ends clean
  | false =>
    rw [readToEnd?_of_plain plain ends] at ended
    obtain ⟨before, inView, _⟩ := isClean_of_read (isClean_of_readToEnd? ended clean)
    exact ⟨before, inView⟩

/-- Two files, of which one is behind, end with the same gist but for what the other has read
before. -/
theorem Behind.childrenAtEnd {front : List SyntaxTree} {file twin : FileReading}
    {ending other : Word} (behind : Behind front file twin)
    (agree : TriviaAgree grammar file ending other) {beyond further : List Token}
    (same : beyond.map Token.unplaced = further.map Token.unplaced) :
    gistAll (childrenAtEnd grammar twin other further)
      = front ++ gistAll (FileReading.childrenAtEnd grammar file ending beyond) := by
  have trailing : (beyond.filter fun token => !token.isEnd).map Token.unplaced
      = (further.filter fun token => !token.isEnd).map Token.unplaced := by
    have kept := congrArg (List.filter fun token => !token.isEnd) same
    rwa [List.filter_map, List.filter_map] at kept
  rw [FileReading.childrenAtEnd, FileReading.childrenAtEnd, gistAll_append, gistAll_append,
    gistAll_append, gistAll_append, behind.finish agree, agree.like.lead,
    gistAll_map_leaf_congr trailing, List.append_assoc]

/-- Files of the same gist are read to trees of the same gist when tokens follow that differ in
their places only. -/
theorem Behind.readToEnd? {front : List SyntaxTree} {file twin : FileReading}
    (behind : Behind front file twin) {lead other tokens twins : List Token}
    (leads : lead.map Token.unplaced = other.map Token.unplaced)
    (same : tokens.map Token.unplaced = twins.map Token.unplaced) {tree : SyntaxTree}
    (ended : file.readToEnd? grammar (WordStream.after lead tokens) = some tree) :
    ∃ twinTree, twin.readToEnd? grammar (WordStream.after other twins) = some twinTree ∧
      gistAll twinTree.children = front ++ gistAll tree.children := by
  induction tokens generalizing file twin lead other twins with
  | nil => cases ended
  | cons token tokens ih =>
    obtain ⟨mark, rest, rfl, first, later⟩ := List.map_eq_cons_iff.mp same.symm
    have kind := Token.kind_congr first
    cases blank : token.isTrivia with
    | true =>
      have twinBlank : mark.isTrivia := by rwa [Token.isTrivia, kind]
      rw [WordStream.after_of_isTrivia blank] at ended
      rw [WordStream.after_of_isTrivia twinBlank]
      refine ih behind ?_ later.symm ended
      rw [List.map_append, List.map_append, leads, List.map_singleton, List.map_singleton, first]
    | false =>
      have twinPlain : mark.isTrivia = false := by rwa [Token.isTrivia, kind]
      have agree : TriviaAgree grammar file ⟨lead, token⟩ ⟨other, mark⟩ :=
        triviaAgree_of_unplaced grammar file first.symm leads
      cases ends : token.isEnd with
      | true =>
        have twinEnds : mark.isEnd := by rwa [Token.isEnd, kind]
        rw [readToEnd?_of_isEnd ends] at ended
        rw [readToEnd?_of_isEnd twinEnds]
        cases ended
        exact ⟨_, rfl, behind.childrenAtEnd agree later.symm⟩
      | false =>
        have twinInner : mark.isEnd = false := by rwa [Token.isEnd, kind]
        rw [readToEnd?_of_plain blank ends] at ended
        rw [readToEnd?_of_plain twinPlain twinInner]
        exact ih (behind.read agree) rfl later.symm ended

/-- This is so too when the trivia in front of the first token are others that matter alike. -/
theorem Behind.readToEnd?_cons {front : List SyntaxTree} {file twin : FileReading}
    (behind : Behind front file twin) {lead other rest : List Token} {token : Token}
    (plain : token.isTrivia = false)
    (agree : TriviaAgree grammar file ⟨lead, token⟩ ⟨other, token⟩) {tree : SyntaxTree}
    (ended : file.readToEnd? grammar (WordStream.after lead (token :: rest)) = some tree) :
    ∃ twinTree, twin.readToEnd? grammar (WordStream.after other (token :: rest)) = some twinTree ∧
      gistAll twinTree.children = front ++ gistAll tree.children := by
  cases ends : token.isEnd with
  | true =>
    rw [readToEnd?_of_isEnd ends] at ended ⊢
    cases ended
    exact ⟨_, rfl, behind.childrenAtEnd agree rfl⟩
  | false =>
    rw [readToEnd?_of_plain plain ends] at ended ⊢
    exact (behind.read agree).readToEnd? rfl rfl ended

end FileReading

end WolframSyntax
