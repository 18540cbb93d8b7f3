import WolframSyntax.Proofs.Sites

/-!
# Nothing is lost

A reading holds the tokens it was read from, in order: those among its sites
(`Reading.tokensAmong_sites`), where every word that is read adds its own tokens
(`FileReading.IsSound.read`). The leaves of a file are therefore its tokens without end tokens, and
the text of a file is the text that was read (`parseTokens_lossless`).
-/

namespace WolframSyntax

open SyntaxTree

namespace Word

/-- The tokens of a word. -/
def tokens (word : Word) : List Token := word.lead ++ [word.token]

/-- The leaves in front of a word hold what is in front of it. -/
@[simp] theorem flatMap_tokens_leadLeaves (word : Word) :
    word.leadLeaves.flatMap Tree.tokens = word.lead := by
  simp [leadLeaves, List.flatMap_map]

/-- The leaves of a word hold its tokens. -/
@[simp] theorem flatMap_tokens_leaves (word : Word) :
    word.leaves.flatMap Tree.tokens = word.tokens := by
  simp [leaves, leaf, tokens]

end Word

/-- The tokens of the children of a frame. -/
def Frame.tokens (frame : Frame) : List Token := frame.children.flatMap Tree.tokens

/-- The tokens that a focus holds. -/
def Focus.tokens : Focus → List Token
  | .complete outcome => outcome.tree.tokens
  | .blankName _ blank named => named.toList.flatMap Tree.tokens ++ [blank]
  | _ => []

/-- The tokens of a reading, in the order in which they were read. -/
def Reading.tokens (reading : Reading) : List Token :=
  reading.frames.reverse.flatMap Frame.tokens ++ reading.focus.tokens

namespace Frame

variable {frame : Frame} {word : Word}

/-- An operand brings its tokens. -/
@[simp] theorem tokens_add (outcome : Outcome) :
    (frame.add outcome).tokens = frame.tokens ++ outcome.tree.tokens := by
  simp [tokens, add]

/-- A word that is taken brings its tokens. -/
@[simp] theorem tokens_take : (frame.take word).tokens = frame.tokens ++ word.tokens := by
  simp [tokens, take]

@[simp] theorem tokens_takeLead : (frame.takeLead word).tokens = frame.tokens ++ word.lead := by
  simp [tokens, takeLead]

/-- An error for something missing brings no token. -/
@[simp] theorem tokens_fail (diagnostics : List Diagnostic) :
    (frame.fail diagnostics word).tokens = frame.tokens := by
  simp [tokens, fail, List.flatMap_map]

end Frame

/-- A reading holds the tokens of its frames, outermost first, and of its focus. -/
theorem Reading.tokens_mk (frames : List Frame) (focus : Focus) :
    tokens ⟨frames, focus⟩ = frames.reverse.flatMap Frame.tokens ++ focus.tokens := rfl

/-! ## The tokens among the sites -/

/-- The tokens among the sites of several things are those of each. -/
theorem tokensAmong_flatMap {α : Type} (sites : α → List Site) (held : List α) :
    tokensAmong (held.flatMap sites) = held.flatMap fun item => tokensAmong (sites item) :=
  List.filterMap_flatMap

/-- The sites of a word are its tokens. -/
@[simp] theorem Word.tokensAmong_sites (word : Word) : tokensAmong word.sites = word.tokens := by
  rw [sites, tokensAmong_append, tokensAmong_map_token]
  rfl

/-- The sites of a tree have its tokens, and gaps besides. -/
@[simp] theorem SyntaxTree.tokensAmong_sites (tree : SyntaxTree) :
    tokensAmong tree.sites = tree.tokens := by
  induction tree using Tree.induct with
  | node label content children ih =>
    have own : tokensAmong content.sites = content.token.toList := by
      rw [Content.sites, tokensAmong_append, tokensAmong_map_token]
      cases content.position <;> exact List.append_nil _
    rw [sites_node, tokensAmong_append, tokensAmong_flatMap, own, Tree.tokens_node,
      List.flatMap_congr ih]

@[simp] theorem Frame.tokensAmong_sites (frame : Frame) :
    tokensAmong frame.sites = frame.tokens := by
  simp [sites, tokens, tokensAmong_flatMap]

@[simp] theorem Focus.tokensAmong_sites (focus : Focus) :
    tokensAmong focus.sites = focus.tokens := by
  cases focus with
  | complete outcome => exact SyntaxTree.tokensAmong_sites outcome.tree
  | blankName kind blank named =>
    cases named <;> simp [sites, tokens] <;> rfl
  | _ => rfl

@[simp] theorem Reading.tokensAmong_sites (reading : Reading) :
    tokensAmong reading.sites = reading.tokens := by
  simp [sites, tokens, tokensAmong_flatMap]

variable {word : Word} {given more : List Site}

/-- What is reported missing has no tokens. -/
theorem Grows.tokensAmong_eq (grows : Grows word given more) :
    tokensAmong more = tokensAmong given := by
  obtain ⟨count, rfl⟩ := grows
  simp

/-- What gains a word gains its tokens. -/
theorem Gains.tokensAmong_eq (gains : Gains word given more) :
    tokensAmong more = tokensAmong given ++ word.tokens := by
  obtain ⟨count, rfl⟩ := gains
  simp

namespace Reading

variable {surroundings : Surroundings}

/-- A reading keeps its tokens when it passes on. -/
theorem Passes.tokens {before after : Reading} (passes : Passes surroundings word before after)
    (fits : before.Fits) : after.tokens = before.tokens := by
  simpa using (passes.sites fits).tokensAmong_eq

/-- A construct that begins another one with a word has its own tokens. -/
theorem Reacts.tokens_of_begins {reading : Reading} {frames : List Frame} {frame : Frame}
    {opening : Opening} (reacts : Reacts surroundings word reading frames (.begins frame opening))
    (fits : reading.Fits) :
    reading.tokens = frames.reverse.flatMap Frame.tokens ++ frame.tokens := by
  obtain ⟨given, grows, kept⟩ := reacts.keeps fits
  simpa [tokensAmong_flatMap] using
    (grows.trans (Grows.append_left _ kept)).tokensAmong_eq.symm

end Reading

/-- Trivia ends no stream. -/
theorem isEnd_eq_false_of_isTrivia {token : Token} (trivia : token.isTrivia) :
    token.isEnd = false := by
  obtain ⟨kind, _⟩ := token
  cases kind <;> first | rfl | cases trivia

namespace FileReading

/-- The tokens of a file of which a part has been read. -/
def tokens (file : FileReading) : List Token :=
  file.children.flatMap Tree.tokens ++ file.current.toList.flatMap Reading.tokens

/-- The sites of a file have its tokens, and gaps besides. -/
@[simp] theorem tokensAmong_sites (file : FileReading) :
    tokensAmong file.sites = file.tokens := by
  simp [sites, tokens, tokensAmong_flatMap]

/-- Reading a word adds its tokens to a file. -/
theorem IsSound.read (grammar : Grammar) {file : FileReading} (sound : file.IsSound)
    (word : Word) :
    (file.read grammar word).IsSound ∧
      (file.read grammar word).tokens = file.tokens ++ word.tokens := by
  obtain ⟨soundAfter, gains⟩ := sound.sites_read grammar word
  refine ⟨soundAfter, ?_⟩
  simpa using gains.tokensAmong_eq

/-- All words of a file together add their tokens. -/
theorem IsSound.foldl_read (grammar : Grammar) (words : List Word) {file : FileReading}
    (sound : file.IsSound) :
    (words.foldl (FileReading.read grammar) file).IsSound ∧
      (words.foldl (FileReading.read grammar) file).tokens
        = file.tokens ++ words.flatMap Word.tokens := by
  induction words generalizing file with
  | nil => exact ⟨sound, by simp⟩
  | cons word words ih =>
    obtain ⟨soundAfter, grown⟩ := sound.read grammar word
    obtain ⟨soundLast, grownLast⟩ := ih soundAfter
    refine ⟨soundLast, ?_⟩
    rw [List.foldl_cons, grownLast, grown, List.flatMap_cons, List.append_assoc]

/-- An expression that is finished at the end of a file leaves its tokens to the file. -/
theorem IsSound.tokens_finish (grammar : Grammar) {file : FileReading} (sound : file.IsSound)
    {ending : Word} (ends : ending.token.isEnd) :
    (file.finish grammar ending).flatMap Tree.tokens = file.tokens := by
  simpa [tokensAmong_flatMap] using (sound.sites_finish grammar ends).tokensAmong_eq

end FileReading

namespace WordStream

/-- No trivia end a file. -/
theorem filter_of_trivia {lead : List Token} (trivia : ∀ token ∈ lead, token.isTrivia) :
    lead.filter (fun token => !token.isEnd) = lead :=
  List.filter_eq_self.mpr fun token present => by
    simp [isEnd_eq_false_of_isTrivia (trivia token present)]

/-- No trivia are an end token. -/
theorem any_isEnd_of_trivia {lead : List Token} (trivia : ∀ token ∈ lead, token.isTrivia) :
    lead.any Token.isEnd = false :=
  List.any_eq_false.mpr fun token present => by
    simp [isEnd_eq_false_of_isTrivia (trivia token present)]

/-- Trivia are put in front of the next word. -/
theorem after_of_isTrivia {token : Token} (trivia : token.isTrivia) (lead tokens : List Token) :
    after lead (token :: tokens) = after (lead ++ [token]) tokens := by
  rw [after, if_pos trivia]

/-- An end token ends the words. -/
theorem after_of_isEnd {token : Token} (ends : token.isEnd) (lead tokens : List Token) :
    after lead (token :: tokens) = ⟨[], some (⟨lead, token⟩, tokens)⟩ := by
  have plain : token.isTrivia = false := by
    rw [← Bool.not_eq_true]
    intro trivia
    rw [isEnd_eq_false_of_isTrivia trivia] at ends
    cases ends
  rw [after, if_neg (by simp [plain]), if_pos ends]

/-- A token that is no trivia makes a word with the trivia in front of it. -/
theorem after_of_plain {token : Token} (plain : token.isTrivia = false)
    (inner : token.isEnd = false)
    (lead tokens : List Token) :
    after lead (token :: tokens)
      = ⟨⟨lead, token⟩ :: (after [] tokens).words, (after [] tokens).ending⟩ := by
  rw [after, if_neg (by simp [plain]), if_neg (by simp [inner])]

/-- A stream covers a token list: it has an ending if one of the tokens is an end token, and the
words with the trivia in front of the ending are then all tokens up to the first end token. -/
def Covers (stream : WordStream) (tokens : List Token) : Prop :=
  match stream.ending with
  | some (ending, beyond) =>
    tokens.any Token.isEnd = true ∧ ending.token.isEnd = true ∧
      tokens.filter (fun token => !token.isEnd)
        = stream.words.flatMap Word.tokens ++ ending.lead
            ++ beyond.filter fun token => !token.isEnd
  | none => tokens.any Token.isEnd = false

/-- A stream with one more word in front covers the tokens with those of the word in front. -/
theorem covers_cons {stream : WordStream} {tokens lead : List Token}
    (trivia : ∀ token ∈ lead, token.isTrivia) {token : Token} (inner : token.isEnd = false)
    (covers : stream.Covers tokens) :
    Covers ⟨⟨lead, token⟩ :: stream.words, stream.ending⟩ (lead ++ token :: tokens) := by
  have anyLead := any_isEnd_of_trivia trivia
  unfold Covers at covers ⊢
  dsimp only
  split
  · next ending beyond found =>
    rw [found] at covers
    obtain ⟨present, ends, kept⟩ := covers
    refine ⟨by simp [present], ends, ?_⟩
    rw [List.filter_append, filter_of_trivia trivia, List.filter_cons_of_pos (by simp [inner]),
      kept]
    simp [Word.tokens]
  · next found =>
    rw [found] at covers
    simp [anyLead, inner, covers]

/-- The words behind some trivia cover the trivia and the tokens. -/
theorem covers_after (tokens : List Token) {lead : List Token}
    (trivia : ∀ token ∈ lead, token.isTrivia) : (after lead tokens).Covers (lead ++ tokens) := by
  induction tokens generalizing lead with
  | nil => simp [after, Covers, any_isEnd_of_trivia trivia]
  | cons token tokens ih =>
    cases blank : token.isTrivia with
    | true =>
      have moved := ih (List.forall_mem_append.mpr ⟨trivia, List.forall_mem_singleton.mpr blank⟩)
      rwa [after_of_isTrivia blank, List.append_cons lead token tokens]
    | false =>
      cases ends : token.isEnd with
      | true => simp [after_of_isEnd ends, Covers, ends, filter_of_trivia trivia]
      | false =>
        rw [after_of_plain blank ends]
        exact covers_cons trivia ends (ih fun _ none => (List.not_mem_nil none).elim)

/-- The words and the ending of a token list cover it. -/
theorem covers_ofTokens (tokens : List Token) : (ofTokens tokens).Covers tokens :=
  covers_after tokens fun _ none => (List.not_mem_nil none).elim

end WordStream

/-- A list that can be read has an end token, and the tokens of its tree are all others. -/
theorem tokens_of_parseTokens {grammar : Grammar} {tokens : List Token} {tree : SyntaxTree}
    (parsed : parseTokens grammar tokens = .ok tree) :
    tokens.any Token.isEnd = true ∧ tree.tokens = tokens.filter fun token => !token.isEnd := by
  obtain ⟨ending, beyond, found, rfl⟩ := exists_eq_tree_of_parseTokens parsed
  have covers := WordStream.covers_ofTokens tokens
  unfold WordStream.Covers at covers
  rw [found] at covers
  obtain ⟨present, ends, kept⟩ := covers
  refine ⟨present, ?_⟩
  obtain ⟨sound, grown⟩ :=
    FileReading.isSound_empty.foldl_read grammar (WordStream.ofTokens tokens).words
  have finished := (sound.tokens_finish grammar ends).trans grown
  have trailing : ∀ trailing : List Token, (trailing.map leaf).flatMap Tree.tokens = trailing := by
    intro trailing
    simp [List.flatMap_map]
  rw [kept, FileReading.tree, tokens_ofKind, List.flatMap_append, List.flatMap_append, trailing,
    Word.flatMap_tokens_leadLeaves, finished]
  simp [FileReading.tokens, FileReading.empty]

/-- A list that cannot be read has no end token. -/
theorem any_isEnd_of_parseTokens_eq_error {grammar : Grammar} {tokens : List Token}
    {failure : UnendedStream} (failed : parseTokens grammar tokens = .error failure) :
    tokens.any Token.isEnd = false ∧ failure.length = tokens.length := by
  have covers := WordStream.covers_ofTokens tokens
  unfold parseTokens at failed
  dsimp only at failed
  split at failed
  · cases failed
  · next found =>
    cases failed
    unfold WordStream.Covers at covers
    rw [found] at covers
    exact ⟨covers, rfl⟩

namespace SyntaxTree

/-- The leaves of a list of trees are those of their tokens if this is so for each tree. -/
theorem flatMap_leaves_eq_map_leaf {trees : List SyntaxTree}
    (each : ∀ tree ∈ trees, tree.leaves = tree.tokens.map leaf) :
    trees.flatMap Tree.leaves = (trees.flatMap Tree.tokens).map leaf := by
  rw [List.map_flatMap]
  exact List.flatMap_congr each

theorem leaves_leaf (token : Token) : (leaf token).leaves = [leaf token] := by
  have single : (leaf token).walk = [leaf token] := rfl
  rw [Tree.leaves, single, List.filter_cons_of_pos (isLeaf_leaf token), List.filter_nil]

/-- The leaves of a tree that fits the schema are those of its tokens. -/
theorem leaves_eq_map_leaf {tree : SyntaxTree} (fits : tree.Everywhere Fits) :
    tree.leaves = tree.tokens.map leaf := by
  induction tree using Tree.induct with
  | node label content children ih =>
    have inside := flatMap_leaves_eq_map_leaf fun child present =>
      ih child present (fits.child present)
    cases fits.root with
    | leaf token => exact leaves_leaf token
    | @atom kind token held =>
      have inner : kind.isLeaf = false := (isOperand_atom held).inner
      change Tree.leaves (.node () ⟨kind, none, none, none⟩ [leaf token]) = _
      rw [Tree.leaves_node _ _ _ inner, inside]
      rfl
    | construct bare takes =>
      have inner := NodeKind.isLeaf_eq_false_of_takes takes
      rw [Tree.leaves_node _ _ _ inner, Tree.tokens_node, bare, inside]
      rfl

/-- The text of a list of trees is the texts of the trees one after the other. -/
theorem toList_textOfAll (trees : List SyntaxTree) :
    (Tree.textOfAll trees).toList = trees.flatMap fun tree => tree.text.toList := by
  induction trees with
  | nil => rfl
  | cons tree trees ih => rw [Tree.textOfAll, String.toList_append, ih, List.flatMap_cons]

/-- The text of a tree that fits the schema is the texts of its tokens. -/
theorem toList_text {tree : SyntaxTree} (fits : tree.Everywhere Fits) :
    tree.text.toList = tree.tokens.flatMap fun token => token.text.toList := by
  induction tree using Tree.induct with
  | node label content children ih =>
    have inside : (Tree.textOfAll children).toList
        = (children.flatMap Tree.tokens).flatMap fun token => token.text.toList := by
      rw [toList_textOfAll, List.flatMap_assoc]
      exact List.flatMap_congr fun child present => ih child present (fits.child present)
    cases fits.root with
    | leaf token => simp [Tree.text, Tree.tokens_node]
    | atom held => exact inside
    | construct bare takes =>
      rw [Tree.text, Tree.tokens_node, bare]
      exact inside

end SyntaxTree

/-- Only the end of a text is read as its end. -/
theorem Lexeme.kind_readFrom_ne_endOfFile (character : Char) (rest : List Char) :
    (readFrom character rest).1.kind ≠ .endOfFile := by
  unfold readFrom
  split
  · exact TokenKind.noConfusion
  split
  · exact TokenKind.noConfusion
  split
  · split <;> exact TokenKind.noConfusion
  split
  · exact TokenKind.noConfusion
  split
  · exact TokenKind.noConfusion
  split
  · exact TokenKind.noConfusion
  split
  · dsimp only
    split <;> exact TokenKind.noConfusion
  split
  · unfold readSlot
    split <;> exact TokenKind.noConfusion
  split <;> exact TokenKind.noConfusion

/-- The tokens of a text without its end spell the text as well. -/
theorem flatMap_text_filter_tokensFrom (position : Position) (characters : List Char) :
    ((tokensFrom position characters).filter fun token => !token.isEnd).flatMap
      (fun token => token.text.toList) = characters := by
  fun_induction tokensFrom position characters with
  | case1 position => rfl
  | case2 position character rest lexeme ih =>
    have plain : (lexeme.token position).isEnd = false :=
      beq_false_of_ne (Lexeme.kind_readFrom_ne_endOfFile character rest)
    rw [List.filter_cons_of_pos (by rw [plain]; rfl), List.flatMap_cons, ih, Lexeme.token,
      String.toList_ofList]
    exact Lexeme.readFrom_append character rest

/-- The tree of a text is what its tokens are read as. -/
theorem parseTokens_tokenize (grammar : Grammar) (source : String) :
    parseTokens grammar (tokenize source) = .ok (parseSource grammar source) := by
  unfold parseSource
  split
  · next tree parsed => exact parsed
  · next failure failed =>
    obtain ⟨final, present, ends⟩ := exists_end_mem_tokensFrom Position.start source.toList
    obtain ⟨tree, parsed⟩ := exists_parseTokens_eq_ok grammar present ends
    rw [tokenize, parsed] at failed
    cases failed

/-- A list that can be read has an end token, and the leaves of its tree are all others. -/
theorem leaves_of_parseTokens {grammar : Grammar} {tokens : List Token} {tree : SyntaxTree}
    (parsed : parseTokens grammar tokens = .ok tree) :
    tree.leaves = (tokens.filter fun token => !token.isEnd).map leaf := by
  obtain ⟨children, rfl, fits⟩ := everywhere_fits_of_parseTokens parsed
  rw [← (tokens_of_parseTokens parsed).2, tokens_ofKind]
  exact (Tree.leaves_node _ _ _ rfl).trans
    (flatMap_leaves_eq_map_leaf fun child present => leaves_eq_map_leaf (fits child present))

/-- The text of a file is the texts of its tokens. -/
theorem toList_text_of_parseTokens {grammar : Grammar} {tokens : List Token} {tree : SyntaxTree}
    (parsed : parseTokens grammar tokens = .ok tree) :
    tree.text.toList
      = (tokens.filter fun token => !token.isEnd).flatMap fun token => token.text.toList := by
  obtain ⟨children, rfl, fits⟩ := everywhere_fits_of_parseTokens parsed
  rw [← (tokens_of_parseTokens parsed).2, tokens_ofKind, List.flatMap_assoc]
  exact (toList_textOfAll children).trans
    (List.flatMap_congr fun child present => toList_text (fits child present))

/-- A token list without an end token cannot be read, and every other one is read as a file whose
leaves are its tokens without the end tokens, in order. The file of a text has that text. -/
theorem parseTokens_lossless (grammar : Grammar) (tokens : List Token) :
    (match parseTokens grammar tokens with
      | .error failure => tokens.any Token.isEnd = false ∧ failure.length = tokens.length
      | .ok tree =>
        tokens.any Token.isEnd = true ∧ tree.kind = .file ∧
          tree.leaves = (tokens.filter fun token => !token.isEnd).map leaf ∧
          tree.tokens = tokens.filter fun token => !token.isEnd) ∧
      ∀ source : String, (parseSource grammar source).text = source := by
  constructor
  · split
    · next failure failed => exact any_isEnd_of_parseTokens_eq_error failed
    · next tree parsed =>
      obtain ⟨present, kept⟩ := tokens_of_parseTokens parsed
      obtain ⟨children, rfl, _⟩ := everywhere_fits_of_parseTokens parsed
      exact ⟨present, rfl, leaves_of_parseTokens parsed, kept⟩
  · intro source
    apply String.toList_injective
    rw [toList_text_of_parseTokens (parseTokens_tokenize grammar source)]
    exact flatMap_text_filter_tokensFrom Position.start source.toList

end WolframSyntax
