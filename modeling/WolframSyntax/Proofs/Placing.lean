import Mathlib.Data.Prod.Lex
import WolframSyntax.Proofs.Licensing
import WolframSyntax.Proofs.Tightness

/-!
# Where missing things are reported

An error or an empty expression that covers no token is reported at the word in view, and the token
of that word is the next one that is no trivia (`Gains.placed`). As constructs are tight, all nodes
below a file are placed at the first token that is no trivia in them or behind them, and therefore
in the order of the text (`placed_of_parseSource`).
-/

namespace WolframSyntax

open SyntaxTree

/-! ## Places -/

variable {word : Word} {given more : List Site}

/-- The first token at some sites that is no trivia, or else the one behind them. -/
def nextToken (next : Token) (sites : List Site) : Token :=
  ((tokensAmong sites).find? fun token => !token.isTrivia).getD next

/-- Everything that is missing among some sites is reported at the token behind it. -/
def Placed (next : Token) : List Site → Prop
  | [] => True
  | .token _ :: sites => Placed next sites
  | .gap position :: sites => position = (nextToken next sites).position ∧ Placed next sites

theorem nextToken_append (next : Token) (before after : List Site) :
    nextToken next (before ++ after) = nextToken (nextToken next after) before := by
  unfold nextToken
  rw [tokensAmong_append, List.find?_append]
  cases (tokensAmong before).find? fun token => !token.isTrivia <;> rfl

/-- Of two lists of sites the first one is placed in front of the first token of the second. -/
theorem placed_append {next : Token} {before after : List Site} :
    Placed next (before ++ after) ↔ Placed (nextToken next after) before ∧ Placed next after := by
  induction before with
  | nil => exact (and_iff_right trivial).symm
  | cons site before ih =>
    cases site with
    | token held => exact ih
    | gap position =>
      rw [List.cons_append, Placed, Placed, ih, nextToken_append, and_assoc]

theorem placed_map_token (next : Token) (tokens : List Token) :
    Placed next (tokens.map .token) := by
  induction tokens with
  | nil => trivial
  | cons token tokens ih => exact ih

theorem nextToken_replicate (next : Token) (count : Nat) (position : Position) :
    nextToken next (List.replicate count (.gap position)) = next := by
  simp [nextToken]

/-- What is missing in front of a token is placed at it. -/
theorem placed_replicate (next : Token) (count : Nat) :
    Placed next (List.replicate count (.gap next.position)) := by
  induction count with
  | zero => trivial
  | succ count ih => exact ⟨by rw [nextToken_replicate], ih⟩

/-- Trivia are passed over. -/
theorem nextToken_of_isTrivia (next : Token) {tokens : List Token}
    (trivia : ∀ token ∈ tokens, token.isTrivia) : nextToken next (tokens.map .token) = next := by
  have none : tokens.find? (fun token => !token.isTrivia) = none :=
    List.find?_eq_none.mpr fun token among => by simp [trivia token among]
  rw [nextToken, tokensAmong_map_token, none]
  rfl

/-- A word is the next token in front of it. -/
theorem Word.nextToken_sites (tidy : word.IsTidy) (plain : word.token.isTrivia = false)
    (next : Token) : nextToken next word.sites = word.token := by
  have own : nextToken next [.token word.token] = word.token :=
    congrArg (Option.getD · next) (List.find?_cons_of_pos (by simp [plain]))
  rw [Word.sites, nextToken_append, own, nextToken_of_isTrivia _ tidy]

/-- What is reported missing in front of a word is placed at it. -/
theorem Grows.placed (grows : Grows word given more)
    (placed : Placed word.token given) : Placed word.token more := by
  obtain ⟨count, rfl⟩ := grows
  rw [placed_append, nextToken_replicate]
  exact ⟨placed, placed_replicate _ _⟩

/-- Where everything is reported at the token behind it, this stays so when a word is read. -/
theorem Gains.placed (gains : Gains word given more) (tidy : word.IsTidy)
    (plain : word.token.isTrivia = false) (placed : ∀ next, Placed next given) (next : Token) :
    Placed next more := by
  obtain ⟨count, rfl⟩ := gains
  rw [placed_append, word.nextToken_sites tidy plain]
  refine ⟨Grows.placed ⟨count, rfl⟩ (placed word.token), ?_⟩
  rw [Word.sites, placed_append]
  exact ⟨placed_map_token _ _, trivial⟩

/-- All words of a file together keep what is missing reported at the token behind it. -/
theorem FileReading.placed_foldl_read (grammar : Grammar) {words : List Word}
    (tidy : ∀ word ∈ words, word.IsTidy) (plain : ∀ word ∈ words, word.token.isTrivia = false)
    {file : FileReading} (sound : file.IsSound) (placed : ∀ next, Placed next file.sites) :
    ∀ next, Placed next (words.foldl (read grammar) file).sites := by
  induction words generalizing file with
  | nil => exact placed
  | cons word words ih =>
    obtain ⟨firstTidy, laterTidy⟩ := List.forall_mem_cons.mp tidy
    obtain ⟨firstPlain, laterPlain⟩ := List.forall_mem_cons.mp plain
    obtain ⟨soundAfter, gains⟩ := sound.sites_read grammar word
    exact ih laterTidy laterPlain soundAfter (gains.placed firstTidy firstPlain placed)

/-- In the file of a token list that ends with its end token, everything that is missing is reported
at the token behind it. -/
theorem placed_of_parseTokens {grammar : Grammar} {body : List Token} {final : Token}
    (unended : body.any Token.isEnd = false) (ends : final.isEnd) {tree : SyntaxTree}
    (parsed : parseTokens grammar (body ++ [final]) = .ok tree) : Placed final tree.sites := by
  rw [FileReading.parseTokens_append_eq_ok_iff unended, FileReading.readToEnd?_of_isEnd ends]
    at parsed
  cases parsed
  obtain ⟨tidy, -⟩ := WordStream.isTidy_after (List.forall_mem_nil _) body
  obtain ⟨plain, -⟩ := WordStream.plain_after [] body
  have sound := FileReading.isSound_afterTokens grammar body
  have placed := FileReading.placed_foldl_read grammar tidy plain FileReading.isSound_empty
    (fun _ => trivial)
  have trivia := WordStream.isTrivia_of_mem_pending (List.forall_mem_nil _) body
  have grows : Grows ⟨WordStream.pending [] body, final⟩ _ _ := sound.sites_finish grammar ends
  rw [sites_ofKind, FileReading.childrenAtEnd, List.flatMap_append]
  have lead : ((Word.mk (WordStream.pending [] body) final).leadLeaves
      ++ (([] : List Token).filter fun token => !token.isEnd).map leaf).flatMap SyntaxTree.sites
        = (WordStream.pending [] body).map .token := by
    rw [List.filter_nil, List.map_nil, List.append_nil]
    exact flatMap_sites_map_leaf _
  rw [lead, placed_append, nextToken_of_isTrivia _ trivia]
  exact ⟨grows.placed (placed final), placed_map_token _ _⟩

/-! ## Nodes in the order of the text -/

/-- The tokens that some nodes hold are those of the leaves among them. -/
theorem map_leaf_tokensAmong {nodes : List SyntaxTree}
    (fits : ∀ node ∈ nodes, node.Fits) :
    (tokensAmong (nodes.flatMap fun node => node.content.sites)).map leaf
      = nodes.filter Tree.isLeaf := by
  induction nodes with
  | nil => rfl
  | cons node nodes ih =>
    obtain ⟨first, later⟩ := List.forall_mem_cons.mp fits
    rw [List.flatMap_cons, tokensAmong_append, List.map_append, ih later]
    have own : (tokensAmong node.content.sites).map leaf = [node].filter Tree.isLeaf := by
      cases first with
      | leaf token =>
        rw [List.filter_cons_of_pos (isLeaf_leaf token)]
        rfl
      | atom held =>
        rw [List.filter_cons_of_neg (by rw [(isOperand_atom held).inner]; exact Bool.false_ne_true)]
        rfl
      | @construct content children bare takes =>
        have inner : Tree.isLeaf (.node () content children) = false :=
          NodeKind.isLeaf_eq_false_of_takes takes
        rw [List.filter_cons_of_neg (by rw [inner]; exact Bool.false_ne_true), Tree.content,
          Content.sites, bare]
        cases content.position <;> rfl
    rw [own, ← List.filter_append]
    rfl

/-- A construct below a file is placed at the first token that is no trivia in it or behind it. -/
theorem position_eq_of_parseSource {grammar : Grammar} {source : String}
    {before after : List SyntaxTree} {node : SyntaxTree}
    (split : (parseSource grammar source).walk = before ++ node :: after) (inside : before ≠ [])
    (inner : node.isLeaf = false) :
    ∃ front behind final, tokenize source = front ++ (node.tokens ++ behind) ++ [final] ∧
      final.isEnd ∧ (node :: after).filter Tree.isLeaf = (node.tokens ++ behind).map leaf ∧
      node.position
        = (((node.tokens ++ behind).find? fun token => !token.isTrivia).getD final).position := by
  have below {later : SyntaxTree} (among : later ∈ node :: after) :=
    tight_of_mem_tail (Tree.mem_tail_of_split split inside among)
  obtain ⟨fits, tight⟩ := below List.mem_cons_self
  obtain ⟨front, behind, final, tokens, unended, ends, -, around⟩ := exists_tokens_around split fits
  refine ⟨front, behind, final, tokens, ends, around, ?_⟩
  rcases tight inner with ⟨kind, message, next, missing, rfl⟩ | ⟨⟨first, held, plain⟩, -⟩
  · have parsed := parseTokens_tokenize grammar source
    rw [tokens] at parsed
    have placed := placed_of_parseTokens unended ends parsed
    have gap : (absent kind message next :: after).flatMap (fun node => node.content.sites)
        = .gap next.position :: after.flatMap fun node => node.content.sites := rfl
    rw [sites, split, List.flatMap_append, gap, placed_append] at placed
    obtain ⟨-, position, -⟩ := placed
    have later : tokensAmong (after.flatMap fun node => node.content.sites) = behind := by
      refine List.map_injective_iff.mpr leaf_injective ?_
      rw [map_leaf_tokensAmong fun later among =>
        (below (List.mem_cons_of_mem _ among)).1.root]
      rwa [List.filter_cons_of_neg (by simp [inner]), tokens_absent, List.nil_append] at around
    rwa [nextToken, later] at position
  · obtain ⟨rest, nodeTokens⟩ := List.head?_eq_some_iff.mp held
    rw [Tree.position, firstToken_eq_find? fits inner, nodeTokens, List.cons_append,
      List.find?_cons_of_pos (by simp [plain]), List.find?_cons_of_pos (by simp [plain])]
    rfl

namespace Position

/-- Places are ordered by line and then by column. -/
def lexicographic (position : Position) : Int ×ₗ Int := toLex (position.line, position.col)

/-- No position is behind the one that follows it in the text. -/
theorem lexicographic_le_advance (position : Position) (characters : List Char) :
    position.lexicographic ≤ (position.advance characters).lexicographic := by
  induction characters generalizing position with
  | nil => exact le_refl _
  | cons character characters ih =>
    refine le_trans ?_ (ih (position.after character))
    rw [lexicographic, lexicographic, Prod.Lex.toLex_le_toLex]
    unfold after
    split
    · exact .inl (Int.lt_succ position.line)
    · exact .inr ⟨rfl, Int.le_of_lt (Int.lt_succ position.col)⟩

end Position

/-- The tokens of a text stand in the order of their places. -/
theorem lexicographic_le_of_tokenize {source : String} {front between rest : List Token}
    {first second : Token}
    (split : tokenize source = front ++ first :: (between ++ second :: rest)) :
    first.position.lexicographic ≤ second.position.lexicographic := by
  have again : tokenize source = (front ++ first :: between) ++ second :: rest := by
    rw [split, List.append_assoc, List.cons_append]
  rw [position_eq_advance split, position_eq_advance again, spelling, spelling,
    List.flatMap_append, Position.advance_append]
  exact Position.lexicographic_le_advance _ _

/-- A construct below a file is not placed behind one that comes after it. -/
theorem position_le_of_parseSource {grammar : Grammar} {source : String}
    {before between after : List SyntaxTree} {node other : SyntaxTree}
    (split : (parseSource grammar source).walk = before ++ node :: (between ++ other :: after))
    (inside : before ≠ []) (inner : node.isLeaf = false) (otherInner : other.isLeaf = false) :
    node.position.lexicographic ≤ other.position.lexicographic := by
  have otherSplit : (parseSource grammar source).walk
      = (before ++ node :: between) ++ other :: after := by
    rw [split, List.append_assoc, List.cons_append]
  obtain ⟨front, behind, final, tokens, -, around, position⟩ :=
    position_eq_of_parseSource split inside inner
  obtain ⟨_, otherBehind, otherFinal, otherTokens, -, otherAround, otherPosition⟩ :=
    position_eq_of_parseSource otherSplit (by simp) otherInner
  obtain rfl : final = otherFinal :=
    List.singleton_inj.mp (List.append_inj' (tokens.symm.trans otherTokens) rfl).2
  -- The tokens in and behind the second node are the last ones of those of the first.
  rw [← List.cons_append, List.filter_append, otherAround] at around
  obtain ⟨earlier, later, parts, -, same⟩ := List.map_eq_append_iff.mp around.symm
  obtain rfl := List.map_injective_iff.mpr leaf_injective same
  rw [position, otherPosition, parts, List.find?_append]
  cases found : earlier.find? fun token => !token.isTrivia with
  | none => exact le_refl _
  | some first =>
    rw [parts] at tokens
    generalize other.tokens ++ otherBehind = later at tokens
    have among : (later.find? fun token => !token.isTrivia).getD final ∈ later ++ [final] := by
      cases held : later.find? fun token => !token.isTrivia with
      | none => exact List.mem_append_right _ List.mem_cons_self
      | some second => exact List.mem_append_left _ (List.mem_of_find?_eq_some held)
    generalize (later.find? fun token => !token.isTrivia).getD final = second at among
    obtain ⟨start, middle, rfl⟩ := List.append_of_mem (List.mem_of_find?_eq_some found)
    obtain ⟨next, rest, held⟩ := List.append_of_mem among
    have whole : tokenize source
        = (front ++ start) ++ first :: ((middle ++ next) ++ second :: rest) := by
      rw [tokens, List.append_assoc, List.append_assoc, held]
      simp
    exact lexicographic_le_of_tokenize whole

/-- The tokens of a source stand in the order of their positions. -/
theorem pairwise_position_of_parseSource {grammar : Grammar} {source : String}
    {before after : List SyntaxTree} (split : (parseSource grammar source).walk = before ++ after)
    (inside : before ≠ []) :
    (after.filter fun node => !node.isLeaf).Pairwise fun node other =>
      node.position.lexicographic ≤ other.position.lexicographic := by
  induction after generalizing before with
  | nil => exact .nil
  | cons node after ih =>
    have later := ih (List.append_cons before node after ▸ split) (by simp)
    cases inner : node.isLeaf with
    | true => rwa [List.filter_cons_of_neg (by simp [inner])]
    | false =>
      rw [List.filter_cons_of_pos (by simp [inner])]
      refine List.pairwise_cons.mpr ⟨fun other among => ?_, later⟩
      obtain ⟨held, otherInner⟩ := List.mem_filter.mp among
      obtain ⟨between, rest, rfl⟩ := List.append_of_mem held
      exact position_le_of_parseSource split inside inner (by simpa using otherInner)

/-- The first leaf that is no trivia is that of the first such token. -/
theorem find?_token_of_filter_isLeaf {nodes : List SyntaxTree} {tokens : List Token}
    (leaves : nodes.filter Tree.isLeaf = tokens.map leaf) :
    (nodes.find? fun node => node.kind == .token).map Tree.position
      = (tokens.find? fun token => !token.isTrivia).map Token.position := by
  have isLeaf : nodes.find? (fun node => node.kind == .token)
      = (nodes.filter Tree.isLeaf).find? fun node => node.kind == .token := by
    rw [List.find?_filter]
    congr 1
    funext node
    cases held : node.kind == .token with
    | false => simp
    | true => simp [Tree.isLeaf, eq_of_beq held, NodeKind.isLeaf]
  have plain (token : Token) : ((leaf token).kind == .token) = !token.isTrivia := by
    cases blank : token.isTrivia <;> simp [leaf, blank, Tree.kind, Tree.content]
  rw [isLeaf, leaves, List.find?_map, Option.map_map]
  simp only [Function.comp_def, plain]
  rfl

/-- A node below a file that covers no token is an error or an empty expression, and it is placed at
the first token behind it that is no trivia, or else at the end of the text. The constructs below a
file are placed in the order in which they are walked through, and so are its errors. -/
theorem placed_of_parseSource (grammar : Grammar) (source : String) :
    let tree := parseSource grammar source
    (∃ body final, tokenize source = body ++ [final] ∧ final.kind = .endOfFile ∧
      ∀ before node after, tree.walk = before ++ node :: after → before ≠ [] →
        node.isLeaf = false → node.tokens = [] →
          (node.kind = .error ∨ node.kind = .null) ∧
          node.position
            = ((after.find? fun later => later.kind == .token).map Tree.position).getD
                final.position) ∧
    ((tree.walk.tail.filter fun node => !node.isLeaf).map fun node =>
      node.position.lexicographic).Pairwise (· ≤ ·) ∧
    (tree.errors.map fun error => error.position.lexicographic).Pairwise (· ≤ ·) := by
  intro tree
  have walk : tree.walk = [tree] ++ tree.children.flatMap Tree.walk := tree.walk_eq
  have ordered := pairwise_position_of_parseSource walk (List.cons_ne_nil _ _)
  refine ⟨?_, ?_, ?_⟩
  · obtain ⟨body, final, tokens, -, ends⟩ := exists_tokensFrom_eq .start source.toList
    refine ⟨body, final, tokens, eq_of_beq ends, ?_⟩
    intro before node after split inside inner bare
    obtain ⟨fits, tight⟩ :=
      tight_of_mem_tail (Tree.mem_tail_of_split split inside List.mem_cons_self)
    obtain ⟨_, behind, same, nodeTokens, -, around, position⟩ :=
      position_eq_of_parseSource split inside inner
    obtain rfl : final = same :=
      List.singleton_inj.mp (List.append_inj' (tokens.symm.trans nodeTokens) rfl).2
    constructor
    · rcases tight inner with ⟨kind, message, next, missing, rfl⟩ | ⟨⟨first, held, -⟩, -⟩
      · exact missing
      · rw [bare] at held
        cases held
    · rw [List.filter_cons_of_neg (by simp [inner]), bare, List.nil_append] at around
      rw [position, bare, List.nil_append, find?_token_of_filter_isLeaf around]
      cases behind.find? fun token => !token.isTrivia <;> rfl
  · rw [List.pairwise_map, walk]
    exact ordered
  · obtain ⟨children, file, -⟩ :=
      everywhere_fits_of_parseTokens (parseTokens_tokenize grammar source)
    have isFile : tree.kind = .file := congrArg Tree.kind file
    have errors : tree.errors
        = ((tree.children.flatMap Tree.walk).filter fun node => !node.isLeaf).filter
            fun node => node.kind == .error := by
      rw [Tree.errors, walk, List.singleton_append, List.filter_cons_of_neg (by simp [isFile]),
        List.filter_filter]
      refine List.filter_congr fun node _ => ?_
      cases held : node.kind == .error with
      | false => simp
      | true => simp [Tree.isLeaf, eq_of_beq held, NodeKind.isLeaf]
    rw [List.pairwise_map, errors]
    exact ordered.filter _

/-- Two errors in front of a semicolon, and one at the end of the text. -/
example : (parseSource .standard "f[x,;\n  (1;").errors.map
    (fun error => (error.position.line, error.position.col)) = [(1, 5), (1, 5), (2, 6)] := by
  decide +kernel

end WolframSyntax
