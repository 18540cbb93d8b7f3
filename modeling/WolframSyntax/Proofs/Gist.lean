import WolframSyntax.Proofs.Precedence
import WolframSyntax.Tree.FullForm

/-!
# The gist of a tree

What is left of a tree without its trivia and without the places of its tokens and gaps. The full
form of a tree that fits the schema, and the messages of its errors, are those of its gist
(`fullForm?_gist`, `messages_gist`), so two texts that are read to the same gist mean the same.
-/

namespace WolframSyntax

/-- The token without its place. -/
def Token.unplaced (token : Token) : Token := { token with line := 0, col := 0 }

namespace Token

variable {token other : Token}

theorem kind_congr (same : token.unplaced = other.unplaced) : token.kind = other.kind := by
  have kinds := congrArg kind same
  exact kinds

theorem text_congr (same : token.unplaced = other.unplaced) : token.text = other.text := by
  have texts := congrArg text same
  exact texts

end Token

/-- The content of a node without places. -/
def Content.gist (content : Content) : Content :=
  { content with
    token := content.token.map Token.unplaced
    position := content.position.map fun _ => ⟨0, 0⟩ }

namespace Tree

variable {Label : Type}

mutual

/-- The tree without places and without the trivia below its root. -/
def gist : Tree Label → Tree Label
  | node label content children => node label content.gist (gistAll children)

/-- The trees of a list without places and without trivia. -/
def gistAll : List (Tree Label) → List (Tree Label)
  | [] => []
  | tree :: trees =>
    if tree.kind = .whitespace then gistAll trees else tree.gist :: gistAll trees

end

/-- The gist of a node has those of its children that are no trivia. -/
theorem gist_node (label : Label) (content : Content) (children : List (Tree Label)) :
    gist (node label content children) = node label content.gist (gistAll children) := by
  rw [gist]

@[simp] theorem kind_gist (tree : Tree Label) : tree.gist.kind = tree.kind := by
  cases tree
  rw [gist_node]
  rfl

@[simp] theorem isLeaf_gist (tree : Tree Label) : tree.gist.isLeaf = tree.isLeaf := by
  rw [isLeaf, kind_gist]
  rfl

@[simp] theorem children_gist (tree : Tree Label) : tree.gist.children = gistAll tree.children := by
  cases tree
  rw [gist_node]
  rfl

/-- The gist of a list is that of its trees that are no trivia. -/
theorem gistAll_eq_map_filter (trees : List (Tree Label)) :
    gistAll trees = (trees.filter fun tree => tree.kind != .whitespace).map gist := by
  induction trees with
  | nil => rfl
  | cons tree trees ih =>
    rw [gistAll, ih]
    by_cases blank : tree.kind = .whitespace
    · simp [blank]
    · simp [blank]

@[simp] theorem gistAll_nil : gistAll ([] : List (Tree Label)) = [] := rfl

@[simp] theorem gistAll_append (left right : List (Tree Label)) :
    gistAll (left ++ right) = gistAll left ++ gistAll right := by
  simp [gistAll_eq_map_filter]

/-- The gist of the first tree comes before that of the others. -/
theorem gistAll_cons (tree : Tree Label) (trees : List (Tree Label)) :
    gistAll (tree :: trees) = gistAll [tree] ++ gistAll trees := by
  rw [← gistAll_append, List.singleton_append]

/-- Trees with the same gist count the same in every list. -/
theorem gistAll_singleton_congr {left right : Tree Label} (same : left.gist = right.gist) :
    gistAll [left] = gistAll [right] := by
  have kind : left.kind = right.kind := by rw [← kind_gist, same, kind_gist]
  simp only [gistAll, kind, same]

/-- The errors of a node are the node itself, if it is one, and those of its children. -/
theorem errors_node (label : Label) (content : Content) (children : List (Tree Label)) :
    errors (node label content children)
      = (if content.kind = .error then [node label content children] else [])
          ++ children.flatMap errors := by
  have root : (node label content children).kind = content.kind := rfl
  rw [errors, walk_node, List.filter_cons, List.filter_flatMap]
  by_cases failed : content.kind = .error
  · simp only [root, failed, beq_self_eq_true, if_true]
    rfl
  · simp only [root, beq_false_of_ne failed, Bool.false_eq_true, failed, if_false]
    rfl

/-- The messages of the errors of a tree, in document order. -/
def messages (tree : Tree Label) : List (Option String) := tree.errors.map message

/-- The messages of a node are its own, if it is an error, and those of its children. -/
theorem messages_node (label : Label) (content : Content) (children : List (Tree Label)) :
    messages (node label content children)
      = (if content.kind = .error then [content.message] else []) ++ children.flatMap messages := by
  have root : (node label content children).message = content.message := rfl
  rw [messages, errors_node, List.map_append, List.map_flatMap]
  by_cases failed : content.kind = .error
  · simp only [failed, if_pos, List.map_cons, List.map_nil, root]
    rfl
  · simp only [failed, if_false, List.map_nil]
    rfl

/-- A tree is free of errors just in case it has no messages. -/
theorem isClean_iff_messages_eq_nil {tree : Tree Label} : tree.IsClean ↔ tree.messages = [] := by
  rw [isClean_iff_errors_eq_nil, messages, List.map_eq_nil_iff]

/-- The full form of operands does not depend on trivia between them. -/
theorem fullFormOperands_gistAll {trees : List (Tree Label)}
    (each : ∀ tree ∈ trees, tree.gist.fullForm? = tree.fullForm?) :
    fullFormOperands (gistAll trees) = fullFormOperands trees := by
  induction trees with
  | nil => rfl
  | cons tree trees ih =>
    obtain ⟨first, later⟩ := List.forall_mem_cons.mp each
    rw [gistAll, fullFormOperands]
    by_cases blank : tree.kind = .whitespace
    · have leaf : tree.isLeaf := by rw [isLeaf, blank]; rfl
      rw [if_pos blank, if_pos leaf, ih later]
    · rw [if_neg blank, fullFormOperands, isLeaf_gist, first, ih later]

/-- The text of a construct with operands is no part of its full form. -/
theorem compose_eq_of_takes {kind : NodeKind} {count : Nat} (takes : kind.takes count)
    (text other : String) (operands : List (Option String)) :
    compose kind text operands = compose kind other operands := by
  cases kind <;> first | rfl | cases takes

end Tree

/-- The token of an atom is no trivia. -/
theorem NodeKind.isTrivia_of_atomToken? {kind : NodeKind} {token : TokenKind}
    (held : kind.atomToken? = some token) : token.isTrivia = false := by
  cases kind <;> cases held <;> rfl

namespace SyntaxTree

open WolframSyntax.Tree

@[simp] theorem gist_leaf (token : Token) : (leaf token).gist = leaf token.unplaced := by
  rw [leaf, gist_node]
  rfl

@[simp] theorem gist_ofKind (kind : NodeKind) (children : List SyntaxTree) :
    (ofKind kind children).gist = ofKind kind (gistAll children) := by
  rw [ofKind, gist_node]
  rfl

@[simp] theorem gist_error (message : String) (children : List SyntaxTree) :
    (error message children).gist = error message (gistAll children) := by
  rw [error, gist_node]
  rfl

@[simp] theorem gist_absent (kind : NodeKind) (message : Option String) (next : Token) :
    (absent kind message next).gist = absent kind message next.unplaced := by
  rw [absent, gist_node]
  rfl

/-- A token that is trivia has no gist. -/
@[simp] theorem gistAll_leaf_of_isTrivia {token : Token} (trivia : token.isTrivia) :
    gistAll [leaf token] = [] := by
  simp [gistAll, leaf, Tree.kind, Tree.content, trivia]

/-- A token that is no trivia keeps all but its place. -/
theorem gistAll_leaf {token : Token} (plain : token.isTrivia = false) :
    gistAll [leaf token] = [leaf token.unplaced] := by
  have inner : (leaf token).kind ≠ .whitespace := by
    simp [leaf, Tree.kind, Tree.content, plain]
  rw [gistAll, if_neg inner, gist_leaf]
  rfl

/-- Trivia alone have no gist. -/
theorem gistAll_map_leaf_of_isTrivia {tokens : List Token}
    (trivia : ∀ token ∈ tokens, token.isTrivia) : gistAll (tokens.map leaf) = [] := by
  induction tokens with
  | nil => rfl
  | cons token tokens ih =>
    obtain ⟨first, later⟩ := List.forall_mem_cons.mp trivia
    rw [List.map_cons, gistAll_cons, gistAll_leaf_of_isTrivia first, ih later]
    rfl

/-- The leaves of tokens have the same gist if the tokens differ in their places only. -/
theorem gistAll_map_leaf_congr {tokens others : List Token}
    (same : tokens.map Token.unplaced = others.map Token.unplaced) :
    gistAll (tokens.map leaf) = gistAll (others.map leaf) := by
  induction tokens generalizing others with
  | nil =>
    cases List.map_eq_nil_iff.mp same.symm
    rfl
  | cons token tokens ih =>
    obtain ⟨other, rest, rfl, first, later⟩ := List.map_eq_cons_iff.mp same.symm
    have leaves : gistAll [leaf token] = gistAll [leaf other] :=
      gistAll_singleton_congr (by rw [gist_leaf, gist_leaf, first])
    rw [List.map_cons, List.map_cons, gistAll_cons, gistAll_cons (leaf other), leaves,
      ih later.symm]

/-- The full form of a tree can be told from its gist. -/
theorem fullForm?_gist {tree : SyntaxTree} (fits : tree.Everywhere Fits) :
    tree.gist.fullForm? = tree.fullForm? := by
  induction tree using Tree.induct with
  | node label content children ih =>
    have operands := fullFormOperands_gistAll fun child present =>
      ih child present (fits.child present)
    cases fits.root with
    | leaf token =>
      have plain : ∀ token : Token, (leaf token).fullForm? =
          compose (leaf token).kind token.text [] := fun _ => rfl
      change (leaf token).gist.fullForm? = (leaf token).fullForm?
      rw [gist_leaf, plain, plain]
      rfl
    | @atom kind token held =>
      have plain : token.isTrivia = false := NodeKind.isTrivia_of_atomToken? held
      change (ofKind kind [leaf token]).gist.fullForm? = (ofKind kind [leaf token]).fullForm?
      have none : ∀ token : Token, fullFormOperands [leaf token] = [] := fun token => by
        rw [fullFormOperands, if_pos (isLeaf_leaf token)]
        rfl
      rw [gist_ofKind, gistAll_leaf plain, ofKind, ofKind, fullForm?, fullForm?, none, none]
      rfl
    | construct bare takes =>
      rw [gist_node, fullForm?, fullForm?, operands]
      exact compose_eq_of_takes takes _ _ _

/-- A tree that counts as trivia is a leaf. -/
theorem messages_of_kind_eq_whitespace {tree : SyntaxTree} (fits : tree.Fits)
    (blank : tree.kind = .whitespace) : tree.messages = [] := by
  cases fits with
  | leaf token =>
    rw [leaf, messages_node]
    cases token.isTrivia <;> rfl
  | @atom kind token held =>
    cases show kind = .whitespace from blank
    cases held
  | @construct content children bare takes =>
    rw [show content.kind = .whitespace from blank] at takes
    cases takes

/-- The messages of trees do not depend on trivia between them. -/
theorem flatMap_messages_gistAll {trees : List SyntaxTree}
    (each : ∀ tree ∈ trees, tree.gist.messages = tree.messages)
    (fits : ∀ tree ∈ trees, tree.Fits) :
    (gistAll trees).flatMap messages = trees.flatMap messages := by
  induction trees with
  | nil => rfl
  | cons tree trees ih =>
    obtain ⟨first, later⟩ := List.forall_mem_cons.mp each
    obtain ⟨firstFits, laterFit⟩ := List.forall_mem_cons.mp fits
    rw [gistAll, List.flatMap_cons]
    by_cases blank : tree.kind = .whitespace
    · rw [if_pos blank, ih later laterFit, messages_of_kind_eq_whitespace firstFits blank,
        List.nil_append]
    · rw [if_neg blank, List.flatMap_cons, first, ih later laterFit]

/-- The messages of the errors of a tree can be told from its gist. -/
theorem messages_gist {tree : SyntaxTree} (fits : tree.Everywhere Fits) :
    tree.gist.messages = tree.messages := by
  induction tree using Tree.induct with
  | node label content children ih =>
    have below := flatMap_messages_gistAll
      (fun child present => ih child present (fits.child present))
      (fun child present => (fits.child present).root)
    rw [gist_node, messages_node, messages_node, below]
    rfl

/-- Lists of trees with the same gist have the same full forms and messages. -/
theorem meaning_of_gistAll_eq {left right : List SyntaxTree}
    (leftFits : ∀ tree ∈ left, tree.Everywhere Fits)
    (rightFits : ∀ tree ∈ right, tree.Everywhere Fits) (same : gistAll left = gistAll right) :
    fullFormOperands left = fullFormOperands right ∧
      left.flatMap messages = right.flatMap messages := by
  have forms : ∀ {trees : List SyntaxTree}, (∀ tree ∈ trees, tree.Everywhere Fits) →
      fullFormOperands (gistAll trees) = fullFormOperands trees := fun fits =>
    fullFormOperands_gistAll fun tree present => fullForm?_gist (fits tree present)
  have reports : ∀ {trees : List SyntaxTree}, (∀ tree ∈ trees, tree.Everywhere Fits) →
      (gistAll trees).flatMap messages = trees.flatMap messages := fun fits =>
    flatMap_messages_gistAll (fun tree present => messages_gist (fits tree present))
      fun tree present => (fits tree present).root
  constructor
  · rw [← forms leftFits, ← forms rightFits, same]
  · rw [← reports leftFits, ← reports rightFits, same]

end SyntaxTree

end WolframSyntax
