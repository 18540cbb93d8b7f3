import Mathlib.Data.List.Basic
import WolframSyntax.Proofs.Delimiters
import WolframSyntax.Proofs.Schema
import WolframSyntax.Token.Lexer
import WolframSyntax.Tree.FullForm

/-!
# Terms

The expressions of full forms: atoms, and calls of terms with terms. A term is written as the list
of its lexemes (`Term.lexemes`), and its text is read back as these lexemes
(`Term.IsCanonical.readsBefore`). A tree that stands for a term (`Tree.term?`) has the text of the
term as its full form (`Tree.fullForm?_of_term?`).
-/

namespace WolframSyntax

namespace Lexeme

/-- The characters of the lexemes of a list. -/
def spelled (lexemes : List Lexeme) : List Char := lexemes.flatMap Lexeme.characters

@[simp] theorem spelled_nil : spelled [] = [] := rfl

@[simp] theorem spelled_cons (lexeme : Lexeme) (lexemes : List Lexeme) :
    spelled (lexeme :: lexemes) = lexeme.characters ++ spelled lexemes := rfl

/-- The characters of lexemes follow one another as the lexemes do. -/
@[simp] theorem spelled_append (before after : List Lexeme) :
    spelled (before ++ after) = spelled before ++ spelled after :=
  List.flatMap_append

theorem spelled_append_assoc (before after : List Lexeme) (rest : List Char) :
    spelled (before ++ after) ++ rest = spelled before ++ (spelled after ++ rest) := by
  rw [spelled_append, List.append_assoc]

/-- Each lexeme of a list is the next to be read when the list stands in front of `rest`. -/
def ReadBefore (rest : List Char) : List Lexeme → Prop
  | [] => True
  | lexeme :: lexemes =>
    (lexeme.characters ≠ [] ∧
      read (lexeme.characters ++ (spelled lexemes ++ rest)) = (lexeme, spelled lexemes ++ rest)) ∧
    ReadBefore rest lexemes

/-- Lexemes that are read one after the other are read as one list. -/
theorem ReadBefore.append {before after : List Lexeme} {rest : List Char}
    (readBefore : ReadBefore (spelled after ++ rest) before) (readAfter : ReadBefore rest after) :
    ReadBefore rest (before ++ after) := by
  induction before with
  | nil => exact readAfter
  | cons lexeme before ih =>
    obtain ⟨⟨some, reads⟩, readBefore⟩ := readBefore
    refine ⟨⟨some, ?_⟩, ih readBefore⟩
    rw [← spelled_append_assoc] at reads
    exact reads

end Lexeme

/-- The lexeme that a token was read from. -/
def Token.lexeme (token : Token) : Lexeme := ⟨token.kind, token.text.toList⟩

/-- A text that begins with lexemes has their tokens as its first tokens. -/
theorem exists_tokensFrom_eq_append {lexemes : List Lexeme} {rest : List Char}
    (reads : Lexeme.ReadBefore rest lexemes) (position : Position) :
    ∃ tokens after, tokensFrom position (Lexeme.spelled lexemes ++ rest)
        = tokens ++ tokensFrom after rest ∧
      tokens.map Token.lexeme = lexemes := by
  induction lexemes generalizing position with
  | nil => exact ⟨[], position, rfl, rfl⟩
  | cons lexeme lexemes ih =>
    obtain ⟨⟨some, first⟩, reads⟩ := reads
    obtain ⟨tokens, after, same, held⟩ := ih reads (position.advance lexeme.characters)
    refine ⟨lexeme.token position :: tokens, after, ?_, ?_⟩
    · obtain ⟨character, characters, split⟩ := List.exists_cons_of_ne_nil some
      rw [Lexeme.spelled_cons, List.append_assoc]
      rw [split, List.cons_append] at first ⊢
      change Lexeme.readFrom character _ = _ at first
      rw [tokensFrom, first]
      dsimp only
      rw [same, List.cons_append]
    · simp [held, Token.lexeme, Lexeme.token]

/-- A name, a number or a string, or a call of a term with terms. -/
inductive Term where
  | atom (lexeme : Lexeme)
  | call (head : Term) (arguments : List Term)

namespace Term

open Lexeme (sign)

mutual

/-- The text of a term. -/
def text : Term → String
  | atom lexeme => String.ofList lexeme.characters
  | call head arguments => Tree.bracketed head.text (textOfEach arguments)

/-- The texts of the terms of a list. -/
def textOfEach : List Term → List String
  | [] => []
  | term :: terms => term.text :: textOfEach terms

end

mutual

/-- The lexemes that a term is written with. -/
def lexemes : Term → List Lexeme
  | atom lexeme => [lexeme]
  | call head arguments =>
    head.lexemes ++ sign .leftBracket ::
      (List.intercalate [sign .comma] (lexemesOfEach arguments) ++ [sign .rightBracket])

/-- The lexemes of the terms of a list. -/
def lexemesOfEach : List Term → List (List Lexeme)
  | [] => []
  | term :: terms => term.lexemes :: lexemesOfEach terms

end

/-- The atoms of a term are read as single lexemes. -/
inductive IsCanonical : Term → Prop where
  | atom {lexeme : Lexeme} (isAtom : lexeme.IsAtom) : IsCanonical (atom lexeme)
  | call {head : Term} {arguments : List Term} (headCanonical : head.IsCanonical)
      (canonical : ∀ argument ∈ arguments, argument.IsCanonical) :
      IsCanonical (call head arguments)

theorem textOfEach_eq_map (terms : List Term) : textOfEach terms = terms.map text := by
  induction terms with
  | nil => rfl
  | cons term terms ih => rw [textOfEach, ih, List.map_cons]

theorem lexemesOfEach_eq_map (terms : List Term) : lexemesOfEach terms = terms.map lexemes := by
  induction terms with
  | nil => rfl
  | cons term terms ih => rw [lexemesOfEach, ih, List.map_cons]

/-- The text of a call is its head with the arguments in brackets. -/
theorem text_call (head : Term) (arguments : List Term) :
    (call head arguments).text = Tree.bracketed head.text (arguments.map text) := by
  rw [text, textOfEach_eq_map]

/-- The lexemes of a call are those of its head, and of its arguments with brackets and commas. -/
theorem lexemes_call (head : Term) (arguments : List Term) :
    (call head arguments).lexemes = head.lexemes ++ sign .leftBracket ::
      (List.intercalate [sign .comma] (arguments.map lexemes) ++ [sign .rightBracket]) := by
  rw [lexemes, lexemesOfEach_eq_map]

/-- Spelled lexemes with separators between them are separated texts. -/
theorem spelled_intercalate {terms : List Term} (separator : Lexeme)
    (each : ∀ term ∈ terms, term.text.toList = Lexeme.spelled term.lexemes) :
    Lexeme.spelled (List.intercalate [separator] (terms.map lexemes))
      = List.intercalate separator.characters ((terms.map text).map String.toList) := by
  induction terms with
  | nil => rfl
  | cons first rest ih =>
    obtain ⟨firstText, restTexts⟩ := List.forall_mem_cons.mp each
    cases rest with
    | nil => simp [firstText]
    | cons next rest =>
      simp only [List.map_cons, List.intercalate_cons_cons, Lexeme.spelled_append] at ih ⊢
      rw [ih restTexts, firstText]
      simp

/-- The text of a term is spelled by its lexemes. -/
theorem toList_text {term : Term} (canonical : term.IsCanonical) :
    term.text.toList = Lexeme.spelled term.lexemes := by
  induction canonical with
  | @atom lexeme isAtom => simp [text, lexemes]
  | @call head arguments headCanonical canonical headText argumentTexts =>
    rw [text_call, lexemes_call, Tree.bracketed, Lexeme.spelled_append, Lexeme.spelled_cons,
      Lexeme.spelled_append, spelled_intercalate _ argumentTexts, ← headText]
    simp [String.toList_intercalate, sign, Operator.spelling]

/-- Texts that are read as their lexemes in front of delimiters are so with separators between
them. -/
theorem readBefore_intercalate {terms : List Term} {rest : List Char} {separator : Lexeme}
    (separates : separator.IsSeparator)
    (each : ∀ term ∈ terms, ∀ rest, Lexeme.Delimited rest → Lexeme.ReadBefore rest term.lexemes)
    (delimited : Lexeme.Delimited rest) :
    Lexeme.ReadBefore rest (List.intercalate [separator] (terms.map lexemes)) := by
  induction terms with
  | nil => trivial
  | cons first terms ih =>
    obtain ⟨firstReads, restReads⟩ := List.forall_mem_cons.mp each
    cases terms with
    | nil => simpa using firstReads rest delimited
    | cons next terms =>
      rw [List.map_cons, List.map_cons, List.intercalate_cons_cons, List.append_assoc]
      refine Lexeme.ReadBefore.append (firstReads _ ?_)
        ⟨⟨separates.characters_ne_nil, ?_⟩, ih restReads⟩
      · rw [List.singleton_append, Lexeme.spelled_cons, List.append_assoc]
        exact separates.delimited _
      · exact separates.reads _

/-- The text of a term is read as the lexemes of the term in front of delimiters. -/
theorem IsCanonical.readBefore {term : Term} (canonical : term.IsCanonical) {rest : List Char}
    (delimited : Lexeme.Delimited rest) : Lexeme.ReadBefore rest term.lexemes := by
  induction canonical generalizing rest with
  | atom isAtom => exact ⟨⟨isAtom.characters_ne_nil, isAtom.read_append delimited⟩, trivial⟩
  | call headCanonical canonical headReads argumentsRead =>
    have opening : (sign .leftBracket).IsSeparator := Lexeme.isSeparator_sign (by decide)
    have comma : (sign .comma).IsSeparator := Lexeme.isSeparator_sign (by decide)
    have closing : (sign .rightBracket).IsSeparator := Lexeme.isSeparator_sign (by decide)
    rw [lexemes_call]
    refine .append (headReads ?_) ⟨⟨opening.characters_ne_nil, opening.reads _⟩,
      .append (readBefore_intercalate comma (fun _ present _ => argumentsRead _ present) ?_)
        ⟨⟨closing.characters_ne_nil, closing.reads _⟩, trivial⟩⟩
    · rw [Lexeme.spelled_cons, List.append_assoc]
      exact opening.delimited _
    · rw [Lexeme.spelled_cons, List.append_assoc]
      exact closing.delimited _

end Term

/-- The kind of token of an atom that stands for itself in a full form. -/
def NodeKind.plainToken? : NodeKind → Option TokenKind
  | .symbol => some .identifier
  | .number => some .number
  | .string => some .string
  | _ => none

namespace Tree

variable {Label : Type}

mutual

/-- The term that a tree stands for, if it is made of plain atoms and calls only. -/
def term? : Tree Label → Option Term
  | node label content children =>
    match content.kind.plainToken? with
    | some kind => some (.atom ⟨kind, (node label content children).text.toList⟩)
    | none =>
      if content.kind = .functionCall then
        match terms? children with
        | some (head :: arguments) => some (.call head arguments)
        | _ => none
      else none

/-- The terms that the trees of a list stand for, leaves apart. -/
def terms? : List (Tree Label) → Option (List Term)
  | [] => some []
  | tree :: trees =>
    if tree.isLeaf then terms? trees
    else
      match tree.term?, terms? trees with
      | some term, some terms => some (term :: terms)
      | _, _ => none

end

/-- A leaf stands for no term. -/
theorem terms?_cons_of_isLeaf {tree : Tree Label} (leaf : tree.isLeaf) (trees : List (Tree Label)) :
    terms? (tree :: trees) = terms? trees := by
  rw [terms?, if_pos leaf]

/-- A tree that stands for a term is followed by those that stand for the other terms. -/
theorem terms?_cons {tree : Tree Label} {term : Term} (inner : tree.isLeaf = false)
    (stands : tree.term? = some term) {trees : List (Tree Label)} {terms : List Term}
    (stand : terms? trees = some terms) : terms? (tree :: trees) = some (term :: terms) := by
  rw [terms?, if_neg (by simp [inner]), stands, stand]

/-- A list of trees that stands for terms begins with a leaf, or with a tree that stands for the
first term. -/
theorem eq_of_terms?_cons {tree : Tree Label} {trees : List (Tree Label)} {terms : List Term}
    (stand : terms? (tree :: trees) = some terms) :
    (tree.isLeaf ∧ terms? trees = some terms) ∨
      (tree.isLeaf = false ∧ ∃ term rest, tree.term? = some term ∧ terms? trees = some rest ∧
        terms = term :: rest) := by
  rw [terms?] at stand
  split at stand
  · next leaf => exact .inl ⟨leaf, stand⟩
  · next inner =>
    split at stand
    · next term rest first others =>
      cases stand
      exact .inr ⟨Bool.eq_false_iff.mpr inner, term, rest, first, others, rfl⟩
    · cases stand

/-- Trees that stand for terms may follow one another. -/
theorem terms?_append {before after : List (Tree Label)} {terms more : List Term}
    (stand : terms? before = some terms) (standAfter : terms? after = some more) :
    terms? (before ++ after) = some (terms ++ more) := by
  induction before generalizing terms with
  | nil =>
    cases stand
    exact standAfter
  | cons tree before ih =>
    rcases eq_of_terms?_cons stand with ⟨leaf, stand⟩ | ⟨inner, term, rest, first, others, rfl⟩
    · rw [List.cons_append, terms?_cons_of_isLeaf leaf, ih stand]
    · rw [List.cons_append, terms?_cons inner first (ih others)]
      rfl

/-- Leaves stand for no terms. -/
theorem terms?_leaves {trees : List (Tree Label)} (leaves : ∀ tree ∈ trees, tree.isLeaf) :
    terms? trees = some [] := by
  induction trees with
  | nil => rfl
  | cons tree trees ih =>
    obtain ⟨leaf, leaves⟩ := List.forall_mem_cons.mp leaves
    rw [terms?_cons_of_isLeaf leaf, ih leaves]

/-- Attempts that all come to something do so together. -/
theorem allSome_map_some {Value : Type} (values : List Value) :
    allSome (values.map some) = some values := by
  induction values with
  | nil => rfl
  | cons value values ih => rw [List.map_cons, allSome, ih]; rfl

/-- The full forms of operands are those of each tree that is no leaf. -/
theorem fullFormOperands_eq_map (trees : List (Tree Label)) :
    fullFormOperands trees = (trees.filter fun tree => !tree.isLeaf).map fullForm? := by
  induction trees with
  | nil => rfl
  | cons tree trees ih =>
    rw [fullFormOperands, ih]
    cases leaf : tree.isLeaf <;> simp [leaf]

/-- Operands that stand for terms have the texts of the terms as their full forms. -/
theorem fullFormOperands_of_terms? {trees : List (Tree Label)} {terms : List Term}
    (each : ∀ tree ∈ trees, ∀ term, tree.term? = some term → tree.fullForm? = some term.text)
    (stand : terms? trees = some terms) :
    fullFormOperands trees = (terms.map Term.text).map some := by
  induction trees generalizing terms with
  | nil =>
    cases stand
    rfl
  | cons tree trees ih =>
    obtain ⟨first, others⟩ := List.forall_mem_cons.mp each
    rcases eq_of_terms?_cons stand with ⟨leaf, later⟩ | ⟨inner, term, rest, stands, later, rfl⟩
    · rw [fullFormOperands, if_pos leaf, ih others later]
    · rw [fullFormOperands, if_neg (by simp [inner]), first term stands, ih others later]
      rfl

/-- The full form of a tree that stands for a term is the text of the term. -/
theorem fullForm?_of_term? {tree : Tree Label} {term : Term} (stands : tree.term? = some term) :
    tree.fullForm? = some term.text := by
  induction tree using Tree.induct generalizing term with
  | node label content children ih =>
    rw [term?] at stands
    split at stands
    · next kind plain =>
      cases stands
      rw [fullForm?, Term.text, String.ofList_toList]
      cases held : content.kind <;> rw [held] at plain <;> first | rfl | cases plain
    · split at stands
      · next call =>
        split at stands
        · next head arguments stand =>
          cases stands
          rw [fullForm?, call, fullFormOperands_of_terms? ih stand, Term.text_call]
          simp only [List.map_cons, compose, applyFirst, allSome_map_some]
          rfl
        · cases stands
      · cases stands

/-- The kinds of the nodes in a tree that stands for a term. -/
def termKinds : List NodeKind := [.functionCall, .symbol, .number, .string, .token, .whitespace]

end Tree

namespace SyntaxTree

open WolframSyntax.Tree

/-- The trees of a list that stands for terms are leaves or stand for a term. -/
theorem exists_term?_of_mem {trees : List SyntaxTree} {terms : List Term}
    (stand : terms? trees = some terms) {tree : SyntaxTree} (present : tree ∈ trees)
    (inner : tree.isLeaf = false) : ∃ term, tree.term? = some term := by
  induction trees generalizing terms with
  | nil => cases present
  | cons first trees ih =>
    rcases eq_of_terms?_cons stand with ⟨leaf, later⟩ | ⟨_, term, rest, stands, later, rfl⟩
    · rcases List.mem_cons.mp present with rfl | present
      · exact absurd leaf (by simp [inner])
      · exact ih later present
    · rcases List.mem_cons.mp present with rfl | present
      · exact ⟨term, stands⟩
      · exact ih later present

/-- A leaf is of a kind that may stand in terms. -/
theorem everywhere_kind_leaf (token : Token) :
    (leaf token).Everywhere fun node => node.kind ∈ termKinds := by
  refine everywhere_node.mpr ⟨?_, List.forall_mem_nil _⟩
  change (if token.isTrivia then NodeKind.whitespace else .token) ∈ termKinds
  split <;> decide

/-- The nodes of a tree that stands for a term are of few kinds. -/
theorem everywhere_kind_of_term? {tree : SyntaxTree} (fits : tree.Everywhere Fits)
    (stands : tree.isLeaf = false → ∃ term, tree.term? = some term) :
    tree.Everywhere fun node => node.kind ∈ termKinds := by
  induction tree using Tree.induct with
  | node label content children ih =>
    cases fits.root with
    | leaf token => exact everywhere_kind_leaf token
    | @atom kind token held =>
      obtain ⟨term, stands⟩ := stands (isOperand_atom held).inner
      have plain : kind ∈ termKinds := by
        rw [term?] at stands
        cases kind <;> first | decide | cases held | cases stands
      exact everywhere_node.mpr
        ⟨plain, List.forall_mem_singleton.mpr (everywhere_kind_leaf token)⟩
    | construct bare takes =>
      obtain ⟨term, stands⟩ := stands (NodeKind.isLeaf_eq_false_of_takes takes)
      have composite : content.kind.plainToken? = none := by
        cases held : content.kind <;> first | rfl | (rw [held] at takes; cases takes)
      rw [term?, composite] at stands
      dsimp only at stands
      split at stands
      · next call =>
        split at stands
        · next head arguments stand =>
          refine everywhere_node.mpr ⟨?_, fun child present => ?_⟩
          · change content.kind ∈ termKinds
            rw [call]
            decide
          · exact ih child present (fits.child present) (exists_term?_of_mem stand present)
        · cases stands
      · cases stands

end SyntaxTree

end WolframSyntax
