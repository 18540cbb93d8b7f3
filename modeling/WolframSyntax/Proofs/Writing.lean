import WolframSyntax.Proofs.Faults
import WolframSyntax.Proofs.FullForm

/-!
# Reading what was written

An atom is a text that has a single name, number or string as its only token
(`Lexeme.isAtom_iff_tokenize`). Canonical terms are written with atoms and brackets only, one term
on a line, and reading such a text gives the terms back (`parseSource_lines`). So a text tells which
terms it was written for, whatever strings and numbers they contain.
-/

namespace WolframSyntax

open SyntaxTree WolframSyntax.Tree

namespace Lexeme

/-- The token of a lexeme at the start of a text, with the end of the text behind it. -/
def tokensAlone (lexeme : Lexeme) : List Token :=
  [lexeme.token .start, (read []).1.token (Position.start.advance lexeme.characters)]

theorem eq_of_token_eq {first second : Lexeme} {position other : Position}
    (same : first.token position = second.token other) : first = second := by
  have kinds : first.kind = second.kind := congrArg Token.kind same
  have texts : String.ofList first.characters = String.ofList second.characters :=
    congrArg Token.text same
  obtain ⟨kind, characters⟩ := first
  obtain ⟨otherKind, otherCharacters⟩ := second
  cases kinds
  cases String.ofList_injective texts
  rfl

/-- The atoms are the names, numbers and strings that are the only token of their text. -/
theorem isAtom_iff_tokenize {lexeme : Lexeme} :
    lexeme.IsAtom ↔ lexeme.kind ∈ atomKinds ∧
      tokenize (String.ofList lexeme.characters) = lexeme.tokensAlone := by
  constructor
  · intro atom
    obtain ⟨character, rest, split⟩ := List.exists_cons_of_ne_nil atom.characters_ne_nil
    have reads : readFrom character rest = (lexeme, []) := by
      have whole := atom.reads
      rwa [split] at whole
    refine ⟨atom.kind, ?_⟩
    rw [tokenize, String.toList_ofList, split, tokensFrom, reads]
    dsimp only
    rw [tokensFrom]
    rfl
  · rintro ⟨kind, alone⟩
    refine ⟨kind, ?_⟩
    rw [tokenize, String.toList_ofList, tokensAlone] at alone
    cases split : lexeme.characters with
    | nil =>
      rw [split, tokensFrom] at alone
      exact absurd (congrArg List.length alone) (by simp)
    | cons character rest =>
      rw [split, tokensFrom] at alone
      obtain ⟨first, others⟩ := List.cons.inj alone
      have whole := readFrom_append character rest
      have same := eq_of_token_eq first
      have left : (readFrom character rest).2 = [] := by
        rw [same, split] at whole
        exact List.append_right_eq_self.mp whole
      exact Prod.ext same left

end Lexeme

namespace SyntaxTree

theorem map_term?_of_terms? {trees : List SyntaxTree} {terms : List Term}
    (stand : terms? trees = some terms) :
    (trees.filter fun tree => !tree.isLeaf).map Tree.term? = terms.map some := by
  induction trees generalizing terms with
  | nil =>
    cases stand
    rfl
  | cons tree trees ih =>
    rcases eq_of_terms?_cons stand with ⟨leaf, later⟩ | ⟨inner, term, rest, stands, later, rfl⟩
    · rw [List.filter_cons_of_neg (by simp [leaf]), ih later]
    · rw [List.filter_cons_of_pos (by simp [inner]), List.map_cons, stands, ih later,
        List.map_cons]

/-- A file of trees that stand for terms has no errors. -/
theorem isClean_of_terms? {trees : List SyntaxTree} {terms : List Term}
    (fits : ∀ tree ∈ trees, tree.Everywhere Fits) (stand : terms? trees = some terms) :
    (ofKind .file trees).IsClean := by
  refine isClean_ofKind.mpr ⟨NodeKind.noConfusion, fun tree present => ?_⟩
  have known := everywhere_kind_of_term? (fits tree present) (exists_term?_of_mem stand present)
  refine known.mono fun node kind failed => ?_
  rw [failed] at kind
  exact absurd kind (by decide)

theorem fullForm?_of_terms? {trees : List SyntaxTree} {terms : List Term}
    (stand : terms? trees = some terms) :
    (ofKind .file trees).fullForm? = some (Term.lines terms) := by
  have forms := fullFormOperands_of_terms? (fun tree _ term => fullForm?_of_term?) stand
  rw [ofKind, fullForm?, forms, compose, allSome_map_some]
  rfl

end SyntaxTree

/-- Canonical terms with the same lines are the same terms. -/
theorem Term.eq_of_lines_eq {first second : List Term}
    (canonical : ∀ term ∈ first, term.IsCanonical)
    (canonicalToo : ∀ term ∈ second, term.IsCanonical)
    (same : Term.lines first = Term.lines second) : first = second := by
  obtain ⟨children, read, stand⟩ := exists_parseSource_lines .standard canonical
  obtain ⟨others, readToo, standToo⟩ := exists_parseSource_lines .standard canonicalToo
  rw [← same, read] at readToo
  cases readToo
  exact Option.some.inj (stand.symm.trans standToo)

/-- Reading the lines of canonical terms gives a file without errors whose expressions stand for
the terms, and whose text and full form are those lines again. Other terms have other lines. -/
theorem parseSource_lines (grammar : Grammar) (terms : List Term)
    (canonical : ∀ term ∈ terms, term.IsCanonical) :
    (parseSource grammar (Term.lines terms)).kind = .file ∧
    (parseSource grammar (Term.lines terms)).errors = [] ∧
    (parseSource grammar (Term.lines terms)).expressions.map Tree.term? = terms.map some ∧
    (parseSource grammar (Term.lines terms)).text = Term.lines terms ∧
    (parseSource grammar (Term.lines terms)).fullForm? = some (Term.lines terms) ∧
    ∀ others : List Term, (∀ term ∈ others, term.IsCanonical) →
      Term.lines others = Term.lines terms → others = terms := by
  have parsed := parseTokens_tokenize grammar (Term.lines terms)
  obtain ⟨children, read, stand⟩ := exists_parseSource_lines grammar canonical
  obtain ⟨fitting, readToo, fits⟩ := everywhere_fits_of_parseTokens parsed
  obtain rfl : children = fitting := by
    rw [read] at readToo
    cases readToo
    rfl
  have text : (parseSource grammar (Term.lines terms)).text = Term.lines terms := by
    apply String.toList_injective
    rw [toList_text_of_parseTokens parsed]
    exact flatMap_text_filter_tokensFrom Position.start _
  rw [read] at text ⊢
  refine ⟨rfl, ?_, map_term?_of_terms? stand, text, fullForm?_of_terms? stand, ?_⟩
  · exact isClean_iff_errors_eq_nil.mp (isClean_of_terms? fits stand)
  · exact fun others canonicalToo same => Term.eq_of_lines_eq canonicalToo canonical same

/-- Numbers that end in a point, a precision mark, a base or an exponent without digits stand in
front of brackets and commas, and a string holds brackets and a line feed. -/
theorem parseSource_lines_of_open_ended_numbers :
    let number (text : String) : Term := .atom ⟨.number, text.toList⟩
    let text : Term := .atom ⟨.string, "\"[,\n]\\\"\"".toList⟩
    let terms : List Term :=
      [.call (number "1.") [number "2\x60", .call (number "16^^") []],
        .call text [number "3*^", text], text]
    (∀ term ∈ terms, term.IsCanonical) ∧
    (parseSource .standard (Term.lines terms)).kind = .file ∧
    (parseSource .standard (Term.lines terms)).errors = [] ∧
    (parseSource .standard (Term.lines terms)).expressions.map Tree.term? = terms.map some ∧
    (parseSource .standard (Term.lines terms)).text = Term.lines terms ∧
    (parseSource .standard (Term.lines terms)).fullForm? = some (Term.lines terms) ∧
    ∀ others : List Term, (∀ term ∈ others, term.IsCanonical) →
      Term.lines others = Term.lines terms → others = terms := by
  intro number text terms
  have atom (lexeme : Lexeme) (kind : lexeme.kind ∈ Lexeme.atomKinds)
      (alone : tokenize (String.ofList lexeme.characters) = lexeme.tokensAlone) :
      (Term.atom lexeme).IsCanonical := .atom (Lexeme.isAtom_iff_tokenize.mpr ⟨kind, alone⟩)
  have text : text.IsCanonical := atom _ (by decide) (by decide +kernel)
  have canonical : ∀ term ∈ terms, term.IsCanonical := by
    refine List.forall_mem_cons.mpr ⟨?_, List.forall_mem_cons.mpr ⟨?_, ?_⟩⟩
    · refine .call (atom _ (by decide) (by decide +kernel)) (List.forall_mem_cons.mpr ⟨?_, ?_⟩)
      · exact atom _ (by decide) (by decide +kernel)
      · refine List.forall_mem_singleton.mpr (.call ?_ (List.forall_mem_nil _))
        exact atom _ (by decide) (by decide +kernel)
    · refine .call text (List.forall_mem_cons.mpr ⟨?_, List.forall_mem_singleton.mpr text⟩)
      exact atom _ (by decide) (by decide +kernel)
    · exact List.forall_mem_singleton.mpr text
  exact ⟨canonical, parseSource_lines .standard terms canonical⟩

end WolframSyntax
