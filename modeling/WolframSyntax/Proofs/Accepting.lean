import WolframSyntax.Proofs.Conforming
import WolframSyntax.Proofs.Lines
import WolframSyntax.Proofs.Occurrences

/-!
# What is accepted without errors

The brackets of a file without errors are matched, its tokens are good ones and every comma of it
separates operands of a list, a call or a part. So a bracket without partner, a bad character and a
stray comma are all reported by at least one error (`of_errors_eq_nil`).
-/

namespace WolframSyntax

open SyntaxTree

namespace FileReading

variable {grammar : Grammar} {file : FileReading}

/-- No closing bracket is expected at the end of a file without errors. -/
theorem closers_eq_nil_at_end (sound : file.IsSound) (agrees : file.Agrees grammar) {ending : Word}
    (ends : ending.token.isEnd)
    (inView : ∀ reading ∈ file.current, (reading.read (surroundings grammar) ending).IsClean) :
    file.closers = [] := by
  cases current : file.current with
  | none => rw [closers, current]; rfl
  | some reading =>
    have expected := Reading.expected?_read (sound.fits.current reading current)
      (agrees.current reading current) (sound.begun reading current) (inView reading current)
    rw [closers_of_current current]
    cases progress : reading.read (surroundings grammar) ending with
    | reading next =>
      exact absurd (Word.isForeign_of_isEnd ends) (Reading.not_isForeign_of_read progress)
    | finished outcome =>
      rw [progress] at expected
      exact expected

/-- The brackets of a file without errors are matched. -/
theorem matched_of_parseTokens {body : List Token} {final : Token}
    (unended : body.any Token.isEnd = false) (ends : final.isEnd) {tree : SyntaxTree}
    (parsed : parseTokens grammar (body ++ [final]) = .ok tree) (clean : tree.IsClean) :
    Token.Matched (body ++ [final]) := by
  rw [parseTokens_append_eq_ok_iff unended, readToEnd?_of_isEnd ends] at parsed
  cases parsed
  have sound := isSound_afterTokens grammar body
  obtain ⟨before, inView⟩ := isClean_of_childrenAtEnd ends clean
  have closed := closers_eq_nil_at_end sound
    (agrees_foldl_read _ (agrees_empty grammar) fits_empty) ends inView
  have inner : final.isBracket = false := by
    rw [Token.isBracket, show final.kind = .endOfFile by simpa [Token.isEnd] using ends]
  rw [Token.matched_iff, Token.expectedBehind?_append, expectedBehind?_afterTokens unended before,
    closed, Option.bind_some, Token.expectedBehind?_cons, Token.expected?_of_plain inner]
  rfl

end FileReading

/-- Every node of a file has only children it may have, if no tokens lie behind its end. -/
theorem everywhere_isLicensed_of_parseTokens {grammar : Grammar} {body : List Token} {final : Token}
    (unended : body.any Token.isEnd = false) (ends : final.isEnd) {tree : SyntaxTree}
    (parsed : parseTokens grammar (body ++ [final]) = .ok tree) :
    tree.Everywhere Tree.IsLicensed := by
  obtain ⟨ending, beyond, children, found, rfl, licenses, below⟩ :=
    exists_licenses_of_parseTokens parsed
  rw [WordStream.ofTokens, WordStream.after_append_of_unended unended,
    WordStream.after_of_isEnd ends] at found
  cases found
  rw [List.filter_nil, List.map_nil, List.append_nil]
  exact Tree.everywhere_node.mpr ⟨licenses, below⟩

/-- In a tree without errors, a node with a comma among its children is a list, a call or a part. -/
theorem kind_of_comma {tree child : SyntaxTree} (licensed : tree.IsLicensed)
    (clean : tree.kind ≠ .error) (present : child ∈ tree.children) (comma : child.isComma) :
    tree.kind = .list ∨ tree.kind = .functionCall ∨ tree.kind = .part := by
  have separates := licensed.commas child present comma
  generalize tree.kind = kind at separates clean
  cases kind <;> first | decide | exact absurd rfl clean | cases separates

/-- A text with good tokens and matched brackets, every comma of which stands directly in a list, a
call or a part. -/
structure IsOrderly (grammar : Grammar) (source : String) : Prop where
  good : ∀ token ∈ tokenize source, token.kind ≠ .error
  matched : Token.Matched (tokenize source)
  commas : ∀ place ∈ (parseSource grammar source).occurrences, ∀ token,
    place.tree.content.token = some token → token.kind = .operator .comma →
      ∃ parent, place.parent? = some parent ∧
        (parent.kind = .list ∨ parent.kind = .functionCall ∨ parent.kind = .part)

/-- In a file all of whose nodes have only children they may have and none of which is an error,
every comma stands directly in a list, a call or a part. -/
theorem exists_parent_of_comma {children : List SyntaxTree}
    (licensed : (ofKind .file children).Everywhere Tree.IsLicensed)
    (fits : ∀ child ∈ children, child.Everywhere Fits) (clean : (ofKind .file children).IsClean)
    {place : Occurrence Unit} (present : place ∈ (ofKind .file children).occurrences)
    {token : Token} (held : place.tree.content.token = some token)
    (comma : token.kind = .operator .comma) :
    ∃ parent, place.parent? = some parent ∧
      (parent.kind = .list ∨ parent.kind = .functionCall ∨ parent.kind = .part) := by
  cases above : place.parent? with
  | none =>
    rw [Tree.tree_of_parent?_eq_none present above] at held
    cases held
  | some parent =>
    obtain ⟨inside, below⟩ := Tree.of_parent?_eq_some present above
    refine ⟨parent, rfl, kind_of_comma (licensed parent inside) (clean parent inside) below ?_⟩
    have placeFits : Fits place.tree := by
      have among : place.tree ∈ (ofKind .file children).walk :=
        Tree.mem_walk_trans inside (Tree.walk_eq parent ▸
          List.mem_cons_of_mem _ (List.mem_flatMap.mpr ⟨_, below, Tree.mem_walk_self _⟩))
      rw [ofKind, Tree.walk_node] at among
      rcases List.mem_cons.mp among with root | among
      · rw [root] at held
        cases held
      · obtain ⟨child, present, within⟩ := List.mem_flatMap.mp among
        exact fits child present _ within
    generalize place.tree = tree at held placeFits
    cases placeFits with
    | leaf other =>
      cases held
      rw [isComma_leaf, comma]
      rfl
    | atom => cases held
    | construct bare =>
      cases bare.symm.trans held

/-- A text without errors has good tokens, matched brackets and no comma in a wrong place, so each
of these faults is reported by at least one error. -/
theorem orderly_or_reported (grammar : Grammar) (source : String) :
    ((parseSource grammar source).errors = [] → IsOrderly grammar source) ∧
      (¬IsOrderly grammar source → 0 < (parseSource grammar source).errors.length) := by
  have orderly : (parseSource grammar source).errors = [] → IsOrderly grammar source := by
    intro accepted
    have clean := Tree.isClean_iff_errors_eq_nil.mpr accepted
    have parsed := parseTokens_tokenize grammar source
    obtain ⟨body, final, tokens, unended, ends⟩ :=
      exists_tokensFrom_eq Position.start source.toList
    refine ⟨?_, ?_, fun place present token held comma => ?_⟩
    · exact kind_ne_error_of_parseSource clean
    · rw [tokenize, tokens] at parsed ⊢
      exact FileReading.matched_of_parseTokens unended ends parsed clean
    · obtain ⟨children, isFile, fits⟩ := everywhere_fits_of_parseTokens parsed
      rw [tokenize, tokens] at parsed
      have licensed := everywhere_isLicensed_of_parseTokens unended ends parsed
      rw [isFile] at present licensed clean
      exact exists_parent_of_comma licensed fits clean present held comma
  refine ⟨orderly, fun disorderly => List.length_pos_iff.mpr fun accepted => ?_⟩
  exact disorderly (orderly accepted)

/-- A text with all three kinds of brackets, and one in which two of them cross. -/
theorem orderly_call_and_reported_crossing :
    ((parseSource .standard "f[{a, (b)}, c[[1, 2]]] (* ] *)").errors = [] ∧
      IsOrderly .standard "f[{a, (b)}, c[[1, 2]]] (* ] *)") ∧
    ¬IsOrderly .standard "f[(a, b])" ∧ 0 < (parseSource .standard "f[(a, b])").errors.length := by
  have accepted : (parseSource .standard "f[{a, (b)}, c[[1, 2]]] (* ] *)").errors = [] := by
    rw [← List.isEmpty_iff]
    decide +kernel
  have crossed : ¬Token.Matched (tokenize "f[(a, b])") := by decide +kernel
  have disorderly : ¬IsOrderly .standard "f[(a, b])" := fun orderly => crossed orderly.matched
  exact ⟨⟨accepted, (orderly_or_reported _ _).1 accepted⟩, disorderly,
    (orderly_or_reported _ _).2 disorderly⟩

end WolframSyntax
