import WolframSyntax.Proofs.TermReading

/-!
# Full forms are canonical

Every file has a full form, with errors or without, and it has one line for each expression: the
text of a term (`exists_terms_of_parseSource`). Lines of terms are read back as these terms, so a
full form is its own full form, whatever the precedences are (`fullForm?_parseSource_fullForm`).
-/

namespace WolframSyntax

open SyntaxTree

/-- The token was read from the beginning of some text. -/
def Token.IsRead (token : Token) : Prop :=
  ∃ left, Lexeme.read (token.lexeme.characters ++ left) = (token.lexeme, left)

theorem isRead_of_mem_tokensFrom {position : Position} {characters : List Char} {token : Token}
    (present : token ∈ tokensFrom position characters) : token.IsRead := by
  fun_induction tokensFrom position characters with
  | case1 position =>
    rw [List.mem_singleton.mp present]
    exact ⟨[], rfl⟩
  | case2 position character rest lexeme ih =>
    rcases List.mem_cons.mp present with rfl | later
    · refine ⟨(Lexeme.readFrom character rest).2, ?_⟩
      have same : (lexeme.token position).lexeme = lexeme := by
        simp [Token.lexeme, Lexeme.token]
      rw [same, Lexeme.readFrom_append]
      rfl
    · exact ih later

/-! ## Atoms -/

/-- The head of a construct is a name. -/
theorem NodeKind.isAtom_head (kind : NodeKind) : Lexeme.IsAtom ⟨.identifier, kind.head.toList⟩ := by
  have table : ∀ kind ∈ all, kind.head.toList.head?.any Lexeme.startsName
      && kind.head.toList.tail.all Lexeme.isAlphanumeric := by
    decide +kernel
  have plain := table kind kind.mem_all
  cases spelled : kind.head.toList with
  | nil => simp [spelled] at plain
  | cons first rest =>
    rw [spelled] at plain
    obtain ⟨starts, plain⟩ := Bool.and_eq_true_iff.mp plain
    exact Lexeme.isAtom_name (by simpa using starts) (List.all_eq_true.mp plain)

/-- The term of a construct that is written with its head. -/
def Term.construct (kind : NodeKind) (operands : List Term) : Term :=
  .call (.atom ⟨.identifier, kind.head.toList⟩) operands

theorem Term.isCanonical_construct (kind : NodeKind) {operands : List Term}
    (canonical : ∀ operand ∈ operands, operand.IsCanonical) :
    (construct kind operands).IsCanonical :=
  .call (.atom kind.isAtom_head) canonical

theorem Term.text_construct (kind : NodeKind) (operands : List Term) :
    (construct kind operands).text = Tree.bracketed kind.head (operands.map Term.text) := by
  rw [construct, text_call, text, String.ofList_toList]

/-- What follows the marks of a slot is written as an atom: as a number or as a string. -/
theorem exists_isAtom_slotLabel (marks : List Char) {label : List Char}
    (hashes : ∀ mark ∈ marks, mark = '#')
    (plain : (∀ character ∈ label, Text.isDigit character) ∨
      ∀ character ∈ label, Lexeme.continuesName character) :
    ∃ lexeme : Lexeme, lexeme.IsAtom ∧
      Tree.slotLabel (String.ofList (marks ++ label)) = String.ofList lexeme.characters := by
  have unmarked : label.dropWhile (· == '#') = label := by
    cases label with
    | nil => rfl
    | cons first rest =>
      have other : (first == '#') = false := by
        rw [beq_eq_false_iff_ne]
        rintro rfl
        obtain ⟨_, member, digit⟩ := Lexeme.plain_of_mem_marks '#' (by decide)
        rcases plain with plain | plain
        · exact absurd (plain _ List.mem_cons_self) (by simp [digit])
        · exact absurd (plain _ List.mem_cons_self) (by simp [Lexeme.continuesName, member])
      simp [other]
  have dropped : (String.ofList (marks ++ label)).toList.dropWhile (· == '#') = label := by
    rw [String.toList_ofList,
      List.dropWhile_append_of_pos fun mark present => by rw [hashes mark present]; rfl, unmarked]
  unfold Tree.slotLabel
  rw [dropped]
  split
  · next empty =>
    refine ⟨⟨.number, ['1']⟩, Lexeme.isAtom_digits (by simp) ?_, rfl⟩
    exact List.forall_mem_singleton.mpr (by decide +kernel)
  · next some =>
    split
    · next digits =>
      exact ⟨⟨.number, label⟩, Lexeme.isAtom_digits some (List.all_eq_true.mp digits), rfl⟩
    · next other =>
      have name : ∀ character ∈ label, Lexeme.continuesName character :=
        plain.resolve_left fun digits => other (List.all_eq_true.mpr digits)
      refine ⟨_, Lexeme.isAtom_quoted name, ?_⟩
      rw [← String.toList_inj]
      simp

/-- The label of a slot that was read from a text is written as an atom. -/
theorem exists_isAtom_of_slot {token : Token} (isRead : token.IsRead)
    (slot : token.kind = .slot ∨ token.kind = .slotSequence) :
    ∃ lexeme : Lexeme, lexeme.IsAtom ∧
      Tree.slotLabel token.text = String.ofList lexeme.characters := by
  obtain ⟨left, reads⟩ := isRead
  have inner : token.lexeme.kind ≠ .endOfFile := by
    intro same
    have same : token.kind = .endOfFile := same
    rcases slot with slot | slot <;> rw [slot] at same <;> cases same
  obtain ⟨character, taken, spelled, readsFrom, begins⟩ :=
    Lexeme.exists_readFrom_of_read reads inner
  have hash : character = '#' := by
    change Lexeme.Begins character (taken ++ left) token.kind at begins
    rcases slot with slot | slot <;> rw [slot] at begins <;> exact begins
  subst hash
  have text : token.text = String.ofList ('#' :: taken) := by
    rw [← spelled]
    exact String.ofList_toList.symm
  rw [Lexeme.readFrom_hash] at readsFrom
  unfold Lexeme.readSlot at readsFrom
  rw [text]
  split at readsFrom
  · next rest same =>
    have held : token.lexeme.characters = '#' :: '#' :: (Lexeme.readSequenceLabel rest).1 :=
      (congrArg (Lexeme.characters ∘ Prod.fst) readsFrom).symm
    rw [← spelled, held]
    refine exists_isAtom_slotLabel ['#', '#'] (by simp) (.inl fun character present => ?_)
    exact List.all_eq_true.mp List.all_takeWhile character present
  · next rest same =>
    have held : token.lexeme.characters = '#' :: (Lexeme.readSlotLabel (taken ++ left)).1 :=
      (congrArg (Lexeme.characters ∘ Prod.fst) readsFrom).symm
    rw [← spelled, held]
    refine exists_isAtom_slotLabel ['#'] (by simp) ?_
    unfold Lexeme.readSlotLabel
    split
    · exact .inl fun character present => List.all_eq_true.mp List.all_takeWhile character present
    split
    · exact .inr fun character present => Lexeme.continuesName_of_mem_readName present
    · exact .inl fun character none => (List.not_mem_nil none).elim

/-! ## Trees -/

/-- A tree is written as a canonical term. -/
def SyntaxTree.IsWritten (tree : SyntaxTree) : Prop :=
  ∃ term : Term, term.IsCanonical ∧ tree.fullForm? = some term.text

/-- The full form of a construct is the text of a canonical term if those of its operands are. -/
theorem exists_compose {kind : NodeKind} {operands : List Term}
    (canonical : ∀ operand ∈ operands, operand.IsCanonical) (takes : kind.takes operands.length)
    (text : String) :
    ∃ term : Term, term.IsCanonical ∧
      Tree.compose kind text ((operands.map Term.text).map some) = some term.text := by
  have plain : Tree.compose kind text ((operands.map Term.text).map some)
      = (Tree.allSome ((operands.map Term.text).map some)).map (Tree.bracketed kind.head) →
      ∃ term : Term, term.IsCanonical ∧
        Tree.compose kind text ((operands.map Term.text).map some) = some term.text := by
    intro headed
    refine ⟨.construct kind operands, Term.isCanonical_construct kind canonical, ?_⟩
    rw [headed, Tree.allSome_map_some, Term.text_construct]
    rfl
  have applied : ∀ head arguments, (∀ operand ∈ head :: arguments, operand.IsCanonical) →
      ∃ term : Term, term.IsCanonical ∧
        Tree.applyFirst (((head :: arguments).map Term.text).map some) = some term.text := by
    intro head arguments canonical
    obtain ⟨headCanonical, canonical⟩ := List.forall_mem_cons.mp canonical
    refine ⟨.call head arguments, .call headCanonical canonical, ?_⟩
    rw [Term.text_call, List.map_cons, List.map_cons, Tree.applyFirst, Tree.allSome_map_some]
    rfl
  cases kind with
  | functionCall | callBefore =>
    cases operands with
    | nil => cases takes
    | cons head arguments => exact applied head arguments canonical
  | callAfter =>
    have two : operands.length = 2 := eq_of_beq takes
    obtain ⟨argument, head, rfl⟩ := List.length_eq_two.mp two
    refine applied head [argument] fun operand present => canonical operand ?_
    simpa [or_comm] using present
  | group =>
    cases operands with
    | nil => cases takes
    | cons inner rest => exact ⟨inner, canonical inner List.mem_cons_self, rfl⟩
  | null =>
    exact ⟨.atom ⟨.identifier, NodeKind.null.head.toList⟩, .atom (NodeKind.isAtom_head .null), rfl⟩
  | _ => first | exact plain rfl | cases takes

theorem fullFormOperands_of_isWritten {trees : List SyntaxTree}
    (each : ∀ tree ∈ trees, tree.isLeaf = false → tree.IsWritten) :
    ∃ operands : List Term, (∀ operand ∈ operands, operand.IsCanonical) ∧
      operands.length = operandCount trees ∧
      Tree.fullFormOperands trees = (operands.map Term.text).map some := by
  induction trees with
  | nil => exact ⟨[], List.forall_mem_nil _, rfl, rfl⟩
  | cons tree trees ih =>
    obtain ⟨first, later⟩ := List.forall_mem_cons.mp each
    obtain ⟨operands, canonical, count, forms⟩ := ih later
    cases leaf : tree.isLeaf with
    | true => exact ⟨operands, canonical, by simp [operandCount, leaf, count],
        by rw [Tree.fullFormOperands, if_pos leaf, forms]⟩
    | false =>
      obtain ⟨term, termCanonical, form⟩ := first leaf
      refine ⟨term :: operands, List.forall_mem_cons.mpr ⟨termCanonical, canonical⟩, ?_, ?_⟩
      · rw [List.length_cons, count]
        simp [operandCount, leaf]
      · rw [Tree.fullFormOperands, if_neg (by simp [leaf]), form, forms]
        rfl

/-- A name that was read from a text holds no quotation marks. -/
theorem continuesName_of_isRead {token : Token} (isRead : token.IsRead)
    (name : token.kind = .identifier) :
    ∀ character ∈ token.text.toList, Lexeme.continuesName character := by
  obtain ⟨left, reads⟩ := isRead
  have inner : token.lexeme.kind ≠ .endOfFile := by
    rw [show token.lexeme.kind = .identifier from name]
    exact TokenKind.noConfusion
  obtain ⟨first, taken, spelled, readsFrom, begins⟩ := Lexeme.exists_readFrom_of_read reads inner
  rw [show token.lexeme.kind = .identifier from name] at begins
  rw [Lexeme.readFrom_eq_of_startsName begins] at readsFrom
  have held : (Lexeme.readName (first :: (taken ++ left))).1 = token.text.toList :=
    congrArg (Lexeme.characters ∘ Prod.fst) readsFrom
  rw [← held]
  exact fun character present => Lexeme.continuesName_of_mem_readName present

/-- An atom that was read from a text is written as a canonical term. -/
theorem isWritten_atom {kind : NodeKind} {token : Token}
    (held : kind.atomToken? = some token.kind) (isRead : token.IsRead) :
    (ofKind kind [leaf token]).IsWritten := by
  have form : (ofKind kind [leaf token]).fullForm? = Tree.compose kind token.text [] := by
    have text : (ofKind kind [leaf token]).text = token.text := String.append_empty
    have none : Tree.fullFormOperands [leaf token] = [] := by
      rw [Tree.fullFormOperands, if_pos (isLeaf_leaf token)]
      rfl
    rw [← text, ofKind, Tree.fullForm?, none]
  have verbatim : token.kind ∈ Lexeme.atomKinds → (ofKind kind [leaf token]).fullForm?
      = some token.text → (ofKind kind [leaf token]).IsWritten := by
    intro plain form
    obtain ⟨left, reads⟩ := isRead
    refine ⟨.atom token.lexeme, .atom (Lexeme.isAtom_of_read plain reads), ?_⟩
    rw [form, Term.text]
    exact congrArg some String.ofList_toList.symm
  have labelled : token.kind = .slot ∨ token.kind = .slotSequence →
      (ofKind kind [leaf token]).fullForm?
        = some (Tree.bracketed kind.head [Tree.slotLabel token.text]) →
      (ofKind kind [leaf token]).IsWritten := by
    intro slot form
    obtain ⟨label, isAtom, same⟩ := exists_isAtom_of_slot isRead slot
    refine ⟨.construct kind [.atom label], Term.isCanonical_construct kind
      (List.forall_mem_singleton.mpr (.atom isAtom)), ?_⟩
    rw [form, same, Term.text_construct]
    rfl
  cases kind with
  | symbol | number | string =>
    refine verbatim ?_ form
    rw [← Option.some.inj held]
    decide
  | slot | slotSequence =>
    refine labelled ?_ form
    rw [← Option.some.inj held]
    decide
  | stringifiedSymbol =>
    have plain := continuesName_of_isRead isRead (Option.some.inj held).symm
    refine ⟨_, .atom (Lexeme.isAtom_quoted plain), ?_⟩
    rw [form]
    refine congrArg some ?_
    rw [← String.toList_inj]
    simp [Term.text]
  | _ => cases held

/-- Every operand that was read from a text is written as a canonical term. -/
theorem isWritten_of_isOperand {tree : SyntaxTree} (operand : tree.IsOperand)
    (isRead : ∀ token ∈ tree.tokens, token.IsRead) : tree.IsWritten := by
  induction tree using Tree.induct with
  | node label content children ih =>
    have below : ∀ child ∈ children, child.isLeaf = false → IsWritten child := by
      intro child present inner
      refine ih child present ⟨operand.fits.child present, inner⟩ fun token inside => ?_
      refine isRead token ?_
      rw [Tree.tokens_node]
      exact List.mem_append_right _ (List.mem_flatMap.mpr ⟨child, present, inside⟩)
    cases operand.fits.root with
    | leaf token =>
      have leaf : (leaf token).isLeaf = true := isLeaf_leaf token
      exact Bool.noConfusion (leaf.symm.trans operand.inner)
    | @atom kind token held =>
      exact isWritten_atom held (isRead token (by simp [Tree.tokens_node]))
    | construct bare takes =>
      obtain ⟨operands, canonical, count, forms⟩ := fullFormOperands_of_isWritten below
      obtain ⟨term, termCanonical, composed⟩ := exists_compose canonical (count ▸ takes)
        (Tree.node () content children).text
      refine ⟨term, termCanonical, ?_⟩
      rw [Tree.fullForm?, forms, composed]

/-- A file that was read from a text has a full form, one line of terms for each expression. -/
theorem exists_terms_of_parseSource (grammar : Grammar) (source : String) :
    ∃ terms : List Term, (∀ term ∈ terms, term.IsCanonical) ∧
      (parseSource grammar source).fullForm? = some (Term.lines terms) := by
  have parsed := parseTokens_tokenize grammar source
  obtain ⟨children, same, fits⟩ := everywhere_fits_of_parseTokens parsed
  obtain ⟨_, kept⟩ := tokens_of_parseTokens parsed
  rw [same] at kept ⊢
  have isRead : ∀ token ∈ children.flatMap Tree.tokens, token.IsRead := by
    rw [tokens_ofKind] at kept
    intro token present
    rw [kept] at present
    exact isRead_of_mem_tokensFrom (List.mem_of_mem_filter present)
  have each : ∀ child ∈ children, child.isLeaf = false → child.IsWritten :=
    fun child present inner => isWritten_of_isOperand ⟨fits child present, inner⟩
      fun token inside => isRead token (List.mem_flatMap.mpr ⟨child, present, inside⟩)
  obtain ⟨terms, canonical, _, forms⟩ := fullFormOperands_of_isWritten each
  refine ⟨terms, canonical, ?_⟩
  rw [ofKind, Tree.fullForm?, forms, Tree.compose, Tree.allSome_map_some]
  rfl

/-- Every text has a full form, which is its own full form under any other choice of precedences:
it is read without errors, as a file of calls and plain atoms. -/
theorem fullForm?_parseSource_fullForm (grammar other : Grammar) (source : String) :
    ∃ form, (parseSource grammar source).fullForm? = some form ∧
      (parseSource other form).fullForm? = some form ∧
      ∀ node ∈ (parseSource other form).walk, node.kind ∈
        [NodeKind.file, .functionCall, .symbol, .number, .string, .token, .whitespace] := by
  obtain ⟨terms, canonical, form⟩ := exists_terms_of_parseSource grammar source
  obtain ⟨children, same, stand⟩ := exists_parseSource_lines other canonical
  obtain ⟨others, sameToo, fits⟩ :=
    everywhere_fits_of_parseTokens (parseTokens_tokenize other (Term.lines terms))
  have equal : others = children := by
    rw [same] at sameToo
    cases sameToo
    rfl
  subst equal
  refine ⟨Term.lines terms, form, ?_, ?_⟩
  · have forms := Tree.fullFormOperands_of_terms? (fun tree _ term => Tree.fullForm?_of_term?) stand
    rw [same, ofKind, Tree.fullForm?, forms, Tree.compose, Tree.allSome_map_some]
    rfl
  · rw [same]
    refine Tree.everywhere_node.mpr ⟨List.mem_cons_self, fun child present => ?_⟩
    have known := everywhere_kind_of_term? (fits child present) (exists_term?_of_mem stand present)
    exact known.mono fun node held => List.mem_cons_of_mem _ held

end WolframSyntax
