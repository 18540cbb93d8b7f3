import WolframSyntax.Proofs.Climbing

/-!
# What may stand in a construct

Most constructs have arbitrary expressions as operands. The exceptions are listed by
`NodeKind.holds`: a blank has a name, a group that is not closed has an error behind its expression,
the tags of a message name are strings or names that stand for their text, and only a sequence has
empty expressions. Commas stand between the operands of lists, calls and parts, and nowhere else
unless they are reported (`NodeKind.separates`).

A frame has such children as the construct may have that it will become (`Frame.IsLicensed`), and
whatever it does with an operand that it accepts leaves it so (`Frame.IsLicensed.receive`).
-/

namespace WolframSyntax

open SyntaxTree

/-- Only trivia stand in front of the word. -/
def Word.IsTidy (word : Word) : Prop := ∀ token ∈ word.lead, token.isTrivia

/-- The words of a list have trivia in front of them, and so has the end. -/
theorem WordStream.isTidy_after {lead : List Token} (trivia : ∀ token ∈ lead, token.isTrivia)
    (tokens : List Token) :
    (∀ word ∈ (after lead tokens).words, word.IsTidy) ∧
      ∀ ending ∈ (after lead tokens).ending, ending.1.IsTidy := by
  induction tokens generalizing lead with
  | nil => exact ⟨List.forall_mem_nil _, fun _ none => by cases none⟩
  | cons token tokens ih =>
    unfold after
    split
    · next blank =>
      exact ih (List.forall_mem_append.mpr ⟨trivia, List.forall_mem_singleton.mpr blank⟩)
    · split
      · refine ⟨List.forall_mem_nil _, fun ending same => ?_⟩
        cases same
        exact trivia
      · obtain ⟨words, ending⟩ := ih (List.forall_mem_nil _)
        exact ⟨List.forall_mem_cons.mpr ⟨trivia, words⟩, ending⟩

namespace NodeKind

/-- Whether an expression of a kind may be an operand of any construct. -/
def isOrdinary : NodeKind → Bool
  | .null | .stringifiedSymbol | .file | .token | .whitespace => false
  | _ => true

/-- Whether a construct of a kind may have an expression of another kind as its operand with a
number, which counts from zero. -/
def holds : NodeKind → Nat → NodeKind → Bool
  | .blank, _, operand | .blankSequence, _, operand | .blankNullSequence, _, operand =>
    operand == .symbol
  | .group, _ + 1, operand => operand == .error
  | .messageName, _ + 1, operand =>
    operand == .stringifiedSymbol || operand == .string || operand == .error
  | .compoundExpression, _ + 1, operand => operand.isOrdinary || operand == .null
  | _, _, operand => operand.isOrdinary

/-- Whether commas may stand in a construct of a kind. The one in an error is reported by it. -/
def separates : NodeKind → Bool
  | .list | .functionCall | .part | .error => true
  | _ => false

/-- Whether a construct of a kind is itself ordinary and makes no difference between operands. -/
def isPlain (kind : NodeKind) : Bool :=
  kind.isOrdinary && !kind.isBlank && kind != .group && kind != .messageName

/-- A plain construct may be an operand of any construct. -/
theorem isOrdinary_of_isPlain {kind : NodeKind} (plain : kind.isPlain) : kind.isOrdinary := by
  simp only [isPlain, Bool.and_eq_true] at plain
  exact plain.1.1.1

/-- A plain construct is no blank. -/
theorem isBlank_eq_false_of_isPlain {kind : NodeKind} (plain : kind.isPlain) :
    kind.isBlank = false := by
  simp only [isPlain, Bool.and_eq_true, Bool.not_eq_true'] at plain
  exact plain.1.1.2

theorem ne_null_of_isOrdinary {kind : NodeKind} (ordinary : kind.isOrdinary) : kind ≠ .null := by
  rintro rfl
  cases ordinary

theorem isOrdinary_of_isBlank {kind : NodeKind} (blank : kind.isBlank) : kind.isOrdinary := by
  cases kind <;> first | rfl | cases blank

/-- An ordinary expression is an inner node. -/
theorem isLeaf_eq_false_of_isOrdinary {kind : NodeKind} (ordinary : kind.isOrdinary) :
    kind.isLeaf = false := by
  cases kind <;> first | rfl | cases ordinary

/-- The first operand of a construct is ordinary, and a blank has nothing but a name. -/
theorem holds_zero {kind operand : NodeKind} (named : kind.isBlank = false)
    (ordinary : operand.isOrdinary) : kind.holds 0 operand := by
  cases kind <;> first | exact ordinary | cases named

/-- A plain construct may have any ordinary expression as any operand. -/
theorem holds_of_isPlain {kind operand : NodeKind} (plain : kind.isPlain) (number : Nat)
    (ordinary : operand.isOrdinary) : kind.holds number operand := by
  cases number with
  | zero => exact holds_zero (isBlank_eq_false_of_isPlain plain) ordinary
  | succ number =>
    cases kind <;>
      first
        | exact ordinary
        | exact Bool.or_eq_true_iff.mpr (.inl ordinary)
        | cases plain

end NodeKind

namespace Tree

variable {Label : Type}

/-- Whether a tree is the leaf of a comma. -/
def isComma (tree : Tree Label) : Bool :=
  tree.isLeaf && tree.content.token.any fun token => token.kind == .operator .comma

end Tree

/-- What may stand below a construct of a kind. -/
structure NodeKind.Licenses {Label : Type} (kind : NodeKind) (children : List (Tree Label)) :
    Prop where
  operands : ∀ number operand,
    (children.filter fun child => !child.isLeaf)[number]? = some operand →
    kind.holds number operand.kind
  commas : ∀ child ∈ children, child.isComma → kind.separates
  empty : kind = .null → children = []

/-- The root has only children that it may have. -/
def Tree.IsLicensed {Label : Type} (tree : Tree Label) : Prop := tree.kind.Licenses tree.children

namespace NodeKind

variable {Label : Type} {kind other : NodeKind} {children more : List (Tree Label)}

/-- Every construct may have no children. -/
theorem licenses_nil (kind : NodeKind) : kind.Licenses ([] : List (Tree Label)) :=
  ⟨fun _ _ none => (by cases none), List.forall_mem_nil _, fun _ => rfl⟩

/-- A construct may have further children if the operands among them are allowed where they
stand. -/
theorem Licenses.append (licenses : kind.Licenses children) (filled : kind ≠ .null)
    (operands : ∀ number operand, (more.filter fun child => !child.isLeaf)[number]? = some operand →
      kind.holds ((children.filter fun child => !child.isLeaf).length + number) operand.kind)
    (commas : ∀ child ∈ more, child.isComma → kind.separates) :
    kind.Licenses (children ++ more) := by
  refine ⟨fun number operand found => ?_, List.forall_mem_append.mpr ⟨licenses.commas, commas⟩,
    fun none => absurd none filled⟩
  rw [List.filter_append] at found
  by_cases old : number < (children.filter fun child => !child.isLeaf).length
  · rw [List.getElem?_append_left old] at found
    exact licenses.operands number operand found
  · rw [List.getElem?_append_right (Nat.not_lt.mp old)] at found
    have later := operands _ operand found
    rwa [Nat.add_sub_cancel' (Nat.not_lt.mp old)] at later

/-- A construct may have further leaves if there is no comma among them or commas are allowed. -/
theorem Licenses.append_leaves (licenses : kind.Licenses children) (filled : kind ≠ .null)
    (leaves : ∀ child ∈ more, child.isLeaf)
    (commas : ∀ child ∈ more, child.isComma → kind.separates) :
    kind.Licenses (children ++ more) := by
  have none : (more.filter fun child => !child.isLeaf) = [] :=
    List.filter_eq_nil_iff.mpr fun child present => by simp [leaves child present]
  refine licenses.append filled ?_ commas
  rw [none]
  exact fun _ _ absent => by cases absent

/-- A construct may have one more operand if it is allowed behind the others. -/
theorem Licenses.append_operand (licenses : kind.Licenses children) (filled : kind ≠ .null)
    {tree : Tree Label} (inner : tree.isLeaf = false)
    (holds : kind.holds (children.filter fun child => !child.isLeaf).length tree.kind) :
    kind.Licenses (children ++ [tree]) := by
  refine licenses.append filled (fun number operand found => ?_) ?_
  · rw [List.filter_cons_of_pos (by simp [inner]), List.filter_nil] at found
    obtain ⟨first, rfl⟩ := List.getElem?_eq_some_iff.mp found
    obtain rfl : number = 0 := Nat.lt_one_iff.mp first
    exact holds
  · refine List.forall_mem_singleton.mpr fun comma => ?_
    rw [Tree.isComma, inner] at comma
    cases comma

/-- A construct may become another one that allows the same. -/
theorem Licenses.mono (licenses : kind.Licenses children)
    (holds : ∀ number operand, kind.holds number operand → other.holds number operand)
    (separates : kind.separates → other.separates) (filled : other ≠ .null) :
    other.Licenses children :=
  ⟨fun number operand found => holds _ _ (licenses.operands number operand found),
    fun child present comma => separates (licenses.commas child present comma),
    fun none => absurd none filled⟩

end NodeKind

namespace SyntaxTree

/-- An expression that may stand where any expression may, with all that is below it. -/
structure IsOrdinary (tree : SyntaxTree) : Prop where
  kind : tree.kind.isOrdinary
  below : tree.Everywhere Tree.IsLicensed

theorem IsOrdinary.inner {tree : SyntaxTree} (ordinary : tree.IsOrdinary) : tree.isLeaf = false :=
  NodeKind.isLeaf_eq_false_of_isOrdinary ordinary.kind

/-- A token's leaf has no children that would need a licence. -/
theorem everywhere_isLicensed_leaf (token : Token) : (leaf token).Everywhere Tree.IsLicensed :=
  Tree.everywhere_node.mpr ⟨NodeKind.licenses_nil _, List.forall_mem_nil _⟩

/-- An error in place of something absent is ordinary. -/
theorem isOrdinary_absent_error (message : Option String) (next : Token) :
    (absent .error message next).IsOrdinary :=
  ⟨rfl, Tree.everywhere_node.mpr ⟨NodeKind.licenses_nil _, List.forall_mem_nil _⟩⟩

/-- A comma is a leaf. -/
theorem isComma_of_inner {tree : SyntaxTree} (inner : tree.isLeaf = false) :
    tree.isComma = false := by
  rw [Tree.isComma, inner, Bool.false_and]

/-- A leaf is one of a comma just in case its token is a comma. -/
theorem isComma_leaf {token : Token} :
    (leaf token).isComma = (token.kind == .operator .comma) := by
  rw [Tree.isComma, isLeaf_leaf]
  rfl

end SyntaxTree

/-! ## Tables -/

/-- Whether an opening makes plain expressions, or blanks. -/
def Opening.isPlain : Opening → Bool
  | .atom kind | .operator kind _ => kind.isPlain
  | .blank kind => kind.isBlank
  | .group | .list => true

/-- Whether a continuation makes plain expressions, or gives a name to a blank. -/
def Continuation.isPlain : Continuation → Bool
  | .binary kind _ | .flat kind | .suffix kind => kind.isPlain
  | .pattern mark => mark.isBlank
  | _ => true

/-- What begins an expression is plain and no comma. -/
theorem Opening.isPlain_of_ofKind? {kind : TokenKind} {opening : Opening}
    (opens : Opening.ofKind? kind = some opening) :
    opening.isPlain ∧ kind ≠ .operator .comma := by
  cases kind with
  | operator sign =>
    have table : ∀ sign, (Opening.ofOperator? sign).all fun opening =>
        opening.isPlain && sign != .comma := by
      intro sign
      cases sign <;> rfl
    have known := table sign
    rw [show Opening.ofOperator? sign = some opening from opens] at known
    simpa using known
  | identifier | number | string | slot | slotSequence =>
    cases opens
    exact ⟨rfl, TokenKind.noConfusion⟩
  | whitespace | lineBreak | comment | error | endOfFile | other => cases opens

/-- What continues an expression is plain and no comma. -/
theorem Continuation.isPlain_of_ofOperator? {sign : Operator} {continuation : Continuation}
    (form : Continuation.ofOperator? sign = some continuation) :
    continuation.isPlain ∧ sign ≠ .comma := by
  have table : ∀ sign, (Continuation.ofOperator? sign).all fun continuation =>
      continuation.isPlain && sign != .comma := by
    intro sign
    cases sign <;> rfl
  have known := table sign
  rw [form] at known
  simpa using known

/-! ## Frames -/

/-- The construct that a frame becomes. -/
def Role.kind : Role → NodeKind
  | .group => .group
  | .items enclosure => enclosure.kind
  | .operand kind | .chain kind _ => kind
  | .compound => .compoundExpression
  | .tag _ => .messageName
  | .tagPattern => .tagSet

/-- Whether the operator of a frame makes plain expressions. -/
def Role.isPlain : Role → Bool
  | .operand kind | .chain kind _ => kind.isPlain
  | _ => true

/-- Whether a frame waits for the tag of a message name. -/
def Role.isTag : Role → Bool
  | .tag _ => true
  | _ => false

/-- A plain role makes an ordinary construct. -/
theorem Role.isOrdinary_kind {role : Role} (plain : role.isPlain) : role.kind.isOrdinary := by
  cases role with
  | operand | chain => exact NodeKind.isOrdinary_of_isPlain plain
  | items enclosure => cases enclosure <;> rfl
  | _ => rfl

/-- A frame has such children as the construct may have that it becomes. -/
structure Frame.IsLicensed (frame : Frame) : Prop where
  plain : frame.role.isPlain
  licenses : frame.role.kind.Licenses frame.children
  below : ∀ child ∈ frame.children, child.Everywhere Tree.IsLicensed

/-- An expression that the frame may have as its next operand. -/
structure Frame.Accepts (frame : Frame) (tree : SyntaxTree) : Prop where
  below : tree.Everywhere Tree.IsLicensed
  inner : tree.isLeaf = false
  kind : tree.kind.isOrdinary ∨ frame.role = .compound ∧ tree.kind = .null

namespace Word

variable {word : Word}

/-- There is no comma in front of a word. -/
theorem IsTidy.isComma_leadLeaves (tidy : word.IsTidy) :
    ∀ child ∈ word.leadLeaves, child.isComma = false := by
  intro child present
  obtain ⟨token, lead, rfl⟩ := List.mem_map.mp present
  rw [isComma_leaf, beq_eq_false_iff_ne]
  intro comma
  have trivia := tidy token lead
  rw [Token.isTrivia, comma] at trivia
  cases trivia

/-- A comma among the tokens of a word is the word itself. -/
theorem IsTidy.isOperator_comma_of_leaves (tidy : word.IsTidy) {child : SyntaxTree}
    (present : child ∈ word.leaves) (comma : child.isComma) : word.isOperator .comma := by
  rcases List.mem_append.mp present with lead | token
  · rw [tidy.isComma_leadLeaves child lead] at comma
    cases comma
  · rw [List.mem_singleton.mp token] at comma
    exact isComma_leaf.symm.trans comma

theorem everywhere_isLicensed_leadLeaves (word : Word) :
    ∀ child ∈ word.leadLeaves, child.Everywhere Tree.IsLicensed := by
  intro child present
  obtain ⟨token, _, rfl⟩ := List.mem_map.mp present
  exact everywhere_isLicensed_leaf token

theorem everywhere_isLicensed_leaves (word : Word) :
    ∀ child ∈ word.leaves, child.Everywhere Tree.IsLicensed := by
  refine List.forall_mem_append.mpr ⟨word.everywhere_isLicensed_leadLeaves, ?_⟩
  exact List.forall_mem_singleton.mpr (everywhere_isLicensed_leaf word.token)

end Word

/-- Every frame accepts an ordinary expression. -/
theorem SyntaxTree.IsOrdinary.accepts {tree : SyntaxTree} (ordinary : tree.IsOrdinary)
    (frame : Frame) : frame.Accepts tree :=
  ⟨ordinary.below, ordinary.inner, .inl ordinary.kind⟩

namespace Frame

variable {frame next : Frame} {word : Word} {outcome : Outcome}

/-- No frame makes an empty expression. -/
theorem IsLicensed.filled (licensed : frame.IsLicensed) : frame.role.kind ≠ .null :=
  NodeKind.ne_null_of_isOrdinary (Role.isOrdinary_kind licensed.plain)

/-- The expressions of a frame are its operands. -/
theorem length_expressions (frame : Frame) : frame.expressions.length = frame.operands :=
  List.countP_eq_length_filter.symm

/-- A licensed frame may have more children if its construct may have them. -/
theorem IsLicensed.append (licensed : frame.IsLicensed) (role : next.role = frame.role)
    {more : List SyntaxTree} (children : next.children = frame.children ++ more)
    (licenses : frame.role.kind.Licenses (frame.children ++ more))
    (below : ∀ child ∈ more, child.Everywhere Tree.IsLicensed) : next.IsLicensed := by
  refine ⟨role ▸ licensed.plain, ?_, ?_⟩
  · rwa [role, children]
  · rw [children]
    exact List.forall_mem_append.mpr ⟨licensed.below, below⟩

/-- A licensed frame may have more tokens, and commas where its construct separates by them. -/
theorem IsLicensed.append_leaves (licensed : frame.IsLicensed) (role : next.role = frame.role)
    {more : List SyntaxTree} (children : next.children = frame.children ++ more)
    (leaves : ∀ child ∈ more, ∃ token, child = leaf token)
    (commas : ∀ child ∈ more, child.isComma → frame.role.kind.separates) : next.IsLicensed := by
  refine licensed.append role children
    (licensed.licenses.append_leaves licensed.filled (fun child present => ?_) commas)
    fun child present => ?_
  all_goals obtain ⟨token, rfl⟩ := leaves child present
  · exact isLeaf_leaf token
  · exact everywhere_isLicensed_leaf token

/-- A licensed frame may have one more operand if its construct may have it in that place. -/
theorem IsLicensed.append_operand (licensed : frame.IsLicensed) (role : next.role = frame.role)
    {tree : SyntaxTree} (children : next.children = frame.children ++ [tree])
    (below : tree.Everywhere Tree.IsLicensed) (inner : tree.isLeaf = false)
    (holds : frame.role.kind.holds frame.operands tree.kind) : next.IsLicensed := by
  rw [← frame.length_expressions] at holds
  exact licensed.append role children
    (licensed.licenses.append_operand licensed.filled inner holds)
    (List.forall_mem_singleton.mpr below)

/-- A licensed frame takes a word that is no comma, or is one where commas separate. -/
theorem IsLicensed.take (licensed : frame.IsLicensed) (tidy : word.IsTidy)
    (commas : word.isOperator .comma → frame.role.kind.separates) :
    (frame.take word).IsLicensed :=
  licensed.append_leaves rfl rfl (exists_leaf_of_mem_leaves word)
    fun _ present comma => commas (tidy.isOperator_comma_of_leaves present comma)

/-- A frame may take every operator other than the comma. -/
theorem IsLicensed.take_operator (licensed : frame.IsLicensed) (tidy : word.IsTidy)
    {sign : Operator} (same : word.isOperator sign) (other : sign ≠ .comma) :
    (frame.take word).IsLicensed := by
  refine licensed.take tidy fun comma => absurd ?_ other
  rw [Word.isOperator, beq_iff_eq] at same comma
  cases same.symm.trans comma
  rfl

theorem IsLicensed.takeLead (licensed : frame.IsLicensed) (tidy : word.IsTidy) :
    (frame.takeLead word).IsLicensed := by
  refine licensed.append_leaves rfl rfl (exists_leaf_of_mem_leadLeaves word) ?_
  intro child present comma
  rw [tidy.isComma_leadLeaves child present] at comma
  cases comma

/-- The construct that a frame becomes is ordinary. -/
theorem IsLicensed.isOrdinary_outcome (licensed : frame.IsLicensed) :
    (frame.outcome frame.role.kind).tree.IsOrdinary :=
  ⟨Role.isOrdinary_kind licensed.plain,
    Tree.everywhere_node.mpr ⟨licensed.licenses, licensed.below⟩⟩

/-- Errors may be reported behind the operands of a construct. -/
theorem IsLicensed.fail (licensed : frame.IsLicensed) (diagnostics : List Diagnostic)
    (holds : ∀ number, frame.operands ≤ number → frame.role.kind.holds number .error) :
    (frame.fail diagnostics word).IsLicensed := by
  refine licensed.append rfl rfl (licensed.licenses.append licensed.filled ?_ ?_) ?_
  · intro number operand found
    obtain ⟨diagnostic, _, rfl⟩ :=
      List.mem_map.mp (List.mem_filter.mp (List.mem_of_getElem? found)).1
    refine holds _ ?_
    rw [← frame.length_expressions]
    exact Nat.le_add_right _ _
  all_goals
    intro child present
    obtain ⟨diagnostic, _, rfl⟩ := List.mem_map.mp present
  · exact fun comma => by cases comma
  · exact (isOrdinary_absent_error _ _).below

/-- Where a frame accepts an expression, its construct may have it as the next operand. Message
names are excepted, since they keep their tags in another form. -/
theorem Accepts.holds (accepts : frame.Accepts outcome.tree) (licensed : frame.IsLicensed)
    (fits : frame.Fits) (untagged : frame.role.isTag = false) :
    frame.role.kind.holds frame.operands outcome.tree.kind := by
  have admits := fits.admits
  have plain := licensed.plain
  have kind := accepts.kind
  cases role : frame.role with
  | group =>
    rw [role] at admits kind
    rw [show frame.operands = 0 from admits]
    exact kind.resolve_right fun sequence => by cases sequence.1
  | compound =>
    rw [role] at admits
    obtain ⟨number, behind⟩ := Nat.exists_eq_add_of_le' (show 1 ≤ frame.operands from admits)
    rw [behind]
    refine Bool.or_eq_true_iff.mpr (kind.imp_right fun sequence => ?_)
    exact beq_iff_eq.mpr sequence.2
  | tag last =>
    rw [role] at untagged
    cases untagged
  | operand | chain =>
    rw [role] at plain kind
    exact NodeKind.holds_of_isPlain plain _ (kind.resolve_right fun sequence => by cases sequence.1)
  | items enclosure =>
    rw [role] at kind
    have ordinary := kind.resolve_right fun sequence => by cases sequence.1
    refine NodeKind.holds_of_isPlain ?_ _ ordinary
    cases enclosure <;> rfl
  | tagPattern =>
    rw [role] at kind
    exact NodeKind.holds_of_isPlain rfl _ (kind.resolve_right fun sequence => by cases sequence.1)

/-- A licensed frame takes an operand that it accepts, unless it waits for a tag. -/
theorem IsLicensed.add (licensed : frame.IsLicensed) (accepts : frame.Accepts outcome.tree)
    (fits : frame.Fits) (untagged : frame.role.isTag = false) :
    (frame.add outcome).IsLicensed :=
  licensed.append_operand rfl rfl accepts.below accepts.inner
    (accepts.holds licensed fits untagged)

end Frame

/-- What a reaction leaves has only children that it may have. -/
def Reaction.IsLicensed : Reaction → Prop
  | .waits frame focus => frame.IsLicensed ∧ focus.hasOperand = false
  | .begins frame _ => frame.IsLicensed
  | .closes outcome | .ends outcome => outcome.tree.IsOrdinary

namespace Frame

variable {frame next : Frame} {word : Word} {outcome : Outcome}

/-- A bracketed construct is licensed with its close and with the errors in place of it. -/
theorem IsLicensed.close (licensed : frame.IsLicensed) (tidy : word.IsTidy) {closing : Operator}
    {unclosed : List Diagnostic} (other : closing ≠ .comma)
    (holds : ∀ number, frame.operands ≤ number → frame.role.kind.holds number .error) :
    (frame.close frame.role.kind closing unclosed word).IsLicensed := by
  unfold Frame.close
  split
  · next same => exact (licensed.take_operator tidy same other).isOrdinary_outcome
  · exact (licensed.fail unclosed holds).isOrdinary_outcome

/-- Items are licensed with their close, with a comma, and with the errors in place of both. -/
theorem IsLicensed.closeItems (licensed : frame.IsLicensed) (tidy : word.IsTidy)
    {enclosure : Enclosure} (role : frame.role = .items enclosure) :
    (frame.closeItems enclosure word).IsLicensed := by
  have other : enclosure.closing ≠ .comma := by cases enclosure <;> decide
  have kind : frame.role.kind = enclosure.kind := congrArg Role.kind role
  unfold Frame.closeItems
  split
  · next part => exact ⟨licensed.take_operator tidy part.2 other, rfl⟩
  · rw [← kind]
    refine licensed.close tidy other fun number _ => ?_
    rw [kind]
    cases enclosure <;> rfl

/-- A tag as it is kept may stand in a message name behind the first operand. -/
theorem tagOutcome_licensed (ordinary : outcome.tree.IsOrdinary) (number : Nat) :
    (tagOutcome outcome).1.tree.Everywhere Tree.IsLicensed ∧
      (tagOutcome outcome).1.tree.isLeaf = false ∧
        NodeKind.messageName.holds (number + 1) (tagOutcome outcome).1.tree.kind := by
  unfold tagOutcome
  split
  · next failed => exact ⟨ordinary.below, ordinary.inner, by rw [failed]; rfl⟩
  · next symbol =>
    have named : NodeKind.symbol.Licenses outcome.tree.children := symbol ▸ ordinary.below.root
    have kept : NodeKind.stringifiedSymbol.Licenses outcome.tree.children :=
      named.mono (fun _ _ => id) id (by decide)
    exact ⟨Tree.everywhere_node.mpr ⟨kept, fun child present => ordinary.below.child present⟩,
      rfl, rfl⟩
  · next string => exact ⟨ordinary.below, ordinary.inner, by rw [string]; rfl⟩
  · have held : NodeKind.error.holds 0 outcome.tree.kind := ordinary.kind
    exact ⟨Tree.everywhere_node.mpr ⟨(NodeKind.licenses_nil .error).append_operand (by decide)
      ordinary.inner held, List.forall_mem_singleton.mpr ordinary.below⟩, rfl, rfl⟩

/-- Outside of sequences, a frame accepts ordinary expressions only. -/
theorem Accepts.isOrdinary (accepts : frame.Accepts outcome.tree) (plain : frame.role ≠ .compound) :
    outcome.tree.IsOrdinary :=
  ⟨accepts.kind.resolve_right fun sequence => plain sequence.1, accepts.below⟩

/-- A message name takes only a tag as such, and an error in place of anything else. -/
theorem IsLicensed.receive_tag {floor : Int} {children : List SyntaxTree}
    {succeeded last bracketed : Bool}
    (licensed : IsLicensed ⟨.tag last, floor, children, succeeded⟩)
    (fits : Frame.Fits ⟨.tag last, floor, children, succeeded⟩) (tidy : word.IsTidy)
    (ordinary : outcome.tree.IsOrdinary) :
    (Frame.receive ⟨.tag last, floor, children, succeeded⟩ bracketed outcome word).IsLicensed := by
  obtain ⟨number, behind⟩ : ∃ number, operandCount children = number + 1 := by
    refine Nat.exists_eq_add_of_le' (?_ : 1 ≤ operandCount children)
    rw [show operandCount children = if last then 2 else 1 from fits.admits]
    cases last <;> decide
  obtain ⟨below, inner, holds⟩ := tagOutcome_licensed ordinary number
  have fed : ∀ succeeded, IsLicensed
      ⟨.tag last, floor, children ++ [(tagOutcome outcome).1.tree], succeeded⟩ := by
    refine fun succeeded => licensed.append_operand rfl rfl below inner ?_
    change NodeKind.messageName.holds (operandCount children) _
    rw [behind]
    exact holds
  unfold Frame.receive
  dsimp only
  split
  · next more =>
    have colon : word.isOperator .doubleColon := (Bool.and_eq_true_iff.mp more).2
    obtain ⟨_, licenses, below⟩ := (fed _).take_operator tidy colon (by decide)
    exact ⟨⟨rfl, licenses, below⟩, rfl⟩
  · exact (fed _).isOrdinary_outcome

/-- The pattern of a tag is followed by an assignment or by an error in place of it. -/
theorem IsLicensed.receive_tagPattern {floor : Int} {children : List SyntaxTree}
    {succeeded bracketed : Bool} (licensed : IsLicensed ⟨.tagPattern, floor, children, succeeded⟩)
    (fits : Frame.Fits ⟨.tagPattern, floor, children, succeeded⟩) (tidy : word.IsTidy)
    (accepts : Accepts ⟨.tagPattern, floor, children, succeeded⟩ outcome.tree) :
    (Frame.receive ⟨.tagPattern, floor, children, succeeded⟩ bracketed outcome
      word).IsLicensed := by
  have fed := licensed.add accepts fits rfl
  unfold Frame.receive
  dsimp only
  split
  · exact fed.isOrdinary_outcome
  split
  · next set =>
    obtain ⟨_, licenses, below⟩ := fed.take_operator tidy set (by decide)
    exact ⟨⟨rfl, licenses, below⟩, rfl⟩
  split
  · next set =>
    obtain ⟨_, licenses, below⟩ := fed.take_operator tidy set (by decide)
    exact ⟨⟨rfl, licenses.mono (fun _ _ => id) id NodeKind.noConfusion, below⟩, rfl⟩
  · exact (fed.fail _ fun _ _ => rfl).isOrdinary_outcome

/-- What a frame does with an operand that it accepts leaves it with children it may have. -/
theorem IsLicensed.receive (licensed : frame.IsLicensed) (fits : frame.Fits) (tidy : word.IsTidy)
    (bracketed : Bool) (accepts : frame.Accepts outcome.tree) :
    (frame.receive bracketed outcome word).IsLicensed := by
  obtain ⟨role, floor, children, succeeded⟩ := frame
  cases role with
  | group =>
    have fed := licensed.add accepts fits rfl
    have one : 1 ≤ (Frame.add ⟨.group, floor, children, succeeded⟩ outcome).operands := by
      rw [Frame.operands, Frame.add, operandCount_append]
      simp [operandCount, accepts.inner]
    refine fed.close tidy (by decide) fun number behind => ?_
    cases number with
    | zero => exact absurd (Nat.le_trans one behind) (Nat.not_succ_le_zero 0)
    | succ => rfl
  | items enclosure =>
    have fed := licensed.add accepts fits rfl
    unfold Frame.receive
    dsimp only
    split
    · refine ⟨fed.take tidy fun _ => ?_, rfl⟩
      cases enclosure <;> rfl
    · exact fed.closeItems tidy rfl
  | operand kind => exact (licensed.add accepts fits rfl).isOrdinary_outcome
  | chain kind sign =>
    have fed := licensed.add accepts fits rfl
    unfold Frame.receive
    dsimp only
    split
    · exact fed.isOrdinary_outcome
    split
    · next next _ link =>
      obtain ⟨same, form, _⟩ := Word.of_link?_eq_sign link
      split
      · exact ⟨fed.take_operator tidy (beq_iff_eq.mpr same)
          (Continuation.isPlain_of_ofOperator? form).2, rfl⟩
      · exact fed.isOrdinary_outcome
    · split
      · exact fed
      · exact fed.isOrdinary_outcome
    · exact fed.isOrdinary_outcome
  | compound =>
    have fed := licensed.add accepts fits rfl
    unfold Frame.receive
    dsimp only
    split
    · next more =>
      exact ⟨fed.take_operator tidy (Bool.and_eq_true_iff.mp more).1 (by decide), rfl⟩
    · exact fed.isOrdinary_outcome
  | tag last => exact licensed.receive_tag fits tidy (accepts.isOrdinary Role.noConfusion)
  | tagPattern => exact licensed.receive_tagPattern fits tidy accepts

end Frame

end WolframSyntax
