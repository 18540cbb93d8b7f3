import WolframSyntax.Proofs.Files
import WolframSyntax.Proofs.Moves
import WolframSyntax.Proofs.Schema
import WolframSyntax.Reading.File

/-!
# Everything that is read fits the schema

Frames and foci keep what is needed to make fitting nodes of them: a frame has as many operands as
its role wants, and a focus holds operands only. Every move of a reading keeps that up
(`Reading.Passes.fits`, `Reading.Takes.fits`), so all nodes of a file fit the schema
(`everywhere_fits_of_parseTokens`).
-/

namespace WolframSyntax

open SyntaxTree

/-- How many operands a construct has while it waits for what its role says. -/
def Role.Admits : Role → Nat → Prop
  | .group, count => count = 0
  | .items .list, _ => True
  | .items _, count => 1 ≤ count
  | .operand kind, count => kind.takes (count + 1)
  | .chain kind _, count => kind.isFlat ∧ 1 ≤ count
  | .compound, count => 1 ≤ count
  | .tag last, count => count = if last then 2 else 1
  | .tagPattern, count => count = 1

/-- All nodes below a frame fit the schema. -/
def Frame.Regular (frame : Frame) : Prop :=
  ∀ child ∈ frame.children, child.Everywhere SyntaxTree.Fits

/-- The number of operands that a frame has. -/
def Frame.operands (frame : Frame) : Nat := operandCount frame.children

/-- The nodes below a frame fit the schema, and there are as many operands as its role wants. -/
structure Frame.Fits (frame : Frame) : Prop where
  regular : frame.Regular
  admits : frame.role.Admits frame.operands

/-- What a focus holds fits the schema, and the innermost frame has a head where the focus is on
the arguments of a call or the end of a part. -/
def Focus.Fits (frame? : Option Frame) : Focus → Prop
  | .complete outcome => outcome.tree.IsOperand
  | .blankName kind _ named => kind.isBlank ∧ ∀ left ∈ named, left.IsOperand
  | .arguments | .partEnd => ∀ frame ∈ frame?, 1 ≤ frame.operands
  | .operand | .firstItem | .statement => True

/-- All parts of a reading fit the schema. -/
structure Reading.Fits (reading : Reading) : Prop where
  frames : ∀ frame ∈ reading.frames, frame.Fits
  focus : reading.focus.Fits reading.frames.head?

theorem Word.everywhere_fits_leadLeaves (word : Word) :
    ∀ child ∈ word.leadLeaves, child.Everywhere SyntaxTree.Fits := by
  intro child present
  obtain ⟨token, _, rfl⟩ := List.mem_map.mp present
  exact everywhere_fits_leaf token

/-- The tokens of a word fit the schema. -/
theorem Word.everywhere_fits_leaves (word : Word) :
    ∀ child ∈ word.leaves, child.Everywhere SyntaxTree.Fits := by
  intro child present
  rcases List.mem_append.mp present with lead | token
  · exact word.everywhere_fits_leadLeaves child lead
  · rw [List.mem_singleton.mp token]
    exact everywhere_fits_leaf word.token

@[simp] theorem Word.operandCount_leadLeaves (word : Word) : operandCount word.leadLeaves = 0 :=
  operandCount_map_leaf word.lead

@[simp] theorem Word.operandCount_leaves (word : Word) : operandCount word.leaves = 0 := by
  rw [Word.leaves, operandCount_append, operandCount_leadLeaves]
  simp [Word.leaf, operandCount]

namespace Frame

variable {frame : Frame} {word : Word}

/-- A regular frame stays regular with an operand. -/
theorem Regular.add {outcome : Outcome} (regular : frame.Regular)
    (operand : outcome.tree.IsOperand) : (frame.add outcome).Regular := by
  intro child present
  rcases List.mem_append.mp present with before | last
  · exact regular child before
  · rw [List.mem_singleton.mp last]
    exact operand.fits

theorem Regular.take (regular : frame.Regular) (word : Word) : (frame.take word).Regular := by
  intro child present
  exact (List.mem_append.mp present).elim (regular child) (word.everywhere_fits_leaves child)

theorem Regular.takeLead (regular : frame.Regular) (word : Word) :
    (frame.takeLead word).Regular := by
  intro child present
  exact (List.mem_append.mp present).elim (regular child) (word.everywhere_fits_leadLeaves child)

/-- Errors for missing things fit the schema. -/
theorem Regular.fail (regular : frame.Regular) (diagnostics : List Diagnostic) (word : Word) :
    (frame.fail diagnostics word).Regular := by
  intro child present
  rcases List.mem_append.mp present with before | missing
  · exact regular child before
  · obtain ⟨diagnostic, _, rfl⟩ := List.mem_map.mp missing
    exact (isOperand_absent _ _ rfl).fits

@[simp] theorem operands_add (frame : Frame) {outcome : Outcome}
    (operand : outcome.tree.IsOperand) :
    (frame.add outcome).operands = frame.operands + 1 := by
  rw [operands, operands, Frame.add, operandCount_append, operandCount_singleton operand]

@[simp] theorem operands_take (frame : Frame) (word : Word) :
    (frame.take word).operands = frame.operands := by
  simp [operands, Frame.take]

@[simp] theorem operands_takeLead (frame : Frame) (word : Word) :
    (frame.takeLead word).operands = frame.operands := by
  simp [operands, Frame.takeLead]

@[simp] theorem operands_fail (diagnostics : List Diagnostic) :
    (frame.fail diagnostics word).operands = frame.operands + diagnostics.length := by
  have missing : operandCount (diagnostics.map fun diagnostic =>
      absent .error (some diagnostic.message) word.token) = diagnostics.length := by
    simp [operandCount, List.countP_eq_length, Tree.isLeaf, Tree.kind, absent, Tree.content,
      NodeKind.isLeaf]
  rw [operands, operands, Frame.fail, operandCount_append, missing]

/-- A construct is an operand if it has as many operands as its kind takes. -/
theorem Regular.outcome (regular : frame.Regular) {kind : NodeKind}
    (takes : kind.takes frame.operands) : (frame.outcome kind).tree.IsOperand :=
  isOperand_construct rfl takes regular

/-- A frame that waits may take the tokens of a word. -/
theorem Fits.take (fits : frame.Fits) (word : Word) : (frame.take word).Fits where
  regular := fits.regular.take word
  admits := by
    rw [operands_take]
    exact fits.admits

theorem Fits.takeLead (fits : frame.Fits) (word : Word) : (frame.takeLead word).Fits where
  regular := fits.regular.takeLead word
  admits := by
    rw [operands_takeLead]
    exact fits.admits

end Frame

/-- What a reaction leaves fits the schema. -/
def Reaction.Fits : Reaction → Prop
  | .waits frame focus => frame.Fits ∧ focus.Fits (some frame)
  | .begins frame _ => frame.Fits
  | .closes outcome | .ends outcome => outcome.tree.IsOperand

namespace Frame

variable {frame : Frame} {word : Word}

/-- A bracketed construct fits the schema with its operands alone and with the errors in place of
its close. -/
theorem Regular.close (regular : frame.Regular) {kind : NodeKind} {closing : Operator}
    {unclosed : List Diagnostic} (takes : kind.takes frame.operands)
    (takesMore : kind.takes (frame.operands + unclosed.length)) :
    (frame.close kind closing unclosed word).Fits := by
  unfold Frame.close
  split
  · exact (regular.take word).outcome (by rwa [operands_take])
  · exact (regular.fail unclosed word).outcome (by rwa [operands_fail])

/-- An enclosure with its head, if it has one, can end. -/
theorem Regular.closeItems (regular : frame.Regular) {enclosure : Enclosure}
    (role : frame.role = .items enclosure) (admits : frame.role.Admits frame.operands) :
    (frame.closeItems enclosure word).Fits := by
  have takes : ∀ more, enclosure.kind.takes (frame.operands + more) := by
    intro more
    rw [role] at admits
    cases enclosure with
    | list => rfl
    | call | part => exact decide_eq_true (Nat.le_add_right_of_le admits)
  unfold Frame.closeItems
  split
  · next part =>
    refine ⟨Fits.take ⟨regular, admits⟩ word, fun same held => ?_⟩
    cases held
    rw [operands_take]
    rw [role, part.1] at admits
    exact admits
  · exact regular.close (takes 0) (takes _)

/-- A tag is an operand as the expression is that it is made from. -/
theorem tagOutcome_isOperand {outcome : Outcome} (operand : outcome.tree.IsOperand) :
    (tagOutcome outcome).1.tree.IsOperand := by
  unfold tagOutcome
  split
  · exact operand
  · next symbol =>
    obtain ⟨tree, succeeded⟩ := outcome
    cases operand.fits.root with
    | leaf token =>
      have inner : (leaf token).isLeaf = false := operand.inner
      simp at inner
    | atom held =>
      cases symbol
      exact isOperand_atom held
    | @construct content children bare takes =>
      rw [show content.kind = .symbol from symbol] at takes
      cases takes
  · exact operand
  · refine isOperand_construct rfl ?_ fun child present => ?_
    · rw [operandCount_singleton operand]
      rfl
    · rw [List.mem_singleton.mp present]
      exact operand.fits

/-- Items take one more, with the close behind it or without. -/
theorem Fits.receive_items (fits : frame.Fits) {bracketed : Bool} {outcome : Outcome}
    {enclosure : Enclosure} (role : frame.role = .items enclosure)
    (operand : outcome.tree.IsOperand) : (frame.receive bracketed outcome word).Fits := by
  have regular := fits.regular.add operand
  have admits : (frame.add outcome).role.Admits (frame.add outcome).operands := by
    change frame.role.Admits _
    rw [role, operands_add frame operand]
    cases enclosure with
    | list => trivial
    | call | part => exact Nat.le_add_left 1 _
  unfold Frame.receive
  simp only [role]
  split
  · exact ⟨Fits.take ⟨regular, admits⟩ word, trivial⟩
  · exact regular.closeItems role admits

/-- A chain takes one more operand, with another sign behind it or without. -/
theorem Fits.receive_chain (fits : frame.Fits) {bracketed : Bool} {outcome : Outcome}
    {kind : NodeKind} {sign : Operator} (role : frame.role = .chain kind sign)
    (operand : outcome.tree.IsOperand) : (frame.receive bracketed outcome word).Fits := by
  have regular := fits.regular.add operand
  have admits := fits.admits
  rw [role] at admits
  obtain ⟨flat, some⟩ := admits
  have many : 2 ≤ (frame.add outcome).operands := by
    rw [operands_add frame operand]
    omega
  have ends := regular.outcome (NodeKind.takes_of_isFlat flat many)
  have goesOn : (frame.add outcome).Fits := by
    refine ⟨regular, ?_⟩
    change frame.role.Admits _
    rw [role]
    exact ⟨flat, Nat.le_of_succ_le many⟩
  unfold Frame.receive
  simp only [role]
  split
  · exact ends
  · split
    · split
      · exact ⟨goesOn.take word, trivial⟩
      · exact ends
    · split
      · exact goesOn
      · exact ends
    · exact ends

/-- A sequence takes one more expression, with another semicolon behind it or without. -/
theorem Fits.receive_compound (fits : frame.Fits) {bracketed : Bool} {outcome : Outcome}
    (role : frame.role = .compound) (operand : outcome.tree.IsOperand) :
    (frame.receive bracketed outcome word).Fits := by
  have regular := fits.regular.add operand
  have admits := fits.admits
  rw [role] at admits
  have some : 1 ≤ frame.operands := admits
  have many : 2 ≤ (frame.add outcome).operands := by
    rw [operands_add frame operand]
    omega
  unfold Frame.receive
  simp only [role]
  split
  · refine ⟨Fits.take ⟨regular, ?_⟩ word, trivial⟩
    change frame.role.Admits _
    rw [role]
    exact Nat.le_of_succ_le many
  · exact regular.outcome (decide_eq_true many)

/-- A message name takes its first tag, its second one, or an error in place of it. -/
theorem Fits.receive_tag (fits : frame.Fits) {bracketed last : Bool} {outcome : Outcome}
    (role : frame.role = .tag last) (operand : outcome.tree.IsOperand) :
    (frame.receive bracketed outcome word).Fits := by
  have tag := tagOutcome_isOperand operand
  have regular := fits.regular.add tag
  have admits := fits.admits
  rw [role] at admits
  have count : (frame.add (tagOutcome outcome).1).operands = (if last then 2 else 1) + 1 := by
    rw [operands_add frame tag, show frame.operands = if last then 2 else 1 from admits]
  unfold Frame.receive
  simp only [role]
  split
  · next second =>
    have first : last = false := by
      simp only [Bool.and_eq_true, Bool.not_eq_true'] at second
      exact second.1.2
    subst first
    exact ⟨⟨regular.take word, (operands_take _ word).trans count⟩, trivial⟩
  · refine Regular.outcome regular ?_
    rw [show Frame.operands _ = _ from count]
    cases last <;> rfl

/-- A tag takes its pattern and the assignment behind it, or an error in place of that. -/
theorem Fits.receive_tagPattern (fits : frame.Fits) {bracketed : Bool} {outcome : Outcome}
    (role : frame.role = .tagPattern) (operand : outcome.tree.IsOperand) :
    (frame.receive bracketed outcome word).Fits := by
  have regular := fits.regular.add operand
  have admits := fits.admits
  rw [role] at admits
  have count : (frame.add outcome).operands = 2 := by
    rw [operands_add frame operand, show frame.operands = 1 from admits]
  have value : ∀ kind : NodeKind, kind.takes 3 →
      (Role.operand kind).Admits ((frame.add outcome).take word).operands := by
    intro kind takes
    rw [operands_take, count]
    exact takes
  unfold Frame.receive
  simp only [role]
  split
  · exact regular.outcome (count ▸ rfl)
  split
  · exact ⟨⟨regular.take word, value .tagSet rfl⟩, trivial⟩
  split
  · exact ⟨⟨regular.take word, value .tagSetDelayed rfl⟩, trivial⟩
  · exact (regular.fail _ word).outcome (by rw [operands_fail, count]; rfl)

/-- What a frame does with an operand keeps to the schema. -/
theorem Fits.receive (fits : frame.Fits) (bracketed : Bool) {outcome : Outcome}
    (operand : outcome.tree.IsOperand) (word : Word) :
    (frame.receive bracketed outcome word).Fits := by
  have regular := fits.regular.add operand
  have admits := fits.admits
  cases role : frame.role with
  | group =>
    rw [role] at admits
    have one : (frame.add outcome).operands = 1 := by
      rw [operands_add frame operand, show frame.operands = 0 from admits]
    unfold Frame.receive
    simp only [role]
    exact regular.close (one ▸ rfl) (one ▸ rfl)
  | operand kind =>
    rw [role] at admits
    unfold Frame.receive
    simp only [role]
    exact regular.outcome (operands_add frame operand ▸ admits)
  | items enclosure => exact fits.receive_items role operand
  | chain kind sign => exact fits.receive_chain role operand
  | compound => exact fits.receive_compound role operand
  | tag last => exact fits.receive_tag role operand
  | tagPattern => exact fits.receive_tagPattern role operand

end Frame

/-- The opening of a word suits the kind of its token. -/
theorem Word.suits_of_opening? {word : Word} {opening : Opening}
    (opens : word.opening? = some opening) : opening.suits word.token.kind :=
  Opening.suits_of_ofKind? opens

namespace Reading

variable {surroundings : Surroundings} {word : Word}

/-- A blank is an operand, whether it has a name in front of it or not. -/
theorem isOperand_blankTree {kind : NodeKind} (blank : kind.isBlank) {named : Option SyntaxTree}
    (operand : ∀ left ∈ named, left.IsOperand) {children : List SyntaxTree}
    (few : operandCount children ≤ 1)
    (below : ∀ child ∈ children, child.Everywhere SyntaxTree.Fits) :
    (blankTree kind named children).IsOperand := by
  have takes : kind.takes (operandCount children) := by
    cases kind <;> first | exact decide_eq_true few | cases blank
  have unnamed : (ofKind kind children).IsOperand := isOperand_construct rfl takes below
  cases named with
  | none => exact unnamed
  | some left =>
    have leftOperand := operand left rfl
    refine isOperand_construct rfl ?_ fun child present => ?_
    · have two : operandCount [left, ofKind kind children] = 2 := by
        simp [operandCount, leftOperand.inner, unnamed.inner]
      rw [two]
      rfl
    · rcases List.mem_cons.mp present with rfl | present
      · exact leftOperand.fits
      · rw [List.mem_singleton.mp present]
        exact unnamed.fits

/-- An expression that begins with a token keeps to the schema. -/
theorem fits_begin {frames : List Frame} {opening : Opening} {token : Token}
    (suits : opening.suits token.kind) (fits : ∀ frame ∈ frames, frame.Fits) :
    (begin frames opening token).Fits := by
  have regular : ∀ child ∈ [leaf token], child.Everywhere SyntaxTree.Fits := by
    intro child present
    rw [List.mem_singleton.mp present]
    exact everywhere_fits_leaf token
  have none : operandCount [leaf token] = 0 := by simp [operandCount]
  cases opening with
  | atom kind => exact ⟨fits, isOperand_atom (eq_of_beq suits)⟩
  | blank kind => exact ⟨fits, suits, fun _ absent => by cases absent⟩
  | group => exact ⟨List.forall_mem_cons.mpr ⟨⟨regular, none⟩, fits⟩, trivial⟩
  | list => exact ⟨List.forall_mem_cons.mpr ⟨⟨regular, trivial⟩, fits⟩, trivial⟩
  | operator kind strength =>
    refine ⟨List.forall_mem_cons.mpr ⟨⟨regular, ?_⟩, fits⟩, trivial⟩
    change kind.takes (operandCount [leaf token] + 1)
    rw [none]
    exact suits

/-- A word that begins an operand leaves frames that fit the schema. -/
theorem fits_beginOperand {frame : Frame} {frames : List Frame} {opening : Opening}
    (opens : word.opening? = some opening) (fits : ∀ inner ∈ frame :: frames, inner.Fits) :
    (beginOperand frame frames opening word).Fits := by
  obtain ⟨inner, outer⟩ := List.forall_mem_cons.mp fits
  exact fits_begin (Word.suits_of_opening? opens)
    (List.forall_mem_cons.mpr ⟨inner.takeLead word, outer⟩)

/-- An expression that goes on by an operator keeps to the schema. -/
theorem fits_continueWith {grammar : Grammar} {frames : List Frame} {left : SyntaxTree}
    {sign : Operator} {continuation : Continuation} (suits : continuation.suits)
    (fits : ∀ frame ∈ frames, frame.Fits) (operand : left.IsOperand) :
    (continueWith grammar frames left sign continuation word).Fits := by
  have regular : ∀ child ∈ left :: word.leaves, child.Everywhere SyntaxTree.Fits :=
    List.forall_mem_cons.mpr ⟨operand.fits, word.everywhere_fits_leaves⟩
  have one : operandCount (left :: word.leaves) = 1 := by
    rw [← List.singleton_append, operandCount_append, operandCount_singleton operand,
      Word.operandCount_leaves]
  have waits : ∀ {role : Role} {floor : Int} {focus : Focus}, role.Admits 1 →
      focus.Fits (some ⟨role, floor, left :: word.leaves, true⟩) →
      Reading.Fits ⟨⟨role, floor, left :: word.leaves, true⟩ :: frames, focus⟩ := by
    intro role floor focus admits focusFits
    refine ⟨List.forall_mem_cons.mpr ⟨⟨regular, ?_⟩, fits⟩, focusFits⟩
    change role.Admits (operandCount (left :: word.leaves))
    rwa [one]
  cases continuation with
  | binary kind nestsRight => exact waits suits trivial
  | flat kind => exact waits ⟨suits, Nat.le_refl 1⟩ trivial
  | product => exact waits ⟨rfl, Nat.le_refl 1⟩ trivial
  | suffix kind => exact ⟨fits, isOperand_construct rfl (one ▸ suits) regular⟩
  | call =>
    refine waits (Nat.le_refl 1) fun held same => ?_
    cases same
    exact Nat.le_of_eq one.symm
  | pattern mark =>
    refine ⟨fits, suits, fun named same => ?_⟩
    cases same
    exact operand
  | messageName => exact waits rfl trivial
  | compound => exact waits (Nat.le_refl 1) trivial
  | tagSet => exact waits rfl trivial

/-- A factor without a sign begins a product that fits the schema. -/
theorem fits_multiply {grammar : Grammar} {frames : List Frame} {left : SyntaxTree}
    {opening : Opening} (opens : word.opening? = some opening)
    (fits : ∀ frame ∈ frames, frame.Fits) (operand : left.IsOperand) :
    (multiply grammar frames left opening word).Fits := by
  refine fits_beginOperand opens (List.forall_mem_cons.mpr ⟨⟨fun child present => ?_, ?_⟩, fits⟩)
  · rw [List.mem_singleton.mp present]
    exact operand.fits
  · exact ⟨rfl, Nat.le_of_eq (operandCount_singleton operand).symm⟩

/-- What goes on from an operand fits the schema with the operand as its first one. -/
theorem fits_of_extend? {frames : List Frame} {left : SyntaxTree} {next : Reading}
    (goesOn : extend? surroundings frames left word = some next)
    (fits : ∀ frame ∈ frames, frame.Fits) (operand : left.IsOperand) : next.Fits := by
  rcases eq_of_extend?_eq_some goesOn with ⟨sign, continuation, link, _, rfl⟩ | ⟨_, link, _, rfl⟩
  · obtain ⟨_, found, _⟩ := Word.of_link?_eq_sign link
    exact fits_continueWith (Continuation.suits_of_ofOperator? found) fits operand
  · exact fits_multiply (Word.of_link?_eq_factor link).1 fits operand

/-- How a construct reacts to a word keeps to the schema, and so do the frames around it. -/
theorem Reacts.fits {reading : Reading} {frames : List Frame} {reaction : Reaction}
    (reacts : Reacts surroundings word reading frames reaction) (fits : reading.Fits) :
    reaction.Fits ∧ ∀ frame ∈ frames, frame.Fits := by
  obtain ⟨stack, focusFits⟩ := fits
  cases reacts with
  | complete stays =>
    obtain ⟨inner, outer⟩ := List.forall_mem_cons.mp stack
    exact ⟨inner.receive _ focusFits word, outer⟩
  | missing wants unopened =>
    obtain ⟨inner, outer⟩ := List.forall_mem_cons.mp stack
    exact ⟨inner.receive _ (isOperand_absent _ _ rfl) word, outer⟩
  | absent unopened =>
    obtain ⟨inner, outer⟩ := List.forall_mem_cons.mp stack
    exact ⟨inner.receive _ (isOperand_absent _ _ rfl) word, outer⟩
  | empty begins role closing =>
    obtain ⟨inner, outer⟩ := List.forall_mem_cons.mp stack
    exact ⟨inner.regular.closeItems role inner.admits, outer⟩
  | @partEnd frame frames =>
    obtain ⟨inner, outer⟩ := List.forall_mem_cons.mp stack
    have head : 1 ≤ frame.operands := focusFits frame rfl
    refine ⟨inner.regular.close ?_ ?_, outer⟩
    · exact decide_eq_true head
    · exact decide_eq_true (p := 1 ≤ frame.operands + 1) (Nat.le_add_left 1 _)

/-- A construct that ends is an operand for the one around it. -/
theorem Passes.fits {before after : Reading} (passes : Passes surroundings word before after)
    (fits : before.Fits) : after.Fits := by
  cases passes with
  | ends reacts =>
    obtain ⟨operand, outer⟩ := reacts.fits fits
    exact ⟨outer, operand⟩
  | @unnamed frames kind blank named apart =>
    obtain ⟨stack, isBlank, operand⟩ := fits
    refine ⟨stack, isOperand_blankTree isBlank operand ?_ ?_⟩
    · simp [operandCount]
    · exact List.forall_mem_singleton.mpr (everywhere_fits_leaf blank)

/-- A word that is taken leaves a reading that fits the schema. -/
theorem Takes.fits {before after : Reading} (takes : Takes surroundings word before after)
    (fits : before.Fits) : after.Fits := by
  cases takes with
  | alone unfinished opens => exact fits_begin (Word.suits_of_opening? opens) fits.frames
  | operand wants opens => exact fits_beginOperand opens fits.frames
  | statement opens =>
    exact fits_beginOperand (Word.opening?_of_openingInLine? opens) fits.frames
  | continues goesOn => exact fits_of_extend? goesOn fits.frames fits.focus
  | @reacts _ _ frames reaction reacts taken =>
    obtain ⟨reactionFits, outer⟩ := reacts.fits fits
    cases reaction with
    | waits frame focus =>
      cases taken
      exact ⟨List.forall_mem_cons.mpr ⟨reactionFits.1, outer⟩, reactionFits.2⟩
    | begins frame opening =>
      cases taken
      exact fits_beginOperand reacts.opening?_of_begins
        (List.forall_mem_cons.mpr ⟨reactionFits, outer⟩)
    | closes outcome =>
      cases taken
      exact ⟨outer, reactionFits⟩
    | ends outcome => cases taken
  | @part frame frames bracket touches =>
    obtain ⟨inner, outer⟩ := List.forall_mem_cons.mp fits.frames
    have head : 1 ≤ frame.operands := fits.focus frame rfl
    refine ⟨List.forall_mem_cons.mpr ⟨⟨inner.regular.take word, ?_⟩, outer⟩, trivial⟩
    change 1 ≤ (frame.take word).operands
    rwa [Frame.operands_take]
  | @name frames kind blank named identifier touches =>
    obtain ⟨stack, isBlank, operand⟩ := fits
    have nameOperand : (ofKind .symbol [word.leaf]).IsOperand :=
      isOperand_atom (congrArg some identifier.symm)
    refine ⟨stack, isOperand_blankTree isBlank operand ?_ ?_⟩
    · simp [operandCount, nameOperand.inner]
    · refine List.forall_mem_cons.mpr ⟨everywhere_fits_leaf blank, ?_⟩
      exact List.forall_mem_singleton.mpr nameOperand.fits

end Reading

/-- Reading a word keeps to the schema, and what is finished by it is an operand. -/
theorem Reading.fits_read (surroundings : Surroundings) {reading : Reading} (fits : reading.Fits)
    (word : Word) :
    (∀ next, reading.read surroundings word = .reading next → next.Fits) ∧
      ∀ outcome, reading.read surroundings word = .finished (some outcome) →
        outcome.tree.IsOperand := by
  obtain ⟨settled, settles, decides⟩ := exists_settles_decides surroundings reading word
  have settledFits : settled.Fits := settles.keeps Fits (fun _ _ passes => passes.fits) fits
  constructor
  · intro next progress
    rw [progress] at decides
    cases decides with
    | takes taken => exact taken.fits settledFits
  · intro outcome progress
    rw [progress] at decides
    cases decides with
    | finishes stays => exact settledFits.focus

namespace FileReading

/-- All parts of a file that is being read fit the schema. -/
structure Fits (file : FileReading) : Prop where
  below : ∀ child ∈ file.children, child.Everywhere SyntaxTree.Fits
  current : ∀ reading ∈ file.current, reading.Fits

theorem fits_empty : empty.Fits :=
  ⟨List.forall_mem_nil _, fun _ none => by cases none⟩

/-- A token that is skipped fits the schema under its error. -/
theorem everywhere_fits_skipped (word : Word) : (skipped word).Everywhere SyntaxTree.Fits := by
  refine everywhere_fits_construct rfl ?_ ?_
  · simp [operandCount, Word.leaf, NodeKind.takes]
  · exact List.forall_mem_singleton.mpr (everywhere_fits_leaf word.token)

/-- Fitting is a property of the finished trees and of the current reading. -/
theorem fits_iff_holds {file : FileReading} :
    file.Fits ↔ file.Holds (Tree.Everywhere SyntaxTree.Fits) Reading.Fits :=
  ⟨fun fits => ⟨fits.below, fits.current⟩, fun holds => ⟨holds.below, holds.current⟩⟩

/-- Every word keeps to the schema. -/
theorem isKept_fits (grammar : Grammar) :
    IsKept grammar (fun _ => True) (Tree.Everywhere SyntaxTree.Fits) Reading.Fits where
  leaf := everywhere_fits_leaf
  skipped word _ := everywhere_fits_skipped word
  begins _ _ _ opens := Reading.fits_begin (Word.suits_of_opening? opens) (List.forall_mem_nil _)
  continues _ word next _ fits := (Reading.fits_read (surroundings grammar) fits word).1 next
  finishes _ word outcome _ fits progress :=
    ((Reading.fits_read (surroundings grammar) fits word).2 outcome progress).fits

/-- One word after another leaves a file that fits the schema. -/
theorem Fits.read {grammar : Grammar} {file : FileReading} (fits : file.Fits) (word : Word) :
    (file.read grammar word).Fits :=
  fits_iff_holds.mpr ((fits_iff_holds.mp fits).read (isKept_fits grammar) trivial)

/-- All words of a file together keep to the schema. -/
theorem fits_foldl_read (grammar : Grammar) (words : List Word) {file : FileReading}
    (fits : file.Fits) : (words.foldl (read grammar) file).Fits :=
  fits_iff_holds.mpr ((fits_iff_holds.mp fits).foldl_read (isKept_fits grammar) fun _ _ => trivial)

end FileReading

/-- A token list that can be read has an ending, and its tree is that of its words and ending. -/
theorem exists_eq_tree_of_parseTokens {grammar : Grammar} {tokens : List Token} {tree : SyntaxTree}
    (parsed : parseTokens grammar tokens = .ok tree) :
    ∃ ending beyond, (WordStream.ofTokens tokens).ending = some (ending, beyond) ∧
      tree = FileReading.tree grammar (WordStream.ofTokens tokens).words ending beyond := by
  unfold parseTokens at parsed
  dsimp only at parsed
  split at parsed
  · next ending beyond found =>
    cases parsed
    exact ⟨ending, beyond, found, rfl⟩
  · cases parsed

/-- The nodes below the root of a file that was read fit the schema. -/
theorem everywhere_fits_of_parseTokens {grammar : Grammar} {tokens : List Token}
    {tree : SyntaxTree} (parsed : parseTokens grammar tokens = .ok tree) :
    ∃ children, tree = ofKind .file children ∧
      ∀ child ∈ children, child.Everywhere SyntaxTree.Fits := by
  obtain ⟨ending, beyond, _, rfl⟩ := exists_eq_tree_of_parseTokens parsed
  exact ⟨_, rfl, FileReading.forall_mem_children_tree (FileReading.isKept_fits grammar)
    (fun _ _ => trivial) trivial beyond⟩

end WolframSyntax
