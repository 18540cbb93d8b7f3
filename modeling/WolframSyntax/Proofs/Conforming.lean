import WolframSyntax.Proofs.Licensing
import WolframSyntax.Proofs.Terms

/-!
# Parsed trees conform to the schema

Every move of a reading leaves it with children that its constructs may have
(`Reading.Passes.licenses`, `Reading.Takes.licenses`). Together with the number of operands, which
is known already, this says what every node of a file looks like (`Tree.Conforms`), however
malformed the text is (`conforms_of_parseTokens`). In particular every call has a head, so every
node has a full form.
-/

namespace WolframSyntax

open SyntaxTree

/-! ## Moves -/

/-- What a focus holds may stand anywhere. -/
def Focus.IsLicensed : Focus → Prop
  | .complete outcome => outcome.tree.IsOrdinary
  | .blankName kind blank named =>
    kind.isBlank ∧ blank.kind ≠ .operator .comma ∧ ∀ left ∈ named, left.IsOrdinary
  | _ => True

/-- A focus without an operand holds nothing that would need a licence. -/
theorem Focus.isLicensed_of_hasOperand_eq_false {focus : Focus}
    (unfinished : focus.hasOperand = false) : focus.IsLicensed := by
  cases focus <;> trivial

/-- All parts of a reading have only children that they may have. -/
structure Reading.IsLicensed (reading : Reading) : Prop where
  frames : ∀ frame ∈ reading.frames, frame.IsLicensed
  focus : reading.focus.IsLicensed

namespace Reading

variable {surroundings : Surroundings} {word : Word} {frames : List Frame} {before after : Reading}

/-- A reading is licensed if its frames and its focus are. -/
theorem isLicensed_of_cons {frame : Frame} {focus : Focus} (inner : frame.IsLicensed)
    (outer : ∀ frame ∈ frames, frame.IsLicensed) (held : focus.IsLicensed) :
    IsLicensed ⟨frame :: frames, focus⟩ :=
  ⟨List.forall_mem_cons.mpr ⟨inner, outer⟩, held⟩

/-- An expression that begins with a token has only children that it may have. -/
theorem isLicensed_begin {opening : Opening} {token : Token}
    (opens : Opening.ofKind? token.kind = some opening)
    (outer : ∀ frame ∈ frames, frame.IsLicensed) : (begin frames opening token).IsLicensed := by
  obtain ⟨plain, other⟩ := Opening.isPlain_of_ofKind? opens
  have below : ∀ child ∈ [leaf token], child.Everywhere Tree.IsLicensed :=
    List.forall_mem_singleton.mpr (everywhere_isLicensed_leaf token)
  have licenses : ∀ kind : NodeKind, kind ≠ .null → kind.Licenses [leaf token] := by
    refine fun kind filled => (NodeKind.licenses_nil kind).append_leaves filled ?_ ?_
    · exact List.forall_mem_singleton.mpr (isLeaf_leaf token)
    · refine List.forall_mem_singleton.mpr fun comma => absurd ?_ other
      rwa [isComma_leaf, beq_iff_eq] at comma
  cases opening with
  | atom kind =>
    have ordinary := NodeKind.isOrdinary_of_isPlain plain
    exact ⟨outer, ordinary, Tree.everywhere_node.mpr
      ⟨licenses kind (NodeKind.ne_null_of_isOrdinary ordinary), below⟩⟩
  | blank kind => exact ⟨outer, plain, other, fun _ none => by cases none⟩
  | group => exact isLicensed_of_cons ⟨rfl, licenses _ NodeKind.noConfusion, below⟩ outer trivial
  | list => exact isLicensed_of_cons ⟨rfl, licenses _ NodeKind.noConfusion, below⟩ outer trivial
  | operator kind strength =>
    have filled := NodeKind.ne_null_of_isOrdinary (NodeKind.isOrdinary_of_isPlain plain)
    exact isLicensed_of_cons ⟨plain, licenses kind filled, below⟩ outer trivial

/-- A word that begins an operand leaves a licensed reading. -/
theorem isLicensed_beginOperand {frame : Frame} {opening : Opening}
    (opens : word.opening? = some opening) (tidy : word.IsTidy)
    (inner : frame.IsLicensed) (outer : ∀ frame ∈ frames, frame.IsLicensed) :
    (beginOperand frame frames opening word).IsLicensed :=
  isLicensed_begin opens (List.forall_mem_cons.mpr ⟨inner.takeLead tidy, outer⟩)

/-- The children of a construct that begins with an expression and an operator. -/
theorem licenses_cons_leaves {kind : NodeKind} (filled : kind ≠ .null)
    (named : kind.isBlank = false) {left : SyntaxTree} (ordinary : left.IsOrdinary)
    (tidy : word.IsTidy) {sign : Operator} (same : word.token.kind = .operator sign)
    (other : sign ≠ .comma) : kind.Licenses (left :: word.leaves) := by
  have first : kind.Licenses [left] := by
    refine (NodeKind.licenses_nil kind).append_operand filled ordinary.inner ?_
    exact NodeKind.holds_zero named ordinary.kind
  refine first.append_leaves filled word.isLeaf_of_mem_leaves fun child present comma => ?_
  have comma := tidy.isOperator_comma_of_leaves present comma
  rw [Word.isOperator, same, beq_iff_eq] at comma
  cases comma
  exact absurd rfl other

/-- An expression that goes on by an operator has only children that it may have. -/
theorem isLicensed_continueWith {grammar : Grammar} {left : SyntaxTree} {sign : Operator}
    {continuation : Continuation} (same : word.token.kind = .operator sign)
    (form : Continuation.ofOperator? sign = some continuation) (tidy : word.IsTidy)
    (ordinary : left.IsOrdinary) (outer : ∀ frame ∈ frames, frame.IsLicensed) :
    (continueWith grammar frames left sign continuation word).IsLicensed := by
  obtain ⟨plain, other⟩ := Continuation.isPlain_of_ofOperator? form
  have below : ∀ child ∈ left :: word.leaves, child.Everywhere Tree.IsLicensed :=
    List.forall_mem_cons.mpr ⟨ordinary.below, word.everywhere_isLicensed_leaves⟩
  have licenses : ∀ kind : NodeKind, kind ≠ .null → kind.isBlank = false →
      kind.Licenses (left :: word.leaves) :=
    fun kind filled named => licenses_cons_leaves filled named ordinary tidy same other
  have made : ∀ kind : NodeKind, kind.isPlain → kind.Licenses (left :: word.leaves) :=
    fun kind plain => licenses kind
      (NodeKind.ne_null_of_isOrdinary (NodeKind.isOrdinary_of_isPlain plain))
      (NodeKind.isBlank_eq_false_of_isPlain plain)
  cases continuation with
  | binary kind nestsRight => exact isLicensed_of_cons ⟨plain, made kind plain, below⟩ outer trivial
  | flat kind => exact isLicensed_of_cons ⟨plain, made kind plain, below⟩ outer trivial
  | product => exact isLicensed_of_cons ⟨rfl, made .times rfl, below⟩ outer trivial
  | suffix kind =>
    exact ⟨outer, NodeKind.isOrdinary_of_isPlain plain,
      Tree.everywhere_node.mpr ⟨made kind plain, below⟩⟩
  | call => exact isLicensed_of_cons ⟨rfl, made .functionCall rfl, below⟩ outer trivial
  | pattern mark =>
    refine ⟨outer, plain, fun comma => ?_, fun named held => ?_⟩
    · cases same.symm.trans comma
      exact other rfl
    · cases held
      exact ordinary
  | messageName =>
    exact isLicensed_of_cons ⟨rfl, licenses .messageName (by decide) rfl, below⟩ outer trivial
  | compound => exact isLicensed_of_cons ⟨rfl, made .compoundExpression rfl, below⟩ outer trivial
  | tagSet => exact isLicensed_of_cons ⟨rfl, made .tagSet rfl, below⟩ outer trivial

/-- What goes on from an ordinary operand is licensed. -/
theorem isLicensed_of_extend? {left : SyntaxTree}
    (goesOn : extend? surroundings frames left word = some after) (tidy : word.IsTidy)
    (ordinary : left.IsOrdinary) (outer : ∀ frame ∈ frames, frame.IsLicensed) :
    after.IsLicensed := by
  rcases eq_of_extend?_eq_some goesOn with ⟨sign, continuation, link, _, rfl⟩ | ⟨_, link, _, rfl⟩
  · obtain ⟨same, form, _⟩ := Word.of_link?_eq_sign link
    exact isLicensed_continueWith same form tidy ordinary outer
  · have factor : NodeKind.times.Licenses [left] :=
      (NodeKind.licenses_nil .times).append_operand (by decide) ordinary.inner ordinary.kind
    exact isLicensed_beginOperand (Word.of_link?_eq_factor link).1 tidy
      ⟨rfl, factor, List.forall_mem_singleton.mpr ordinary.below⟩ outer

/-- A blank with the name behind it, if there is one, and the expression in front of it. -/
theorem isOrdinary_blankTree {kind : NodeKind} {blank : Token} {named : Option SyntaxTree}
    (licensed : (Focus.blankName kind blank named).IsLicensed) {name : List SyntaxTree}
    (symbols : ∀ symbol ∈ name, symbol.kind = .symbol ∧ symbol.Everywhere Tree.IsLicensed) :
    (blankTree kind named (leaf blank :: name)).IsOrdinary := by
  obtain ⟨isBlank, other, ordinary⟩ := licensed
  have kindOrdinary := NodeKind.isOrdinary_of_isBlank isBlank
  have holds : ∀ number, kind.holds number .symbol := by
    intro number
    cases kind <;> first | rfl | cases isBlank
  have inner : ∀ symbol ∈ name, symbol.isLeaf = false := by
    intro symbol present
    rw [Tree.isLeaf, (symbols symbol present).1]
    rfl
  have licenses : kind.Licenses (leaf blank :: name) := by
    refine ⟨fun number operand found => ?_, List.forall_mem_cons.mpr ⟨fun comma => ?_, ?_⟩, ?_⟩
    · rw [List.filter_cons_of_neg (by simp)] at found
      have among := (List.mem_filter.mp (List.mem_of_getElem? found)).1
      rw [(symbols operand among).1]
      exact holds number
    · rw [isComma_leaf, beq_iff_eq] at comma
      exact absurd comma other
    · intro symbol present comma
      rw [isComma_of_inner (inner symbol present)] at comma
      cases comma
    · exact fun null => absurd null (NodeKind.ne_null_of_isOrdinary kindOrdinary)
  have unnamed : (ofKind kind (leaf blank :: name)).IsOrdinary :=
    ⟨kindOrdinary, Tree.everywhere_node.mpr ⟨licenses,
      List.forall_mem_cons.mpr ⟨everywhere_isLicensed_leaf blank, fun symbol present =>
        (symbols symbol present).2⟩⟩⟩
  cases named with
  | none => exact unnamed
  | some left =>
    have leftOrdinary := ordinary left rfl
    have first : NodeKind.pattern.Licenses [left] :=
      (NodeKind.licenses_nil .pattern).append_operand (by decide) leftOrdinary.inner
        leftOrdinary.kind
    have pattern := first.append_operand (by decide) unnamed.inner
      (NodeKind.holds_of_isPlain rfl _ unnamed.kind)
    exact ⟨rfl, Tree.everywhere_node.mpr ⟨pattern, List.forall_mem_cons.mpr
      ⟨leftOrdinary.below, List.forall_mem_singleton.mpr unnamed.below⟩⟩⟩

/-- How a construct reacts to a word leaves it with children it may have, and so are the frames
around it. -/
theorem Reacts.licenses {reaction : Reaction}
    (reacts : Reacts surroundings word before frames reaction) (tidy : word.IsTidy)
    (fits : before.Fits) (suits : ∀ frame ∈ before.frames.head?, before.focus.Suits frame.role)
    (licensed : before.IsLicensed) :
    reaction.IsLicensed ∧ ∀ frame ∈ frames, frame.IsLicensed := by
  obtain ⟨stack, held⟩ := licensed
  cases reacts with
  | @complete frame _ outcome stays =>
    obtain ⟨inner, outer⟩ := List.forall_mem_cons.mp stack
    have operand : outcome.tree.IsOrdinary := held
    exact ⟨inner.receive (fits.frames _ List.mem_cons_self) tidy _ (operand.accepts _), outer⟩
  | @missing frame _ _ wants unopened =>
    obtain ⟨inner, outer⟩ := List.forall_mem_cons.mp stack
    have operand : (frame.missing word).tree.IsOrdinary := isOrdinary_absent_error _ _
    exact ⟨inner.receive (fits.frames _ List.mem_cons_self) tidy _ (operand.accepts _), outer⟩
  | @absent frame _ unopened =>
    obtain ⟨inner, outer⟩ := List.forall_mem_cons.mp stack
    have operand : frame.Accepts (SyntaxTree.absent .null none word.token) :=
      ⟨Tree.everywhere_node.mpr ⟨NodeKind.licenses_nil _, List.forall_mem_nil _⟩, rfl,
        .inr ⟨suits frame rfl, rfl⟩⟩
    exact ⟨inner.receive (fits.frames _ List.mem_cons_self) tidy _ operand, outer⟩
  | empty begins role closing =>
    obtain ⟨inner, outer⟩ := List.forall_mem_cons.mp stack
    exact ⟨inner.closeItems tidy role, outer⟩
  | @partEnd frame _ =>
    obtain ⟨inner, outer⟩ := List.forall_mem_cons.mp stack
    have part : frame.role.kind = .part := congrArg Role.kind (suits frame rfl)
    refine ⟨?_, outer⟩
    rw [Frame.closePart, ← part]
    exact inner.close tidy (by decide) fun _ _ => by rw [part]; rfl

/-- A construct that ends is ordinary, or an expression left out of a sequence. -/
theorem Passes.licenses (passes : Passes surroundings word before after) (tidy : word.IsTidy)
    (fits : before.Fits) (suits : ∀ frame ∈ before.frames.head?, before.focus.Suits frame.role)
    (licensed : before.IsLicensed) : after.IsLicensed := by
  cases passes with
  | ends reacts =>
    obtain ⟨ordinary, outer⟩ := reacts.licenses tidy fits suits licensed
    exact ⟨outer, ordinary⟩
  | unnamed apart =>
    exact ⟨licensed.frames, isOrdinary_blankTree licensed.focus (List.forall_mem_nil _)⟩

/-- A word that is taken leaves a licensed reading. -/
theorem Takes.licenses (takes : Takes surroundings word before after) (tidy : word.IsTidy)
    (fits : before.Fits) (suits : ∀ frame ∈ before.frames.head?, before.focus.Suits frame.role)
    (licensed : before.IsLicensed) : after.IsLicensed := by
  cases takes with
  | alone unfinished opens => exact isLicensed_begin opens licensed.frames
  | operand wants opens =>
    obtain ⟨inner, outer⟩ := List.forall_mem_cons.mp licensed.frames
    exact isLicensed_beginOperand opens tidy inner outer
  | statement opens =>
    obtain ⟨inner, outer⟩ := List.forall_mem_cons.mp licensed.frames
    exact isLicensed_beginOperand (Word.opening?_of_openingInLine? opens) tidy inner outer
  | continues goesOn => exact isLicensed_of_extend? goesOn tidy licensed.focus licensed.frames
  | @reacts _ _ frames reaction reacts taken =>
    obtain ⟨reacted, outer⟩ := reacts.licenses tidy fits suits licensed
    cases reaction with
    | waits frame focus =>
      cases taken
      exact isLicensed_of_cons reacted.1 outer
        (Focus.isLicensed_of_hasOperand_eq_false reacted.2)
    | begins frame opening =>
      cases taken
      exact isLicensed_beginOperand reacts.opening?_of_begins tidy reacted outer
    | closes outcome =>
      cases taken
      exact ⟨outer, reacted⟩
    | ends outcome => cases taken
  | @part frame frames bracket touches =>
    obtain ⟨inner, outer⟩ := List.forall_mem_cons.mp licensed.frames
    obtain ⟨_, licenses, below⟩ := inner.take_operator tidy bracket (by decide)
    have call : frame.role.kind = .functionCall := congrArg Role.kind (suits frame rfl)
    refine isLicensed_of_cons ⟨rfl, ?_, below⟩ outer trivial
    have kept : NodeKind.functionCall.Licenses (frame.take word).children := call ▸ licenses
    exact kept.mono (fun _ _ => id) id NodeKind.noConfusion
  | @name frames kind blank named identifier touches =>
    refine ⟨licensed.frames, isOrdinary_blankTree licensed.focus ?_⟩
    have symbol : NodeKind.symbol.Licenses [word.leaf] := by
      refine (NodeKind.licenses_nil _).append_leaves (by decide) ?_ ?_
      · exact List.forall_mem_singleton.mpr (isLeaf_leaf word.token)
      · refine List.forall_mem_singleton.mpr fun comma => ?_
        rw [Word.leaf, isComma_leaf, identifier] at comma
        cases comma
    exact List.forall_mem_singleton.mpr ⟨rfl, Tree.everywhere_node.mpr ⟨symbol,
      List.forall_mem_singleton.mpr (everywhere_isLicensed_leaf word.token)⟩⟩

end Reading

/-- Reading a word leaves everything with children it may have, and so is what is finished by it. -/
theorem Reading.licenses_read (surroundings : Surroundings) {reading : Reading} {word : Word}
    (tidy : word.IsTidy) (fits : reading.Fits) (rests : reading.Rests surroundings)
    (licensed : reading.IsLicensed) :
    (∀ next, reading.read surroundings word = .reading next → next.IsLicensed) ∧
      ∀ outcome, reading.read surroundings word = .finished (some outcome) →
        outcome.tree.IsOrdinary := by
  obtain ⟨settled, settles, decides⟩ := exists_settles_decides surroundings reading word
  have kept : settled.Fits ∧ settled.Awaits surroundings word ∧ settled.IsLicensed :=
    settles.keeps
      (fun settled => settled.Fits ∧ settled.Awaits surroundings word ∧ settled.IsLicensed)
      (fun _ _ passes ⟨fits, awaits, licensed⟩ => ⟨passes.fits fits, passes.awaits fits awaits,
        passes.licenses tidy fits awaits.suits licensed⟩)
      ⟨fits, rests.awaits word, licensed⟩
  obtain ⟨settledFits, awaits, settledLicensed⟩ := kept
  constructor
  · intro next progress
    rw [progress] at decides
    cases decides with
    | takes taken => exact taken.licenses tidy settledFits awaits.suits settledLicensed
  · intro outcome progress
    rw [progress] at decides
    cases decides with
    | finishes stays => exact settledLicensed.focus

/-! ## Files -/

namespace FileReading

/-- All parts of a file that is being read have only children that they may have. -/
structure IsLicensed (file : FileReading) : Prop where
  licenses : NodeKind.file.Licenses file.children
  below : ∀ child ∈ file.children, child.Everywhere Tree.IsLicensed
  current : ∀ reading ∈ file.current, reading.IsLicensed

variable {grammar : Grammar} {file : FileReading} {word : Word}

theorem isLicensed_empty : empty.IsLicensed :=
  ⟨NodeKind.licenses_nil _, List.forall_mem_nil _, fun _ none => by cases none⟩

/-- A file may have one more expression. -/
theorem licenses_append_operand {children : List SyntaxTree}
    (licenses : NodeKind.file.Licenses children) {tree : SyntaxTree} (ordinary : tree.IsOrdinary) :
    NodeKind.file.Licenses (children ++ [tree]) :=
  licenses.append_operand (by decide) ordinary.inner ordinary.kind

/-- A file may have trivia between its expressions. -/
theorem licenses_append_leadLeaves {children : List SyntaxTree}
    (licenses : NodeKind.file.Licenses children) (tidy : word.IsTidy) :
    NodeKind.file.Licenses (children ++ word.leadLeaves) := by
  refine licenses.append_leaves (by decide) (fun child present => ?_) fun child present comma => ?_
  · obtain ⟨token, rfl⟩ := Frame.exists_leaf_of_mem_leadLeaves word child present
    exact isLeaf_leaf token
  · rw [tidy.isComma_leadLeaves child present] at comma
    cases comma

/-- A skipped token is ordinary under its error. -/
theorem isOrdinary_skipped (word : Word) : (skipped word).IsOrdinary := by
  have licenses : NodeKind.error.Licenses [word.leaf] :=
    (NodeKind.licenses_nil _).append_leaves (by decide)
      (List.forall_mem_singleton.mpr (isLeaf_leaf word.token)) fun _ _ _ => rfl
  exact ⟨rfl, Tree.everywhere_node.mpr ⟨licenses,
    List.forall_mem_singleton.mpr (everywhere_isLicensed_leaf word.token)⟩⟩

/-- A word that begins an expression, or is skipped, leaves a licensed file. -/
theorem isLicensed_beginWith {children : List SyntaxTree}
    (licenses : NodeKind.file.Licenses children)
    (below : ∀ child ∈ children, child.Everywhere Tree.IsLicensed) (tidy : word.IsTidy) :
    (beginWith children word).IsLicensed := by
  have withLead := licenses_append_leadLeaves licenses tidy
  have belowLead : ∀ child ∈ children ++ word.leadLeaves, child.Everywhere Tree.IsLicensed :=
    List.forall_mem_append.mpr ⟨below, word.everywhere_isLicensed_leadLeaves⟩
  unfold beginWith
  dsimp only
  split
  · next opening opens =>
    refine ⟨withLead, belowLead, fun reading same => ?_⟩
    cases same
    exact Reading.isLicensed_begin opens (List.forall_mem_nil _)
  · have ordinary := isOrdinary_skipped word
    exact ⟨licenses_append_operand withLead ordinary,
      List.forall_mem_append.mpr ⟨belowLead, List.forall_mem_singleton.mpr ordinary.below⟩,
      fun _ none => by cases none⟩

/-- What is read of a file before a word is what a file may have when the word is in view. -/
theorem IsLicensed.finished (licensed : file.IsLicensed) (tidy : word.IsTidy) (fits : file.Fits)
    (agrees : file.Agrees grammar) {reading : Reading} (current : file.current = some reading)
    {outcome : Option Outcome}
    (progress : reading.read (surroundings grammar) word = .finished outcome) :
    NodeKind.file.Licenses (file.children ++ (outcome.map Outcome.tree).toList) ∧
      ∀ child ∈ file.children ++ (outcome.map Outcome.tree).toList,
        child.Everywhere Tree.IsLicensed := by
  cases outcome with
  | none => exact ⟨(List.append_nil _).symm ▸ licensed.licenses, by simpa using licensed.below⟩
  | some last =>
    have ordinary := (Reading.licenses_read (surroundings grammar) tidy (fits.current _ current)
      (agrees.current _ current) (licensed.current _ current)).2 last progress
    exact ⟨licenses_append_operand licensed.licenses ordinary, List.forall_mem_append.mpr
      ⟨licensed.below, List.forall_mem_singleton.mpr ordinary.below⟩⟩

/-- One word after another leaves a licensed file. -/
theorem IsLicensed.read (licensed : file.IsLicensed) (tidy : word.IsTidy) (fits : file.Fits)
    (agrees : file.Agrees grammar) : (file.read grammar word).IsLicensed := by
  unfold FileReading.read
  split
  · exact isLicensed_beginWith licensed.licenses licensed.below tidy
  · next reading current =>
    split
    · next next progress =>
      refine ⟨licensed.licenses, licensed.below, fun reading same => ?_⟩
      cases same
      exact (Reading.licenses_read (surroundings grammar) tidy (fits.current _ current)
        (agrees.current _ current) (licensed.current _ current)).1 _ progress
    · next outcome progress =>
      obtain ⟨licenses, below⟩ := licensed.finished tidy fits agrees current progress
      exact isLicensed_beginWith licenses below tidy

/-- At its end a file has only children that it may have. -/
theorem IsLicensed.finish (licensed : file.IsLicensed) (tidy : word.IsTidy) (fits : file.Fits)
    (agrees : file.Agrees grammar) :
    NodeKind.file.Licenses (file.finish grammar word) ∧
      ∀ child ∈ file.finish grammar word, child.Everywhere Tree.IsLicensed := by
  unfold FileReading.finish
  split
  · exact ⟨licensed.licenses, licensed.below⟩
  · next reading current =>
    split
    · exact ⟨licensed.licenses, licensed.below⟩
    · next outcome progress => exact licensed.finished tidy fits agrees current progress

/-- All words of a file together leave it with what a file may have. -/
theorem isLicensed_foldl_read {words : List Word} (tidy : ∀ word ∈ words, word.IsTidy)
    (licensed : file.IsLicensed) (fits : file.Fits) (agrees : file.Agrees grammar) :
    (words.foldl (read grammar) file).IsLicensed := by
  induction words generalizing file with
  | nil => exact licensed
  | cons word words ih =>
    obtain ⟨first, later⟩ := List.forall_mem_cons.mp tidy
    exact ih later (licensed.read first fits agrees) (fits.read word) (agrees.read fits word)

end FileReading

/-- All nodes below a file have only children that they may have. So has the file itself, apart from
tokens behind its end. -/
theorem exists_licenses_of_parseTokens {grammar : Grammar} {tokens : List Token}
    {tree : SyntaxTree} (parsed : parseTokens grammar tokens = .ok tree) :
    ∃ ending beyond children, (WordStream.ofTokens tokens).ending = some (ending, beyond) ∧
      tree = ofKind .file (children ++ (beyond.filter fun token => !token.isEnd).map leaf) ∧
        NodeKind.file.Licenses children ∧
          ∀ child ∈ children, child.Everywhere Tree.IsLicensed := by
  obtain ⟨ending, beyond, found, rfl⟩ := exists_eq_tree_of_parseTokens parsed
  obtain ⟨wordsTidy, endingTidy⟩ := WordStream.isTidy_after (List.forall_mem_nil _) tokens
  have licensed := FileReading.isLicensed_foldl_read wordsTidy FileReading.isLicensed_empty
    FileReading.fits_empty (FileReading.agrees_empty grammar)
  have fits := FileReading.fits_foldl_read grammar (WordStream.ofTokens tokens).words
    FileReading.fits_empty
  have agrees := FileReading.agrees_foldl_read (WordStream.ofTokens tokens).words
    (FileReading.agrees_empty grammar) FileReading.fits_empty
  have tidy := endingTidy _ found
  obtain ⟨licenses, below⟩ := licensed.finish tidy fits agrees
  exact ⟨ending, beyond, _, found, rfl, FileReading.licenses_append_leadLeaves licenses tidy,
    List.forall_mem_append.mpr ⟨below, ending.everywhere_isLicensed_leadLeaves⟩⟩

/-! ## Trees -/

/-- What every node of a parsed tree looks like. -/
structure Tree.Conforms (node : SyntaxTree) : Prop where
  /-- Leaves hold a token and nothing else. -/
  leaf : node.isLeaf → ∃ token, node = SyntaxTree.leaf token
  /-- Atoms are made of one token of their kind. -/
  atom : ∀ kind, node.kind.atomToken? = some kind →
    ∃ token : Token, token.kind = kind ∧ node.children = [SyntaxTree.leaf token]
  /-- Every other construct has as many operands as its kind takes. -/
  count : node.isLeaf = false → node.kind.atomToken? = none → node.kind ≠ .file →
    node.kind.takes node.expressions.length
  /-- The operands are of kinds that may stand where they do. -/
  operands : ∀ number operand, node.expressions[number]? = some operand →
    node.kind.holds number operand.kind
  /-- Nothing is below an empty expression. -/
  empty : node.kind = .null → node.children = []

namespace Tree

/-- A node that fits the schema and is licensed conforms. -/
theorem conforms_of_fits {node : SyntaxTree} (fits : node.Fits) (licensed : node.IsLicensed) :
    node.Conforms := by
  cases fits with
  | leaf token =>
    refine ⟨fun _ => ⟨token, rfl⟩, fun kind held => ?_, fun inner => ?_, licensed.operands,
      licensed.empty⟩
    · unfold Tree.kind SyntaxTree.leaf at held
      cases blank : token.isTrivia <;> simp [blank, Tree.content, NodeKind.atomToken?] at held
    · simp at inner
  | @atom kind token same =>
    have inner := (isOperand_atom same).inner
    refine ⟨fun leaf => ?_, fun other held => ⟨token, ?_, rfl⟩, fun _ compound => ?_,
      licensed.operands, licensed.empty⟩
    · rw [inner] at leaf
      cases leaf
    · exact Option.some.inj (same.symm.trans held)
    · cases same.symm.trans compound
  | @construct content children bare takes =>
    have inner : content.kind.isLeaf = false := NodeKind.isLeaf_eq_false_of_takes takes
    refine ⟨fun leaf => ?_, fun kind held => ?_, fun _ _ _ => ?_, licensed.operands,
      licensed.empty⟩
    · cases inner.symm.trans leaf
    · exact absurd takes (NodeKind.not_takes_of_atomToken? held _)
    · rw [expressions, ← List.countP_eq_length_filter]
      exact takes

end Tree

/-- The root of a file conforms to the schema if its expressions may stand in a file. -/
theorem conforms_file {children : List SyntaxTree} (licenses : NodeKind.file.Licenses children)
    (trailing : List Token) : (ofKind .file (children ++ trailing.map leaf)).Conforms := by
  have leaves : ((trailing.map leaf).filter fun child => !child.isLeaf) = [] := by
    refine List.filter_eq_nil_iff.mpr fun child present => ?_
    obtain ⟨token, _, rfl⟩ := List.mem_map.mp present
    simp
  refine ⟨fun leaf => (by cases leaf), fun kind held => (by cases held),
    fun _ _ other => absurd rfl other, fun number operand found => ?_,
    fun null => (by cases null)⟩
  refine licenses.operands number operand ?_
  change ((children ++ trailing.map leaf).filter _)[number]? = some operand at found
  rwa [List.filter_append, leaves, List.append_nil] at found

/-- Every node of a tree that was read conforms to the schema. -/
theorem everywhere_conforms_of_parseTokens {grammar : Grammar} {tokens : List Token}
    {tree : SyntaxTree} (parsed : parseTokens grammar tokens = .ok tree) :
    tree.Everywhere Tree.Conforms := by
  obtain ⟨_, fileOf, fits⟩ := everywhere_fits_of_parseTokens parsed
  obtain ⟨_, beyond, children, _, rfl, licenses, licensed⟩ := exists_licenses_of_parseTokens parsed
  refine Tree.everywhere_node.mpr ⟨conforms_file licenses _, fun child among node inside => ?_⟩
  refine Tree.conforms_of_fits ?_ ?_
  · cases fileOf
    exact fits child among node inside
  · refine List.forall_mem_append.mpr ⟨licensed, fun child among => ?_⟩ child among node inside
    obtain ⟨token, _, rfl⟩ := List.mem_map.mp among
    exact everywhere_isLicensed_leaf token

end WolframSyntax
