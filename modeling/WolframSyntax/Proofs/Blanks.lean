import WolframSyntax.Proofs.Failures
import WolframSyntax.Proofs.Files
import WolframSyntax.Proofs.Gist
import WolframSyntax.Proofs.Licensing

/-!
# Blanks and what they touch

A pattern is written with a colon, or it is an expression with a blank that touches it
(`SyntaxTree.IsMarked`). Reading keeps that up, so all patterns of a file are of one of the two
kinds (`everywhere_isMarked_of_parseTokens`). A blank that touches an expression always goes on from
it or from an expression that ends with it, whatever that is: brackets hold what is inside of them
with no strength at all, and every other construct ends in front of a blank that does not bind more
strongly (`Reading.exists_settle_eq_blankName`). So a pattern can be made of anything
(`patterns_of_blanks`), and without an error (`not_symbols_in_front_of_blanks`).
-/

namespace WolframSyntax

open SyntaxTree

/-- Whether a tree is the leaf of a colon. -/
def Tree.isColon {Label : Type} (tree : Tree Label) : Bool :=
  tree.isLeaf && tree.content.token.any fun token => token.kind == .operator .colon

/-- A blank that makes a pattern of the expression that it touches. -/
def Token.IsBlank (token : Token) (mark : NodeKind) : Prop :=
  ∃ sign, token.kind = .operator sign ∧ Continuation.ofOperator? sign = some (.pattern mark)

namespace SyntaxTree

/-- The pattern of an expression and a blank behind it, which may have a name of its own. -/
def namedBlank (left : SyntaxTree) (mark : NodeKind) (blank : Token) (name : Option Token) :
    SyntaxTree :=
  ofKind .pattern
    [left, ofKind mark (leaf blank :: (name.map fun token => ofKind .symbol [leaf token]).toList)]

/-- A pattern has a colon, or it is made of an expression and a blank. -/
def IsMarked (node : SyntaxTree) : Prop :=
  node.kind = .pattern → node.children.any Tree.isColon ∨
    ∃ left mark blank name, node = namedBlank left mark blank name ∧ blank.IsBlank mark

/-- A node that is no pattern is marked everywhere if all below it is. -/
theorem everywhere_isMarked_node {content : Content} {children : List SyntaxTree}
    (other : content.kind ≠ .pattern) (below : ∀ child ∈ children, child.Everywhere IsMarked) :
    Tree.Everywhere IsMarked (.node () content children) :=
  Tree.everywhere_node.mpr ⟨fun same => absurd same other, below⟩

theorem everywhere_isMarked_leaf (token : Token) : (leaf token).Everywhere IsMarked := by
  refine everywhere_isMarked_node ?_ (List.forall_mem_nil _)
  cases token.isTrivia <;> exact NodeKind.noConfusion

end SyntaxTree

theorem Word.everywhere_isMarked_leadLeaves (word : Word) :
    ∀ child ∈ word.leadLeaves, child.Everywhere IsMarked := by
  intro child present
  obtain ⟨token, _, rfl⟩ := List.mem_map.mp present
  exact everywhere_isMarked_leaf token

theorem Word.everywhere_isMarked_leaves (word : Word) :
    ∀ child ∈ word.leaves, child.Everywhere IsMarked :=
  List.forall_mem_append.mpr ⟨word.everywhere_isMarked_leadLeaves,
    List.forall_mem_singleton.mpr (everywhere_isMarked_leaf word.token)⟩

/-! ## Tables -/

/-- Whether an opening makes no patterns. -/
def Opening.isUnmarked : Opening → Bool
  | .atom kind | .blank kind | .operator kind _ => kind != .pattern
  | .group | .list => true

/-- No opening makes a pattern. -/
theorem Opening.isUnmarked_of_ofKind? {kind : TokenKind} {opening : Opening}
    (opens : Opening.ofKind? kind = some opening) : opening.isUnmarked := by
  cases kind with
  | operator sign =>
    have table : ∀ sign, (Opening.ofOperator? sign).all isUnmarked := by
      intro sign
      cases sign <;> rfl
    have known := table sign
    rw [show Opening.ofOperator? sign = some opening from opens] at known
    exact known
  | identifier | number | string | slot | slotSequence => cases opens; rfl
  | whitespace | lineBreak | comment | error | endOfFile | other => cases opens

/-- Blanks are no patterns. -/
theorem Continuation.mark_ne_pattern {sign : Operator} {mark : NodeKind}
    (form : Continuation.ofOperator? sign = some (.pattern mark)) : mark ≠ .pattern := by
  have suits := Continuation.suits_of_ofOperator? form
  rintro rfl
  cases suits

/-! ## Frames -/

/-- The patterns below a frame are marked, and so is the pattern that it may become. A bracket holds
what is inside of it with no strength. -/
structure Frame.IsMarked (frame : Frame) : Prop where
  below : ∀ child ∈ frame.children, child.Everywhere SyntaxTree.IsMarked
  colon : frame.role.kind = .pattern → frame.children.any Tree.isColon
  loose : frame.brackets → frame.floor = 0

/-- The patterns in what a focus holds are marked. -/
def Focus.IsMarked : Focus → Prop
  | .complete outcome => outcome.tree.Everywhere SyntaxTree.IsMarked
  | .blankName kind blank named =>
    kind ≠ .pattern ∧
      ∀ left ∈ named, left.Everywhere SyntaxTree.IsMarked ∧ blank.IsBlank kind
  | _ => True

/-- The patterns in a reading are marked. -/
structure Reading.IsMarked (reading : Reading) : Prop where
  frames : ∀ frame ∈ reading.frames, frame.IsMarked
  focus : reading.focus.IsMarked

/-- The patterns in what a reaction leaves are marked. -/
def Reaction.IsMarked : Reaction → Prop
  | .waits frame focus => frame.IsMarked ∧ focus.hasOperand = false
  | .begins frame _ => frame.IsMarked
  | .closes outcome | .ends outcome => outcome.tree.Everywhere SyntaxTree.IsMarked

namespace Frame

variable {frame next : Frame} {word : Word} {outcome : Outcome}

/-- A frame stays marked with more children if all in them is marked and its own colon is there. -/
theorem IsMarked.append (marked : frame.IsMarked) {more : List SyntaxTree}
    (children : next.children = frame.children ++ more)
    (below : ∀ child ∈ more, child.Everywhere SyntaxTree.IsMarked)
    (colon : next.role.kind = .pattern → frame.role.kind = .pattern)
    (loose : next.brackets → next.floor = 0) : next.IsMarked := by
  refine ⟨?_, fun pattern => ?_, loose⟩
  · rw [children]
    exact List.forall_mem_append.mpr ⟨marked.below, below⟩
  · rw [children, List.any_append, marked.colon (colon pattern), Bool.true_or]

theorem IsMarked.add (marked : frame.IsMarked)
    (operand : outcome.tree.Everywhere SyntaxTree.IsMarked) : (frame.add outcome).IsMarked :=
  marked.append rfl (List.forall_mem_singleton.mpr operand) id marked.loose

theorem IsMarked.take (marked : frame.IsMarked) (word : Word) : (frame.take word).IsMarked :=
  marked.append rfl word.everywhere_isMarked_leaves id marked.loose

theorem IsMarked.takeLead (marked : frame.IsMarked) (word : Word) :
    (frame.takeLead word).IsMarked :=
  marked.append rfl word.everywhere_isMarked_leadLeaves id marked.loose

/-- A frame stays marked with errors for missing things. -/
theorem IsMarked.fail (marked : frame.IsMarked) (diagnostics : List Diagnostic) (word : Word) :
    (frame.fail diagnostics word).IsMarked := by
  refine marked.append rfl (fun child present => ?_) id marked.loose
  obtain ⟨diagnostic, _, rfl⟩ := List.mem_map.mp present
  exact everywhere_isMarked_node NodeKind.noConfusion (List.forall_mem_nil _)

/-- A construct may become a pattern only if it has a colon. -/
theorem IsMarked.everywhere_outcome (marked : frame.IsMarked) {kind : NodeKind}
    (own : kind = .pattern → frame.role.kind = .pattern) :
    (frame.outcome kind).tree.Everywhere SyntaxTree.IsMarked :=
  Tree.everywhere_node.mpr ⟨fun pattern => .inl (marked.colon (own pattern)), marked.below⟩

/-- A bracketed construct is no pattern. -/
theorem IsMarked.close (marked : frame.IsMarked) {kind : NodeKind} (plain : kind ≠ .pattern)
    (closing : Operator) (unclosed : List Diagnostic) (word : Word) :
    (frame.close kind closing unclosed word).IsMarked := by
  unfold Frame.close
  split
  · exact (marked.take word).everywhere_outcome fun pattern => absurd pattern plain
  · exact (marked.fail unclosed word).everywhere_outcome fun pattern => absurd pattern plain

/-- Items make no pattern. -/
theorem IsMarked.closeItems (marked : frame.IsMarked) (enclosure : Enclosure) (word : Word) :
    (frame.closeItems enclosure word).IsMarked := by
  unfold Frame.closeItems
  split
  · exact ⟨marked.take word, rfl⟩
  · refine marked.close ?_ _ _ word
    cases enclosure <;> exact NodeKind.noConfusion

/-- A tag is marked as the operand is that it is made from. -/
theorem everywhere_isMarked_tagOutcome (operand : outcome.tree.Everywhere SyntaxTree.IsMarked) :
    (tagOutcome outcome).1.tree.Everywhere SyntaxTree.IsMarked := by
  unfold tagOutcome
  split
  · exact operand
  · exact everywhere_isMarked_node NodeKind.noConfusion fun child present => operand.child present
  · exact operand
  · exact everywhere_isMarked_node NodeKind.noConfusion (List.forall_mem_singleton.mpr operand)

/-- What a frame does with an operand leaves all patterns marked. -/
theorem IsMarked.receive (marked : frame.IsMarked) (bracketed : Bool)
    (operand : outcome.tree.Everywhere SyntaxTree.IsMarked) (word : Word) :
    (frame.receive bracketed outcome word).IsMarked := by
  have fed : (frame.add outcome).IsMarked := marked.add operand
  cases role : frame.role with
  | group =>
    unfold Frame.receive
    simp only [role]
    exact fed.close NodeKind.noConfusion _ _ word
  | items enclosure =>
    unfold Frame.receive
    simp only [role]
    split
    · exact ⟨fed.take word, rfl⟩
    · exact fed.closeItems enclosure word
  | operand kind =>
    have ends : ((frame.add outcome).outcome kind).tree.Everywhere SyntaxTree.IsMarked :=
      fed.everywhere_outcome fun pattern => (congrArg Role.kind role).trans pattern
    unfold Frame.receive
    simp only [role]
    exact ends
  | chain kind sign =>
    have ends : ((frame.add outcome).outcome kind).tree.Everywhere SyntaxTree.IsMarked :=
      fed.everywhere_outcome fun pattern => (congrArg Role.kind role).trans pattern
    unfold Frame.receive
    simp only [role]
    split
    · exact ends
    split
    · split
      · exact ⟨fed.take word, rfl⟩
      · exact ends
    · split
      · exact fed
      · exact ends
    · exact ends
  | compound =>
    unfold Frame.receive
    simp only [role]
    split
    · exact ⟨fed.take word, rfl⟩
    · exact fed.everywhere_outcome fun pattern => by cases pattern
  | tag last =>
    have kept := marked.add (everywhere_isMarked_tagOutcome operand)
    unfold Frame.receive
    simp only [role]
    split
    · exact ⟨(kept.take word).append (List.append_nil _).symm (List.forall_mem_nil _)
        (fun pattern => by cases pattern) (fun bracket => by cases bracket), rfl⟩
    · exact IsMarked.everywhere_outcome ⟨kept.below, kept.colon, kept.loose⟩
        fun pattern => by cases pattern
  | tagPattern =>
    have waits : ∀ kind : NodeKind, kind ≠ .pattern →
        Frame.IsMarked { (frame.add outcome).take word with
          role := .operand kind, floor := frame.floor - 1 } := fun kind plain =>
      (fed.take word).append (List.append_nil _).symm (List.forall_mem_nil _)
        (fun pattern => absurd pattern plain) fun bracket => by cases bracket
    unfold Frame.receive
    simp only [role]
    split
    · exact fed.everywhere_outcome fun pattern => by cases pattern
    split
    · exact ⟨waits .tagSet NodeKind.noConfusion, rfl⟩
    split
    · exact ⟨waits .tagSetDelayed NodeKind.noConfusion, rfl⟩
    · exact (fed.fail _ word).everywhere_outcome fun pattern => by cases pattern

end Frame

/-! ## Readings -/

namespace Reading

variable {surroundings : Surroundings} {word : Word} {frames : List Frame} {before after : Reading}

/-- A reading is marked if its frames and its focus are. -/
theorem isMarked_of_cons {frame : Frame} {focus : Focus} (inner : frame.IsMarked)
    (outer : ∀ frame ∈ frames, frame.IsMarked) (held : focus.IsMarked) :
    IsMarked ⟨frame :: frames, focus⟩ :=
  ⟨List.forall_mem_cons.mpr ⟨inner, outer⟩, held⟩

/-- A word begins a marked expression. -/
theorem isMarked_begin {opening : Opening} {token : Token}
    (opens : Opening.ofKind? token.kind = some opening)
    (outer : ∀ frame ∈ frames, frame.IsMarked) : (begin frames opening token).IsMarked := by
  have unmarked := Opening.isUnmarked_of_ofKind? opens
  have below : ∀ child ∈ [leaf token], child.Everywhere SyntaxTree.IsMarked :=
    List.forall_mem_singleton.mpr (everywhere_isMarked_leaf token)
  cases opening with
  | atom kind => exact ⟨outer, everywhere_isMarked_node (bne_iff_ne.mp unmarked) below⟩
  | blank kind => exact ⟨outer, bne_iff_ne.mp unmarked, fun _ none => by cases none⟩
  | group | list =>
    exact isMarked_of_cons ⟨below, (fun pattern => by cases pattern), fun _ => rfl⟩ outer trivial
  | operator kind strength =>
    exact isMarked_of_cons ⟨below, fun pattern => absurd pattern (bne_iff_ne.mp unmarked),
      fun bracket => by cases bracket⟩ outer trivial

theorem isMarked_beginOperand {frame : Frame} {opening : Opening}
    (opens : word.opening? = some opening) (inner : frame.IsMarked)
    (outer : ∀ frame ∈ frames, frame.IsMarked) :
    (beginOperand frame frames opening word).IsMarked :=
  isMarked_begin opens (List.forall_mem_cons.mpr ⟨inner.takeLead word, outer⟩)

/-- Apart from blanks, only a colon goes on to a pattern. -/
theorem isMarked_continueWith {grammar : Grammar} {left : SyntaxTree} {sign : Operator}
    {continuation : Continuation} (same : word.token.kind = .operator sign)
    (form : Continuation.ofOperator? sign = some continuation)
    (operand : left.Everywhere SyntaxTree.IsMarked) (outer : ∀ frame ∈ frames, frame.IsMarked) :
    (continueWith grammar frames left sign continuation word).IsMarked := by
  have below : ∀ child ∈ left :: word.leaves, child.Everywhere SyntaxTree.IsMarked :=
    List.forall_mem_cons.mpr ⟨operand, word.everywhere_isMarked_leaves⟩
  have colon : continuation.makes .pattern → continuation.mustTouch = false →
      (left :: word.leaves).any Tree.isColon ∧ continuation = .binary .pattern false := by
    intro makes apart
    obtain ⟨rfl, binary⟩ := Continuation.eq_colon_of_makes form makes apart
    refine ⟨List.any_eq_true.mpr ⟨word.leaf, ?_, ?_⟩, binary⟩
    · exact List.mem_cons_of_mem _ (List.mem_append_right _ (List.mem_singleton_self _))
    · rw [Word.leaf, Tree.isColon, isLeaf_leaf]
      exact beq_iff_eq.mpr same
  have waits : ∀ {role : Role} {floor : Int} {focus : Focus},
      (role.kind = .pattern → (left :: word.leaves).any Tree.isColon) →
      (Frame.brackets ⟨role, floor, left :: word.leaves, true⟩ → floor = 0) → focus.IsMarked →
      IsMarked ⟨⟨role, floor, left :: word.leaves, true⟩ :: frames, focus⟩ :=
    fun colon loose held => isMarked_of_cons ⟨below, colon, loose⟩ outer held
  cases continuation with
  | binary kind nestsRight =>
    exact waits (fun pattern => (colon (beq_iff_eq.mpr pattern) rfl).1)
      (fun bracket => by cases bracket) trivial
  | flat kind =>
    exact waits (fun pattern => (colon (beq_iff_eq.mpr pattern) rfl).1)
      (fun bracket => by cases bracket) trivial
  | product =>
    exact waits (fun pattern => by cases pattern) (fun bracket => by cases bracket) trivial
  | suffix kind =>
    refine ⟨outer, everywhere_isMarked_node (fun pattern => ?_) below⟩
    cases (colon (beq_iff_eq.mpr pattern) rfl).2
  | call => exact waits (fun pattern => by cases pattern) (fun _ => rfl) trivial
  | pattern mark =>
    refine ⟨outer, Continuation.mark_ne_pattern form, fun named held => ?_⟩
    cases held
    exact ⟨operand, sign, same, form⟩
  | messageName | compound | tagSet =>
    exact waits (fun pattern => by cases pattern) (fun bracket => by cases bracket) trivial

/-- What goes on from a marked operand is marked: a pattern gets its colon, or its blank. -/
theorem isMarked_of_extend? {left : SyntaxTree}
    (goesOn : extend? surroundings frames left word = some after)
    (operand : left.Everywhere SyntaxTree.IsMarked) (outer : ∀ frame ∈ frames, frame.IsMarked) :
    after.IsMarked := by
  rcases eq_of_extend?_eq_some goesOn with ⟨sign, continuation, link, _, rfl⟩ | ⟨_, link, _, rfl⟩
  · obtain ⟨same, form, _⟩ := Word.of_link?_eq_sign link
    exact isMarked_continueWith same form operand outer
  · refine isMarked_beginOperand (Word.of_link?_eq_factor link).1 ⟨?_, ?_, ?_⟩ outer
    · exact List.forall_mem_singleton.mpr operand
    · exact fun pattern => by cases pattern
    · exact fun bracket => by cases bracket

/-- An expression with a blank behind it is a marked pattern. -/
theorem everywhere_isMarked_blankTree {kind : NodeKind} {blank : Token}
    {named : Option SyntaxTree} (marked : (Focus.blankName kind blank named).IsMarked)
    (name : Option Token) :
    (blankTree kind named (leaf blank ::
      (name.map fun token => ofKind .symbol [leaf token]).toList)).Everywhere
        SyntaxTree.IsMarked := by
  obtain ⟨plain, operand⟩ := marked
  have below : ∀ child ∈ leaf blank ::
      (name.map fun token => ofKind .symbol [leaf token]).toList,
      child.Everywhere SyntaxTree.IsMarked := by
    refine List.forall_mem_cons.mpr ⟨everywhere_isMarked_leaf blank, fun child present => ?_⟩
    obtain ⟨token, _, rfl⟩ := Option.map_eq_some_iff.mp (Option.mem_toList.mp present)
    exact everywhere_isMarked_node NodeKind.noConfusion
      (List.forall_mem_singleton.mpr (everywhere_isMarked_leaf token))
  have unnamed : (ofKind kind (leaf blank ::
      (name.map fun token => ofKind .symbol [leaf token]).toList)).Everywhere
        SyntaxTree.IsMarked := everywhere_isMarked_node plain below
  cases named with
  | none => exact unnamed
  | some left =>
    obtain ⟨leftMarked, isBlank⟩ := operand left rfl
    exact Tree.everywhere_node.mpr ⟨fun _ => .inr ⟨left, kind, blank, name, rfl, isBlank⟩,
        List.forall_mem_cons.mpr ⟨leftMarked, List.forall_mem_singleton.mpr unnamed⟩⟩

/-- How a construct reacts to a word leaves everything marked. -/
theorem Reacts.isMarked {reaction : Reaction}
    (reacts : Reacts surroundings word before frames reaction) (marked : before.IsMarked) :
    reaction.IsMarked ∧ ∀ frame ∈ frames, frame.IsMarked := by
  obtain ⟨stack, held⟩ := marked
  have absent : ∀ kind message, kind ≠ NodeKind.pattern →
      (SyntaxTree.absent kind message word.token).Everywhere SyntaxTree.IsMarked :=
    fun _ _ other => everywhere_isMarked_node other (List.forall_mem_nil _)
  cases reacts with
  | complete stays =>
    obtain ⟨inner, outer⟩ := List.forall_mem_cons.mp stack
    exact ⟨inner.receive _ held word, outer⟩
  | missing wants unopened =>
    obtain ⟨inner, outer⟩ := List.forall_mem_cons.mp stack
    exact ⟨inner.receive _ (absent _ _ NodeKind.noConfusion) word, outer⟩
  | absent unopened =>
    obtain ⟨inner, outer⟩ := List.forall_mem_cons.mp stack
    exact ⟨inner.receive _ (absent _ _ NodeKind.noConfusion) word, outer⟩
  | @empty _ _ _ enclosure begins role closing =>
    obtain ⟨inner, outer⟩ := List.forall_mem_cons.mp stack
    exact ⟨inner.closeItems enclosure word, outer⟩
  | partEnd =>
    obtain ⟨inner, outer⟩ := List.forall_mem_cons.mp stack
    exact ⟨inner.close NodeKind.noConfusion _ _ word, outer⟩

/-- A construct that ends is marked. -/
theorem Passes.isMarked (passes : Passes surroundings word before after)
    (marked : before.IsMarked) : after.IsMarked := by
  cases passes with
  | ends reacts =>
    obtain ⟨ended, outer⟩ := reacts.isMarked marked
    exact ⟨outer, ended⟩
  | unnamed apart => exact ⟨marked.frames, everywhere_isMarked_blankTree marked.focus none⟩

/-- A word that is taken leaves a marked reading. -/
theorem Takes.isMarked (takes : Takes surroundings word before after)
    (suits : ∀ frame ∈ before.frames.head?, before.focus.Suits frame.role)
    (marked : before.IsMarked) : after.IsMarked := by
  cases takes with
  | alone unfinished opens => exact isMarked_begin opens marked.frames
  | operand wants opens =>
    obtain ⟨inner, outer⟩ := List.forall_mem_cons.mp marked.frames
    exact isMarked_beginOperand opens inner outer
  | statement opens =>
    obtain ⟨inner, outer⟩ := List.forall_mem_cons.mp marked.frames
    exact isMarked_beginOperand (Word.opening?_of_openingInLine? opens) inner outer
  | continues goesOn => exact isMarked_of_extend? goesOn marked.focus marked.frames
  | @reacts _ _ frames reaction reacts taken =>
    obtain ⟨reacted, outer⟩ := reacts.isMarked marked
    cases reaction with
    | waits frame focus =>
      cases taken
      refine isMarked_of_cons reacted.1 outer ?_
      cases focus with
      | blankName | complete => cases reacted.2
      | _ => trivial
    | begins frame opening =>
      cases taken
      exact isMarked_beginOperand reacts.opening?_of_begins reacted outer
    | closes outcome =>
      cases taken
      exact ⟨outer, reacted⟩
    | ends outcome => cases taken
  | @part frame frames bracket touches =>
    obtain ⟨inner, outer⟩ := List.forall_mem_cons.mp marked.frames
    have call : frame.role = .items .call := suits frame rfl
    have loose : frame.floor = 0 := inner.loose (by rw [Frame.brackets, call])
    exact isMarked_of_cons ((inner.take word).append (List.append_nil _).symm
      (List.forall_mem_nil _) (fun pattern => by cases pattern) fun _ => loose) outer trivial
  | name identifier touches =>
    exact ⟨marked.frames, everywhere_isMarked_blankTree marked.focus (some word.token)⟩

/-- A reading that settles stays marked. -/
theorem Settles.isMarked (settles : Settles surroundings word before after)
    (marked : before.IsMarked) : after.IsMarked :=
  settles.keeps IsMarked (fun _ _ passes => passes.isMarked) marked

/-- Reading a word leaves all patterns marked. -/
theorem isMarked_read (fits : before.Fits) (rests : before.Rests surroundings)
    (marked : before.IsMarked) (word : Word) :
    (∀ next, before.read surroundings word = .reading next → next.IsMarked) ∧
      ∀ outcome, before.read surroundings word = .finished (some outcome) →
        outcome.tree.Everywhere SyntaxTree.IsMarked := by
  obtain ⟨settled, settles, decides⟩ := exists_settles_decides surroundings before word
  constructor
  · intro next progress
    rw [progress] at decides
    cases decides with
    | takes taken =>
      exact taken.isMarked (settles.awaits fits rests).2.suits (settles.isMarked marked)
  · intro outcome progress
    rw [progress] at decides
    cases decides with
    | finishes stays => exact (settles.isMarked marked).focus

end Reading

/-! ## Files -/

namespace FileReading

variable {grammar : Grammar} {tokens : List Token} {reading : Reading} {word : Word}

/-- All words of a file leave its patterns marked. -/
theorem isKept_isMarked (grammar : Grammar) :
    IsKept grammar (fun _ => True) (Tree.Everywhere SyntaxTree.IsMarked) fun reading =>
      (reading.Fits ∧ reading.Rests (surroundings grammar)) ∧ reading.IsMarked where
  leaf := everywhere_isMarked_leaf
  skipped word _ := everywhere_isMarked_node NodeKind.noConfusion
    (List.forall_mem_singleton.mpr (everywhere_isMarked_leaf word.token))
  begins word opening regular opens :=
    ⟨(isKept_agrees grammar).begins word opening regular opens,
      Reading.isMarked_begin opens (List.forall_mem_nil _)⟩
  continues reading word next regular known progress :=
    ⟨(isKept_agrees grammar).continues reading word next regular known.1 progress,
      (Reading.isMarked_read known.1.1 known.1.2 known.2 word).1 next progress⟩
  finishes _ word outcome _ known :=
    (Reading.isMarked_read known.1.1 known.1.2 known.2 word).2 outcome

/-- Whatever is being read in front of a word is marked. -/
theorem Meets.isMarked (meets : Meets grammar tokens reading word) : reading.IsMarked := by
  obtain ⟨_, _, before, _, _, _, current⟩ := meets
  have regular : ∀ earlier ∈ before, True := fun _ _ => trivial
  exact ((holds_empty.foldl_read (isKept_isMarked grammar) regular).current reading current).2

/-- What goes on with a word is met again by the word behind it. -/
theorem Meets.exists_next (meets : Meets grammar tokens reading word) {next : Reading}
    (progress : reading.read (surroundings grammar) word = .reading next) :
    ∃ following, Meets grammar tokens next following := by
  obtain ⟨ending, beyond, before, after, found, split, current⟩ := meets
  have unended : word.token.isEnd = false := Reading.isEnd_eq_false_of_read progress
  cases after with
  | nil =>
    have covers := WordStream.covers_ofTokens tokens
    rw [WordStream.Covers, found] at covers
    obtain ⟨_, same⟩ := List.append_inj' split rfl
    cases same
    cases unended.symm.trans covers.2.1
  | cons following later =>
    refine ⟨following, ending, beyond, before ++ [word], later, found, by simpa using split, ?_⟩
    rw [List.foldl_append, List.foldl_cons, List.foldl_nil, FileReading.read, current]
    dsimp only
    rw [progress]

end FileReading

/-- Every pattern of a tree that has been read is marked. -/
theorem everywhere_isMarked_of_parseTokens {grammar : Grammar} {tokens : List Token}
    {tree : SyntaxTree} (parsed : parseTokens grammar tokens = .ok tree) :
    tree.Everywhere SyntaxTree.IsMarked := by
  obtain ⟨ending, beyond, _, rfl⟩ := exists_eq_tree_of_parseTokens parsed
  exact everywhere_isMarked_node NodeKind.noConfusion
    (FileReading.forall_mem_children_tree (FileReading.isKept_isMarked grammar)
      (fun _ _ => trivial) trivial beyond)

/-! ## Blanks in view -/

/-- The blanks that make patterns are those that begin expressions. -/
theorem Opening.ofOperator?_of_pattern {sign : Operator} {mark : NodeKind}
    (form : Continuation.ofOperator? sign = some (.pattern mark)) :
    Opening.ofOperator? sign = some (.blank mark) := by
  cases sign <;> cases form <;> rfl

/-- A blank alone begins an expression. -/
theorem Word.opening?_of_isBlank {word : Word} {mark : NodeKind}
    (isBlank : word.token.IsBlank mark) : word.opening? = some (.blank mark) := by
  obtain ⟨sign, same, form⟩ := isBlank
  rw [opening?, same]
  exact Opening.ofOperator?_of_pattern form

/-- A construct that is no bracket ends in front of a blank that touches its last operand. -/
theorem Frame.exists_receive_eq_ends_of_touches {grammar : Grammar} {outer : Int} {frame : Frame}
    {word : Word} {mark : NodeKind} (agrees : frame.Agrees grammar outer)
    (open' : frame.brackets = false) (isBlank : word.token.IsBlank mark) (touches : word.touches)
    (bracketed : Bool) (outcome : Outcome) :
    ∃ left, frame.receive bracketed outcome word = .ends left := by
  have unlike : ∀ other : Operator, Opening.ofOperator? other = none →
      word.isOperator other = false :=
    fun _ => Word.isOperator_of_opening? (Word.opening?_of_isBlank isBlank)
  obtain ⟨sign, same, form⟩ := isBlank
  have link := Word.link?_of_touches same form touches bracketed
  cases role : frame.role with
  | group | items => simp [Frame.brackets, role] at open'
  | operand kind =>
    simp only [Frame.receive, role]
    exact ⟨_, rfl⟩
  | chain kind own =>
    -- The sign of a chain is that of a flat operator or of a product.
    have differs : sign ≠ own := by
      obtain ⟨_, _, _, made, follows, _⟩ :=
        agrees.stands.exists_isMadeBy (by simp [role]) (by simp [role])
      rw [role] at follows
      obtain ⟨rfl, chain, _⟩ := follows
      rintro rfl
      have pattern := Option.some.inj (form.symm.trans made.form)
      rcases chain with flat | ⟨product, _⟩
      · cases pattern.trans flat
      · cases pattern.trans product
    simp only [Frame.receive, role, link, if_neg differs]
    split <;> exact ⟨_, rfl⟩
  | compound =>
    simp only [Frame.receive, role, unlike .semicolon rfl, Bool.false_and]
    exact ⟨_, rfl⟩
  | tag last =>
    simp only [Frame.receive, role, unlike .doubleColon rfl, Bool.and_false]
    exact ⟨_, rfl⟩
  | tagPattern =>
    simp only [Frame.receive, role, unlike .set rfl, unlike .setDelayed rfl]
    split <;> exact ⟨_, rfl⟩

namespace Reading

variable {surroundings : Surroundings} {word : Word} {mark : NodeKind} {before after : Reading}

/-- A blank that touches an operand makes a pattern of it, however strongly the operand is bound. -/
theorem extend?_of_touches {sign : Operator} (same : word.token.kind = .operator sign)
    (form : Continuation.ofOperator? sign = some (.pattern mark)) (touches : word.touches)
    (frames : List Frame) (left : SyntaxTree) :
    extend? surroundings frames left word
      = if surroundings.floorOf frames < surroundings.grammar.precedence sign then
          some ⟨frames, .blankName mark word.token (some left)⟩
        else none := by
  simp only [extend?, Word.link?_of_touches same form touches, continueWith]

/-- A blank that touches a complete expression goes on from it or from an expression that ends with
it. -/
theorem exists_settle_eq_blankName (isBlank : word.token.IsBlank mark) (touches : word.touches)
    (loose : surroundings.floor ≤ 0) {frames : List Frame} (stack : surroundings.Holds frames)
    (marked : ∀ frame ∈ frames, frame.IsMarked) (outcome : Outcome) :
    ∃ outer left, Settles surroundings word ⟨frames, .complete outcome⟩ ⟨outer, .complete left⟩ ∧
      settle surroundings word frames outcome = settle surroundings word outer left ∧
      settle surroundings word outer left
        = .reading ⟨outer, .blankName mark word.token (some left.tree)⟩ := by
  obtain ⟨sign, same, form⟩ := isBlank
  have strong := surroundings.grammar.precedence_pos sign
  have extend : ∀ frames left, extend? surroundings frames left word = _ :=
    extend?_of_touches same form touches
  induction frames generalizing outcome with
  | nil =>
    have goesOn := extend [] outcome.tree
    have weaker : surroundings.floorOf [] < surroundings.grammar.precedence sign :=
      Int.lt_of_le_of_lt loose strong
    rw [if_pos weaker] at goesOn
    exact ⟨[], outcome, .refl, rfl, by simp only [settle, goesOn]⟩
  | cons frame frames ih =>
    obtain ⟨inner, outer⟩ := List.forall_mem_cons.mp marked
    have goesOn := extend (frame :: frames) outcome.tree
    by_cases weaker : frame.floor < surroundings.grammar.precedence sign
    · rw [if_pos (show surroundings.floorOf (frame :: frames) < _ from weaker)] at goesOn
      exact ⟨frame :: frames, outcome, .refl, rfl, by simp only [settle, goesOn]⟩
    · rw [if_neg (show ¬surroundings.floorOf (frame :: frames) < _ from weaker)] at goesOn
      -- What holds its operand at least as strongly as the blank would is no bracket.
      have open' : frame.brackets = false := by
        rw [← Bool.not_eq_true]
        exact fun brackets => weaker (inner.loose brackets ▸ strong)
      obtain ⟨left, ends⟩ := Frame.exists_receive_eq_ends_of_touches stack.1 open'
        ⟨sign, same, form⟩ touches (surroundings.isBracketed (frame :: frames)) outcome
      have reacts : Reacts surroundings word ⟨frame :: frames, .complete outcome⟩ frames _ :=
        .complete goesOn
      rw [ends] at reacts
      obtain ⟨rest, found, settles, on, goes⟩ := ih stack.2 outer left
      refine ⟨rest, found, .head (.ends reacts) settles, ?_, goes⟩
      rw [settle, goesOn]
      dsimp only
      rw [ends]
      exact on

/-- A blank that touches an expression makes a pattern of it or of one that ends with it. -/
theorem exists_completes_of_touches (isBlank : word.token.IsBlank mark) (touches : word.touches)
    (loose : surroundings.floor ≤ 0) (rests : before.Rests surroundings)
    (marked : before.IsMarked) (complete : before.focus.hasOperand) :
    ∃ frames outcome, before.Completes surroundings word frames outcome ∧
      before.read surroundings word
        = .reading ⟨frames, .blankName mark word.token (some outcome.tree)⟩ := by
  obtain ⟨frames, focus⟩ := before
  cases focus with
  | complete outcome =>
    obtain ⟨outer, left, settles, on, goes⟩ :=
      exists_settle_eq_blankName isBlank touches loose rests.frames marked.frames outcome
    exact ⟨outer, left, ⟨settles, on⟩, on.trans goes⟩
  | blankName kind blank named =>
    obtain ⟨outer, left, settles, on, goes⟩ :=
      exists_settle_eq_blankName isBlank touches loose rests.frames marked.frames
        ⟨blankTree kind named [leaf blank], true⟩
    have apart : ¬(word.token.kind = .identifier ∧ word.touches) := by
      obtain ⟨sign, same, _⟩ := isBlank
      rintro ⟨identifier, _⟩
      cases same.symm.trans identifier
    have read : Reading.read surroundings ⟨frames, .blankName kind blank named⟩ word = _ :=
      if_neg apart
    exact ⟨outer, left, ⟨.head (.unnamed apart) settles, read.trans on⟩,
      read.trans (on.trans goes)⟩
  | operand | firstItem | arguments | partEnd | statement => cases complete

/-- A blank that begins an expression has no name in front of it. -/
theorem begin_ne_blankName {frames outer : List Frame} {opening : Opening} {token blank : Token}
    {kind : NodeKind} {left : SyntaxTree} :
    begin frames opening token ≠ ⟨outer, .blankName kind blank (some left)⟩ := by
  cases opening <;> exact fun same => by cases same

/-- Only a blank that touches an expression goes on from it. -/
theorem Takes.touches_of_blankName {frames : List Frame} {kind : NodeKind} {blank : Token}
    {left : SyntaxTree}
    (takes : Takes surroundings word before ⟨frames, .blankName kind blank (some left)⟩)
    (marked : before.IsMarked) : word.touches := by
  generalize same : Reading.mk frames (.blankName kind blank (some left)) = after at takes
  cases takes with
  | alone | operand | statement => exact (begin_ne_blankName same.symm).elim
  | continues goesOn =>
    rcases eq_of_extend?_eq_some goesOn with ⟨_, continuation, link, _, next⟩ | ⟨_, _, _, next⟩
    · have touches := (Word.of_link?_eq_sign link).2.2.2
      rw [next] at same
      cases continuation with
      | pattern mark => exact touches rfl
      | _ => cases same
    · exact (begin_ne_blankName (next.symm.trans same.symm)).elim
  | @reacts _ _ outer reaction reacts taken =>
    have reacted := (reacts.isMarked marked).1
    cases reaction with
    | waits frame focus =>
      cases taken
      cases same
      cases reacted.2
    | begins frame opening =>
      cases taken
      exact (begin_ne_blankName same.symm).elim
    | closes outcome =>
      cases taken
      cases same
    | ends outcome => cases taken
  | part | name => cases same

/-- A blank with an expression in front of it becomes a pattern when the next word is read. -/
theorem exists_has_namedBlank (surroundings : Surroundings) (frames : List Frame)
    (mark : NodeKind) (blank : Token) (left : SyntaxTree) (following : Word) :
    ∃ name, (Reading.read surroundings ⟨frames, .blankName mark blank (some left)⟩ following).Has
      (namedBlank left mark blank name) := by
  rw [Reading.read]
  dsimp only
  rw [readBlankName]
  split
  · exact ⟨some following.token, .inr (Tree.mem_walk_self _)⟩
  · exact ⟨none, (arrives_settle _ _).has NodeKind.noConfusion (.inr (Tree.mem_walk_self _))⟩

end Reading

/-- A pattern with a blank has no errors besides those of the expression in front of the blank. -/
theorem SyntaxTree.errors_namedBlank {left : SyntaxTree} {mark : NodeKind} {blank : Token}
    {name : Option Token} (isBlank : blank.IsBlank mark) :
    (namedBlank left mark blank name).errors = left.errors := by
  have plain : mark ≠ .error := by
    obtain ⟨sign, _, form⟩ := isBlank
    rintro rfl
    cases Continuation.suits_of_ofOperator? form
  have none : ∀ token, (leaf token).errors = [] := fun token =>
    Tree.isClean_iff_errors_eq_nil.mp (isClean_leaf token)
  cases name <;> simp [namedBlank, ofKind, Tree.errors_node, plain, none]

/-- The expression in front of a blank is an operand. -/
theorem SyntaxTree.isOperand_of_namedBlank {left : SyntaxTree} {mark : NodeKind} {blank : Token}
    {name : Option Token} (fits : (namedBlank left mark blank name).Everywhere Fits) :
    left.IsOperand := by
  refine ⟨fits.child List.mem_cons_self, ?_⟩
  generalize same : namedBlank left mark blank name = node at fits
  cases fits.root with
  | leaf token =>
    have inner : (namedBlank left mark blank name).isLeaf = false := rfl
    simp [same] at inner
  | atom held => cases same
  | construct bare takes =>
    cases same
    have two : operandCount [left, _] = 2 := eq_of_beq takes
    rw [← Bool.not_eq_true]
    intro inner
    simp only [operandCount, List.countP_cons, List.countP_nil, inner, Bool.not_true] at two
    split at two <;> cases two

open FileReading in
/-- A token list with an end token can be read. A pattern in its tree without a colon is made of an
expression and a blank. If the expression is a symbol then the blank is right behind its only token,
but it can be anything, and no error is reported for that: when an expression is complete and a
blank is in view, the blank makes a pattern of it or of one that ends with it if it touches it, and
of nothing otherwise. -/
theorem patterns_of_blanks (grammar : Grammar) (tokens : List Token)
    (present : tokens.any Token.isEnd) :
    ∃ tree, parseTokens grammar tokens = .ok tree ∧
      (∀ node ∈ tree.walk, node.kind = .pattern → node.children.any Tree.isColon = false →
        ∃ left mark blank name, node = namedBlank left mark blank name ∧ blank.IsBlank mark ∧
          node.errors = left.errors ∧ left.isLeaf = false ∧
            (left.kind = .symbol →
              ∃ token, token.kind = .identifier ∧ left = ofKind .symbol [leaf token])) ∧
      ∀ reading word mark, Meets grammar tokens reading word → reading.focus.hasOperand →
        word.token.IsBlank mark →
          (word.touches → ∃ frames outcome name,
            reading.Completes (surroundings grammar) word frames outcome ∧
              namedBlank outcome.tree mark word.token name ∈ tree.walk) ∧
          (word.touches = false → ∀ frames left,
            reading.read (surroundings grammar) word
              ≠ .reading ⟨frames, .blankName mark word.token (some left)⟩) := by
  obtain ⟨final, held, ends⟩ := List.any_eq_true.mp present
  obtain ⟨tree, parsed⟩ := exists_parseTokens_eq_ok grammar held ends
  obtain ⟨children, file, below⟩ := everywhere_fits_of_parseTokens parsed
  refine ⟨tree, parsed, fun node inside pattern colonless => ?_,
    fun reading word mark meets complete isBlank => ⟨fun touches => ?_, fun apart => ?_⟩⟩
  · obtain ⟨left, mark, blank, name, rfl, isBlank⟩ :=
      (everywhere_isMarked_of_parseTokens parsed node inside pattern).resolve_left
        (by simp [colonless])
    have operand : left.IsOperand := by
      rw [file, Tree.walk_eq] at inside
      rcases List.mem_cons.mp inside with same | inside
      · cases same
      · obtain ⟨child, among, inside⟩ := List.mem_flatMap.mp inside
        exact isOperand_of_namedBlank ((below child among).within inside)
    exact ⟨left, mark, blank, name, rfl, isBlank, errors_namedBlank isBlank, operand.inner,
      exists_eq_symbol operand⟩
  · obtain ⟨frames, outcome, completes, progress⟩ :=
      Reading.exists_completes_of_touches isBlank touches (Int.le_refl 0) meets.isSound.2
        meets.isMarked complete
    obtain ⟨following, meetsNext⟩ := meets.exists_next progress
    obtain ⟨name, has⟩ := Reading.exists_has_namedBlank (surroundings grammar) frames mark
      word.token outcome.tree following
    exact ⟨frames, outcome, name, completes,
      meetsNext.mem_walk parsed NodeKind.noConfusion has⟩
  · intro frames left progress
    obtain ⟨settled, settles, decides⟩ :=
      Reading.exists_settles_decides (surroundings grammar) reading word
    rw [progress] at decides
    cases decides with
    | takes taken =>
      cases apart.symm.trans (taken.touches_of_blankName (settles.isMarked meets.isMarked))

open FileReading in
/-- A number is no name, and the blank that touches it makes a pattern of it without an error. -/
theorem patterns_of_blanks_number :
    let number : Token := ⟨.number, "1", 1, 1⟩
    let blank : Token := ⟨.operator .blank, "_", 1, 2⟩
    let tokens : List Token := [number, blank, ⟨.endOfFile, "", 1, 3⟩]
    tokens.any Token.isEnd ∧ ∃ tree, parseTokens .standard tokens = .ok tree ∧ tree.errors = [] ∧
      ∃ reading, Meets .standard tokens reading ⟨[], blank⟩ ∧ reading.focus.hasOperand ∧
        blank.IsBlank .blank ∧ ∃ frames outcome name,
          reading.Completes (surroundings .standard) ⟨[], blank⟩ frames outcome ∧
            namedBlank outcome.tree .blank blank name ∈ tree.walk := by
  intro number blank tokens
  have present : tokens.any Token.isEnd := by decide +kernel
  have clean : (parseTokens .standard tokens).toOption.all fun tree => tree.errors.isEmpty := by
    decide +kernel
  obtain ⟨tree, parsed, _, blanks⟩ := patterns_of_blanks .standard tokens present
  rw [parsed] at clean
  have none : tree.errors = [] := List.isEmpty_iff.mp clean
  have isBlank : blank.IsBlank .blank := ⟨.blank, rfl, rfl⟩
  have meets : Meets .standard tokens ⟨[], .complete ⟨ofKind .number [leaf number], true⟩⟩
      ⟨[], blank⟩ :=
    ⟨⟨[], ⟨.endOfFile, "", 1, 3⟩⟩, [], [⟨[], number⟩], [⟨[], ⟨.endOfFile, "", 1, 3⟩⟩],
      rfl, rfl, rfl⟩
  obtain ⟨attaches, _⟩ := blanks _ _ .blank meets rfl isBlank
  exact ⟨present, tree, parsed, none, _, meets, rfl, isBlank, attaches rfl⟩

/-- Not all expressions in front of blanks are symbols, even in files without errors. -/
theorem not_symbols_in_front_of_blanks :
    ¬∀ (grammar : Grammar) (source : String), ∀ node ∈ (parseSource grammar source).walk,
      node.kind = .pattern → node.children.any Tree.isColon = false →
        node.firstExpression.map Tree.kind = some .symbol ∨
          (parseSource grammar source).errors ≠ [] := by
  intro always
  have exception : (parseSource .standard "1_").walk.any (fun node => node.kind == .pattern &&
      !node.children.any Tree.isColon && node.firstExpression.map Tree.kind != some .symbol) := by
    decide +kernel
  have clean : (parseSource .standard "1_").errors.isEmpty := by decide +kernel
  obtain ⟨node, inside, found⟩ := List.any_eq_true.mp exception
  simp only [Bool.and_eq_true, beq_iff_eq, Bool.not_eq_true', bne_iff_ne] at found
  obtain ⟨⟨pattern, colonless⟩, other⟩ := found
  rcases always .standard "1_" node inside pattern colonless with symbol | errors
  · exact other symbol
  · exact errors (List.isEmpty_iff.mp clean)

end WolframSyntax
