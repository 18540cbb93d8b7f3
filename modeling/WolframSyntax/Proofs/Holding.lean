import WolframSyntax.Proofs.Fitting
import WolframSyntax.Proofs.Precedence

/-!
# How constructs hold their operands

An operator is only taken if it binds more strongly than the construct around it holds its operand.
So every unfinished construct is held more weakly by what surrounds it than its own operator binds
(`Frame.Stands`). Whatever a construct does with an operand that is complete while a word is in view
leaves it in order: it goes on, or it is complete and may stand in front of the word
(`Frame.Agrees.receive`).
-/

namespace WolframSyntax

open SyntaxTree

/-- The operator by which a word goes on from an expression. -/
def Word.next? (bracketed : Bool) (word : Word) : Option Operator :=
  match word.link? bracketed with
  | some (.sign sign _) => some sign
  | some (.factor _) => some .times
  | none => none

/-- What a construct waits for behind an operator of a given precedence, and how strongly it holds
it, when it has a number of operands behind the operator. -/
def Role.Follows (sign : Operator) (continuation : Continuation) (precedence floor : Int)
    (number : Nat) : Role → Prop
  | .operand kind =>
    (∃ nestsRight, continuation = .binary kind nestsRight ∧ number = 0 ∧
        floor = if nestsRight then precedence - 1 else precedence) ∨
      continuation = .tagSet ∧ (kind = .tagSet ∨ kind = .tagSetDelayed) ∧ number = 1 ∧
        floor = precedence - 1
  | .chain kind own =>
    own = sign ∧ (continuation = .flat kind ∨ continuation = .product ∧ kind = .times) ∧
      floor = precedence
  | .items .call | .items .part => continuation = .call
  | .tag _ => continuation = .messageName ∧ floor = precedence
  | .compound => continuation = .compound ∧ floor = precedence
  | .tagPattern => continuation = .tagSet ∧ number = 0 ∧ floor = precedence
  | .group | .items .list => False

/-- The operands of a frame. -/
def Frame.expressions (frame : Frame) : List SyntaxTree :=
  frame.children.filter fun child => !child.isLeaf

/-- The children of a frame are an expression and what has been read behind it, and they are in
order as the operands of a given operator. -/
structure Frame.IsMadeBy (grammar : Grammar) (sign : Operator) (continuation : Continuation)
    (frame : Frame) (left : SyntaxTree) : Prop where
  form : Continuation.ofOperator? sign = some continuation
  first : frame.children.head? = some left
  inner : left.isLeaf = false
  bare : left.content.token = none
  signed : ∀ kind nestsRight, continuation = .binary kind nestsRight →
    ∃ second ∈ frame.children[1]?, second.isLeaf
  before : (∀ child ∈ frame.children, child.IsClean) →
    left.StandsBefore grammar (grammar.precedence sign)
  chain : (∀ child ∈ frame.children, child.IsClean) → continuation.isChain →
    left.madeBy? ≠ some sign
  behind : (∀ child ∈ frame.children, child.IsClean) →
    ∀ number operand inner, frame.expressions.tail[number]? = some operand →
      operand.madeBy? = some inner →
        continuation.HoldsRight (grammar.precedence sign) (grammar.precedence inner) number

/-- How a frame was begun: by a bracket, by an operator in front of its operand, or by an operator
that binds more strongly than what surrounds the frame holds its operand. -/
inductive Frame.Stands (grammar : Grammar) (outer : Int) (frame : Frame) : Prop where
  | bracket {token : Token} (first : frame.children.head? = some (leaf token))
      (role : frame.role = .group ∨ frame.role = .items .list)
  | opened {token : Token} {kind : NodeKind} (first : frame.children.head? = some (leaf token))
      (role : frame.role = .operand kind)
      (opens : Opening.ofKind? token.kind = some (.operator kind frame.floor))
  | made {sign : Operator} {continuation : Continuation} {left : SyntaxTree}
      (made : frame.IsMadeBy grammar sign continuation left)
      (follows : frame.role.Follows sign continuation (grammar.precedence sign) frame.floor
        frame.expressions.tail.length)
      (weak : outer < grammar.precedence sign)

/-- The children of a frame are in order, and one of them has errors if the frame failed. -/
structure Frame.IsSound (grammar : Grammar) (frame : Frame) : Prop where
  below : ∀ child ∈ frame.children, child.Agrees grammar
  failed : frame.succeeded = false → ∃ child ∈ frame.children, ¬child.IsClean

/-- What is known of a frame that is held with strength `outer`. -/
structure Frame.Agrees (grammar : Grammar) (outer : Int) (frame : Frame) : Prop where
  sound : frame.IsSound grammar
  stands : frame.Stands grammar outer

/-- What is known of a complete expression that is held with strength `outer`. -/
structure Outcome.Agrees (grammar : Grammar) (outer : Int) (outcome : Outcome) : Prop where
  below : outcome.tree.Agrees grammar
  failed : outcome.succeeded = false → ¬outcome.tree.IsClean
  strong : ∀ sign, outcome.tree.madeBy? = some sign → outer < grammar.precedence sign

/-- The role of the innermost frame when some focus is on what it waits for. -/
def Focus.Suits : Focus → Role → Prop
  | .statement, role => role = .compound
  | .arguments, role => role = .items .call
  | .partEnd, role => role = .items .part
  | _, _ => True

namespace Frame

variable {grammar : Grammar} {frame next : Frame} {sign : Operator} {continuation : Continuation}
  {left : SyntaxTree} {outer : Int} {word : Word}

/-- A construct made by an operator has its left operand as its first child and first expression. -/
theorem IsMadeBy.exists_children (made : frame.IsMadeBy grammar sign continuation left) :
    ∃ rest, frame.children = left :: rest ∧
      frame.expressions = left :: rest.filter fun child => !child.isLeaf := by
  cases children : frame.children with
  | nil =>
    have first := made.first
    rw [children] at first
    cases first
  | cons first rest =>
    have same := made.first
    rw [children] at same
    cases same
    refine ⟨rest, rfl, ?_⟩
    rw [expressions, children]
    exact List.filter_cons_of_pos (by simp [made.inner])

/-- Tokens among the children are no expressions. -/
theorem expressions_append_leaves {more : List SyntaxTree}
    (children : next.children = frame.children ++ more) (leaves : ∀ child ∈ more, child.isLeaf) :
    next.expressions = frame.expressions := by
  have none : (more.filter fun child => !child.isLeaf) = [] :=
    List.filter_eq_nil_iff.mpr fun child present => by simp [leaves child present]
  rw [expressions, children, List.filter_append, none, List.append_nil]
  rfl

/-- A frame that goes on with more children stays in order if its new operands are in order. -/
theorem IsMadeBy.append (made : frame.IsMadeBy grammar sign continuation left)
    {more : List SyntaxTree} (children : next.children = frame.children ++ more)
    (behind : (∀ child ∈ more, child.IsClean) → ∀ number operand inner,
      (more.filter fun child => !child.isLeaf)[number]? = some operand →
        operand.madeBy? = some inner →
          continuation.HoldsRight (grammar.precedence sign) (grammar.precedence inner)
            (frame.expressions.tail.length + number)) :
    next.IsMadeBy grammar sign continuation left := by
  have earlier : (∀ child ∈ next.children, child.IsClean) →
      ∀ child ∈ frame.children, child.IsClean := by
    intro clean child present
    exact clean child (children ▸ List.mem_append_left _ present)
  obtain ⟨rest, same, operands⟩ := made.exists_children
  have later : next.expressions.tail
      = frame.expressions.tail ++ more.filter fun child => !child.isLeaf := by
    rw [operands, expressions, children, List.filter_append]
    rw [← expressions, operands]
    rfl
  refine ⟨made.form, ?_, made.inner, made.bare, fun kind nestsRight binary => ?_,
    fun clean => made.before (earlier clean), fun clean => made.chain (earlier clean), ?_⟩
  · rw [children, same]
    rfl
  · obtain ⟨second, present, leaf⟩ := made.signed kind nestsRight binary
    refine ⟨second, ?_, leaf⟩
    rw [children, List.getElem?_append_left]
    · exact present
    · exact (List.getElem?_eq_some_iff.mp present).1
  · intro clean number operand inner found infixed
    rw [later] at found
    by_cases old : number < frame.expressions.tail.length
    · rw [List.getElem?_append_left old] at found
      exact made.behind (earlier clean) number operand inner found infixed
    · rw [List.getElem?_append_right (by omega)] at found
      have later : ∀ child ∈ more, child.IsClean := fun child present =>
        clean child (children ▸ List.mem_append_right _ present)
      have holds := behind later _ operand inner found infixed
      rwa [show frame.expressions.tail.length + (number - frame.expressions.tail.length) = number by
        omega] at holds

/-- More tokens change nothing about what made a construct. -/
theorem IsMadeBy.append_leaves (made : frame.IsMadeBy grammar sign continuation left)
    {more : List SyntaxTree} (children : next.children = frame.children ++ more)
    (leaves : ∀ child ∈ more, child.isLeaf) : next.IsMadeBy grammar sign continuation left := by
  refine made.append children fun _ number operand inner found => ?_
  have none : (more.filter fun child => !child.isLeaf) = [] :=
    List.filter_eq_nil_iff.mpr fun child present => by simp [leaves child present]
  rw [none] at found
  cases found

/-- The operator of a construct that is complete with the children of a frame. -/
theorem IsMadeBy.madeBy?_outcome (made : frame.IsMadeBy grammar sign continuation left)
    {kind : NodeKind} (makes : continuation.makes kind) (apart : continuation.mustTouch = false) :
    (frame.outcome kind).tree.madeBy? = some sign := by
  obtain ⟨rest, children, _⟩ := made.exists_children
  change (ofKind kind frame.children).madeBy? = some sign
  by_cases plain : kind = .pattern
  · subst plain
    obtain ⟨rfl, binary⟩ := Continuation.eq_colon_of_makes made.form makes apart
    obtain ⟨second, present, leaf⟩ := made.signed _ _ binary
    rw [children] at present ⊢
    cases rest with
    | nil => cases present
    | cons next rest =>
      cases present
      exact madeBy?_colon made.inner leaf rest
  · rw [children]
    exact madeBy?_of_makes made.form makes plain made.inner rest

/-- A construct that is complete with the children of a frame respects the precedences. -/
theorem IsMadeBy.respects (made : frame.IsMadeBy grammar sign continuation left)
    {kind : NodeKind} (makes : continuation.makes kind) (apart : continuation.mustTouch = false)
    (clean : ∀ child ∈ frame.children, child.IsClean) :
    (frame.outcome kind).tree.Respects grammar := by
  have own := made.madeBy?_outcome makes apart
  obtain ⟨rest, _, operands⟩ := made.exists_children
  have first : (frame.outcome kind).tree.firstExpression = some left := by
    change frame.expressions.head? = some left
    rw [operands]
    rfl
  refine ⟨fun other form same formOfOther => ?_, fun other start same begins => ?_,
    fun other form start same formOfOther chain begins => ?_⟩
  · cases own.symm.trans same
    cases made.form.symm.trans formOfOther
    exact made.behind clean
  · cases own.symm.trans same
    cases first.symm.trans begins
    exact made.before clean
  · cases own.symm.trans same
    cases made.form.symm.trans formOfOther
    cases first.symm.trans begins
    exact made.chain clean chain

end Frame

/-- An inner node is free of errors if it is none itself and its children are. -/
theorem SyntaxTree.isClean_ofKind {kind : NodeKind} {children : List SyntaxTree} :
    (ofKind kind children).IsClean ↔ kind ≠ .error ∧ ∀ child ∈ children, child.IsClean :=
  Tree.everywhere_node

/-- A token is free of errors. -/
theorem SyntaxTree.isClean_leaf (token : Token) : (leaf token).IsClean := by
  refine Tree.everywhere_node.mpr ⟨?_, List.forall_mem_nil _⟩
  cases token.isTrivia <;> exact NodeKind.noConfusion

/-- Whether a frame of the role goes on as before when it has one more operand. -/
def Role.repeats : Role → Bool
  | .group | .items _ | .chain _ _ | .compound | .tag _ => true
  | .operand _ | .tagPattern => false

namespace Role.Follows

variable {sign : Operator} {continuation : Continuation} {precedence floor inner : Int}
  {role : Role} {number : Nat}

/-- An operand that is bound more strongly than it is held stands in order behind the operator. -/
theorem holdsRight (follows : role.Follows sign continuation precedence floor number)
    (stronger : floor < inner) : continuation.HoldsRight precedence inner number := by
  cases role with
  | operand kind =>
    rcases follows with ⟨nestsRight, rfl, _, rfl⟩ | ⟨rfl, _, rfl, rfl⟩
    · cases nestsRight with
      | true => exact Int.le_of_sub_one_lt stronger
      | false => exact stronger
    · exact Int.le_of_sub_one_lt stronger
  | chain kind own =>
    obtain ⟨_, rfl | ⟨rfl, _⟩, rfl⟩ := follows <;> exact stronger
  | items enclosure => cases enclosure <;> cases follows <;> trivial
  | tag last =>
    obtain ⟨rfl, _⟩ := follows
    trivial
  | compound =>
    obtain ⟨rfl, rfl⟩ := follows
    exact stronger
  | tagPattern =>
    obtain ⟨rfl, rfl, rfl⟩ := follows
    exact stronger
  | group => cases follows

/-- An operator that follows a role need not touch its operands. -/
theorem mustTouch_eq_false (follows : role.Follows sign continuation precedence floor number) :
    continuation.mustTouch = false := by
  cases role with
  | operand kind => rcases follows with ⟨_, rfl, _⟩ | ⟨rfl, _⟩ <;> rfl
  | chain kind own => obtain ⟨_, rfl | ⟨rfl, _⟩, _⟩ := follows <;> rfl
  | items enclosure => cases enclosure <;> cases follows <;> rfl
  | tag last => rw [follows.1]; rfl
  | compound | tagPattern => rw [follows.1]; rfl
  | group => cases follows

/-- Where operators repeat, the number of operands read so far makes no difference. -/
theorem of_repeats (follows : role.Follows sign continuation precedence floor number)
    (repeats : role.repeats) (other : Nat) :
    role.Follows sign continuation precedence floor other := by
  cases role with
  | operand | tagPattern => cases repeats
  | items enclosure => cases enclosure <;> exact follows
  | _ => exact follows

end Role.Follows

namespace Frame

variable {grammar : Grammar} {frame next : Frame} {sign : Operator} {continuation : Continuation}
  {left : SyntaxTree} {outer : Int} {word : Word} {outcome : Outcome}

/-- A construct that has failed shows an error wherever it ends. -/
theorem IsSound.failed_outcome (sound : frame.IsSound grammar) (kind : NodeKind) :
    (frame.outcome kind).succeeded = false → ¬(frame.outcome kind).tree.IsClean := by
  intro unsuccessful clean
  obtain ⟨child, present, dirty⟩ := sound.failed unsuccessful
  exact dirty ((isClean_ofKind.mp clean).2 child present)

/-- A construct that begins with its own token is complete in order. -/
theorem IsSound.agrees_outcome (sound : frame.IsSound grammar) {token : Token}
    (first : frame.children.head? = some (leaf token)) (kind : NodeKind) :
    (frame.outcome kind).tree.madeBy? = none ∧ (frame.outcome kind).Agrees grammar outer := by
  have unmade : (frame.outcome kind).tree.madeBy? = none := by
    obtain ⟨rest, children⟩ := List.head?_eq_some_iff.mp first
    change (ofKind kind frame.children).madeBy? = none
    rw [children]
    exact madeBy?_of_leaf kind token rest
  refine ⟨unmade, agrees_ofKind sound.below fun _ => Tree.respects_of_madeBy?_eq_none unmade,
    sound.failed_outcome kind, fun sign made => ?_⟩
  rw [unmade] at made
  cases made

/-- A construct that was made by an operator is complete in order. -/
theorem IsMadeBy.agrees_outcome (made : frame.IsMadeBy grammar sign continuation left)
    (sound : frame.IsSound grammar) (weak : outer < grammar.precedence sign) {kind : NodeKind}
    (makes : continuation.makes kind) (apart : continuation.mustTouch = false) :
    (frame.outcome kind).Agrees grammar outer := by
  refine ⟨agrees_ofKind sound.below fun clean =>
    made.respects makes apart (isClean_ofKind.mp clean).2, sound.failed_outcome kind, ?_⟩
  intro other same
  cases (made.madeBy?_outcome makes apart).symm.trans same
  exact weak

/-- A construct that was made by an operator may stand in front of the next one if the precedences
allow it. -/
theorem IsMadeBy.awaits (made : frame.IsMadeBy grammar sign continuation left) {kind : NodeKind}
    (makes : continuation.makes kind) (apart : continuation.mustTouch = false)
    {next : Option Operator}
    (tested : (frame.outcome kind).tree.IsClean → ∀ other ∈ next,
      continuation.HoldsLeft (grammar.precedence other) (grammar.precedence sign)
        (frame.outcome kind).tree.IsComplete ∧ (continuation.isChain → other ≠ sign)) :
    (frame.outcome kind).tree.Awaits grammar next := by
  intro clean other follows
  obtain ⟨holds, unlike⟩ := tested clean other follows
  have own := made.madeBy?_outcome makes apart
  refine ⟨⟨fun known form same formOfKnown => ?_, fun strength opened => ?_⟩, ?_⟩
  · cases own.symm.trans same
    cases made.form.symm.trans formOfKnown
    exact holds
  · obtain ⟨rest, children, _⟩ := made.exists_children
    change (ofKind kind frame.children).strength? = _ at opened
    rw [children, strength?_of_bare made.bare] at opened
    cases opened
  · intro form formOfOther chain same
    cases own.symm.trans same
    cases made.form.symm.trans formOfOther
    exact unlike chain rfl

theorem head?_append {more : List SyntaxTree} {first : SyntaxTree}
    (children : next.children = frame.children ++ more) (held : frame.children.head? = some first) :
    next.children.head? = some first := by
  rw [children, List.head?_append, held]
  rfl

/-- A sound frame stays sound with more children that agree, as long as a failure is shown among
them. -/
theorem IsSound.append (sound : frame.IsSound grammar) {more : List SyntaxTree}
    (children : next.children = frame.children ++ more)
    (below : ∀ child ∈ more, child.Agrees grammar)
    (failed : next.succeeded = false → frame.succeeded = false ∨ ∃ child ∈ more, ¬child.IsClean) :
    next.IsSound grammar := by
  refine ⟨fun child present => ?_, fun unsuccessful => ?_⟩
  · rcases List.mem_append.mp (children ▸ present) with before | added
    · exact sound.below child before
    · exact below child added
  · rcases failed unsuccessful with before | ⟨child, present, dirty⟩
    · obtain ⟨child, present, dirty⟩ := sound.failed before
      exact ⟨child, children ▸ List.mem_append_left _ present, dirty⟩
    · exact ⟨child, children ▸ List.mem_append_right _ present, dirty⟩

/-- A sound frame stays sound with an operand that agrees. -/
theorem IsSound.add (sound : frame.IsSound grammar) {floor : Int}
    (known : outcome.Agrees grammar floor) : (frame.add outcome).IsSound grammar := by
  refine sound.append rfl (List.forall_mem_singleton.mpr known.below) fun unsuccessful => ?_
  rcases Bool.and_eq_false_iff.mp unsuccessful with before | last
  · exact .inl before
  · exact .inr ⟨outcome.tree, List.mem_singleton_self _, known.failed last⟩

/-- A failure with a message keeps a frame sound. -/
theorem IsSound.fail (sound : frame.IsSound grammar) {diagnostics : List Diagnostic}
    (reported : diagnostics ≠ []) : (frame.fail diagnostics word).IsSound grammar := by
  refine sound.append rfl (fun child present => ?_) fun _ => .inr ?_
  · obtain ⟨diagnostic, _, rfl⟩ := List.mem_map.mp present
    exact agrees_absent _ _ _
  · obtain ⟨diagnostic, present⟩ := List.exists_mem_of_ne_nil diagnostics reported
    exact ⟨_, List.mem_map_of_mem present, fun clean => clean.root rfl⟩

/-- A frame stands in order when it goes on with leaves, or with operands that are bound more
strongly than it holds them. -/
theorem Stands.append (stands : frame.Stands grammar outer) {more : List SyntaxTree}
    (children : next.children = frame.children ++ more) (role : next.role = frame.role)
    (floor : next.floor = frame.floor)
    (known : (∀ child ∈ more, child.isLeaf) ∨ frame.role.repeats ∧
      ((∀ child ∈ more, child.IsClean) → ∀ child ∈ more, ∀ inner, child.madeBy? = some inner →
        frame.floor < grammar.precedence inner)) : next.Stands grammar outer := by
  cases stands with
  | bracket first brackets => exact .bracket (head?_append children first) (role ▸ brackets)
  | opened first operand opens =>
    exact .opened (head?_append children first) (role ▸ operand) (floor ▸ opens)
  | made made follows weak =>
    rcases known with leaves | ⟨repeats, strong⟩
    · refine .made (made.append_leaves children leaves) ?_ weak
      rw [expressions_append_leaves children leaves, role, floor]
      exact follows
    · refine .made (made.append children ?_) ?_ weak
      · intro clean number operand inner found infixed
        have present := (List.mem_filter.mp (List.mem_of_getElem? found)).1
        exact (follows.of_repeats repeats _).holdsRight (strong clean operand present inner infixed)
      · rw [role, floor]
        exact follows.of_repeats repeats _

/-- The tokens before a word are leaves. -/
theorem exists_leaf_of_mem_leadLeaves (word : Word) :
    ∀ child ∈ word.leadLeaves, ∃ token, child = leaf token := by
  intro child present
  obtain ⟨token, _, rfl⟩ := List.mem_map.mp present
  exact ⟨token, rfl⟩

theorem exists_leaf_of_mem_leaves (word : Word) :
    ∀ child ∈ word.leaves, ∃ token, child = leaf token := by
  intro child present
  rcases List.mem_append.mp present with lead | last
  · exact exists_leaf_of_mem_leadLeaves word child lead
  · exact ⟨word.token, List.mem_singleton.mp last⟩

/-- More tokens keep a frame sound. -/
theorem IsSound.append_leaves (sound : frame.IsSound grammar) {more : List SyntaxTree}
    (leaves : ∀ child ∈ more, ∃ token, child = leaf token) :
    IsSound grammar { frame with children := frame.children ++ more } := by
  refine sound.append rfl (fun child present => ?_) .inl
  obtain ⟨token, rfl⟩ := leaves child present
  exact agrees_leaf token

theorem IsSound.take (sound : frame.IsSound grammar) (word : Word) :
    (frame.take word).IsSound grammar :=
  sound.append_leaves (exists_leaf_of_mem_leaves word)

/-- More tokens keep what agrees with the grammar. -/
theorem Agrees.append_leaves (agrees : frame.Agrees grammar outer) {more : List SyntaxTree}
    (leaves : ∀ child ∈ more, ∃ token, child = leaf token) :
    Agrees grammar outer { frame with children := frame.children ++ more } := by
  refine ⟨agrees.sound.append_leaves leaves,
    agrees.stands.append rfl rfl rfl (.inl fun child present => ?_)⟩
  obtain ⟨token, rfl⟩ := leaves child present
  exact isLeaf_leaf token

theorem Agrees.take (agrees : frame.Agrees grammar outer) (word : Word) :
    (frame.take word).Agrees grammar outer :=
  agrees.append_leaves (exists_leaf_of_mem_leaves word)

theorem Agrees.takeLead (agrees : frame.Agrees grammar outer) (word : Word) :
    (frame.takeLead word).Agrees grammar outer :=
  agrees.append_leaves (exists_leaf_of_mem_leadLeaves word)

/-- A frame that takes any number of operands stays in order when it gets one more. -/
theorem Agrees.add (agrees : frame.Agrees grammar outer) (repeats : frame.role.repeats)
    (known : outcome.Agrees grammar frame.floor) : (frame.add outcome).Agrees grammar outer :=
  ⟨agrees.sound.add known, agrees.stands.append rfl rfl rfl
    (.inr ⟨repeats, fun _ => List.forall_mem_singleton.mpr known.strong⟩)⟩

/-- What a frame reports is an error, so what is made of the frame is not free of errors. -/
theorem not_isClean_outcome_fail (kind : NodeKind) {diagnostics : List Diagnostic}
    (reported : diagnostics ≠ []) :
    ¬((frame.fail diagnostics word).outcome kind).tree.IsClean := by
  intro clean
  obtain ⟨diagnostic, present⟩ := List.exists_mem_of_ne_nil diagnostics reported
  have error := (isClean_ofKind.mp clean).2 _
    (List.mem_append_right _ (List.mem_map_of_mem present))
  exact error.root rfl

/-- A construct with any number of operands may fail without losing what agrees. -/
theorem Agrees.fail (agrees : frame.Agrees grammar outer) (repeats : frame.role.repeats)
    {diagnostics : List Diagnostic} (reported : diagnostics ≠ []) :
    (frame.fail diagnostics word).Agrees grammar outer := by
  refine ⟨agrees.sound.fail reported, agrees.stands.append rfl rfl rfl (.inr ⟨repeats, ?_⟩)⟩
  intro clean child present
  obtain ⟨diagnostic, _, rfl⟩ := List.mem_map.mp present
  exact ((clean _ present).root rfl).elim

end Frame

/-- What a role makes that waits for something between brackets. -/
def Role.enclosed? : Role → Option NodeKind
  | .group => some .group
  | .items enclosure => some enclosure.kind
  | _ => none

/-- A bracketed construct has any number of operands. -/
theorem Role.repeats_of_enclosed? {role : Role} {kind : NodeKind}
    (enclosed : role.enclosed? = some kind) : role.repeats := by
  cases role <;> first | rfl | cases enclosed

/-- What is known of a construct inside surroundings that hold it with strength `outer`, when it has
reacted to a word that goes on from expressions by `next`. -/
def Reaction.Agrees (grammar : Grammar) (outer : Int) (next : Option Operator) : Reaction → Prop
  | .waits frame focus =>
    frame.Agrees grammar outer ∧ focus.hasOperand = false ∧ focus.Suits frame.role
  | .begins frame _ => frame.Agrees grammar outer
  | .closes outcome => outcome.Agrees grammar outer ∧ outcome.tree.IsClosed
  | .ends outcome => outcome.Agrees grammar outer ∧ outcome.tree.Awaits grammar next

namespace Frame

variable {grammar : Grammar} {frame : Frame} {outer : Int} {word : Word} {kind : NodeKind}
  {next : Option Operator} {sign : Operator} {continuation : Continuation} {left : SyntaxTree}
  {outcome : Outcome}

/-- A construct that ends with a bracket stands in order in front of everything. -/
theorem Agrees.outcome_enclosed (agrees : frame.Agrees grammar outer)
    (enclosed : frame.role.enclosed? = some kind) :
    (frame.outcome kind).Agrees grammar outer ∧ (frame.outcome kind).tree.IsClosed := by
  have plain : kind ∉ openedKinds := by
    cases role : frame.role with
    | group | items enclosure =>
      rw [role] at enclosed
      cases enclosed
      first | decide | (cases enclosure <;> decide)
    | _ =>
      rw [role] at enclosed
      cases enclosed
  have unopened : (frame.outcome kind).tree.strength? = none := strength?_eq_none plain
  cases agrees.stands with
  | bracket first brackets =>
    obtain ⟨unmade, known⟩ := agrees.sound.agrees_outcome first kind
    refine ⟨known, ⟨fun sign _ made => ?_, unopened⟩⟩
    rw [unmade] at made
    cases made
  | opened first operand opens =>
    rw [operand] at enclosed
    cases enclosed
  | @made sign continuation left made follows weak =>
    have call : continuation = .call ∧ continuation.makes kind := by
      cases role : frame.role with
      | items enclosure =>
        rw [role] at follows enclosed
        cases enclosure <;> cases follows <;> cases enclosed <;> exact ⟨rfl, rfl⟩
      | group =>
        rw [role] at follows
        cases follows
      | _ =>
        rw [role] at enclosed
        cases enclosed
    obtain ⟨rfl, makes⟩ := call
    refine ⟨made.agrees_outcome agrees.sound weak makes rfl, ⟨?_, unopened⟩⟩
    intro other form same formOfOther
    cases (made.madeBy?_outcome makes rfl).symm.trans same
    cases made.form.symm.trans formOfOther
    rfl

/-- A bracketed construct agrees with the grammar whether or not its close is there. -/
theorem Agrees.close (agrees : frame.Agrees grammar outer)
    (enclosed : frame.role.enclosed? = some kind) {closing : Operator}
    {unclosed : List Diagnostic} (reported : unclosed ≠ []) :
    (frame.close kind closing unclosed word).Agrees grammar outer next := by
  unfold Frame.close
  split
  · exact (agrees.take word).outcome_enclosed enclosed
  · have failed : (frame.fail unclosed word).Agrees grammar outer :=
      agrees.fail (Role.repeats_of_enclosed? enclosed) reported
    refine ⟨(failed.outcome_enclosed enclosed).1, fun clean => ?_⟩
    exact (not_isClean_outcome_fail kind reported clean).elim

/-- A list of items agrees with the grammar whether it goes on or ends. -/
theorem Agrees.closeItems (agrees : frame.Agrees grammar outer) {enclosure : Enclosure}
    (role : frame.role = .items enclosure) :
    (frame.closeItems enclosure word).Agrees grammar outer next := by
  unfold Frame.closeItems
  split
  · next part =>
    refine ⟨agrees.take word, rfl, ?_⟩
    rw [part.1] at role
    exact role
  · refine agrees.close (role ▸ rfl) ?_
    cases enclosure <;> exact List.cons_ne_nil _ _

/-- An operand is one more expression of its construct. -/
theorem expressions_add (inner : outcome.tree.isLeaf = false) :
    (frame.add outcome).expressions = frame.expressions ++ [outcome.tree] := by
  simp [expressions, add, inner]

/-- A construct free of errors has operands free of errors. -/
theorem isClean_of_outcome_add (clean : ((frame.add outcome).outcome kind).tree.IsClean) :
    outcome.tree.IsClean :=
  (isClean_ofKind.mp clean).2 _ (List.mem_append_right _ (List.mem_singleton_self _))

/-- A construct stays made by its operator when it gains an operand the operator asks for. -/
theorem IsMadeBy.add (made : frame.IsMadeBy grammar sign continuation left)
    (follows : frame.role.Follows sign continuation (grammar.precedence sign) frame.floor
      frame.expressions.tail.length)
    (inner : outcome.tree.isLeaf = false) (known : outcome.Agrees grammar frame.floor) :
    (frame.add outcome).IsMadeBy grammar sign continuation left := by
  refine made.append rfl fun _ number operand other found infixed => ?_
  rw [List.filter_cons_of_pos (by simp [inner])] at found
  cases number with
  | zero =>
    cases found
    exact follows.holdsRight (known.strong other infixed)
  | succ number => cases found

/-- An operator with one operand after it agrees with the grammar when the operand is there. -/
theorem Agrees.receive_operand (agrees : frame.Agrees grammar outer)
    (role : frame.role = .operand kind) (inner : outcome.tree.isLeaf = false)
    (known : outcome.Agrees grammar frame.floor)
    (tested : outcome.tree.IsClean → ∀ sign ∈ next, grammar.precedence sign ≤ frame.floor) :
    ((frame.add outcome).outcome kind).Agrees grammar outer ∧
      ((frame.add outcome).outcome kind).tree.Awaits grammar next := by
  have sound := agrees.sound.add known
  cases agrees.stands with
  | bracket first brackets =>
    rw [role] at brackets
    rcases brackets with brackets | brackets <;> cases brackets
  | @opened token opener first operand opens =>
    cases role.symm.trans operand
    have first : (frame.add outcome).children.head? = some (leaf token) := head?_append rfl first
    obtain ⟨unmade, agrees⟩ := sound.agrees_outcome first kind
    refine ⟨agrees, fun clean other follows =>
      ⟨⟨fun _ _ made => ?_, fun strength opened => ?_⟩, ?_⟩⟩
    · rw [unmade] at made
      cases made
    · obtain ⟨rest, children⟩ := List.head?_eq_some_iff.mp first
      change (ofKind kind (frame.add outcome).children).strength? = _ at opened
      rw [children, strength?_of_opens opens] at opened
      cases opened
      exact tested (isClean_of_outcome_add clean) other follows
    · intro _ _ _ made
      rw [unmade] at made
      cases made
  | @made sign continuation left made follows weak =>
    have fed := made.add follows inner known
    have apart := follows.mustTouch_eq_false
    have ends : continuation.makes kind ∧ ∀ other, grammar.precedence other ≤ frame.floor →
        continuation.HoldsLeft (grammar.precedence other) (grammar.precedence sign)
          ((frame.add outcome).outcome kind).tree.IsComplete ∧
        (continuation.isChain → other ≠ sign) := by
      rw [role] at follows
      rcases follows with ⟨nestsRight, rfl, _, floor⟩ | ⟨rfl, same, _, floor⟩
      all_goals rw [floor]
      · refine ⟨beq_self_eq_true kind, fun other low => ⟨?_, fun chain => by cases chain⟩⟩
        cases nestsRight with
        | true => exact Int.lt_of_le_sub_one low
        | false => exact low
      · refine ⟨?_, fun other low => ⟨Int.lt_of_le_sub_one low, fun chain => by cases chain⟩⟩
        rcases same with rfl | rfl <;> rfl
    refine ⟨fed.agrees_outcome sound weak ends.1 apart, fed.awaits ends.1 apart ?_⟩
    intro clean other follows
    exact ends.2 other (tested (isClean_of_outcome_add clean) other follows)

/-- A frame whose role stands for neither a bracket nor an operand was begun by an operator. -/
theorem Stands.exists_isMadeBy (stands : frame.Stands grammar outer)
    (bracket : frame.role ≠ .group ∧ frame.role ≠ .items .list)
    (opened : ∀ kind, frame.role ≠ .operand kind) :
    ∃ sign continuation left, frame.IsMadeBy grammar sign continuation left ∧
      frame.role.Follows sign continuation (grammar.precedence sign) frame.floor
        frame.expressions.tail.length ∧ outer < grammar.precedence sign := by
  cases stands with
  | bracket first brackets => exact (brackets.elim bracket.1 bracket.2).elim
  | opened first operand opens => exact (opened _ operand).elim
  | made made follows weak => exact ⟨_, _, _, made, follows, weak⟩

/-- A chain agrees with the grammar, whether one more operator comes or the chain ends. -/
theorem Agrees.receive_chain (agrees : frame.Agrees grammar outer) {bracketed : Bool}
    (role : frame.role = .chain kind sign) (inner : outcome.tree.isLeaf = false)
    (known : outcome.Agrees grammar frame.floor)
    (tested : outcome.tree.IsClean → ∀ other ∈ word.next? bracketed,
      grammar.precedence other ≤ frame.floor) :
    (frame.receive bracketed outcome word).Agrees grammar outer (word.next? bracketed) := by
  obtain ⟨own, continuation, left, made, follows, weak⟩ :=
    agrees.stands.exists_isMadeBy (by simp [role]) (by simp [role])
  have fed := made.add follows inner known
  have apart := follows.mustTouch_eq_false
  rw [role] at follows
  obtain ⟨rfl, form, floor⟩ := follows
  have makes : continuation.makes kind := by
    rcases form with rfl | ⟨rfl, rfl⟩
    · exact beq_self_eq_true kind
    · rfl
  have goesOn := agrees.add (role ▸ rfl) known
  have ends : (outcome.tree.IsClean → ∀ other ∈ word.next? bracketed, other ≠ sign) →
      ((frame.add outcome).outcome kind).Agrees grammar outer ∧
        ((frame.add outcome).outcome kind).tree.Awaits grammar (word.next? bracketed) := by
    intro unlike
    refine ⟨fed.agrees_outcome goesOn.sound weak makes apart, fed.awaits makes apart ?_⟩
    intro clean other follows
    have clean := isClean_of_outcome_add clean
    have low : grammar.precedence other ≤ grammar.precedence sign :=
      floor ▸ tested clean other follows
    refine ⟨?_, fun _ => unlike clean other follows⟩
    rcases form with rfl | ⟨rfl, _⟩ <;> exact low
  unfold receive
  simp only [role]
  split
  · next unsuccessful =>
    refine ends fun clean => ?_
    exact (known.failed (by simpa using unsuccessful) clean).elim
  · split
    · next other _ link =>
      split
      · exact ⟨goesOn.take word, rfl, trivial⟩
      · next unlike =>
        refine ends fun _ follower follows => ?_
        rw [Word.next?, link] at follows
        cases follows
        exact unlike
    · next opening link =>
      split
      · exact goesOn
      · next unlike =>
        refine ends fun _ follower follows => ?_
        rw [Word.next?, link] at follows
        cases follows
        exact fun same => unlike same.symm
    · next link =>
      refine ends fun _ follower follows => ?_
      rw [Word.next?, link] at follows
      cases follows

/-- The last operand of a sequence counts only if it has been written. -/
theorem Agrees.receive_compound (agrees : frame.Agrees grammar outer) {bracketed : Bool}
    (role : frame.role = .compound) (inner : outcome.tree.isLeaf = false)
    (known : outcome.Agrees grammar frame.floor)
    (tested : outcome.tree.IsClean → outcome.tree.kind = .null ∨
      ∀ other ∈ next, grammar.precedence other ≤ frame.floor) :
    (frame.receive bracketed outcome word).Agrees grammar outer next := by
  have goesOn := agrees.add (role ▸ rfl) known
  unfold receive
  simp only [role]
  split
  · exact ⟨goesOn.take word, rfl, role⟩
  · obtain ⟨sign, continuation, left, made, follows, weak⟩ :=
      agrees.stands.exists_isMadeBy (by simp [role]) (by simp [role])
    have fed := made.add follows inner known
    rw [role] at follows
    obtain ⟨rfl, floor⟩ := follows
    refine ⟨fed.agrees_outcome goesOn.sound weak rfl rfl, fed.awaits rfl rfl ?_⟩
    intro clean other seen
    refine ⟨fun complete => ?_, fun chain => by cases chain⟩
    have last : outcome.tree.kind ≠ .null := by
      refine complete outcome.tree ?_
      change outcome.tree ∈ (frame.add outcome).expressions.getLast?
      rw [expressions_add inner, List.getLast?_concat]
      rfl
    have low := (tested (isClean_of_outcome_add clean)).resolve_left last other seen
    rwa [floor] at low

theorem IsMadeBy.take (made : frame.IsMadeBy grammar sign continuation left) (word : Word) :
    (frame.take word).IsMadeBy grammar sign continuation left := by
  refine made.append_leaves rfl fun child present => ?_
  obtain ⟨token, rfl⟩ := exists_leaf_of_mem_leaves word child present
  exact isLeaf_leaf token

theorem expressions_take (word : Word) : (frame.take word).expressions = frame.expressions := by
  refine expressions_append_leaves rfl fun child present => ?_
  obtain ⟨token, rfl⟩ := exists_leaf_of_mem_leaves word child present
  exact isLeaf_leaf token

/-- What a frame reports comes behind its operator in any order. -/
theorem IsMadeBy.fail (made : frame.IsMadeBy grammar sign continuation left)
    (diagnostics : List Diagnostic) (word : Word) :
    (frame.fail diagnostics word).IsMadeBy grammar sign continuation left := by
  refine made.append rfl fun clean number operand other found _ => ?_
  have present := (List.mem_filter.mp (List.mem_of_getElem? found)).1
  obtain ⟨diagnostic, _, rfl⟩ := List.mem_map.mp present
  exact ((clean _ present).root rfl).elim

/-- A frame that was begun by an operator may go on to wait for something else. -/
theorem IsMadeBy.agrees (made : frame.IsMadeBy grammar sign continuation left)
    (sound : frame.IsSound grammar) (weak : outer < grammar.precedence sign) {role : Role}
    {floor : Int} (follows : role.Follows sign continuation (grammar.precedence sign) floor
      frame.expressions.tail.length) :
    Agrees grammar outer { frame with role := role, floor := floor } := by
  have same : IsMadeBy grammar sign continuation { frame with role := role, floor := floor } left :=
    ⟨made.form, made.first, made.inner, made.bare, made.signed, made.before, made.chain,
      made.behind⟩
  exact ⟨⟨sound.below, sound.failed⟩, .made same follows weak⟩

/-- A tag free of errors comes from an operand free of errors. -/
theorem isClean_of_tagOutcome (clean : (tagOutcome outcome).1.tree.IsClean) :
    outcome.tree.IsClean := by
  unfold tagOutcome at clean
  split at clean
  · exact clean
  · next symbol =>
    obtain ⟨⟨label, content, children⟩, succeeded⟩ := outcome
    have kind : content.kind = .symbol := symbol
    exact Tree.everywhere_node.mpr ⟨by simp [Tree.kind, Tree.content, kind],
      (isClean_ofKind.mp clean).2⟩
  · exact clean
  · exact (clean.root rfl).elim

/-- A tag agrees with the grammar when the operand it is made from does. -/
theorem agrees_tagOutcome {floor : Int} (known : outcome.Agrees grammar floor) :
    (tagOutcome outcome).1.Agrees grammar floor := by
  have clean : (tagOutcome outcome).1.tree.IsClean → outcome.tree.IsClean := isClean_of_tagOutcome
  unfold tagOutcome at clean ⊢
  split
  · exact known
  · next symbol =>
    have unmade : (ofKind .stringifiedSymbol outcome.tree.children).madeBy? = none :=
      madeBy?_eq_none_of_kind (by decide) (by decide) _
    rw [symbol] at clean
    refine ⟨agrees_ofKind (fun child present => known.below.child present) fun _ =>
      Tree.respects_of_madeBy?_eq_none unmade, fun failed => known.failed failed ∘ clean,
      fun sign made => ?_⟩
    rw [unmade] at made
    cases made
  · exact known
  · have dirty : ¬(SyntaxTree.error Diagnostic.tagExpected.message [outcome.tree]).IsClean :=
      fun clean => clean.root rfl
    refine ⟨Tree.everywhere_node.mpr ⟨fun clean => (dirty clean).elim,
      List.forall_mem_singleton.mpr known.below⟩, fun _ => dirty, fun sign made => ?_⟩
    change (ofKind .error [outcome.tree]).madeBy? = some sign at made
    rw [madeBy?_eq_none_of_kind (by decide) (by decide)] at made
    cases made

/-- A message name agrees with the grammar, after its first tag and after its second. -/
theorem Agrees.receive_tag (agrees : frame.Agrees grammar outer) {bracketed last : Bool}
    (role : frame.role = .tag last) (known : outcome.Agrees grammar frame.floor)
    (tested : outcome.tree.IsClean → ∀ other ∈ next, grammar.precedence other ≤ frame.floor) :
    (frame.receive bracketed outcome word).Agrees grammar outer next := by
  have tag := agrees_tagOutcome known
  have clean : (tagOutcome outcome).1.tree.IsClean → outcome.tree.IsClean := isClean_of_tagOutcome
  unfold receive
  simp only [role]
  generalize (tagOutcome outcome).1 = kept at tag clean ⊢
  have goesOn : Agrees grammar outer
      { frame with children := frame.children ++ [kept.tree], succeeded := kept.succeeded } := by
    refine ⟨agrees.sound.append rfl (List.forall_mem_singleton.mpr tag.below) fun failed => ?_,
      agrees.stands.append rfl rfl rfl
        (.inr ⟨role ▸ rfl, fun _ => List.forall_mem_singleton.mpr tag.strong⟩)⟩
    exact .inr ⟨kept.tree, List.mem_singleton_self _, tag.failed failed⟩
  obtain ⟨sign, continuation, left, made, follows, weak⟩ :=
    goesOn.stands.exists_isMadeBy (by simp [role]) (by simp [role])
  rw [role] at follows
  obtain ⟨rfl, floor⟩ := follows
  split
  · exact ⟨(made.take word).agrees (goesOn.take word).sound weak ⟨rfl, floor⟩, rfl, trivial⟩
  · refine ⟨made.agrees_outcome goesOn.sound weak rfl rfl, made.awaits rfl rfl ?_⟩
    intro free other seen
    refine ⟨?_, fun chain => by cases chain⟩
    have written := (isClean_ofKind.mp free).2 kept.tree
      (List.mem_append_right _ (List.mem_singleton_self _))
    have low := tested (clean written) other seen
    rw [floor] at low
    exact low

/-- The pattern after a tag agrees with the grammar, with an assignment after it or without. -/
theorem Agrees.receive_tagPattern (agrees : frame.Agrees grammar outer) {bracketed : Bool}
    (role : frame.role = .tagPattern) (inner : outcome.tree.isLeaf = false)
    (known : outcome.Agrees grammar frame.floor) :
    (frame.receive bracketed outcome word).Agrees grammar outer next := by
  obtain ⟨sign, continuation, left, made, follows, weak⟩ :=
    agrees.stands.exists_isMadeBy (by simp [role]) (by simp [role])
  have sound := agrees.sound.add known
  have fed := made.add follows inner known
  rw [role] at follows
  obtain ⟨rfl, none, floor⟩ := follows
  have one : ((frame.add outcome).take word).expressions.tail.length = 1 := by
    obtain ⟨rest, _, operands⟩ := made.exists_children
    rw [operands] at none
    rw [expressions_take, expressions_add inner, operands]
    simpa using none
  have value : ∀ kind, kind = NodeKind.tagSet ∨ kind = NodeKind.tagSetDelayed →
      (Role.operand kind).Follows sign .tagSet (grammar.precedence sign) (frame.floor - 1)
        ((frame.add outcome).take word).expressions.tail.length :=
    fun kind same => .inr ⟨rfl, same, one, by rw [floor]⟩
  have taken := sound.take word
  unfold receive
  simp only [role]
  split
  · next unsuccessful =>
    refine ⟨fed.agrees_outcome sound weak rfl rfl, fun clean => ?_⟩
    exact (known.failed (by simpa using unsuccessful) (isClean_of_outcome_add clean)).elim
  split
  · exact ⟨(fed.take word).agrees taken weak (value _ (.inl rfl)), rfl, trivial⟩
  split
  · exact ⟨(fed.take word).agrees taken weak (value _ (.inr rfl)), rfl, trivial⟩
  · refine ⟨(fed.fail _ word).agrees_outcome (sound.fail (List.cons_ne_nil _ _)) weak rfl rfl,
      fun clean => ?_⟩
    exact (not_isClean_outcome_fail _ (List.cons_ne_nil _ _) clean).elim

/-- What a frame does with an operand leaves everything in order. -/
theorem Agrees.receive (agrees : frame.Agrees grammar outer) {bracketed : Bool}
    (operand : outcome.tree.IsOperand) (known : outcome.Agrees grammar frame.floor)
    (tested : outcome.tree.IsClean → frame.role = .compound ∧ outcome.tree.kind = .null ∨
      ∀ other ∈ word.next? bracketed, grammar.precedence other ≤ frame.floor)
    (seen : frame.brackets = false → next = word.next? bracketed) :
    (frame.receive bracketed outcome word).Agrees grammar outer next := by
  have inner := operand.inner
  cases role : frame.role with
  | group =>
    unfold Frame.receive
    simp only [role]
    have fed := agrees.add (role ▸ rfl) known
    exact fed.close (congrArg Role.enclosed? role) (List.cons_ne_nil _ _)
  | items enclosure =>
    unfold Frame.receive
    simp only [role]
    have fed := agrees.add (role ▸ rfl) known
    split
    · exact ⟨fed.take word, rfl, trivial⟩
    · exact fed.closeItems role
  | operand kind =>
    rw [seen (by rw [brackets, role])]
    have low := fun clean => (tested clean).resolve_left fun compound => by simp [role] at compound
    unfold Frame.receive
    simp only [role]
    exact agrees.receive_operand role inner known low
  | chain kind sign =>
    rw [seen (by rw [brackets, role])]
    have low := fun clean => (tested clean).resolve_left fun compound => by simp [role] at compound
    exact agrees.receive_chain role inner known low
  | compound =>
    rw [seen (by rw [brackets, role])]
    exact agrees.receive_compound role inner known fun clean => (tested clean).imp_left And.right
  | tag last =>
    rw [seen (by rw [brackets, role])]
    have low := fun clean => (tested clean).resolve_left fun compound => by simp [role] at compound
    exact agrees.receive_tag role known low
  | tagPattern => exact agrees.receive_tagPattern role inner known

end Frame

namespace Frame

variable {grammar : Grammar} {outer floor : Int} {word : Word} {sign : Operator}
  {continuation : Continuation} {left : SyntaxTree} {role : Role}

/-- Tokens after a left operand leave it the only expression. -/
theorem expressions_cons_leaves (inner : left.isLeaf = false) {more : List SyntaxTree}
    (leaves : ∀ child ∈ more, child.isLeaf) :
    expressions ⟨role, floor, left :: more, true⟩ = [left] := by
  rw [expressions, List.filter_cons_of_pos (by simp [inner])]
  congr 1
  exact List.filter_eq_nil_iff.mpr fun child present => by simp [leaves child present]

/-- An expression that may stand in front of an operator begins a frame of it. -/
theorem isMadeBy_of_awaits (form : Continuation.ofOperator? sign = some continuation)
    (operand : left.IsOperand) (awaits : left.Awaits grammar (some sign)) {more : List SyntaxTree}
    (leaves : ∀ child ∈ more, child.isLeaf)
    (signed : ∀ kind nestsRight, continuation = .binary kind nestsRight → more ≠ []) :
    IsMadeBy grammar sign continuation ⟨role, floor, left :: more, true⟩ left := by
  have clean : (∀ child ∈ left :: more, child.IsClean) → left.IsClean := fun all =>
    all left List.mem_cons_self
  refine ⟨form, rfl, operand.inner, operand.bare, fun kind nestsRight binary => ?_,
    fun all => ((awaits (clean all)) sign rfl).1, fun all chain =>
      ((awaits (clean all)) sign rfl).2 continuation form chain,
      fun _ number right inner found => ?_⟩
  · cases more with
    | nil => exact (signed kind nestsRight binary rfl).elim
    | cons second rest => exact ⟨second, rfl, leaves second List.mem_cons_self⟩
  · rw [expressions_cons_leaves operand.inner leaves] at found
    cases found

end Frame

theorem Word.isLeaf_of_mem_leaves (word : Word) : ∀ child ∈ word.leaves, child.isLeaf := by
  intro child present
  obtain ⟨token, rfl⟩ := Frame.exists_leaf_of_mem_leaves word child present
  exact isLeaf_leaf token

/-- A word has at least its own token. -/
theorem Word.leaves_ne_nil (word : Word) : word.leaves ≠ [] :=
  List.append_ne_nil_of_right_ne_nil _ (List.cons_ne_nil _ _)

end WolframSyntax
