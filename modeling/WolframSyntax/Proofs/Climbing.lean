import WolframSyntax.Proofs.Holding

/-!
# Trees respect precedence

While a word is in view, an operand that is complete has been offered the word by everything inside
it (`Tree.Awaits`). This and what is known of the unfinished constructs is kept by every move of a
reading (`Reading.Passes.awaits`, `Reading.Takes.rests`), so every node of a file without errors
respects the precedences (`respects_of_parseTokens`).
-/

namespace WolframSyntax

open SyntaxTree

/-- What is known of a focus inside frames that hold it with strength `outer`. A complete expression
has a property `edge` as well. -/
def Focus.Agrees (grammar : Grammar) (outer : Int) (edge : SyntaxTree → Prop) : Focus → Prop
  | .complete outcome => outcome.Agrees grammar outer ∧ edge outcome.tree
  | .blankName kind _ named => ∀ left ∈ named, left.Agrees grammar ∧
      ∃ sign, Continuation.ofOperator? sign = some (.pattern kind) ∧
        outer < grammar.precedence sign ∧
        (left.IsClean → left.StandsBefore grammar (grammar.precedence sign))
  | _ => True

namespace Surroundings

/-- What is known of the frames of a reading. -/
def Holds (surroundings : Surroundings) : List Frame → Prop
  | [] => True
  | frame :: frames =>
    frame.Agrees surroundings.grammar (surroundings.floorOf frames) ∧ surroundings.Holds frames

end Surroundings

/-- What is known of a reading whose complete expression has the property `edge`. -/
structure Reading.Agrees (surroundings : Surroundings) (edge : SyntaxTree → Prop)
    (reading : Reading) : Prop where
  frames : surroundings.Holds reading.frames
  focus : reading.focus.Agrees surroundings.grammar (surroundings.floorOf reading.frames) edge
  suits : ∀ frame ∈ reading.frames.head?, reading.focus.Suits frame.role

/-- What is known of a reading between two words. -/
def Reading.Rests (surroundings : Surroundings) (reading : Reading) : Prop :=
  reading.Agrees surroundings Tree.IsClosed

/-- What is known of a reading while a word is in view. -/
def Reading.Awaits (surroundings : Surroundings) (word : Word) (reading : Reading) : Prop :=
  reading.Agrees surroundings
    (Tree.Awaits surroundings.grammar (word.next? (surroundings.isBracketed reading.frames)))

namespace Reading

variable {surroundings : Surroundings} {word : Word} {frames : List Frame}

/-- A word that does not go on binds no more strongly than what is around the operand. -/
theorem le_floorOf_of_extend?_eq_none {left : SyntaxTree}
    (stays : extend? surroundings frames left word = none) :
    ∀ sign ∈ word.next? (surroundings.isBracketed frames),
      surroundings.grammar.precedence sign ≤ surroundings.floorOf frames := by
  intro sign next
  unfold extend? at stays
  unfold Word.next? at next
  dsimp only at stays
  cases link : word.link? (surroundings.isBracketed frames) with
  | none =>
    rw [link] at next
    cases next
  | some way =>
    rw [link] at next stays
    cases way with
    | sign operator continuation | factor opening =>
      cases next
      dsimp only at stays
      split at stays
      · cases stays
      · next weaker => exact Int.not_lt.mp weaker

/-- How a construct reacts to a word leaves everything in order. -/
theorem Reacts.agrees {reading : Reading} {reaction : Reaction}
    (reacts : Reacts surroundings word reading frames reaction) (fits : reading.Fits)
    (awaits : reading.Awaits surroundings word) :
    reaction.Agrees surroundings.grammar (surroundings.floorOf frames)
      (word.next? (surroundings.isBracketed frames)) ∧ surroundings.Holds frames := by
  have seen : ∀ frame : Frame, frame.brackets = false →
      word.next? (surroundings.isBracketed frames)
        = word.next? (surroundings.isBracketed (frame :: frames)) := by
    intro frame open'
    simp [Surroundings.isBracketed, open']
  obtain ⟨stack, focus, suits⟩ := awaits
  cases reacts with
  | complete stays =>
    obtain ⟨inner, outer⟩ := stack
    refine ⟨inner.receive fits.focus focus.1 (fun _ => .inr ?_) (seen _), outer⟩
    exact le_floorOf_of_extend?_eq_none stays
  | @missing frame _ _ wants unopened =>
    obtain ⟨inner, outer⟩ := stack
    have dirty : ¬(frame.missing word).tree.IsClean := fun clean => clean.root rfl
    refine ⟨inner.receive (isOperand_absent _ _ rfl) ⟨agrees_absent _ _ _, fun _ => dirty, ?_⟩
      (fun clean => (dirty clean).elim) (seen _), outer⟩
    intro sign made
    cases made
  | absent unopened =>
    obtain ⟨inner, outer⟩ := stack
    refine ⟨inner.receive (isOperand_absent _ _ rfl) ⟨agrees_absent _ _ _, ?_, ?_⟩
      (fun _ => .inl ⟨suits _ rfl, rfl⟩) (seen _), outer⟩
    · intro failed
      cases failed
    · intro sign made
      cases made
  | empty begins role closing =>
    obtain ⟨inner, outer⟩ := stack
    exact ⟨inner.closeItems role, outer⟩
  | partEnd =>
    obtain ⟨inner, outer⟩ := stack
    exact ⟨inner.close (congrArg Role.enclosed? (suits _ rfl)) (List.cons_ne_nil _ _), outer⟩

/-- A blank stands in order in front of everything, with or without a name. -/
theorem agrees_blankTree {grammar : Grammar} {outer : Int} {edge : SyntaxTree → Prop}
    {kind : NodeKind} {blank : Token} {named : Option SyntaxTree} (isBlank : kind.isBlank)
    (operand : ∀ left ∈ named, left.IsOperand)
    (known : (Focus.blankName kind blank named).Agrees grammar outer edge)
    {name : List SyntaxTree} (below : ∀ child ∈ name, child.Agrees grammar) :
    Outcome.Agrees grammar outer ⟨blankTree kind named (leaf blank :: name), true⟩ ∧
      (blankTree kind named (leaf blank :: name)).IsClosed := by
  have unmade : (ofKind kind (leaf blank :: name)).madeBy? = none := madeBy?_of_leaf _ _ _
  have agrees : (ofKind kind (leaf blank :: name)).Agrees grammar :=
    agrees_ofKind (List.forall_mem_cons.mpr ⟨agrees_leaf blank, below⟩) fun _ =>
      Tree.respects_of_madeBy?_eq_none unmade
  have succeeds : ∀ tree : SyntaxTree, true = false → ¬tree.IsClean :=
    fun _ failed => by cases failed
  cases named with
  | none =>
    refine ⟨⟨agrees, succeeds _, fun sign made => ?_⟩, fun sign _ made => ?_, strength?_eq_none ?_⟩
    · cases unmade.symm.trans made
    · cases unmade.symm.trans made
    · change kind ∉ openedKinds
      cases kind <;> first | decide | cases isBlank
  | some left =>
    obtain ⟨leftAgrees, sign, form, weak, before⟩ := known left rfl
    have inner := (operand left rfl).inner
    have own := madeBy?_blank form inner (leaf blank :: name)
    have plain : NodeKind.pattern ∉ openedKinds := by decide
    have first : (ofKind .pattern [left, ofKind kind (leaf blank :: name)]).firstExpression
        = some left := by
      simp [Tree.firstExpression, Tree.expressions, ofKind, Tree.children, inner]
    refine ⟨⟨?_, succeeds _, ?_⟩, ?_, strength?_eq_none plain⟩
    · refine agrees_ofKind (by simpa using ⟨leftAgrees, agrees⟩) fun clean => ⟨?_, ?_, ?_⟩
      · intro other continuation made formOfOther
        cases own.symm.trans made
        cases form.symm.trans formOfOther
        exact fun _ _ _ _ _ => trivial
      · intro other start made begins
        cases own.symm.trans made
        cases first.symm.trans begins
        exact before ((isClean_ofKind.mp clean).2 left List.mem_cons_self)
      · intro other continuation start made formOfOther chain
        cases own.symm.trans made
        cases form.symm.trans formOfOther
        cases chain
    · intro other made
      cases own.symm.trans made
      exact weak
    · intro other continuation made formOfOther
      cases own.symm.trans made
      cases form.symm.trans formOfOther
      rfl

/-- What ends in front of a word leaves an operand that awaits the word. -/
theorem Passes.awaits {before after : Reading} (passes : Passes surroundings word before after)
    (fits : before.Fits) (awaits : before.Awaits surroundings word) :
    after.Awaits surroundings word := by
  cases passes with
  | ends reacts =>
    obtain ⟨ended, outer⟩ := reacts.agrees fits awaits
    exact ⟨outer, ended, fun _ _ => trivial⟩
  | unnamed apart =>
    obtain ⟨outer, focus, _⟩ := awaits
    obtain ⟨agrees, closed⟩ := agrees_blankTree fits.focus.1 fits.focus.2 focus
      (List.forall_mem_nil _)
    exact ⟨outer, ⟨agrees, closed.awaits _ _⟩, fun _ _ => trivial⟩

theorem Rests.awaits {reading : Reading} (rests : reading.Rests surroundings) (word : Word) :
    reading.Awaits surroundings word := by
  obtain ⟨frames, focus⟩ := reading
  obtain ⟨stack, focusAgrees, suits⟩ := rests
  refine ⟨stack, ?_, suits⟩
  cases focus with
  | complete outcome => exact ⟨focusAgrees.1, focusAgrees.2.awaits _ _⟩
  | _ => exact focusAgrees

/-- An expression that begins with a token is in order. -/
theorem rests_begin {opening : Opening} {token : Token}
    (opens : Opening.ofKind? token.kind = some opening) (stack : surroundings.Holds frames) :
    (begin frames opening token).Rests surroundings := by
  have sound : ∀ role floor,
      Frame.IsSound surroundings.grammar ⟨role, floor, [leaf token], true⟩ := fun role floor =>
    ⟨List.forall_mem_singleton.mpr (agrees_leaf token), fun failed => by cases failed⟩
  cases opening with
  | atom kind =>
    obtain ⟨unmade, agrees⟩ := (sound .group 0).agrees_outcome rfl kind
    refine ⟨stack, ⟨agrees, ⟨fun sign _ made => ?_, strength?_eq_none ?_⟩⟩, fun _ _ => trivial⟩
    · cases unmade.symm.trans made
    · have suits := Opening.suits_of_ofKind? opens
      change kind ∉ openedKinds
      cases kind <;> first | decide | cases suits
  | blank kind =>
    refine ⟨stack, fun left absent => ?_, fun _ _ => trivial⟩
    cases absent
  | group =>
    exact ⟨⟨⟨sound _ _, .bracket rfl (.inl rfl)⟩, stack⟩, trivial, fun _ _ => trivial⟩
  | list =>
    exact ⟨⟨⟨sound _ _, .bracket rfl (.inr rfl)⟩, stack⟩, trivial, fun _ _ => trivial⟩
  | operator kind strength =>
    exact ⟨⟨⟨sound _ _, .opened rfl rfl opens⟩, stack⟩, trivial, fun _ _ => trivial⟩

theorem rests_beginOperand {frame : Frame} {opening : Opening}
    (opens : word.opening? = some opening)
    (agrees : frame.Agrees surroundings.grammar (surroundings.floorOf frames))
    (stack : surroundings.Holds frames) :
    (beginOperand frame frames opening word).Rests surroundings :=
  rests_begin opens ⟨agrees.takeLead word, stack⟩

/-- An expression that goes on with an operator that binds more strongly than it is held is in
order. -/
theorem rests_continueWith {left : SyntaxTree} {sign : Operator} {continuation : Continuation}
    (form : Continuation.ofOperator? sign = some continuation)
    (weak : surroundings.floorOf frames < surroundings.grammar.precedence sign)
    (operand : left.IsOperand) (agrees : left.Agrees surroundings.grammar)
    (awaits : left.Awaits surroundings.grammar (some sign)) (stack : surroundings.Holds frames) :
    (continueWith surroundings.grammar frames left sign continuation word).Rests surroundings := by
  have made : ∀ role floor, Frame.IsMadeBy surroundings.grammar sign continuation
      ⟨role, floor, left :: word.leaves, true⟩ left := fun role floor =>
    Frame.isMadeBy_of_awaits form operand awaits word.isLeaf_of_mem_leaves
      fun _ _ _ => word.leaves_ne_nil
  have sound : ∀ role floor, Frame.IsSound surroundings.grammar
      ⟨role, floor, left :: word.leaves, true⟩ := by
    refine fun role floor => ⟨List.forall_mem_cons.mpr ⟨agrees, fun child present => ?_⟩,
      fun failed => by cases failed⟩
    obtain ⟨token, rfl⟩ := Frame.exists_leaf_of_mem_leaves word child present
    exact agrees_leaf token
  have none : ∀ role floor,
      (Frame.expressions ⟨role, floor, left :: word.leaves, true⟩).tail.length = 0 := by
    intro role floor
    rw [Frame.expressions_cons_leaves operand.inner word.isLeaf_of_mem_leaves]
    rfl
  have waits : ∀ {role : Role} {floor : Int} {focus : Focus},
      role.Follows sign continuation (surroundings.grammar.precedence sign) floor 0 →
      focus.Agrees surroundings.grammar floor Tree.IsClosed → focus.Suits role →
      Reading.Rests surroundings ⟨⟨role, floor, left :: word.leaves, true⟩ :: frames, focus⟩ := by
    intro role floor focus follows unfinished suits
    refine ⟨⟨⟨sound role floor, .made (made role floor) ?_ weak⟩, stack⟩, unfinished, ?_⟩
    · rw [none]
      exact follows
    · intro frame same
      cases same
      exact suits
  cases continuation with
  | binary kind nestsRight => exact waits (.inl ⟨nestsRight, rfl, rfl, rfl⟩) trivial trivial
  | flat kind => exact waits ⟨rfl, .inl rfl, rfl⟩ trivial trivial
  | product =>
    have times : sign = .times := by cases sign <;> first | rfl | cases form
    exact waits ⟨times.symm, .inr ⟨rfl, rfl⟩, rfl⟩ trivial trivial
  | suffix kind =>
    have makes : (Continuation.suffix kind).makes kind := beq_self_eq_true kind
    have outcome := (made .group 0).agrees_outcome (sound _ _) weak makes rfl
    refine ⟨stack, ⟨outcome, ⟨fun other formOfOther same known => ?_, ?_⟩⟩, fun _ _ => trivial⟩
    · cases ((made .group 0).madeBy?_outcome makes rfl).symm.trans same
      cases form.symm.trans known
      rfl
    · exact strength?_of_bare operand.bare word.leaves
  | call => exact waits rfl trivial rfl
  | pattern mark =>
    refine ⟨stack, fun other same => ?_, fun _ _ => trivial⟩
    cases same
    exact ⟨agrees, sign, form, weak, fun clean => (awaits clean sign rfl).1⟩
  | messageName => exact waits ⟨rfl, rfl⟩ trivial trivial
  | compound => exact waits ⟨rfl, rfl⟩ trivial rfl
  | tagSet => exact waits ⟨rfl, rfl, rfl⟩ trivial trivial

/-- What goes on from an operand rests, if the operand awaits the word. -/
theorem rests_of_extend? {left : SyntaxTree} {next : Reading}
    (goesOn : extend? surroundings frames left word = some next) (operand : left.IsOperand)
    (agrees : left.Agrees surroundings.grammar)
    (awaits : left.Awaits surroundings.grammar
      (word.next? (surroundings.isBracketed frames)))
    (stack : surroundings.Holds frames) : next.Rests surroundings := by
  rcases eq_of_extend?_eq_some goesOn
    with ⟨sign, continuation, link, weak, rfl⟩ | ⟨_, link, weak, rfl⟩
  all_goals rw [Word.next?, link] at awaits
  · obtain ⟨_, form, _⟩ := Word.of_link?_eq_sign link
    exact rests_continueWith form weak operand agrees awaits stack
  · have leaves : ∀ child ∈ ([] : List SyntaxTree), child.isLeaf := List.forall_mem_nil _
    refine rests_beginOperand (Word.of_link?_eq_factor link).1 ⟨⟨?_, fun failed => ?_⟩, ?_⟩ stack
    · exact List.forall_mem_singleton.mpr agrees
    · cases failed
    · refine .made (Frame.isMadeBy_of_awaits rfl operand awaits leaves fun _ _ binary => ?_)
        ⟨rfl, .inr ⟨rfl, rfl⟩, rfl⟩ weak
      cases binary

/-- A word that is taken leaves a reading that rests. -/
theorem Takes.rests {before after : Reading} (takes : Takes surroundings word before after)
    (fits : before.Fits) (awaits : before.Awaits surroundings word) :
    after.Rests surroundings := by
  obtain ⟨stack, focus, suits⟩ := awaits
  cases takes with
  | alone unfinished opens => exact rests_begin opens stack
  | operand wants opens => exact rests_beginOperand opens stack.1 stack.2
  | statement opens =>
    exact rests_beginOperand (Word.opening?_of_openingInLine? opens) stack.1 stack.2
  | continues goesOn => exact rests_of_extend? goesOn fits.focus focus.1.below focus.2 stack
  | @reacts _ _ frames reaction reacts taken =>
    obtain ⟨agrees, outer⟩ := reacts.agrees fits ⟨stack, focus, suits⟩
    cases reaction with
    | waits frame next =>
      cases taken
      obtain ⟨inner, unfinished, suits⟩ := agrees
      refine ⟨⟨inner, outer⟩, ?_, fun _ same => by cases same; exact suits⟩
      cases next with
      | complete | blankName => cases unfinished
      | _ => trivial
    | begins frame opening =>
      cases taken
      exact rests_beginOperand reacts.opening?_of_begins agrees outer
    | closes outcome =>
      cases taken
      exact ⟨outer, agrees, fun _ _ => trivial⟩
    | ends outcome => cases taken
  | @part frame frames bracket touches =>
    obtain ⟨inner, outer⟩ := stack
    have role : frame.role = .items .call := suits frame rfl
    obtain ⟨sign, continuation, left, made, follows, weak⟩ :=
      inner.stands.exists_isMadeBy (by simp [role]) (by simp [role])
    rw [role] at follows
    have taken : Frame.Agrees surroundings.grammar _
        { frame.take word with role := .items .part } :=
      (made.take word).agrees (inner.sound.take word) weak follows
    exact ⟨⟨taken, outer⟩, trivial, fun _ _ => trivial⟩
  | @name frames kind blank named identifier touches =>
    have symbol : (ofKind .symbol [word.leaf]).Agrees surroundings.grammar :=
      agrees_ofKind (List.forall_mem_singleton.mpr (agrees_leaf word.token)) fun _ =>
        Tree.respects_of_madeBy?_eq_none (madeBy?_of_leaf _ _ _)
    obtain ⟨agrees, closed⟩ := agrees_blankTree fits.focus.1 fits.focus.2 focus
      (List.forall_mem_singleton.mpr symbol)
    exact ⟨stack, ⟨agrees, closed⟩, fun _ _ => trivial⟩

/-- What is in order between two words stays so while constructs end in front of the next one. -/
theorem Settles.awaits {before after : Reading} (settles : Settles surroundings word before after)
    (fits : before.Fits) (rests : before.Rests surroundings) :
    after.Fits ∧ after.Awaits surroundings word :=
  settles.keeps (fun reading => reading.Fits ∧ reading.Awaits surroundings word)
    (fun _ _ passes kept => ⟨passes.fits kept.1, passes.awaits kept.1 kept.2⟩)
    ⟨fits, rests.awaits word⟩

end Reading

/-- Reading a word leaves everything in order, and so is what is finished by it. -/
theorem Reading.rests_read (surroundings : Surroundings) {reading : Reading} (fits : reading.Fits)
    (rests : reading.Rests surroundings) (word : Word) :
    (∀ next, reading.read surroundings word = .reading next → next.Rests surroundings) ∧
      ∀ outcome, reading.read surroundings word = .finished (some outcome) →
        outcome.tree.Agrees surroundings.grammar := by
  obtain ⟨settled, settles, decides⟩ := exists_settles_decides surroundings reading word
  obtain ⟨settledFits, awaits⟩ := settles.awaits fits rests
  constructor
  · intro next progress
    rw [progress] at decides
    cases decides with
    | takes taken => exact taken.rests settledFits awaits
  · intro outcome progress
    rw [progress] at decides
    cases decides with
    | finishes stays => exact awaits.focus.1.below

namespace FileReading

/-- All parts of a file that is being read are in order. -/
structure Agrees (grammar : Grammar) (file : FileReading) : Prop where
  below : ∀ child ∈ file.children, child.Agrees grammar
  current : ∀ reading ∈ file.current, reading.Rests (surroundings grammar)

variable {grammar : Grammar}

theorem agrees_empty (grammar : Grammar) : empty.Agrees grammar :=
  ⟨List.forall_mem_nil _, fun _ none => by cases none⟩

theorem agrees_skipped (word : Word) : (skipped word).Agrees grammar :=
  Tree.everywhere_node.mpr ⟨fun clean => (clean.root rfl).elim,
    List.forall_mem_singleton.mpr (agrees_leaf word.token)⟩

/-- Every word leaves everything in order. -/
theorem isKept_agrees (grammar : Grammar) :
    IsKept grammar (fun _ => True) (fun tree => tree.Agrees grammar) fun reading =>
      reading.Fits ∧ reading.Rests (surroundings grammar) where
  leaf := agrees_leaf
  skipped word _ := agrees_skipped word
  begins _ _ _ opens := ⟨Reading.fits_begin (Word.suits_of_opening? opens) (List.forall_mem_nil _),
    Reading.rests_begin opens trivial⟩
  continues _ word next _ known progress :=
    ⟨(Reading.fits_read (surroundings grammar) known.1 word).1 next progress,
      (Reading.rests_read (surroundings grammar) known.1 known.2 word).1 next progress⟩
  finishes _ word outcome _ known :=
    (Reading.rests_read (surroundings grammar) known.1 known.2 word).2 outcome

theorem Agrees.holds {file : FileReading} (agrees : file.Agrees grammar) (fits : file.Fits) :
    file.Holds (fun tree => tree.Agrees grammar) fun reading =>
      reading.Fits ∧ reading.Rests (surroundings grammar) :=
  ⟨agrees.below, fun reading current =>
    ⟨fits.current reading current, agrees.current reading current⟩⟩

theorem agrees_of_holds {file : FileReading}
    (holds : file.Holds (fun tree => tree.Agrees grammar) fun reading =>
      reading.Fits ∧ reading.Rests (surroundings grammar)) : file.Agrees grammar :=
  ⟨holds.below, fun reading current => (holds.current reading current).2⟩

/-- One word after another leaves a file that agrees with the grammar. -/
theorem Agrees.read {file : FileReading} (agrees : file.Agrees grammar) (fits : file.Fits)
    (word : Word) : (file.read grammar word).Agrees grammar :=
  agrees_of_holds ((agrees.holds fits).read (isKept_agrees grammar) trivial)

/-- All words of a file together leave everything in order. -/
theorem agrees_foldl_read (words : List Word) {file : FileReading} (agrees : file.Agrees grammar)
    (fits : file.Fits) : (words.foldl (read grammar) file).Agrees grammar :=
  agrees_of_holds ((agrees.holds fits).foldl_read (isKept_agrees grammar) fun _ _ => trivial)

end FileReading

/-- Every tree that is read agrees with the grammar. -/
theorem agrees_of_parseTokens {grammar : Grammar} {tokens : List Token} {tree : SyntaxTree}
    (parsed : parseTokens grammar tokens = .ok tree) : tree.Agrees grammar := by
  obtain ⟨ending, beyond, _, rfl⟩ := exists_eq_tree_of_parseTokens parsed
  exact agrees_ofKind (FileReading.forall_mem_children_tree (FileReading.isKept_agrees grammar)
    (fun _ _ => trivial) trivial beyond) fun _ =>
      Tree.respects_of_madeBy?_eq_none (madeBy?_eq_none_of_kind (by decide) (by decide) _)

/-- A token list with an end token can be read, and if its tree has no errors then all operands in
the tree are bound as the precedences of the grammar demand. -/
theorem respects_of_parseTokens (grammar : Grammar) (tokens : List Token)
    (present : tokens.any Token.isEnd) :
    ∃ tree, parseTokens grammar tokens = .ok tree ∧
      (tree.errors = [] → ∀ node ∈ tree.walk, node.Respects grammar) := by
  obtain ⟨final, held, ends⟩ := List.any_eq_true.mp present
  obtain ⟨tree, parsed⟩ := exists_parseTokens_eq_ok grammar held ends
  refine ⟨tree, parsed, fun none node inside => ?_⟩
  have clean : tree.IsClean := Tree.isClean_iff_errors_eq_nil.mpr none
  exact agrees_of_parseTokens parsed node inside (Tree.Everywhere.within clean inside)

/-- The product in a difference is read as its second operand. -/
theorem respects_of_difference :
    let tokens : List Token :=
      [⟨.identifier, "a", 1, 1⟩, ⟨.operator .minus, "-", 1, 2⟩, ⟨.identifier, "b", 1, 3⟩,
        ⟨.operator .times, "*", 1, 4⟩, ⟨.identifier, "c", 1, 5⟩, ⟨.endOfFile, "", 1, 6⟩]
    tokens.any Token.isEnd ∧ ∃ tree, parseTokens .standard tokens = .ok tree ∧
      tree.errors = [] ∧ ∀ node ∈ tree.walk, node.Respects .standard := by
  intro tokens
  have present : tokens.any Token.isEnd := by decide +kernel
  have clean : (parseTokens .standard tokens).toOption.all fun tree => tree.errors.isEmpty := by
    decide +kernel
  obtain ⟨tree, parsed, respects⟩ := respects_of_parseTokens .standard tokens present
  rw [parsed] at clean
  have none : tree.errors = [] := List.isEmpty_iff.mp clean
  exact ⟨present, tree, parsed, none, respects none⟩

end WolframSyntax
