import WolframSyntax.Proofs.Lossless
import WolframSyntax.Proofs.Positions

/-!
# Constructs are tight

No construct of a file begins or ends with trivia. A frame begins with a token that is none, and
while it waits for an operand it ends with one, since trivia are only taken together with the token
behind them (`Frame.IsTight.receive`). What stands in no text at all are the errors and empty
expressions that are reported in front of a word. So a construct that covers any text covers one
piece of it from the token that it begins with, and is placed where that token is
(`tight_of_parseSource`).
-/

namespace WolframSyntax

open SyntaxTree

/-! ## Tokens without trivia around them -/

/-- The first token is no trivia. -/
def BeginsPlain (tokens : List Token) : Prop := ∃ first ∈ tokens.head?, first.isTrivia = false

/-- The last token is no trivia. -/
def EndsPlain (tokens : List Token) : Prop := ∃ last ∈ tokens.getLast?, last.isTrivia = false

/-- Tokens begin as the first ones of them do. -/
theorem BeginsPlain.append {before : List Token} (begins : BeginsPlain before)
    (after : List Token) :
    BeginsPlain (before ++ after) := by
  obtain ⟨first, held, plain⟩ := begins
  obtain ⟨rest, rfl⟩ := List.head?_eq_some_iff.mp held
  exact ⟨first, rfl, plain⟩

/-- Tokens end as the last ones of them do. -/
theorem EndsPlain.append (before : List Token) {after : List Token} (ends : EndsPlain after) :
    EndsPlain (before ++ after) := by
  obtain ⟨last, held, plain⟩ := ends
  obtain ⟨rest, rfl⟩ := List.getLast?_eq_some_iff.mp held
  refine ⟨last, ?_, plain⟩
  rw [← List.append_assoc, List.getLast?_concat]
  rfl

theorem beginsPlain_singleton {token : Token} (plain : token.isTrivia = false) :
    BeginsPlain [token] :=
  ⟨token, rfl, plain⟩

theorem endsPlain_singleton {token : Token} (plain : token.isTrivia = false) :
    EndsPlain [token] :=
  ⟨token, rfl, plain⟩

/-- A word that is no trivia ends without trivia. -/
theorem Word.endsPlain {word : Word} (plain : word.token.isTrivia = false) :
    EndsPlain word.tokens :=
  (endsPlain_singleton plain).append word.lead

/-- The words of a list and its end are no trivia. -/
theorem WordStream.plain_after (lead tokens : List Token) :
    (∀ word ∈ (after lead tokens).words, word.token.isTrivia = false) ∧
      ∀ ending ∈ (after lead tokens).ending, ending.1.token.isTrivia = false := by
  induction tokens generalizing lead with
  | nil => exact ⟨List.forall_mem_nil _, fun _ none => by cases none⟩
  | cons token tokens ih =>
    unfold after
    split
    · exact ih _
    · next plain =>
      have plain : token.isTrivia = false := by simpa using plain
      split
      · refine ⟨List.forall_mem_nil _, fun ending same => ?_⟩
        cases same
        exact plain
      · obtain ⟨words, ending⟩ := ih []
        exact ⟨List.forall_mem_cons.mpr ⟨plain, words⟩, ending⟩

namespace SyntaxTree

/-- A node that stands for something that is not in the text: an error or an empty expression. -/
def IsAbsent (node : SyntaxTree) : Prop :=
  ∃ kind message next, (kind = .error ∨ kind = .null) ∧ node = absent kind message next

/-- A node that is no leaf either covers no token or has none of its trivia on its outside. -/
def IsTight (node : SyntaxTree) : Prop :=
  node.isLeaf = false → node.IsAbsent ∨ BeginsPlain node.tokens ∧ EndsPlain node.tokens

/-- A tree in which all nodes are tight and that covers some token. -/
structure IsCompact (tree : SyntaxTree) : Prop where
  begins : BeginsPlain tree.tokens
  ends : EndsPlain tree.tokens
  below : tree.Everywhere IsTight

theorem everywhere_isTight_leaf (token : Token) : (leaf token).Everywhere IsTight :=
  Tree.everywhere_node.mpr ⟨fun inner => absurd ((isLeaf_leaf token).symm.trans inner) (by simp),
    List.forall_mem_nil _⟩

/-- What is absent is tight. -/
theorem everywhere_isTight_absent {kind : NodeKind} (missing : kind = .error ∨ kind = .null)
    (message : Option String) (next : Token) :
    (absent kind message next).Everywhere IsTight :=
  Tree.everywhere_node.mpr ⟨fun _ => .inl ⟨kind, message, next, missing, rfl⟩,
    List.forall_mem_nil _⟩

/-- A construct is compact if its children are tight and have no trivia on their outside. -/
theorem isCompact_node {content : Content} {children : List SyntaxTree}
    (bare : content.token = none) (begins : BeginsPlain (children.flatMap Tree.tokens))
    (ends : EndsPlain (children.flatMap Tree.tokens))
    (below : ∀ child ∈ children, child.Everywhere IsTight) :
    IsCompact (.node () content children) := by
  have tokens : Tree.tokens (.node () content children) = children.flatMap Tree.tokens := by
    rw [Tree.tokens_node, bare]
    rfl
  rw [← tokens] at begins ends
  exact ⟨begins, ends, Tree.everywhere_node.mpr ⟨fun _ => .inr ⟨begins, ends⟩, below⟩⟩

/-- A construct of one token that is no trivia is compact. -/
theorem isCompact_atom (kind : NodeKind) {token : Token} (plain : token.isTrivia = false) :
    (ofKind kind [leaf token]).IsCompact :=
  isCompact_node rfl (beginsPlain_singleton plain) (endsPlain_singleton plain)
    (List.forall_mem_singleton.mpr (everywhere_isTight_leaf token))

end SyntaxTree

theorem Word.everywhere_isTight_leadLeaves (word : Word) :
    ∀ child ∈ word.leadLeaves, child.Everywhere IsTight := by
  intro child present
  obtain ⟨token, _, rfl⟩ := List.mem_map.mp present
  exact everywhere_isTight_leaf token

/-- The tokens of a word are tight. -/
theorem Word.everywhere_isTight_leaves (word : Word) :
    ∀ child ∈ word.leaves, child.Everywhere IsTight :=
  List.forall_mem_append.mpr ⟨word.everywhere_isTight_leadLeaves,
    List.forall_mem_singleton.mpr (everywhere_isTight_leaf word.token)⟩

/-! ## Frames -/

/-- A frame begins with a token that is no trivia, and all nodes below it are tight. -/
structure Frame.IsTight (frame : Frame) : Prop where
  begins : BeginsPlain frame.tokens
  below : ∀ child ∈ frame.children, child.Everywhere SyntaxTree.IsTight

/-- A complete expression covers some token. Where none has been read yet, the innermost frame ends
with a token that is no trivia, and only a sequence may go without an expression. -/
def Focus.IsTight (frame? : Option Frame) : Focus → Prop
  | .complete outcome => outcome.tree.IsCompact
  | .blankName _ blank named => blank.isTrivia = false ∧ ∀ left ∈ named, left.IsCompact
  | .statement => ∀ frame ∈ frame?, EndsPlain frame.tokens ∧ frame.role = .compound
  | .operand | .firstItem | .arguments | .partEnd => ∀ frame ∈ frame?, EndsPlain frame.tokens

/-- All parts of a reading are tight. -/
structure Reading.IsTight (reading : Reading) : Prop where
  frames : ∀ frame ∈ reading.frames, frame.IsTight
  focus : reading.focus.IsTight reading.frames.head?

/-- What a reaction leaves is tight. -/
def Reaction.IsTight : Reaction → Prop
  | .waits frame focus => frame.IsTight ∧ focus.IsTight (some frame)
  | .begins frame _ => frame.IsTight
  | .closes outcome | .ends outcome => outcome.tree.IsCompact

namespace Frame

variable {frame : Frame} {word : Word}

/-- A tight frame stays tight with an operand. -/
theorem IsTight.add (tight : frame.IsTight) {outcome : Outcome}
    (below : outcome.tree.Everywhere SyntaxTree.IsTight) : (frame.add outcome).IsTight :=
  ⟨tokens_add outcome ▸ tight.begins.append _,
    List.forall_mem_append.mpr ⟨tight.below, List.forall_mem_singleton.mpr below⟩⟩

theorem IsTight.take (tight : frame.IsTight) (word : Word) : (frame.take word).IsTight :=
  ⟨tokens_take ▸ tight.begins.append _,
    List.forall_mem_append.mpr ⟨tight.below, word.everywhere_isTight_leaves⟩⟩

theorem IsTight.takeLead (tight : frame.IsTight) (word : Word) : (frame.takeLead word).IsTight :=
  ⟨tokens_takeLead ▸ tight.begins.append _,
    List.forall_mem_append.mpr ⟨tight.below, word.everywhere_isTight_leadLeaves⟩⟩

/-- A tight frame stays tight with errors for missing things. -/
theorem IsTight.fail (tight : frame.IsTight) (diagnostics : List Diagnostic) (word : Word) :
    (frame.fail diagnostics word).IsTight := by
  refine ⟨(tokens_fail diagnostics).symm ▸ tight.begins,
    List.forall_mem_append.mpr ⟨tight.below, fun child present => ?_⟩⟩
  obtain ⟨diagnostic, _, rfl⟩ := List.mem_map.mp present
  exact everywhere_isTight_absent (.inl rfl) _ _

/-- A frame that has taken a word ends with it. -/
theorem endsPlain_take (frame : Frame) (plain : word.token.isTrivia = false) :
    EndsPlain (frame.take word).tokens :=
  tokens_take ▸ (Word.endsPlain plain).append frame.tokens

/-- A tight frame that ends without trivia becomes a compact construct. -/
theorem IsTight.outcome (tight : frame.IsTight) (ends : EndsPlain frame.tokens)
    (kind : NodeKind) : (frame.outcome kind).tree.IsCompact :=
  isCompact_node rfl tight.begins ends tight.below

/-- A bracketed construct is compact with its close, and without it as it stands. -/
theorem IsTight.close (tight : frame.IsTight) (ends : EndsPlain frame.tokens)
    (plain : word.token.isTrivia = false) (kind : NodeKind) (closing : Operator)
    (unclosed : List Diagnostic) : (frame.close kind closing unclosed word).IsTight := by
  unfold Frame.close
  split
  · exact (tight.take word).outcome (endsPlain_take frame plain) kind
  · exact (tight.fail unclosed word).outcome ((tokens_fail unclosed).symm ▸ ends) kind

/-- Items are compact with their close, and without it as they stand. -/
theorem IsTight.closeItems (tight : frame.IsTight) (ends : EndsPlain frame.tokens)
    (plain : word.token.isTrivia = false) (enclosure : Enclosure) :
    (frame.closeItems enclosure word).IsTight := by
  unfold Frame.closeItems
  split
  · refine ⟨tight.take word, fun held same => ?_⟩
    cases same
    exact endsPlain_take frame plain
  · exact tight.close ends plain _ _ _

/-- What a frame may receive: an expression that covers some token, an error behind a token that is
no trivia, or, in a sequence, an empty expression there. -/
inductive Meets (frame : Frame) (outcome : Outcome) : Prop where
  | compact (compact : outcome.tree.IsCompact)
  | missing {message : Option String} {next : Token} (ends : EndsPlain frame.tokens)
      (absent : outcome.tree = SyntaxTree.absent .error message next)
  | omitted {next : Token} (ends : EndsPlain frame.tokens) (role : frame.role = .compound)
      (absent : outcome.tree = SyntaxTree.absent .null none next)

variable {outcome : Outcome}

/-- All that a frame receives is tight. -/
theorem Meets.below (meets : frame.Meets outcome) :
    outcome.tree.Everywhere SyntaxTree.IsTight := by
  cases meets with
  | compact compact => exact compact.below
  | missing _ absent => exact absent ▸ everywhere_isTight_absent (.inl rfl) _ _
  | omitted _ _ absent => exact absent ▸ everywhere_isTight_absent (.inr rfl) _ _

/-- A frame ends without trivia when it has received an operand. -/
theorem Meets.endsPlain (meets : frame.Meets outcome) :
    EndsPlain (frame.add outcome).tokens := by
  rw [tokens_add]
  cases meets with
  | compact compact => exact compact.ends.append _
  | missing ends absent | omitted ends _ absent =>
    rw [absent, tokens_absent, List.append_nil]
    exact ends

/-- A tag is as tight as what it was read as. -/
theorem Meets.tagOutcome (meets : frame.Meets outcome) {last : Bool} (role : frame.role = .tag last)
    (operand : outcome.tree.IsOperand) : frame.Meets (tagOutcome outcome).1 := by
  obtain ⟨⟨label, content, children⟩, succeeded⟩ := outcome
  cases meets with
  | missing ends absent =>
    cases absent
    exact .missing ends rfl
  | omitted ends compound absent => cases role.symm.trans compound
  | compact compact =>
    have bare : content.token = none := operand.bare
    have tokens : Tree.tokens (.node label content children) = children.flatMap Tree.tokens := by
      rw [Tree.tokens_node, bare]
      rfl
    have around : [Tree.node label content children].flatMap Tree.tokens
        = Tree.tokens (.node label content children) := List.flatMap_singleton _ _
    unfold Frame.tagOutcome
    split
    · exact .compact compact
    · exact .compact (isCompact_node rfl (tokens ▸ compact.begins) (tokens ▸ compact.ends)
        (Tree.everywhere_node.mp compact.below).2)
    · exact .compact compact
    · exact .compact (isCompact_node rfl (around ▸ compact.begins) (around ▸ compact.ends)
        (List.forall_mem_singleton.mpr compact.below))

/-- What a frame does with an operand leaves it tight. -/
theorem IsTight.receive (tight : frame.IsTight) (bracketed : Bool) (meets : frame.Meets outcome)
    (operand : outcome.tree.IsOperand) (plain : word.token.isTrivia = false) :
    (frame.receive bracketed outcome word).IsTight := by
  have fed := tight.add meets.below
  have ends := meets.endsPlain
  have ended (kind : NodeKind) : Reaction.IsTight (.ends ((frame.add outcome).outcome kind)) :=
    fed.outcome ends kind
  have taken : ∀ held ∈ some ((frame.add outcome).take word), EndsPlain held.tokens := by
    intro held same
    cases same
    exact endsPlain_take _ plain
  unfold Frame.receive
  cases role : frame.role with
  | group => exact fed.close ends plain _ _ _
  | items enclosure =>
    dsimp only
    split
    · exact ⟨fed.take word, taken⟩
    · exact fed.closeItems ends plain enclosure
  | operand kind => exact ended kind
  | chain kind sign =>
    dsimp only
    split
    · exact ended kind
    split
    · split
      · exact ⟨fed.take word, taken⟩
      · exact ended kind
    · split
      · exact fed
      · exact ended kind
    · exact ended kind
  | compound =>
    dsimp only
    split
    · refine ⟨fed.take word, fun held same => ⟨taken held same, ?_⟩⟩
      cases same
      exact role
    · exact ended _
  | tag last =>
    have tagged := meets.tagOutcome role operand
    have fedTag := tight.add tagged.below
    dsimp only
    split
    · refine ⟨⟨(fedTag.take word).begins, (fedTag.take word).below⟩, fun held same => ?_⟩
      cases same
      exact endsPlain_take (frame.add (Frame.tagOutcome outcome).1) plain
    · exact isCompact_node rfl fedTag.begins tagged.endsPlain fedTag.below
  | tagPattern =>
    have waits (kind : NodeKind) : Reaction.IsTight (.waits { (frame.add outcome).take word with
        role := .operand kind, floor := frame.floor - 1 } .operand) := by
      refine ⟨⟨(fed.take word).begins, (fed.take word).below⟩, fun held same => ?_⟩
      cases same
      exact endsPlain_take (frame.add outcome) plain
    dsimp only
    split
    · exact ended _
    split
    · exact waits .tagSet
    split
    · exact waits .tagSetDelayed
    · exact (fed.fail _ word).outcome ((tokens_fail _).symm ▸ ends) _

end Frame

/-! ## Readings -/

namespace Reading

variable {surroundings : Surroundings} {word : Word} {frames : List Frame}

/-- A word that is no trivia begins a tight expression. -/
theorem isTight_begin (tight : ∀ frame ∈ frames, frame.IsTight) (opening : Opening)
    {token : Token} (plain : token.isTrivia = false) : (begin frames opening token).IsTight := by
  have waits (role : Role) (floor : Int) :
      (∀ frame ∈ ⟨role, floor, [leaf token], true⟩ :: frames, frame.IsTight) ∧
        ∀ frame ∈ some (Frame.mk role floor [leaf token] true), EndsPlain frame.tokens := by
    refine ⟨List.forall_mem_cons.mpr ⟨⟨beginsPlain_singleton plain, ?_⟩, tight⟩, ?_⟩
    · exact List.forall_mem_singleton.mpr (everywhere_isTight_leaf token)
    · intro frame same
      cases same
      exact endsPlain_singleton plain
  cases opening with
  | atom kind => exact ⟨tight, isCompact_atom kind plain⟩
  | blank kind => exact ⟨tight, plain, fun _ none => by cases none⟩
  | group => exact ⟨(waits .group 0).1, (waits .group 0).2⟩
  | list => exact ⟨(waits (.items .list) 0).1, (waits (.items .list) 0).2⟩
  | operator kind precedence =>
    exact ⟨(waits (.operand kind) precedence).1, (waits (.operand kind) precedence).2⟩

theorem isTight_beginOperand {frame : Frame}
    (tight : ∀ inner ∈ frame :: frames, inner.IsTight) (opening : Opening)
    (plain : word.token.isTrivia = false) :
    (beginOperand frame frames opening word).IsTight := by
  obtain ⟨inner, outer⟩ := List.forall_mem_cons.mp tight
  exact isTight_begin (List.forall_mem_cons.mpr ⟨inner.takeLead word, outer⟩) opening plain

/-- An expression that goes on with a word begins with its first operand and, so far, ends with the
word. -/
theorem isTight_continueWith (tight : ∀ frame ∈ frames, frame.IsTight) {left : SyntaxTree}
    (compact : left.IsCompact) (plain : word.token.isTrivia = false) (grammar : Grammar)
    (sign : Operator) (continuation : Continuation) :
    (continueWith grammar frames left sign continuation word).IsTight := by
  have tokens : (left :: word.leaves).flatMap Tree.tokens = left.tokens ++ word.tokens := by
    rw [List.flatMap_cons, Word.flatMap_tokens_leaves]
  have begins : BeginsPlain ((left :: word.leaves).flatMap Tree.tokens) :=
    tokens ▸ compact.begins.append _
  have ends : EndsPlain ((left :: word.leaves).flatMap Tree.tokens) :=
    tokens ▸ (Word.endsPlain plain).append _
  have below : ∀ child ∈ left :: word.leaves, child.Everywhere SyntaxTree.IsTight :=
    List.forall_mem_cons.mpr ⟨compact.below, word.everywhere_isTight_leaves⟩
  have waits (role : Role) (floor : Int) :
      ∀ frame ∈ ⟨role, floor, left :: word.leaves, true⟩ :: frames, frame.IsTight :=
    List.forall_mem_cons.mpr ⟨⟨begins, below⟩, tight⟩
  have behind (role : Role) (floor : Int) :
      ∀ frame ∈ some (Frame.mk role floor (left :: word.leaves) true), EndsPlain frame.tokens := by
    intro frame same
    cases same
    exact ends
  cases continuation with
  | suffix kind => exact ⟨tight, isCompact_node rfl begins ends below⟩
  | pattern mark =>
    refine ⟨tight, plain, fun named same => ?_⟩
    cases same
    exact compact
  | compound =>
    refine ⟨waits _ _, fun frame same => ⟨behind _ _ frame same, ?_⟩⟩
    cases same
    rfl
  | binary | flat | product | call | messageName | tagSet => exact ⟨waits _ _, behind _ _⟩

/-- What goes on from a compact operand is tight. -/
theorem isTight_of_extend? {left : SyntaxTree} {next : Reading}
    (goesOn : extend? surroundings frames left word = some next)
    (tight : ∀ frame ∈ frames, frame.IsTight) (compact : left.IsCompact)
    (plain : word.token.isTrivia = false) : next.IsTight := by
  rcases eq_of_extend?_eq_some goesOn with ⟨sign, continuation, _, _, rfl⟩ | ⟨opening, _, _, rfl⟩
  · exact isTight_continueWith tight compact plain _ sign continuation
  · refine isTight_beginOperand (List.forall_mem_cons.mpr ⟨⟨?_, ?_⟩, tight⟩) opening plain
    · rw [Frame.tokens, List.flatMap_singleton]
      exact compact.begins
    · exact List.forall_mem_singleton.mpr compact.below

/-- A blank is compact, with its name in front of it or without. -/
theorem isCompact_blankTree (kind : NodeKind) {named : Option SyntaxTree}
    {children : List SyntaxTree} (blank : (ofKind kind children).IsCompact)
    (compact : ∀ left ∈ named, left.IsCompact) : (blankTree kind named children).IsCompact := by
  cases named with
  | none => exact blank
  | some left =>
    have name := compact left rfl
    have tokens : [left, ofKind kind children].flatMap Tree.tokens
        = left.tokens ++ (ofKind kind children).tokens := by
      rw [List.flatMap_cons, List.flatMap_singleton]
    exact isCompact_node rfl (tokens ▸ name.begins.append _) (tokens ▸ blank.ends.append _)
      (List.forall_mem_cons.mpr ⟨name.below, List.forall_mem_singleton.mpr blank.below⟩)

/-- How a construct reacts to a word leaves it tight, and so it does the frames around it. -/
theorem Reacts.isTight {reading : Reading} {reaction : Reaction}
    (reacts : Reacts surroundings word reading frames reaction) (fits : reading.Fits)
    (tight : reading.IsTight) (plain : word.token.isTrivia = false) :
    reaction.IsTight ∧ ∀ frame ∈ frames, frame.IsTight := by
  obtain ⟨stack, focusTight⟩ := tight
  cases reacts with
  | complete stays =>
    obtain ⟨inner, outer⟩ := List.forall_mem_cons.mp stack
    exact ⟨inner.receive _ (.compact focusTight) fits.focus plain, outer⟩
  | @missing frame frames focus wants unopened =>
    obtain ⟨inner, outer⟩ := List.forall_mem_cons.mp stack
    have ends : EndsPlain frame.tokens := by
      cases focus <;> first | exact focusTight frame rfl | cases wants
    exact ⟨inner.receive _ (.missing ends rfl) (isOperand_absent _ _ rfl) plain, outer⟩
  | @absent frame frames unopened =>
    obtain ⟨inner, outer⟩ := List.forall_mem_cons.mp stack
    obtain ⟨ends, role⟩ := focusTight frame rfl
    exact ⟨inner.receive _ (.omitted ends role rfl) (isOperand_absent _ _ rfl) plain, outer⟩
  | @empty frame frames focus enclosure begins role closing =>
    obtain ⟨inner, outer⟩ := List.forall_mem_cons.mp stack
    have ends : EndsPlain frame.tokens := by
      cases focus <;> first | exact focusTight frame rfl | cases begins
    exact ⟨inner.closeItems ends plain enclosure, outer⟩
  | @partEnd frame frames =>
    obtain ⟨inner, outer⟩ := List.forall_mem_cons.mp stack
    exact ⟨inner.close (focusTight frame rfl) plain _ _ _, outer⟩

/-- A construct that ends is compact. -/
theorem Passes.isTight {before after : Reading} (passes : Passes surroundings word before after)
    (fits : before.Fits) (tight : before.IsTight) (plain : word.token.isTrivia = false) :
    after.IsTight := by
  cases passes with
  | ends reacts =>
    obtain ⟨compact, outer⟩ := reacts.isTight fits tight plain
    exact ⟨outer, compact⟩
  | @unnamed frames kind blank named apart =>
    obtain ⟨stack, blankPlain, compact⟩ := tight
    exact ⟨stack, isCompact_blankTree kind (isCompact_atom kind blankPlain) compact⟩

/-- A word that is taken leaves a tight reading. -/
theorem Takes.isTight {before after : Reading} (takes : Takes surroundings word before after)
    (fits : before.Fits) (tight : before.IsTight) (plain : word.token.isTrivia = false) :
    after.IsTight := by
  cases takes with
  | @alone _ opening unfinished opens => exact isTight_begin tight.frames opening plain
  | @operand _ _ _ opening wants opens => exact isTight_beginOperand tight.frames opening plain
  | @statement _ _ opening opens => exact isTight_beginOperand tight.frames opening plain
  | continues goesOn => exact isTight_of_extend? goesOn tight.frames tight.focus plain
  | @reacts _ _ frames reaction reacts taken =>
    obtain ⟨reactionTight, outer⟩ := reacts.isTight fits tight plain
    cases reaction with
    | waits frame focus =>
      cases taken
      exact ⟨List.forall_mem_cons.mpr ⟨reactionTight.1, outer⟩, reactionTight.2⟩
    | begins frame opening =>
      cases taken
      exact isTight_beginOperand (List.forall_mem_cons.mpr ⟨reactionTight, outer⟩) opening plain
    | closes outcome =>
      cases taken
      exact ⟨outer, reactionTight⟩
    | ends outcome => cases taken
  | @part frame frames bracket touches =>
    obtain ⟨inner, outer⟩ := List.forall_mem_cons.mp tight.frames
    have taken := inner.take word
    refine ⟨List.forall_mem_cons.mpr ⟨⟨taken.begins, taken.below⟩, outer⟩, fun held same => ?_⟩
    cases same
    exact Frame.endsPlain_take frame plain
  | @name frames kind blank named identifier touches =>
    obtain ⟨stack, blankPlain, compact⟩ := tight
    refine ⟨stack, isCompact_blankTree kind ?_ compact⟩
    have symbol : (ofKind .symbol [word.leaf]).IsCompact := isCompact_atom .symbol plain
    refine isCompact_node rfl ((beginsPlain_singleton blankPlain).append _) ?_ ?_
    · rw [List.flatMap_cons, List.flatMap_singleton]
      exact symbol.ends.append _
    · exact List.forall_mem_cons.mpr
        ⟨everywhere_isTight_leaf blank, List.forall_mem_singleton.mpr symbol.below⟩

/-- Reading a word leaves an expression tight, and what is finished by it covers some token. -/
theorem isTight_read (surroundings : Surroundings) {reading : Reading} (fits : reading.Fits)
    (tight : reading.IsTight) (plain : word.token.isTrivia = false) :
    (∀ next, reading.read surroundings word = .reading next → next.IsTight) ∧
      ∀ outcome, reading.read surroundings word = .finished (some outcome) →
        outcome.tree.IsCompact := by
  obtain ⟨settled, settles, decides⟩ := exists_settles_decides surroundings reading word
  obtain ⟨settledFits, settledTight⟩ := settles.keeps
    (fun settled => settled.Fits ∧ settled.IsTight)
    (fun _ _ passes held => ⟨passes.fits held.1, passes.isTight held.1 held.2 plain⟩) ⟨fits, tight⟩
  constructor
  · intro next progress
    rw [progress] at decides
    cases decides with
    | takes taken => exact taken.isTight settledFits settledTight plain
  · intro outcome progress
    rw [progress] at decides
    cases decides with
    | finishes stays => exact settledTight.focus

end Reading

/-! ## Files -/

namespace FileReading

/-- A token that is skipped is compact under its error. -/
theorem isCompact_skipped {word : Word} (plain : word.token.isTrivia = false) :
    (skipped word).IsCompact :=
  isCompact_node rfl (beginsPlain_singleton plain) (endsPlain_singleton plain)
    (List.forall_mem_singleton.mpr (everywhere_isTight_leaf word.token))

/-- Every word that is no trivia leaves a file tight. -/
theorem isKept_isTight (grammar : Grammar) :
    IsKept grammar (fun word => word.token.isTrivia = false) (Tree.Everywhere SyntaxTree.IsTight)
      fun reading => reading.Fits ∧ reading.IsTight where
  leaf := everywhere_isTight_leaf
  skipped _ plain := (isCompact_skipped plain).below
  begins _ opening plain opens :=
    ⟨Reading.fits_begin (Word.suits_of_opening? opens) (List.forall_mem_nil _),
      Reading.isTight_begin (List.forall_mem_nil _) opening plain⟩
  continues _ word next plain known progress :=
    ⟨(Reading.fits_read (surroundings grammar) known.1 word).1 next progress,
      (Reading.isTight_read (surroundings grammar) known.1 known.2 plain).1 next progress⟩
  finishes _ _ outcome plain known progress :=
    ((Reading.isTight_read (surroundings grammar) known.1 known.2 plain).2 outcome progress).below

end FileReading

/-- All nodes below the root of a file that was read are tight. -/
theorem everywhere_isTight_of_parseTokens {grammar : Grammar} {tokens : List Token}
    {tree : SyntaxTree} (parsed : parseTokens grammar tokens = .ok tree) :
    ∀ child ∈ tree.children, child.Everywhere SyntaxTree.IsTight := by
  obtain ⟨ending, beyond, found, rfl⟩ := exists_eq_tree_of_parseTokens parsed
  obtain ⟨wordsPlain, endingPlain⟩ := WordStream.plain_after [] tokens
  exact FileReading.forall_mem_children_tree (FileReading.isKept_isTight grammar) wordsPlain
    (endingPlain _ found) beyond

/-! ## Nodes among the others -/

namespace SyntaxTree

theorem leaf_injective : Function.Injective leaf := by
  intro first second same
  exact Option.some.inj (congrArg (fun tree => tree.content.token) same)

/-- A leaf that fits the schema is made of a token. -/
theorem exists_eq_leaf {tree : SyntaxTree} (fits : tree.Fits) (isLeaf : tree.isLeaf) :
    ∃ token, tree = leaf token := by
  cases fits with
  | leaf token => exact ⟨token, rfl⟩
  | atom held => exact absurd isLeaf (by simp [(isOperand_atom held).inner])
  | construct bare takes =>
    have inner := NodeKind.isLeaf_eq_false_of_takes takes
    exact absurd (inner.symm.trans isLeaf) (by simp)

/-- The first token of a list of trees is the first one that is no trivia if this is so for all
trees that are no leaves. -/
theorem firstTokenOfAll_eq_find? {trees : List SyntaxTree}
    (fits : ∀ tree ∈ trees, tree.Fits)
    (each : ∀ tree ∈ trees, tree.isLeaf = false →
      tree.firstToken = tree.tokens.find? fun token => !token.isTrivia) :
    Tree.firstTokenOfAll trees
      = (trees.flatMap Tree.tokens).find? fun token => !token.isTrivia := by
  induction trees with
  | nil => rfl
  | cons tree trees ih =>
    obtain ⟨firstFits, laterFits⟩ := List.forall_mem_cons.mp fits
    obtain ⟨first, later⟩ := List.forall_mem_cons.mp each
    rw [Tree.firstTokenOfAll, List.flatMap_cons, List.find?_append, ih laterFits later]
    cases isLeaf : tree.isLeaf with
    | true =>
      obtain ⟨token, rfl⟩ := exists_eq_leaf firstFits isLeaf
      cases blank : token.isTrivia <;>
        simp [leaf, blank, Tree.kind, Tree.content, Tree.firstToken, Tree.tokens_node]
    | false =>
      have visible : tree.kind ≠ .whitespace := by
        intro blank
        rw [Tree.isLeaf, blank] at isLeaf
        cases isLeaf
      rw [if_neg visible, first isLeaf]
      cases tree.tokens.find? fun token => !token.isTrivia <;> rfl

/-- The first token of a construct is the first one that is no trivia. -/
theorem firstToken_eq_find? {tree : SyntaxTree} (fits : tree.Everywhere Fits)
    (inner : tree.isLeaf = false) :
    tree.firstToken = tree.tokens.find? fun token => !token.isTrivia := by
  induction tree using Tree.induct with
  | node label content children ih =>
    have bare : content.token = none := IsOperand.bare ⟨fits, inner⟩
    have inside := firstTokenOfAll_eq_find? (fun child among => (fits.child among).root)
      fun child among => ih child among (fits.child among)
    rw [Tree.firstToken, Tree.tokens_node, bare]
    exact inside

end SyntaxTree

/-- All nodes of a file except the file itself fit the schema and are tight. -/
theorem tight_of_mem_tail {grammar : Grammar} {source : String} {node : SyntaxTree}
    (below : node ∈ (parseSource grammar source).walk.tail) :
    node.Everywhere SyntaxTree.Fits ∧ node.IsTight := by
  have parsed := parseTokens_tokenize grammar source
  have tight := everywhere_isTight_of_parseTokens parsed
  obtain ⟨children, file, fits⟩ := everywhere_fits_of_parseTokens parsed
  rw [file] at tight
  rw [file, ofKind, Tree.walk_node] at below
  obtain ⟨child, among, held⟩ := List.mem_flatMap.mp below
  exact ⟨(fits child among).within held, tight child among node held⟩

/-- The leaves in front of a node of a file, in it and behind it are the tokens of the text without
its end. -/
theorem exists_tokens_around {grammar : Grammar} {source : String} {before after : List SyntaxTree}
    {node : SyntaxTree} (split : (parseSource grammar source).walk = before ++ node :: after)
    (fits : node.Everywhere SyntaxTree.Fits) :
    ∃ front behind final, tokenize source = front ++ (node.tokens ++ behind) ++ [final] ∧
      (front ++ (node.tokens ++ behind)).any Token.isEnd = false ∧ final.isEnd ∧
      before.filter Tree.isLeaf = front.map leaf ∧
      (node :: after).filter Tree.isLeaf = (node.tokens ++ behind).map leaf := by
  have leaves := leaves_of_parseTokens (parseTokens_tokenize grammar source)
  obtain ⟨body, final, tokens, unended, ends⟩ := exists_tokensFrom_eq .start source.toList
  have kept : (tokenize source).filter (fun token => !token.isEnd) = body := by
    have inner : ∀ token ∈ body, token.isEnd = false := by simpa using unended
    rw [tokenize, tokens, List.filter_append,
      List.filter_eq_self.mpr fun token among => by rw [inner token among]; rfl]
    simp [ends]
  obtain ⟨rest, walk⟩ := Tree.exists_walk_append split
  have around : body.map leaf
      = before.filter Tree.isLeaf ++ (node :: after).filter Tree.isLeaf := by
    rw [← kept, ← leaves, Tree.leaves, split, List.filter_append]
  obtain ⟨front, others, rfl, inFront, inOthers⟩ := List.map_eq_append_iff.mp around
  have held : others.map leaf = node.tokens.map leaf ++ rest.filter Tree.isLeaf := by
    rw [inOthers, walk, List.filter_append, ← leaves_eq_map_leaf fits, Tree.leaves]
  obtain ⟨inner, behind, rfl, same, -⟩ := List.map_eq_append_iff.mp held
  obtain rfl := List.map_injective_iff.mpr leaf_injective same
  exact ⟨front, behind, final, tokens, unended, ends, inFront.symm, inOthers.symm⟩

/-- A construct below a file that covers any text begins and ends with a token that is no trivia. It
covers the text from the place on where the texts of the leaves in front of it end, and its line and
column are those of that place. -/
theorem tight_of_parseSource (grammar : Grammar) (source : String)
    {before after : List SyntaxTree} {node : SyntaxTree}
    (split : (parseSource grammar source).walk = before ++ node :: after) (inside : before ≠ [])
    (inner : node.isLeaf = false) (covers : node.leaves ≠ []) :
    let offset := ((before.filter Tree.isLeaf).flatMap fun leaf => leaf.text.toList).length
    (∃ first last, node.leaves.head? = some first ∧ first.kind = .token ∧
      node.leaves.getLast? = some last ∧ last.kind = .token) ∧
    node.text.toList = (source.toList.drop offset).take node.text.length ∧
    node.position.line = ((1 + (source.toList.take offset).count '\n' : Nat) : Int) ∧
    node.position.col
      = ((1 + ((source.toList.take offset).rtakeWhile (· ≠ '\n')).length : Nat) : Int) := by
  obtain ⟨fits, tight⟩ := tight_of_mem_tail (Tree.mem_tail_of_split split inside List.mem_cons_self)
  obtain ⟨front, behind, final, tokens, -, ends, inFront, -⟩ := exists_tokens_around split fits
  have leaves := leaves_eq_map_leaf fits
  have compact : BeginsPlain node.tokens ∧ EndsPlain node.tokens := by
    refine (tight inner).resolve_left ?_
    rintro ⟨kind, message, next, missing, rfl⟩
    exact covers leaves
  obtain ⟨⟨first, held, plain⟩, last, heldLast, plainLast⟩ := compact
  obtain ⟨rest, nodeTokens⟩ := List.head?_eq_some_iff.mp held
  have spelled := (tokenize_partition source).2.1
  have placed := (tokenize_partition source).2.2 front first (rest ++ behind ++ [final])
    (by rw [tokens, nodeTokens]; simp)
  have offset : (before.filter Tree.isLeaf).flatMap (fun leaf => leaf.text.toList)
      = spelling front := by
    rw [inFront, List.flatMap_map]
    rfl
  have text : node.text.toList = spelling node.tokens := toList_text fits
  have silent : final.text = "" := by
    have among : final ∈ tokenize source := by
      rw [tokens]
      exact List.mem_append_right _ List.mem_cons_self
    exact text_of_isEnd_of_mem_tokensFrom among ends
  have whole : source.toList = spelling front ++ (node.text.toList ++ spelling behind) := by
    rw [← spelled, tokens, text]
    simp [spelling, silent]
  have position : node.position = first.position := by
    rw [Tree.position, firstToken_eq_find? fits inner, nodeTokens,
      List.find?_cons_of_pos (by simp [plain])]
  have kindOf : ∀ token : Token, token.isTrivia = false → (leaf token).kind = .token :=
    fun token plain => by simp [leaf, plain, Tree.kind, Tree.content]
  dsimp only
  rw [offset, whole, List.take_left, List.drop_left, ← String.length_toList, List.take_left,
    position]
  refine ⟨⟨leaf first, leaf last, ?_, kindOf first plain, ?_, kindOf last plainLast⟩, rfl, placed⟩
  · rw [leaves, List.head?_map, held]
    rfl
  · rw [leaves, List.getLast?_map, heldLast]
    rfl

/-- A call behind a comment and on a line of its own, with an error in it. -/
theorem tight_of_call :
    let source := "x = 1; (* call *)\n  f[ x,  "
    ∃ before node after, (parseSource .standard source).walk = before ++ node :: after ∧
      before ≠ [] ∧ node.isLeaf = false ∧ node.leaves ≠ [] ∧ node.kind = .functionCall ∧
      let offset := ((before.filter Tree.isLeaf).flatMap fun leaf => leaf.text.toList).length
      node.text.toList = (source.toList.drop offset).take node.text.length ∧
      node.position.line = ((1 + (source.toList.take offset).count '\n' : Nat) : Int) := by
  intro source
  have exists_call : ∃ node ∈ (parseSource .standard source).walk,
      node.kind = .functionCall ∧ node.leaves ≠ [] := by decide +kernel
  obtain ⟨node, among, call, covers⟩ := exists_call
  obtain ⟨before, after, split⟩ := List.append_of_mem among
  have inside : before ≠ [] := by
    rintro rfl
    obtain ⟨children, file, -⟩ :=
      everywhere_fits_of_parseTokens (parseTokens_tokenize .standard source)
    rw [file, ofKind, Tree.walk_node] at split
    obtain ⟨rfl, -⟩ := List.cons.inj split
    cases call
  have inner : node.isLeaf = false := by
    rw [Tree.isLeaf, call]
    rfl
  obtain ⟨-, text, line, -⟩ := tight_of_parseSource .standard source split inside inner covers
  exact ⟨before, node, after, split, inside, inner, covers, call, text, line⟩

end WolframSyntax
