import WolframSyntax.Proofs.Streams

/-!
# Trees with more multiplication signs

Two trees can differ in that the second one has multiplication signs among its leaves that the first
one lacks, and in the places at which gaps are reported (`SyntaxTree.Respells`). Such trees mean the
same (`SyntaxTree.meaning_of_respells`), and readings that differ in this way still do when they
have read the same word (`Reading.Respells.read`).
-/

namespace WolframSyntax

open SyntaxTree WolframSyntax.Tree

namespace SyntaxTree

/-- The second list is the first one with further multiplication signs, and with gaps that are
reported at other places. -/
inductive Respells : List SyntaxTree → List SyntaxTree → Prop where
  | nil : Respells [] []
  | cons {content : Content} {place : Option Position}
      {children others trees twins : List SyntaxTree} (below : Respells children others)
      (behind : Respells trees twins) :
      Respells (.node () content children :: trees)
        (.node () { content with position := place } others :: twins)
  | sign {token : Token} {trees twins : List SyntaxTree} (times : token.kind = .operator .times)
      (behind : Respells trees twins) : Respells trees (leaf token :: twins)

namespace Respells

variable {trees twins more others : List SyntaxTree}

/-- Two lists in which signs were put in may follow one another. -/
theorem append (first : Respells trees twins) (second : Respells more others) :
    Respells (trees ++ more) (twins ++ others) := by
  induction first with
  | nil => exact second
  | cons below _ _ ih => exact .cons below ih
  | sign times _ ih => exact .sign times ih

theorem singleton_refl (tree : SyntaxTree) : Respells [tree] [tree] := by
  induction tree using Tree.induct with
  | node label content children ih =>
    have below : Respells children children := by
      clear content
      induction children with
      | nil => exact .nil
      | cons child children each =>
        obtain ⟨first, rest⟩ := List.forall_mem_cons.mp ih
        exact first.append (each rest)
    exact .cons below .nil

theorem refl (trees : List SyntaxTree) : Respells trees trees := by
  induction trees with
  | nil => exact .nil
  | cons tree trees ih => exact (singleton_refl tree).append ih

/-- Signs put in below a node are put in below its construct. -/
theorem ofKind (kind : NodeKind) (below : Respells trees twins) :
    Respells [SyntaxTree.ofKind kind trees] [SyntaxTree.ofKind kind twins] :=
  .cons below .nil

/-- Signs put in below an error leave its message. -/
theorem error (message : String) (below : Respells trees twins) :
    Respells [SyntaxTree.error message trees] [SyntaxTree.error message twins] :=
  .cons below .nil

/-- What is absent is so at any place. -/
theorem absent (kind : NodeKind) (message : Option String) (next other : Token) :
    Respells [SyntaxTree.absent kind message next] [SyntaxTree.absent kind message other] :=
  .cons .nil .nil

/-- Two trees differ in this way if their children do and their roots hold the same, apart from the
place of a gap. -/
theorem exists_of_singleton {tree twin : SyntaxTree} (respells : Respells [tree] [twin]) :
    ∃ content place children others, tree = .node () content children ∧
      twin = .node () { content with position := place } others ∧ Respells children others := by
  cases respells with
  | cons below _ => exact ⟨_, _, _, _, rfl, rfl, below⟩
  | sign times behind => cases behind

end Respells

/-- No token is replaced by another one. -/
theorem eq_of_respells_leaf {token other : Token} (respells : Respells [leaf token] [leaf other]) :
    other = token := by
  obtain ⟨content, place, children, others, left, right, _⟩ := respells.exists_of_singleton
  have first : some token = content.token := congrArg (fun tree => tree.content.token) left
  have second : some other = content.token := congrArg (fun tree => tree.content.token) right
  exact Option.some.inj (second.trans first.symm)

/-- An atom holds no multiplication sign. -/
theorem eq_of_respells_atom {kind : NodeKind} {token : Token} {place : Option Position}
    {others : List SyntaxTree} (held : kind.atomToken? = some token.kind)
    (respells : Respells [leaf token] others)
    (fits : SyntaxTree.Fits (.node () ⟨kind, none, none, place⟩ others)) :
    others = [leaf token] := by
  generalize same : Tree.node () ⟨kind, none, none, place⟩ others = twin at fits
  cases fits with
  | leaf other => cases same
  | @atom _ other _ =>
    cases same
    rw [eq_of_respells_leaf respells]
  | construct bare takes =>
    cases same
    exact absurd takes (NodeKind.not_takes_of_atomToken? held _)

/-- Further multiplication signs change neither the full form of a node nor that it is a leaf, if
this is so for its children. -/
theorem fullForm?_of_respells {content : Content} {place : Option Position}
    {children others : List SyntaxTree} (below : Respells children others)
    (operands : fullFormOperands children = fullFormOperands others)
    (inner : content.kind.isLeaf = false)
    (fits : SyntaxTree.Fits (.node () content children))
    (twinFits : SyntaxTree.Fits (.node () { content with position := place } others)) :
    fullForm? (.node () content children)
      = fullForm? (.node () { content with position := place } others) := by
  rw [fullForm?, fullForm?, operands]
  generalize same : Tree.node () content children = tree at fits
  cases fits with
  | leaf token =>
    have leaf' := isLeaf_leaf token
    rw [← same] at leaf'
    rw [show content.kind.isLeaf = true from leaf'] at inner
    cases inner
  | @atom kind token held =>
    cases same
    rw [eq_of_respells_atom held below twinFits]
    rfl
  | construct bare takes =>
    cases same
    exact compose_eq_of_takes takes _ _ _

/-- Further multiplication signs change no full form and no message. -/
theorem meaning_of_respells {trees twins : List SyntaxTree} (respells : Respells trees twins)
    (fits : ∀ tree ∈ trees, tree.Everywhere Fits)
    (twinFits : ∀ twin ∈ twins, twin.Everywhere Fits) :
    fullFormOperands trees = fullFormOperands twins ∧
      trees.flatMap messages = twins.flatMap messages := by
  induction respells with
  | nil => exact ⟨rfl, rfl⟩
  | @cons content place children others trees twins below behind inside later =>
    obtain ⟨first, rest⟩ := List.forall_mem_cons.mp fits
    obtain ⟨twinFirst, twinRest⟩ := List.forall_mem_cons.mp twinFits
    obtain ⟨operands, reports⟩ :=
      inside (everywhere_node.mp first).2 (everywhere_node.mp twinFirst).2
    obtain ⟨forms, messages⟩ := later rest twinRest
    constructor
    · have sameLeaf : Tree.isLeaf (.node () { content with position := place } others)
          = Tree.isLeaf (.node () content children) := rfl
      rw [fullFormOperands, fullFormOperands, sameLeaf, forms]
      cases inner : Tree.isLeaf (.node () content children) with
      | true => rfl
      | false =>
        exact congrArg (· :: fullFormOperands twins)
          (fullForm?_of_respells below operands inner first.root twinFirst.root)
    · rw [List.flatMap_cons, List.flatMap_cons, messages_node, messages_node, reports, messages]
  | @sign token trees twins times behind later =>
    obtain ⟨_, twinRest⟩ := List.forall_mem_cons.mp twinFits
    obtain ⟨forms, reports⟩ := later fits twinRest
    have silent : (leaf token).messages = [] := by
      rw [leaf, messages_node]
      cases token.isTrivia <;> rfl
    constructor
    · rw [fullFormOperands, if_pos (isLeaf_leaf token), forms]
    · rw [List.flatMap_cons, silent, reports, List.nil_append]

end SyntaxTree

/-! ## What is unfinished -/

/-- Outcomes whose trees differ in multiplication signs. -/
structure Outcome.Respells (outcome twin : Outcome) : Prop where
  tree : SyntaxTree.Respells [outcome.tree] [twin.tree]
  succeeded : outcome.succeeded = twin.succeeded

/-- Frames whose children differ in multiplication signs. -/
structure Frame.Respells (frame twin : Frame) : Prop where
  role : frame.role = twin.role
  floor : frame.floor = twin.floor
  children : SyntaxTree.Respells frame.children twin.children
  succeeded : frame.succeeded = twin.succeeded

/-- Foci that differ in the multiplication signs of what they hold. -/
inductive Focus.Respells : Focus → Focus → Prop where
  | complete {outcome twin : Outcome} (outcomes : outcome.Respells twin) :
      Respells (.complete outcome) (.complete twin)
  | blankName {kind : NodeKind} {blank : Token} {named twin : Option SyntaxTree}
      (trees : SyntaxTree.Respells named.toList twin.toList) (both : named.isSome = twin.isSome) :
      Respells (.blankName kind blank named) (.blankName kind blank twin)
  | unfinished {focus : Focus} (unfinished : focus.hasOperand = false) : Respells focus focus

/-- Readings that differ in multiplication signs. -/
structure Reading.Respells (reading twin : Reading) : Prop where
  frames : List.Forall₂ Frame.Respells reading.frames twin.frames
  focus : reading.focus.Respells twin.focus

/-- Reactions that differ in multiplication signs. -/
inductive Reaction.Respells : Reaction → Reaction → Prop where
  | waits {frame twin : Frame} {focus : Focus} (frames : frame.Respells twin)
      (unfinished : focus.hasOperand = false) : Respells (.waits frame focus) (.waits twin focus)
  | begins {frame twin : Frame} {opening : Opening} (frames : frame.Respells twin) :
      Respells (.begins frame opening) (.begins twin opening)
  | closes {outcome twin : Outcome} (outcomes : outcome.Respells twin) :
      Respells (.closes outcome) (.closes twin)
  | ends {outcome twin : Outcome} (outcomes : outcome.Respells twin) :
      Respells (.ends outcome) (.ends twin)

/-- Expressions that differ in multiplication signs, unfinished or finished. -/
inductive Progress.Respells : Progress → Progress → Prop where
  | reading {next twin : Reading} (readings : next.Respells twin) :
      Respells (.reading next) (.reading twin)
  | finished {outcome twin : Option Outcome} (outcomes : Option.Rel Outcome.Respells outcome twin) :
      Respells (.finished outcome) (.finished twin)

namespace Outcome.Respells

variable {held kept : Outcome}

/-- Trees that differ in multiplication signs are kept as tags alike. -/
theorem tagOutcome (outcomes : held.Respells kept) :
    (Frame.tagOutcome held).1.Respells (Frame.tagOutcome kept).1 ∧
      (Frame.tagOutcome held).2 = (Frame.tagOutcome kept).2 := by
  obtain ⟨tree, succeeded⟩ := held
  obtain ⟨twin, other⟩ := kept
  obtain ⟨trees, same⟩ := outcomes
  obtain ⟨content, place, children, others, rfl, rfl, below⟩ := trees.exists_of_singleton
  cases same
  unfold Frame.tagOutcome
  dsimp only [Tree.kind, Tree.content, Tree.children]
  split
  · exact ⟨⟨trees, rfl⟩, rfl⟩
  · exact ⟨⟨below.ofKind _, rfl⟩, rfl⟩
  · exact ⟨⟨trees, rfl⟩, rfl⟩
  · exact ⟨⟨trees.error _, rfl⟩, rfl⟩

theorem refl (outcome : Outcome) : outcome.Respells outcome := ⟨.refl _, rfl⟩

end Outcome.Respells

namespace Frame.Respells

variable {frame twin : Frame} {held kept : Outcome}

/-- Operands that differ in signs leave frames that do. -/
theorem add (frames : frame.Respells twin) (outcomes : held.Respells kept) :
    (frame.add held).Respells (twin.add kept) where
  role := frames.role
  floor := frames.floor
  children := frames.children.append outcomes.tree
  succeeded := by rw [Frame.add, Frame.add, frames.succeeded, outcomes.succeeded]

theorem take (frames : frame.Respells twin) (word : Word) :
    (frame.take word).Respells (twin.take word) :=
  { frames with children := frames.children.append (.refl _) }

theorem takeLead (frames : frame.Respells twin) (word : Word) :
    (frame.takeLead word).Respells (twin.takeLead word) :=
  { frames with children := frames.children.append (.refl _) }

/-- Both frames fail in the same way, be it in front of different words. -/
theorem fail (frames : frame.Respells twin) (diagnostics : List Diagnostic) (word other : Word) :
    (frame.fail diagnostics word).Respells (twin.fail diagnostics other) := by
  refine { frames with children := frames.children.append ?_, succeeded := rfl }
  induction diagnostics with
  | nil => exact .nil
  | cons diagnostic diagnostics ih => exact (SyntaxTree.Respells.absent _ _ _ _).append ih

/-- Frames that differ in signs become constructs that do. -/
theorem outcome (frames : frame.Respells twin) (kind : NodeKind) :
    (frame.outcome kind).Respells (twin.outcome kind) :=
  ⟨frames.children.ofKind kind, frames.succeeded⟩

/-- Where both operands are missing, the frames go on to differ in signs only. -/
theorem missing (frames : frame.Respells twin) (word : Word) :
    (frame.missing word).Respells (twin.missing word) := by
  unfold Frame.missing
  rw [frames.role]
  exact .refl _

/-- A frame that goes on to wait for something else. -/
theorem withRole (frames : frame.Respells twin) (role : Role) (floor : Int) :
    Respells { frame with role := role, floor := floor }
      { twin with role := role, floor := floor } :=
  ⟨rfl, rfl, frames.children, frames.succeeded⟩

/-- Both bracketed constructs are closed by the word or both are not. -/
theorem close (frames : frame.Respells twin) (kind : NodeKind) (closing : Operator)
    (unclosed : List Diagnostic) (word : Word) :
    (frame.close kind closing unclosed word).Respells
      (twin.close kind closing unclosed word) := by
  unfold Frame.close
  split
  · exact .closes ((frames.take word).outcome kind)
  · exact .ends ((frames.fail unclosed word word).outcome kind)

/-- Both lists of items are closed, separated or left open by the word. -/
theorem closeItems (frames : frame.Respells twin) (enclosure : Enclosure) (word : Word) :
    (frame.closeItems enclosure word).Respells (twin.closeItems enclosure word) := by
  unfold Frame.closeItems
  split
  · exact .waits (frames.take word) rfl
  · exact frames.close _ _ _ word

/-- Frames that differ in multiplication signs do the same with a word. -/
theorem receive (frames : frame.Respells twin) (outcomes : held.Respells kept) (bracketed : Bool)
    (word : Word) :
    (frame.receive bracketed held word).Respells (twin.receive bracketed kept word) := by
  have fed := frames.add outcomes
  obtain ⟨role, floor, children, succeeded⟩ := frame
  obtain ⟨_, _, others, _⟩ := twin
  obtain ⟨rfl, rfl, trees, rfl⟩ := frames
  unfold Frame.receive
  rw [← outcomes.succeeded]
  cases role with
  | group => exact fed.close _ _ _ word
  | items enclosure =>
    dsimp only
    split
    · exact .waits (fed.take word) rfl
    · exact fed.closeItems enclosure word
  | operand kind => exact .ends (fed.outcome kind)
  | chain kind sign =>
    dsimp only
    split
    · exact .ends (fed.outcome kind)
    split
    · split
      · exact .waits (fed.take word) rfl
      · exact .ends (fed.outcome kind)
    · split
      · exact .begins fed
      · exact .ends (fed.outcome kind)
    · exact .ends (fed.outcome kind)
  | compound =>
    dsimp only
    split
    · exact .waits (fed.take word) rfl
    · exact .ends (fed.outcome _)
  | tag last =>
    obtain ⟨tags, present⟩ := outcomes.tagOutcome
    have kept : Respells
        ⟨.tag last, floor, children ++ [(tagOutcome held).1.tree], (tagOutcome held).1.succeeded⟩
        ⟨.tag last, floor, others ++ [(tagOutcome kept).1.tree],
          (tagOutcome kept).1.succeeded⟩ :=
      ⟨rfl, rfl, trees.append tags.tree, tags.succeeded⟩
    dsimp only
    rw [← present]
    split
    · exact .waits ((kept.take word).withRole _ _) rfl
    · exact .ends (kept.outcome _)
  | tagPattern =>
    dsimp only
    split
    · exact .ends (fed.outcome _)
    split
    · exact .waits ((fed.take word).withRole _ _) rfl
    split
    · exact .waits ((fed.take word).withRole _ _) rfl
    · exact .ends ((fed.fail _ word word).outcome _)

end Frame.Respells

/-! ## Reading the same word -/

namespace Surroundings

variable {surroundings : Surroundings} {frames twins : List Frame}

/-- Signs that were put in do not change how strongly operands are bound. -/
theorem floorOf_of_respells (stack : List.Forall₂ Frame.Respells frames twins) :
    surroundings.floorOf frames = surroundings.floorOf twins := by
  cases stack with
  | nil => rfl
  | cons first _ => exact first.floor

/-- Signs that were put in do not change whether there are brackets around. -/
theorem isBracketed_of_respells (stack : List.Forall₂ Frame.Respells frames twins) :
    surroundings.isBracketed frames = surroundings.isBracketed twins := by
  have brackets : frames.any Frame.brackets = twins.any Frame.brackets := by
    induction stack with
    | nil => rfl
    | cons first _ ih =>
      rw [List.any_cons, List.any_cons, ih, Frame.brackets, Frame.brackets, first.role]
  rw [isBracketed, isBracketed, brackets]

end Surroundings

namespace Reading

variable {surroundings : Surroundings} {frames twins : List Frame} {held kept : Outcome}

/-- A word begins the same expression in both readings. -/
theorem respells_begin (stack : List.Forall₂ Frame.Respells frames twins) (opening : Opening)
    (token : Token) : (begin frames opening token).Respells (begin twins opening token) := by
  cases opening with
  | atom => exact ⟨stack, .complete (.refl _)⟩
  | blank => exact ⟨stack, .blankName .nil rfl⟩
  | group | list | operator => exact ⟨.cons ⟨rfl, rfl, .refl _, rfl⟩ stack, .unfinished rfl⟩

/-- A word begins the same operand in both readings. -/
theorem respells_beginOperand {frame twin : Frame} (first : frame.Respells twin)
    (stack : List.Forall₂ Frame.Respells frames twins) (opening : Opening) (word : Word) :
    (beginOperand frame frames opening word).Respells (beginOperand twin twins opening word) :=
  respells_begin (.cons (first.takeLead word) stack) opening word.token

/-- An operator goes on from both operands in the same way. -/
theorem respells_continueWith (stack : List.Forall₂ Frame.Respells frames twins)
    {left right : SyntaxTree} (trees : SyntaxTree.Respells [left] [right]) (grammar : Grammar)
    (sign : Operator) (continuation : Continuation) (word : Word) :
    (continueWith grammar frames left sign continuation word).Respells
      (continueWith grammar twins right sign continuation word) := by
  have taken : SyntaxTree.Respells (left :: word.leaves) (right :: word.leaves) :=
    trees.append (.refl word.leaves)
  cases continuation with
  | suffix kind => exact ⟨stack, .complete ⟨taken.ofKind kind, rfl⟩⟩
  | pattern mark => exact ⟨stack, .blankName trees rfl⟩
  | _ => exact ⟨.cons ⟨rfl, rfl, taken, rfl⟩ stack, .unfinished rfl⟩

/-- A word goes on from both operands or from neither. -/
theorem respells_extend? (stack : List.Forall₂ Frame.Respells frames twins)
    {left right : SyntaxTree} (trees : SyntaxTree.Respells [left] [right]) (word : Word) :
    Option.Rel Reading.Respells (extend? surroundings frames left word)
      (extend? surroundings twins right word) := by
  unfold extend?
  rw [← Surroundings.floorOf_of_respells stack, ← Surroundings.isBracketed_of_respells stack]
  dsimp only
  split
  · split
    · exact .some (respells_continueWith stack trees _ _ _ word)
    · exact .none
  · split
    · have first : Frame.Respells
          ⟨.chain .times .times, surroundings.grammar.precedence .times, [left], true⟩
          ⟨.chain .times .times, surroundings.grammar.precedence .times, [right], true⟩ :=
        ⟨rfl, rfl, trees, rfl⟩
      exact .some (respells_beginOperand first stack _ word)
    · exact .none
  · exact .none

/-- What becomes of constructs that react to a word alike, if it is so for those that are complete
without it. -/
theorem respells_react (stack : List.Forall₂ Frame.Respells frames twins)
    {reaction twin : Reaction} (reactions : reaction.Respells twin) (word : Word)
    (settles : ∀ {held kept : Outcome}, held.Respells kept →
      (settle surroundings word frames held).Respells (settle surroundings word twins kept)) :
    (react surroundings frames reaction word).Respells (react surroundings twins twin word) := by
  cases reactions with
  | waits first unfinished => exact .reading ⟨.cons first stack, .unfinished unfinished⟩
  | begins first => exact .reading (respells_beginOperand first stack _ word)
  | closes outcomes => exact .reading ⟨stack, .complete outcomes⟩
  | ends outcomes => exact settles outcomes

/-- Expressions that go on alike, or else become alike. -/
theorem respells_getD {next twin : Option Reading} (goesOn : Option.Rel Reading.Respells next twin)
    {progress other : Progress} (otherwise : progress.Respells other) :
    ((next.map .reading).getD progress).Respells ((twin.map .reading).getD other) := by
  cases goesOn with
  | some readings => exact .reading readings
  | none => exact otherwise

/-- Two complete operands settle in the same way in front of a word. -/
theorem respells_settle (stack : List.Forall₂ Frame.Respells frames twins)
    (outcomes : held.Respells kept) (word : Word) :
    (settle surroundings word frames held).Respells (settle surroundings word twins kept) := by
  induction stack generalizing held kept with
  | nil =>
    rw [settle_nil, settle_nil]
    exact respells_getD (respells_extend? .nil outcomes.tree word) (.finished (.some outcomes))
  | @cons frame twin frames twins first stack ih =>
    have whole := List.Forall₂.cons first stack
    rw [settle_cons, settle_cons]
    refine respells_getD (respells_extend? whole outcomes.tree word) ?_
    rw [feed, feed, ← Surroundings.isBracketed_of_respells whole]
    exact respells_react stack (first.receive outcomes _ word) word ih

/-- Two constructs that are fed operands go on in the same way. -/
theorem respells_feed {frame twin : Frame} (first : frame.Respells twin)
    (stack : List.Forall₂ Frame.Respells frames twins) (outcomes : held.Respells kept)
    (word : Word) :
    (feed surroundings frame frames held word).Respells
      (feed surroundings twin twins kept word) := by
  rw [feed, feed, ← Surroundings.isBracketed_of_respells (.cons first stack)]
  exact respells_react stack (first.receive outcomes _ word) word
    fun outcomes => respells_settle stack outcomes word

/-- A word is the operand that both readings wait for, or is missing in both. -/
theorem respells_readOperand (stack : List.Forall₂ Frame.Respells frames twins) (word : Word) :
    (readOperand surroundings frames word).Respells (readOperand surroundings twins word) := by
  unfold readOperand
  cases stack with
  | nil =>
    cases word.opening? with
    | some opening => exact .reading (respells_begin .nil opening word.token)
    | none => exact .finished .none
  | cons first stack =>
    cases word.opening? with
    | some opening => exact .reading (respells_beginOperand first stack opening word)
    | none => exact respells_feed first stack (first.missing word) word

theorem respells_readFirstItem (stack : List.Forall₂ Frame.Respells frames twins) (word : Word) :
    (readFirstItem surroundings frames word).Respells (readFirstItem surroundings twins word) := by
  cases stack with
  | nil => exact respells_readOperand .nil word
  | @cons frame twin frames twins first stack =>
    have whole := List.Forall₂.cons first stack
    obtain ⟨role, floor, children, succeeded⟩ := frame
    obtain ⟨_, _, others, _⟩ := twin
    obtain ⟨rfl, rfl, trees, rfl⟩ := first
    cases role with
    | items enclosure =>
      have same : Frame.Respells ⟨.items enclosure, floor, children, succeeded⟩
          ⟨.items enclosure, floor, others, succeeded⟩ := ⟨rfl, rfl, trees, rfl⟩
      unfold readFirstItem
      dsimp only
      split
      · exact respells_react stack (same.closeItems enclosure word) word
          fun outcomes => respells_settle stack outcomes word
      · exact respells_readOperand whole word
    | _ => exact respells_readOperand whole word

theorem respells_readArguments (stack : List.Forall₂ Frame.Respells frames twins) (word : Word) :
    (readArguments surroundings frames word).Respells (readArguments surroundings twins word) := by
  unfold readArguments
  cases stack with
  | nil => exact respells_readOperand .nil word
  | cons first stack =>
    dsimp only
    split
    · refine .reading ⟨.cons ?_ stack, .unfinished rfl⟩
      have taken := first.take word
      exact { taken with role := rfl }
    · exact respells_readFirstItem (.cons first stack) word

theorem respells_readStatement (stack : List.Forall₂ Frame.Respells frames twins) (word : Word) :
    (readStatement surroundings frames word).Respells (readStatement surroundings twins word) := by
  unfold readStatement
  rw [← Surroundings.isBracketed_of_respells stack]
  cases stack with
  | nil => exact respells_readOperand .nil word
  | @cons frame twin frames twins first stack =>
    cases word.openingInLine? (surroundings.isBracketed (frame :: frames)) with
    | some opening => exact .reading (respells_beginOperand first stack opening word)
    | none => exact respells_feed first stack (.refl _) word

/-- The trees of blanks differ in multiplication signs if their names do. -/
theorem respells_blankTree {named twin : Option SyntaxTree}
    (trees : SyntaxTree.Respells named.toList twin.toList) (both : named.isSome = twin.isSome)
    (kind : NodeKind) (children : List SyntaxTree) :
    SyntaxTree.Respells [blankTree kind named children] [blankTree kind twin children] := by
  cases named with
  | none =>
    cases twin with
    | none => exact .refl _
    | some right => cases both
  | some left =>
    cases twin with
    | none => cases both
    | some right => exact (trees.append (.refl [ofKind kind children])).ofKind .pattern

/-- A word is the name of both blanks or of neither. -/
theorem respells_readBlankName (stack : List.Forall₂ Frame.Respells frames twins)
    {named twin : Option SyntaxTree} (trees : SyntaxTree.Respells named.toList twin.toList)
    (both : named.isSome = twin.isSome) (kind : NodeKind) (blank : Token) (word : Word) :
    (readBlankName surroundings frames kind blank named word).Respells
      (readBlankName surroundings twins kind blank twin word) := by
  have outcomes : ∀ children : List SyntaxTree,
      Outcome.Respells ⟨blankTree kind named children, true⟩ ⟨blankTree kind twin children, true⟩ :=
    fun children => ⟨respells_blankTree trees both kind children, rfl⟩
  unfold readBlankName
  dsimp only
  split
  · exact .reading ⟨stack, .complete (outcomes _)⟩
  · exact respells_settle stack (outcomes _) word

/-- Readings that differ in multiplication signs still do when they have read the same word. -/
theorem Respells.read {reading twin : Reading} (respells : reading.Respells twin) (word : Word) :
    (reading.read surroundings word).Respells (twin.read surroundings word) := by
  obtain ⟨frames, focus⟩ := reading
  obtain ⟨twins, other⟩ := twin
  obtain ⟨stack, foci⟩ := respells
  cases foci with
  | complete outcomes => exact respells_settle stack outcomes word
  | blankName trees both => exact respells_readBlankName stack trees both _ _ word
  | unfinished unfinished =>
    cases focus with
    | operand => exact respells_readOperand stack word
    | firstItem => exact respells_readFirstItem stack word
    | arguments => exact respells_readArguments stack word
    | partEnd =>
      cases stack with
      | nil => exact respells_readOperand .nil word
      | cons first stack =>
        exact respells_react stack (first.close _ _ _ word) word
          fun outcomes => respells_settle stack outcomes word
    | statement => exact respells_readStatement stack word
    | blankName | complete => cases unfinished

end Reading

/-! ## Files -/

/-- Files that differ in multiplication signs. -/
structure FileReading.Respells (file twin : FileReading) : Prop where
  children : SyntaxTree.Respells file.children twin.children
  current : Option.Rel Reading.Respells file.current twin.current

namespace FileReading

variable {grammar : Grammar} {file twin : FileReading}

theorem respells_empty : empty.Respells empty := ⟨.nil, .none⟩

/-- A word begins the same expression in both files. -/
theorem respells_beginWith {children others : List SyntaxTree}
    (trees : SyntaxTree.Respells children others) (word : Word) :
    (beginWith children word).Respells (beginWith others word) := by
  have withLead := trees.append (.refl word.leadLeaves)
  unfold beginWith
  dsimp only
  split
  · exact ⟨withLead, .some (Reading.respells_begin .nil _ _)⟩
  · exact ⟨withLead.append (.refl _), .none⟩

/-- The expressions that were finished alike. -/
theorem respells_finished {outcome other : Option Outcome}
    (outcomes : Option.Rel Outcome.Respells outcome other) :
    SyntaxTree.Respells (outcome.map Outcome.tree).toList (other.map Outcome.tree).toList := by
  cases outcomes with
  | none => exact .nil
  | some outcomes => exact outcomes.tree

/-- Files that differ in multiplication signs still do when they have read the same word. -/
theorem Respells.read (respells : file.Respells twin) (word : Word) :
    (file.read grammar word).Respells (twin.read grammar word) := by
  obtain ⟨children, current⟩ := file
  obtain ⟨others, twinCurrent⟩ := twin
  obtain ⟨trees, readings⟩ := respells
  unfold FileReading.read
  cases readings with
  | none => exact respells_beginWith trees word
  | @some reading twin readings =>
    have progress : (reading.read (surroundings grammar) word).Respells
        (twin.read (surroundings grammar) word) := readings.read word
    dsimp only
    generalize reading.read (surroundings grammar) word = next,
      twin.read (surroundings grammar) word = other at progress
    cases progress with
    | reading readings => exact ⟨trees, .some readings⟩
    | finished outcomes =>
      exact respells_beginWith (trees.append (respells_finished outcomes)) word

/-- What was read alike ends alike. -/
theorem Respells.childrenAtEnd (respells : file.Respells twin) (ending : Word)
    (beyond : List Token) :
    SyntaxTree.Respells (FileReading.childrenAtEnd grammar file ending beyond)
      (FileReading.childrenAtEnd grammar twin ending beyond) := by
  refine SyntaxTree.Respells.append ?_ (.refl _)
  obtain ⟨children, current⟩ := file
  obtain ⟨others, twinCurrent⟩ := twin
  obtain ⟨trees, readings⟩ := respells
  unfold FileReading.finish
  cases readings with
  | none => exact trees
  | @some reading twin readings =>
    have progress : (reading.read (surroundings grammar) ending).Respells
        (twin.read (surroundings grammar) ending) := readings.read ending
    dsimp only
    generalize reading.read (surroundings grammar) ending = next,
      twin.read (surroundings grammar) ending = other at progress
    cases progress with
    | reading readings => exact trees
    | finished outcomes => exact trees.append (respells_finished outcomes)

end FileReading

end WolframSyntax
