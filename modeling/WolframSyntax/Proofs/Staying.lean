import Mathlib.Data.List.Basic
import WolframSyntax.Proofs.Moves
import WolframSyntax.Proofs.Tree
import WolframSyntax.Reading.File

/-!
# Nodes stay

A reading only ever grows: a construct takes what it is given as a child, and whatever goes on from
an expression holds the expression. So a node that has been read stays below the reading through
every move (`Reading.Passes.has`, `Reading.Takes.has`) and is a node of the file in the end
(`FileReading.mem_walk_tree`). The one exception is a symbol that is written as a message tag, of
which only the name is kept.
-/

namespace WolframSyntax

open SyntaxTree

/-- A node is somewhere below a frame. -/
def Frame.Has (frame : Frame) (node : SyntaxTree) : Prop :=
  ∃ child ∈ frame.children, node ∈ child.walk

/-- A node is somewhere in what a focus holds. -/
def Focus.Has : Focus → SyntaxTree → Prop
  | .complete outcome, node => node ∈ outcome.tree.walk
  | .blankName _ _ named, node => ∃ left ∈ named, node ∈ left.walk
  | _, _ => False

/-- A node is somewhere in a reading. -/
def Reading.Has (reading : Reading) (node : SyntaxTree) : Prop :=
  (∃ frame ∈ reading.frames, frame.Has node) ∨ reading.focus.Has node

/-- A node is somewhere in what a reaction leaves. -/
def Reaction.Has : Reaction → SyntaxTree → Prop
  | .waits frame _, node | .begins frame _, node => frame.Has node
  | .closes outcome, node | .ends outcome, node => node ∈ outcome.tree.walk

/-- A node is somewhere in what becomes of an expression. -/
def Progress.Has : Progress → SyntaxTree → Prop
  | .reading next, node => next.Has node
  | .finished outcome, node => ∃ finished ∈ outcome, node ∈ finished.tree.walk

/-- What is below a child is below its construct. -/
theorem SyntaxTree.mem_walk_ofKind {kind : NodeKind} {children : List SyntaxTree}
    {child node : SyntaxTree} (present : child ∈ children) (inside : node ∈ child.walk) :
    node ∈ (ofKind kind children).walk := by
  rw [Tree.walk_eq]
  exact List.mem_cons_of_mem _ (List.mem_flatMap.mpr ⟨child, present, inside⟩)

variable {node : SyntaxTree}

namespace Frame

variable {frame next : Frame} {word : Word}

/-- A frame that gains children loses no node. -/
theorem Has.append (held : frame.Has node) {more : List SyntaxTree}
    (children : next.children = frame.children ++ more) : next.Has node := by
  obtain ⟨child, present, inside⟩ := held
  exact ⟨child, children ▸ List.mem_append_left _ present, inside⟩

/-- A frame that takes an operand has all its nodes. -/
theorem has_add {outcome : Outcome} (held : frame.Has node ∨ node ∈ outcome.tree.walk) :
    (frame.add outcome).Has node := by
  rcases held with before | last
  · exact before.append rfl
  · exact ⟨outcome.tree, List.mem_append_right _ (List.mem_singleton_self _), last⟩

/-- A construct that ends has the nodes of its frame. -/
theorem Has.outcome (held : frame.Has node) (kind : NodeKind) :
    node ∈ (frame.outcome kind).tree.walk := by
  obtain ⟨child, present, inside⟩ := held
  exact mem_walk_ofKind present inside

/-- A bracketed construct keeps its nodes whether it is closed or not. -/
theorem Has.close (held : frame.Has node) (kind : NodeKind) (closing : Operator)
    (unclosed : List Diagnostic) (word : Word) :
    (frame.close kind closing unclosed word).Has node := by
  unfold Frame.close
  split
  · exact Has.outcome (held.append rfl) kind
  · exact Has.outcome (held.append rfl) kind

/-- Items keep their nodes whether they are closed or go on. -/
theorem Has.closeItems (held : frame.Has node) (enclosure : Enclosure) (word : Word) :
    (frame.closeItems enclosure word).Has node := by
  unfold Frame.closeItems
  split
  · exact held.append rfl
  · exact held.close _ _ _ word

/-- Of a message tag everything is kept, unless it is a symbol. -/
theorem mem_walk_tagOutcome {outcome : Outcome} (plain : node.kind ≠ .symbol)
    (inside : node ∈ outcome.tree.walk) :
    node ∈ (tagOutcome outcome).1.tree.walk := by
  unfold tagOutcome
  split
  · exact inside
  · next symbol =>
    rw [Tree.walk_eq] at inside
    rcases List.mem_cons.mp inside with rfl | below
    · exact absurd symbol plain
    · obtain ⟨child, present, inner⟩ := List.mem_flatMap.mp below
      exact mem_walk_ofKind present inner
  · exact inside
  · rw [Tree.walk_eq]
    exact List.mem_cons_of_mem _ (List.mem_flatMap.mpr ⟨_, List.mem_singleton_self _, inside⟩)

/-- Whatever a frame does with an operand, the nodes of both stay. -/
theorem has_receive {outcome : Outcome} (plain : node.kind ≠ .symbol) (bracketed : Bool)
    (held : frame.Has node ∨ node ∈ outcome.tree.walk) :
    (frame.receive bracketed outcome word).Has node := by
  have fed : (frame.add outcome).Has node := has_add held
  have ends : ∀ kind, node ∈ ((frame.add outcome).outcome kind).tree.walk := fed.outcome
  unfold receive
  cases role : frame.role with
  | group => exact fed.close _ _ _ word
  | items enclosure =>
    dsimp only
    split
    · exact fed.append rfl
    · exact fed.closeItems enclosure word
  | operand kind => exact ends kind
  | chain kind sign =>
    dsimp only
    split
    · exact ends kind
    split
    · split
      · exact fed.append rfl
      · exact ends kind
    · split
      · exact fed
      · exact ends kind
    · exact ends kind
  | compound =>
    dsimp only
    split
    · exact fed.append rfl
    · exact ends _
  | tag last =>
    have kept : (frame.add (tagOutcome outcome).1).Has node :=
      has_add (held.imp_right (mem_walk_tagOutcome plain))
    dsimp only
    split
    · exact kept.append rfl
    · exact Has.outcome (kept.append (List.append_nil _).symm) _
  | tagPattern =>
    dsimp only
    split
    · exact ends _
    split
    · exact fed.append rfl
    split
    · exact fed.append rfl
    · exact Has.outcome (fed.append rfl) _

end Frame

namespace Reading

variable {surroundings : Surroundings} {word : Word} {before after : Reading}

/-- A reading has the nodes of its innermost frame, of the outer ones and of its focus. -/
theorem has_cons {frame : Frame} {frames : List Frame} {focus : Focus} :
    Has ⟨frame :: frames, focus⟩ node ↔
      frame.Has node ∨ (∃ outer ∈ frames, outer.Has node) ∨ focus.Has node := by
  rw [Has, List.exists_mem_cons_iff, or_assoc]

/-- A focus without an operand has no node. -/
theorem not_has_of_hasOperand {focus : Focus} (unfinished : focus.hasOperand = false) :
    ¬focus.Has node := by
  cases focus with
  | blankName | complete => cases unfinished
  | _ => exact id

theorem hasOperand_of_wantsOperand {focus : Focus} (wants : focus.wantsOperand) :
    focus.hasOperand = false := by
  cases focus <;> first | rfl | cases wants

/-- A construct that reacts to a word keeps the nodes of the reading, and so do those around it. -/
theorem Reacts.has {frames : List Frame} {reaction : Reaction}
    (reacts : Reacts surroundings word before frames reaction) (plain : node.kind ≠ .symbol)
    (held : before.Has node) : reaction.Has node ∨ ∃ frame ∈ frames, frame.Has node := by
  cases reacts with
  | complete stays =>
    rcases has_cons.mp held with inner | outer | operand
    · exact .inl (Frame.has_receive plain _ (.inl inner))
    · exact .inr outer
    · exact .inl (Frame.has_receive plain _ (.inr operand))
  | missing wants unopened =>
    rcases has_cons.mp held with inner | outer | nothing
    · exact .inl (Frame.has_receive plain _ (.inl inner))
    · exact .inr outer
    · exact (not_has_of_hasOperand (hasOperand_of_wantsOperand wants) nothing).elim
  | absent unopened =>
    rcases has_cons.mp held with inner | outer | nothing
    · exact .inl (Frame.has_receive plain _ (.inl inner))
    · exact .inr outer
    · exact nothing.elim
  | @empty _ _ focus enclosure begins role closing =>
    have unfinished : focus.hasOperand = false := by cases focus <;> first | rfl | cases begins
    rcases has_cons.mp held with inner | outer | nothing
    · exact .inl (inner.closeItems enclosure word)
    · exact .inr outer
    · exact (not_has_of_hasOperand unfinished nothing).elim
  | partEnd =>
    rcases has_cons.mp held with inner | outer | nothing
    · exact .inl (inner.close _ _ _ word)
    · exact .inr outer
    · exact nothing.elim

/-- The expression in front of a blank becomes a part of the pattern. -/
theorem mem_walk_blankTree {kind : NodeKind} {blank : Token} {named : Option SyntaxTree}
    (held : (Focus.blankName kind blank named).Has node) (children : List SyntaxTree) :
    node ∈ (blankTree kind named children).walk := by
  obtain ⟨left, rfl, inside⟩ := held
  exact mem_walk_ofKind List.mem_cons_self inside

/-- No node but a symbol, which may become a tag, is lost when a construct ends. -/
theorem Passes.has (passes : Passes surroundings word before after) (plain : node.kind ≠ .symbol)
    (held : before.Has node) : after.Has node := by
  cases passes with
  | ends reacts => exact (reacts.has plain held).symm
  | unnamed apart => exact held.imp_right fun named => mem_walk_blankTree named _

/-- A word that begins an expression leaves the nodes around it. -/
theorem has_begin {frames : List Frame} (held : ∃ frame ∈ frames, frame.Has node)
    (opening : Opening) (token : Token) : (begin frames opening token).Has node := by
  cases opening with
  | atom | blank => exact .inl held
  | group | list | operator => exact has_cons.mpr (.inr (.inl held))

theorem has_beginOperand {frame : Frame} {frames : List Frame}
    (held : frame.Has node ∨ ∃ outer ∈ frames, outer.Has node) (opening : Opening) (word : Word) :
    (beginOperand frame frames opening word).Has node := by
  refine has_begin ((List.exists_mem_cons_iff _ _ _).mpr ?_) opening word.token
  exact held.imp_left fun inner => inner.append rfl

/-- What goes on from an expression holds the expression. -/
theorem has_of_extend? {frames : List Frame} {left : SyntaxTree}
    (goesOn : extend? surroundings frames left word = some after)
    (held : (∃ frame ∈ frames, frame.Has node) ∨ node ∈ left.walk) : after.Has node := by
  rcases eq_of_extend?_eq_some goesOn with ⟨_, continuation, _, _, rfl⟩ | ⟨opening, _, _, rfl⟩
  · have taken : ∀ role floor focus,
        Has ⟨⟨role, floor, left :: word.leaves, true⟩ :: frames, focus⟩ node := by
      intro role floor focus
      rcases held with outer | inside
      · exact has_cons.mpr (.inr (.inl outer))
      · exact has_cons.mpr (.inl ⟨left, List.mem_cons_self, inside⟩)
    cases continuation with
    | suffix kind => exact held.imp_right fun inside => mem_walk_ofKind List.mem_cons_self inside
    | pattern mark => exact held.imp_right fun inside => ⟨left, rfl, inside⟩
    | _ => exact taken _ _ _
  · refine has_beginOperand ?_ opening word
    exact held.symm.imp_left fun inside => ⟨left, List.mem_cons_self, inside⟩

/-- No node but a symbol is lost when a word is taken. -/
theorem Takes.has (takes : Takes surroundings word before after) (plain : node.kind ≠ .symbol)
    (held : before.Has node) : after.Has node := by
  cases takes with
  | alone unfinished opens =>
    rcases held with ⟨_, none, _⟩ | nothing
    · cases none
    · exact (not_has_of_hasOperand unfinished nothing).elim
  | operand wants opens =>
    rcases has_cons.mp held with inner | outer | nothing
    · exact has_beginOperand (.inl inner) _ word
    · exact has_beginOperand (.inr outer) _ word
    · exact (not_has_of_hasOperand (hasOperand_of_wantsOperand wants) nothing).elim
  | statement opens =>
    rcases has_cons.mp held with inner | outer | nothing
    · exact has_beginOperand (.inl inner) _ word
    · exact has_beginOperand (.inr outer) _ word
    · exact nothing.elim
  | continues goesOn => exact has_of_extend? goesOn held
  | @reacts _ _ frames reaction reacts taken =>
    have kept := reacts.has plain held
    cases reaction with
    | waits frame focus =>
      cases taken
      exact has_cons.mpr (kept.imp_right .inl)
    | begins frame opening =>
      cases taken
      exact has_beginOperand kept opening word
    | closes outcome =>
      cases taken
      exact kept.symm
    | ends outcome => cases taken
  | part bracket touches =>
    rcases has_cons.mp held with inner | outer | nothing
    · exact has_cons.mpr (.inl (inner.append rfl))
    · exact has_cons.mpr (.inr (.inl outer))
    · exact nothing.elim
  | name identifier touches => exact held.imp_right fun named => mem_walk_blankTree named _

/-- No node but a symbol is lost when a word is decided. -/
theorem Decides.has {progress : Progress} (decides : Decides surroundings word before progress)
    (plain : node.kind ≠ .symbol) (held : before.Has node) : progress.Has node := by
  cases decides with
  | takes taken => exact taken.has plain held
  | finishes stays =>
    rcases held with ⟨_, none, _⟩ | inside
    · cases none
    · exact ⟨_, rfl, inside⟩
  | unbegun unfinished unopened =>
    rcases held with ⟨_, none, _⟩ | nothing
    · cases none
    · exact (not_has_of_hasOperand unfinished nothing).elim

/-- No node but a symbol is lost before a word is decided. -/
theorem Arrives.has {reading : Reading} {progress : Progress}
    (arrives : Arrives surroundings word reading progress) (plain : node.kind ≠ .symbol)
    (held : reading.Has node) : progress.Has node := by
  obtain ⟨settled, settles, decides⟩ := arrives
  refine decides.has plain ?_
  exact settles.keeps (Has · node) (fun _ _ passes => passes.has plain) held

/-- Whatever becomes of a reading when a word is in view, its nodes stay. -/
theorem has_read (surroundings : Surroundings) {reading : Reading} (word : Word)
    (plain : node.kind ≠ .symbol) (held : reading.Has node) :
    (reading.read surroundings word).Has node :=
  Arrives.has (exists_settles_decides surroundings reading word) plain held

end Reading

namespace FileReading

variable {grammar : Grammar} {file : FileReading} {word : Word}

/-- A node is somewhere in a file that is being read. -/
def Has (file : FileReading) (node : SyntaxTree) : Prop :=
  (∃ child ∈ file.children, node ∈ child.walk) ∨ ∃ reading ∈ file.current, reading.Has node

/-- A word that begins an expression, or is skipped, leaves the nodes in front of it. -/
theorem has_beginWith {children : List SyntaxTree} (held : ∃ child ∈ children, node ∈ child.walk)
    (word : Word) : (beginWith children word).Has node := by
  obtain ⟨child, present, inside⟩ := held
  have kept : child ∈ children ++ word.leadLeaves := List.mem_append_left _ present
  unfold beginWith
  dsimp only
  split
  · exact .inl ⟨child, kept, inside⟩
  · exact .inl ⟨child, List.mem_append_left _ kept, inside⟩

/-- A finished part of a file stays as it is. -/
theorem has_read_of_below (held : ∃ child ∈ file.children, node ∈ child.walk) (word : Word) :
    (file.read grammar word).Has node := by
  have earlier : ∀ more, ∃ child ∈ file.children ++ more, node ∈ child.walk := fun more =>
    held.imp fun _ kept => kept.imp_left (List.mem_append_left more)
  unfold FileReading.read
  split
  · exact has_beginWith held word
  · split
    · exact .inl held
    · exact has_beginWith (earlier _) word

/-- What becomes of the current expression of a file is kept in the file. -/
theorem has_read_of_current {reading : Reading} (current : file.current = some reading)
    (held : (reading.read (surroundings grammar) word).Has node) :
    (file.read grammar word).Has node := by
  unfold FileReading.read
  simp only [current]
  split
  · next next progress =>
    rw [progress] at held
    exact .inr ⟨next, rfl, held⟩
  · next outcome progress =>
    rw [progress] at held
    obtain ⟨finished, rfl, inside⟩ := held
    exact has_beginWith
      ⟨finished.tree, List.mem_append_right _ (List.mem_singleton_self _), inside⟩ word

/-- One word after a node leaves the node in the file, if it is no symbol. -/
theorem Has.read (held : file.Has node) (plain : node.kind ≠ .symbol) (word : Word) :
    (file.read grammar word).Has node := by
  rcases held with below | ⟨reading, current, inside⟩
  · exact has_read_of_below below word
  · exact has_read_of_current current (Reading.has_read _ word plain inside)

/-- Any words after a node leave it in the file, if it is no symbol. -/
theorem Has.foldl_read (held : file.Has node) (plain : node.kind ≠ .symbol) (words : List Word) :
    (words.foldl (FileReading.read grammar) file).Has node := by
  induction words generalizing file with
  | nil => exact held
  | cons word words ih => exact ih (held.read plain word)

/-- The end of a file leaves its finished parts. -/
theorem has_finish_of_below (held : ∃ child ∈ file.children, node ∈ child.walk) (ending : Word) :
    ∃ child ∈ file.finish grammar ending, node ∈ child.walk := by
  unfold FileReading.finish
  split
  · exact held
  · split
    · exact held
    · exact held.imp fun _ kept => kept.imp_left (List.mem_append_left _)

/-- The end of a file finishes its current expression. -/
theorem has_finish_of_current {reading : Reading} (current : file.current = some reading)
    {ending : Word} (ends : ending.token.isEnd)
    (held : (reading.read (surroundings grammar) ending).Has node) :
    ∃ child ∈ file.finish grammar ending, node ∈ child.walk := by
  unfold FileReading.finish
  simp only [current]
  split
  · next next progress =>
    exact (Reading.not_isForeign_of_read progress (Word.isForeign_of_isEnd ends)).elim
  · next outcome progress =>
    rw [progress] at held
    obtain ⟨finished, rfl, inside⟩ := held
    exact ⟨finished.tree, List.mem_append_right _ (List.mem_singleton_self _), inside⟩

/-- The end of a file leaves a node that is no symbol. -/
theorem Has.finish (held : file.Has node) (plain : node.kind ≠ .symbol) {ending : Word}
    (ends : ending.token.isEnd) : ∃ child ∈ file.finish grammar ending, node ∈ child.walk := by
  rcases held with below | ⟨reading, current, inside⟩
  · exact has_finish_of_below below ending
  · exact has_finish_of_current current ends (Reading.has_read _ ending plain inside)

/-- A node of a file that is at its end is in the tree. -/
theorem mem_walk_tree_of_finish {words : List Word} {ending : Word} (beyond : List Token)
    (held : ∃ child ∈ (words.foldl (FileReading.read grammar) empty).finish grammar ending,
      node ∈ child.walk) : node ∈ (tree grammar words ending beyond).walk := by
  obtain ⟨child, present, inside⟩ := held
  exact mem_walk_ofKind (List.mem_append_left _ (List.mem_append_left _ present)) inside

/-- What becomes of the current expression of a file, when some of its words have been read and the
next one or the ending is in view, has its nodes in the tree of the file. -/
theorem mem_walk_tree {words before after : List Word} {ending : Word}
    (ends : ending.token.isEnd) (beyond : List Token)
    (split : words ++ [ending] = before ++ word :: after) {reading : Reading}
    (current : (before.foldl (FileReading.read grammar) empty).current = some reading)
    (plain : node.kind ≠ .symbol) (held : (reading.read (surroundings grammar) word).Has node) :
    node ∈ (tree grammar words ending beyond).walk := by
  apply mem_walk_tree_of_finish
  rcases List.eq_nil_or_concat after with rfl | ⟨later, last, rfl⟩
  · obtain ⟨rfl, same⟩ := List.append_inj' split rfl
    cases same
    exact has_finish_of_current current ends held
  · rw [List.concat_eq_append, ← List.cons_append, ← List.append_assoc] at split
    obtain ⟨rfl, same⟩ := List.append_inj' split rfl
    cases same
    rw [List.foldl_append, List.foldl_cons]
    exact ((has_read_of_current current held).foldl_read plain later).finish plain ends

end FileReading

end WolframSyntax
