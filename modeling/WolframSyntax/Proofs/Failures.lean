import WolframSyntax.Proofs.Climbing
import WolframSyntax.Proofs.Faults
import WolframSyntax.Proofs.Lossless

/-!
# Failures are visible

A construct is marked as failed when something in it is missing or out of place. While a file is
read, each expression that is complete inside of others is handed on with its mark
(`Reading.Completes`), and each unfinished construct that ends makes such an expression
(`Reading.Concludes`). An expression that failed has an error node in it and stays in the tree of
the file, so in a tree without errors nothing has failed: every chain of operands went on as far as
it could, and every assignment to a tag has its sign (`failures_visible`).
-/

namespace WolframSyntax

open SyntaxTree

/-- A single name is the node of one identifier. -/
theorem SyntaxTree.exists_eq_symbol {tree : SyntaxTree} (operand : tree.IsOperand)
    (symbol : tree.kind = .symbol) :
    ∃ token, token.kind = .identifier ∧ tree = ofKind .symbol [leaf token] := by
  cases operand.fits.root with
  | leaf token =>
    have inner : (leaf token).isLeaf = false := operand.inner
    simp at inner
  | @atom kind token held =>
    cases (show kind = .symbol from symbol)
    exact ⟨token, (Option.some.inj held).symm, rfl⟩
  | @construct content children bare takes =>
    rw [show content.kind = .symbol from symbol] at takes
    cases takes

/-- A single name has no errors. -/
theorem SyntaxTree.isClean_of_symbol {tree : SyntaxTree} (operand : tree.IsOperand)
    (symbol : tree.kind = .symbol) : tree.IsClean := by
  obtain ⟨token, _, rfl⟩ := exists_eq_symbol operand symbol
  exact isClean_ofKind.mpr
    ⟨NodeKind.noConfusion, List.forall_mem_singleton.mpr (isClean_leaf token)⟩

namespace Reading

/-- While `word` is in view, an expression inside `frames` is complete as `outcome`: what is inside
of it has ended, and what becomes of the reading is what becomes of the outcome. -/
structure Completes (surroundings : Surroundings) (word : Word) (reading : Reading)
    (frames : List Frame) (outcome : Outcome) : Prop where
  settles : Settles surroundings word reading ⟨frames, .complete outcome⟩
  rest : reading.read surroundings word = settle surroundings word frames outcome

/-- While `word` is in view, the construct `frame` inside `frames` ends without it as `outcome`. -/
structure Concludes (surroundings : Surroundings) (word : Word) (reading : Reading) (frame : Frame)
    (frames : List Frame) (outcome : Outcome) : Prop where
  ends : ∃ focus, Settles surroundings word reading ⟨frame :: frames, focus⟩ ∧
    Reacts surroundings word ⟨frame :: frames, focus⟩ frames (.ends outcome)
  rest : reading.read surroundings word = settle surroundings word frames outcome

variable {surroundings : Surroundings} {word : Word} {reading : Reading} {frame : Frame}
  {frames : List Frame} {outcome : Outcome}

/-- A construct that ends is complete. -/
theorem Concludes.completes (concludes : reading.Concludes surroundings word frame frames outcome) :
    reading.Completes surroundings word frames outcome := by
  obtain ⟨focus, settles, reacts⟩ := concludes.ends
  exact ⟨settles.tail (.ends reacts), concludes.rest⟩

/-- What is complete while a word is in view stays when the word has been read. -/
theorem Completes.has (completes : reading.Completes surroundings word frames outcome)
    (plain : outcome.tree.kind ≠ .symbol) :
    (reading.read surroundings word).Has outcome.tree := by
  rw [completes.rest]
  exact (arrives_settle frames outcome).has plain (.inr (Tree.mem_walk_self _))

/-- What is complete and failed is not free of errors, and is no single name. -/
theorem Completes.failed (completes : reading.Completes surroundings word frames outcome)
    (fits : reading.Fits) (rests : reading.Rests surroundings)
    (failed : outcome.succeeded = false) :
    ¬outcome.tree.IsClean ∧ outcome.tree.kind ≠ .symbol := by
  obtain ⟨settledFits, awaits⟩ := completes.settles.awaits fits rests
  have dirty : ¬outcome.tree.IsClean := awaits.focus.1.failed failed
  exact ⟨dirty, fun symbol => dirty (isClean_of_symbol settledFits.focus symbol)⟩

end Reading

namespace Frame

variable {frame : Frame} {word : Word} {outcome left : Outcome} {bracketed : Bool}

theorem succeeded_of_close_eq_ends {kind : NodeKind} {closing : Operator}
    {unclosed : List Diagnostic} (ends : frame.close kind closing unclosed word = .ends left) :
    left.succeeded = false := by
  unfold close at ends
  split at ends
  · cases ends
  · cases ends
    rfl

theorem succeeded_of_closeItems_eq_ends {enclosure : Enclosure}
    (ends : frame.closeItems enclosure word = .ends left) : left.succeeded = false := by
  unfold closeItems at ends
  split at ends
  · cases ends
  · exact succeeded_of_close_eq_ends ends

/-- A chain that ends without failing is not continued by the word in view. -/
theorem next?_ne_of_receive_eq_ends {kind : NodeKind} {sign : Operator}
    (role : frame.role = .chain kind sign)
    (ends : frame.receive bracketed outcome word = .ends left) (succeeded : left.succeeded) :
    word.next? bracketed ≠ some sign := by
  unfold receive at ends
  simp only [role] at ends
  split at ends
  · next unsuccessful =>
    cases ends
    have both := (Bool.and_eq_true_iff.mp succeeded).2
    simp [both] at unsuccessful
  · intro goesOn
    unfold Word.next? at goesOn
    split at ends
    · next link =>
      rw [link] at goesOn
      cases goesOn
      simp at ends
    · next link =>
      rw [link] at goesOn
      cases goesOn
      simp at ends
    · next link =>
      rw [link] at goesOn
      cases goesOn

/-- An assignment to a tag that ends without a sign has failed. -/
theorem succeeded_of_tagPattern (role : frame.role = .tagPattern)
    (ends : frame.receive bracketed outcome word = .ends left) : left.succeeded = false := by
  unfold receive at ends
  simp only [role] at ends
  split at ends
  · next unsuccessful =>
    cases ends
    exact Bool.and_eq_false_iff.mpr (.inr (by simpa using unsuccessful))
  split at ends
  · cases ends
  split at ends
  · cases ends
  · cases ends
    rfl

end Frame

namespace Reading

variable {surroundings : Surroundings} {word : Word} {reading : Reading} {frame : Frame}
  {frames : List Frame} {outcome : Outcome}

/-- A construct that ends without failing ends with an operand. -/
theorem Reacts.exists_receive {focus : Focus}
    (reacts : Reacts surroundings word ⟨frame :: frames, focus⟩ frames (.ends outcome))
    (succeeded : outcome.succeeded) :
    ∃ operand, frame.receive (surroundings.isBracketed (frame :: frames)) operand word
      = .ends outcome := by
  generalize same : Reaction.ends outcome = reaction at reacts
  cases reacts with
  | complete | missing | absent => exact ⟨_, rfl⟩
  | empty => simp [Frame.succeeded_of_closeItems_eq_ends same.symm] at succeeded
  | partEnd => simp [Frame.succeeded_of_close_eq_ends same.symm] at succeeded

/-- A construct that ends without failing is no assignment that lacks its sign, and if it is a chain
then the word in view does not continue it. -/
theorem Concludes.ends_of_succeeded
    (concludes : reading.Concludes surroundings word frame frames outcome)
    (succeeded : outcome.succeeded) :
    frame.role ≠ .tagPattern ∧ ∀ kind sign, frame.role = .chain kind sign →
      word.next? (surroundings.isBracketed (frame :: frames)) ≠ some sign := by
  obtain ⟨focus, _, reacts⟩ := concludes.ends
  obtain ⟨operand, ends⟩ := reacts.exists_receive succeeded
  refine ⟨fun role => ?_, fun kind sign role => ?_⟩
  · simp [Frame.succeeded_of_tagPattern role ends] at succeeded
  · exact Frame.next?_ne_of_receive_eq_ends role ends succeeded

end Reading

namespace FileReading

variable {grammar : Grammar} {tokens : List Token} {reading : Reading} {word : Word}

/-- When the tokens are read as a file, `reading` has been begun while `word` is in view, which is
one of the words or the ending. -/
def Meets (grammar : Grammar) (tokens : List Token) (reading : Reading) (word : Word) : Prop :=
  ∃ ending beyond before after, (WordStream.ofTokens tokens).ending = some (ending, beyond) ∧
    (WordStream.ofTokens tokens).words ++ [ending] = before ++ word :: after ∧
    (before.foldl (read grammar) empty).current = some reading

theorem Meets.isSound (meets : Meets grammar tokens reading word) :
    reading.Fits ∧ reading.Rests (surroundings grammar) := by
  obtain ⟨_, _, before, _, _, _, current⟩ := meets
  have regular : ∀ earlier ∈ before, True := fun _ _ => trivial
  exact (holds_empty.foldl_read (isKept_agrees grammar) regular).current reading current

/-- What becomes of a reading has its nodes in the tree of the file. -/
theorem Meets.mem_walk (meets : Meets grammar tokens reading word) {tree node : SyntaxTree}
    (parsed : parseTokens grammar tokens = .ok tree) (plain : node.kind ≠ .symbol)
    (held : (reading.read (surroundings grammar) word).Has node) : node ∈ tree.walk := by
  obtain ⟨ending, beyond, before, after, found, split, current⟩ := meets
  obtain ⟨other, further, same, rfl⟩ := exists_eq_tree_of_parseTokens parsed
  cases found.symm.trans same
  have covers := WordStream.covers_ofTokens tokens
  rw [WordStream.Covers, found] at covers
  exact mem_walk_tree covers.2.1 beyond split current plain held

end FileReading

open FileReading in
/-- A token list with an end token can be read. Whatever was complete on the way and had failed is a
node of its tree with an error in it. So if the tree has no errors then nothing has failed, no
assignment to a tag ended without its sign, and no chain ended in front of a word that continues
it. -/
theorem failures_visible (grammar : Grammar) (tokens : List Token)
    (present : tokens.any Token.isEnd) :
    ∃ tree, parseTokens grammar tokens = .ok tree ∧
      (∀ reading word, Meets grammar tokens reading word → ∀ frames outcome,
        reading.Completes (surroundings grammar) word frames outcome →
          outcome.succeeded = false →
            outcome.tree ∈ tree.walk ∧ ∃ node ∈ outcome.tree.walk, node.kind = .error) ∧
      (tree.errors = [] → ∀ reading word, Meets grammar tokens reading word →
        (∀ frames outcome, reading.Completes (surroundings grammar) word frames outcome →
          outcome.succeeded) ∧
        ∀ frame frames outcome,
          reading.Concludes (surroundings grammar) word frame frames outcome →
            frame.role ≠ .tagPattern ∧ ∀ kind sign, frame.role = .chain kind sign →
              word.next? ((surroundings grammar).isBracketed (frame :: frames)) ≠ some sign) := by
  obtain ⟨final, held, ends⟩ := List.any_eq_true.mp present
  obtain ⟨tree, parsed⟩ := exists_parseTokens_eq_ok grammar held ends
  have visible : ∀ reading word, Meets grammar tokens reading word → ∀ frames outcome,
      reading.Completes (surroundings grammar) word frames outcome → outcome.succeeded = false →
        outcome.tree ∈ tree.walk ∧ ¬outcome.tree.IsClean := by
    intro reading word meets frames outcome completes failed
    obtain ⟨fits, rests⟩ := meets.isSound
    obtain ⟨dirty, plain⟩ := completes.failed fits rests failed
    exact ⟨meets.mem_walk parsed plain (completes.has plain), dirty⟩
  refine ⟨tree, parsed, fun reading word meets frames outcome completes failed => ?_,
    fun none reading word meets => ?_⟩
  · obtain ⟨inside, dirty⟩ := visible reading word meets frames outcome completes failed
    exact ⟨inside, by simpa [Tree.IsClean, Tree.Everywhere] using dirty⟩
  · have clean : tree.IsClean := Tree.isClean_iff_errors_eq_nil.mpr none
    have succeeds : ∀ frames outcome,
        reading.Completes (surroundings grammar) word frames outcome → outcome.succeeded := by
      intro frames outcome completes
      rw [← Bool.not_eq_false]
      intro failed
      obtain ⟨inside, dirty⟩ := visible reading word meets frames outcome completes failed
      exact dirty (clean.within inside)
    exact ⟨succeeds, fun frame frames outcome concludes =>
      concludes.ends_of_succeeded (succeeds frames outcome concludes.completes)⟩

/-- The tokens of a sum in parentheses that lacks its second operand. -/
def unfinishedSum : List Token :=
  [⟨.operator .leftPar, "(", 1, 1⟩, ⟨.identifier, "a", 1, 2⟩, ⟨.operator .plus, "+", 1, 3⟩,
    ⟨.operator .rightPar, ")", 1, 4⟩, ⟨.endOfFile, "", 1, 5⟩]

open FileReading in
/-- The parenthesis ends the sum, which has failed and stays in the tree with what it lacks. -/
theorem failures_visible_unfinishedSum :
    unfinishedSum.any Token.isEnd ∧ ∃ tree, parseTokens .standard unfinishedSum = .ok tree ∧
      ∃ reading word frames outcome, Meets .standard unfinishedSum reading word ∧
        reading.Completes (surroundings .standard) word frames outcome ∧
          outcome.succeeded = false ∧ outcome.tree.kind = .plus ∧ outcome.tree ∈ tree.walk ∧
            ∃ node ∈ outcome.tree.walk, node.kind = .error := by
  have present : unfinishedSum.any Token.isEnd := by decide +kernel
  obtain ⟨tree, parsed, visible, _⟩ := failures_visible .standard unfinishedSum present
  let bracket : Token := ⟨.operator .leftPar, "(", 1, 1⟩
  let name : Token := ⟨.identifier, "a", 1, 2⟩
  let sign : Token := ⟨.operator .plus, "+", 1, 3⟩
  let word : Word := ⟨[], ⟨.operator .rightPar, ")", 1, 4⟩⟩
  let group : Frame := ⟨.group, 0, [leaf bracket], true⟩
  let sum : Frame := ⟨.chain .plus .plus, 310, [ofKind .symbol [leaf name], leaf sign], true⟩
  let failed : Outcome := (sum.add (sum.missing word)).outcome .plus
  have meets : Meets .standard unfinishedSum ⟨[sum, group], .operand⟩ word :=
    ⟨⟨[], ⟨.endOfFile, "", 1, 5⟩⟩, [], [⟨[], bracket⟩, ⟨[], name⟩, ⟨[], sign⟩],
      [⟨[], ⟨.endOfFile, "", 1, 5⟩⟩], rfl, rfl, rfl⟩
  have completes :
      Reading.Completes (surroundings .standard) word ⟨[sum, group], .operand⟩ [group] failed :=
    ⟨.single (.ends (.missing rfl rfl)), rfl⟩
  obtain ⟨inside, error⟩ := visible _ word meets _ failed completes rfl
  exact ⟨present, tree, parsed, _, word, _, failed, meets, completes, rfl, rfl, inside, error⟩

end WolframSyntax
