import WolframSyntax.Proofs.Holding
import WolframSyntax.Proofs.Inside

/-!
# Reading by descent

The same language read by functions that call each other: an expression climbs from operator to
operator, and a construct reads its operands as expressions in turn. The climb takes the word in
view by how it goes on from the expression (`Word.link?`). A chain of operands decides by tests of
its own whether it goes on, at its beginning and behind every operand (`Frame.step`). The two agree
(`Frame.proceed_eq_receive`, `Word.factor?_eq_some_iff`), or else a chain could end before it has
taken a word, and the climb would take it up again for ever.

Nothing in the functions says that they end on every list of words. They are allowed calls of one
another to some depth only (`Descent.Readers.upTo`): what they give is `none` if that does not
suffice, and `some none` if the words end before they do.
-/

namespace WolframSyntax

/-! ## How chains go on -/

namespace Word

/-- Whether the word is an operator that stands on the line of the word in front of it. -/
def continuesWith (bracketed : Bool) (sign : Operator) (word : Word) : Bool :=
  word.isOperator sign && (bracketed || !word.beginsLine)

/-- How the word begins another factor of a product, if no operator has to go on with it. -/
def factor? (bracketed : Bool) (word : Word) : Option Opening :=
  match word.openingInLine? bracketed with
  | none => none
  | some opening =>
    match Continuation.ofKind? word.token.kind with
    | none => some opening
    | some (_, continuation) =>
      if continuation.mustTouch && !word.touches then some opening else none

/-- The operator whose precedence counts for a link. -/
def Link.operator : Link → Operator
  | sign operator _ => operator
  | factor _ => .times

variable {bracketed : Bool} {word : Word}

/-- The test for factors finds the words that go on without an operator. -/
theorem factor?_eq_some_iff {opening : Opening} :
    word.factor? bracketed = some opening ↔ word.link? bracketed = some (.factor opening) := by
  unfold factor? openingInLine? link?
  cases !bracketed && word.beginsLine with
  | true => simp
  | false =>
    simp only [Bool.false_eq_true, if_false]
    rcases Continuation.ofKind? word.token.kind with _ | ⟨sign, continuation⟩
    · cases word.opening? <;> simp
    · by_cases apart : (continuation.mustTouch && !word.touches) = true <;>
        cases word.opening? <;> simp [apart]

/-- An operator that need not touch what it goes on from goes on wherever it stands on the line. -/
theorem continuesWith_iff {sign : Operator} {continuation : Continuation}
    (form : Continuation.ofOperator? sign = some continuation)
    (free : continuation.mustTouch = false) :
    word.continuesWith bracketed sign ↔
      word.link? bracketed = some (.sign sign continuation) := by
  constructor
  · intro goesOn
    obtain ⟨same, inLine⟩ := Bool.and_eq_true_iff.mp goesOn
    have kind : word.token.kind = .operator sign := eq_of_beq same
    have here : (!bracketed && word.beginsLine) = false := by
      rw [← Bool.not_inj_iff, Bool.not_and, Bool.not_not]
      exact inLine
    rw [link?, here, kind]
    simp [Continuation.ofKind?, form, free]
  · intro link
    obtain ⟨kind, _, inLine, _⟩ := of_link?_eq_sign link
    refine Bool.and_eq_true_iff.mpr ⟨beq_iff_eq.mpr kind, ?_⟩
    cases bracketed with
    | true => rfl
    | false => rw [inLine rfl]; rfl

/-- A factor without a sign begins an operand within its line. -/
theorem openingInLine?_of_link?_eq_factor {opening : Opening}
    (link : word.link? bracketed = some (.factor opening)) :
    word.openingInLine? bracketed = some opening := by
  obtain ⟨opens, inLine⟩ := of_link?_eq_factor link
  rw [openingInLine?, opens]
  cases bracketed with
  | true => rfl
  | false => rw [inLine rfl]; rfl

/-- The test for factors finds the words that multiply without being the multiplication sign. -/
theorem isSome_factor?_iff :
    (word.factor? bracketed).isSome ↔
      word.next? bracketed = some .times ∧ word.isOperator .times = false := by
  constructor
  · intro found
    obtain ⟨opening, found⟩ := Option.isSome_iff_exists.mp found
    have link := factor?_eq_some_iff.mp found
    refine ⟨by rw [next?, link], ?_⟩
    exact isOperator_of_opening? (of_link?_eq_factor link).1 rfl
  · rintro ⟨next, other⟩
    unfold next? at next
    split at next
    · next sign continuation link =>
      cases next
      rw [isOperator, (of_link?_eq_sign link).1, beq_self_eq_true] at other
      cases other
    · next opening link => rw [factor?_eq_some_iff.mpr link]; rfl
    · cases next

/-- The end of the file goes on from nothing. -/
theorem isEnd_eq_false_of_link? {link : Link} (links : word.link? bracketed = some link) :
    word.token.isEnd = false := by
  rw [← Bool.not_eq_true]
  intro ends
  rw [(isForeign_of_isEnd ends).link?_eq_none] at links
  cases links

end Word

namespace Frame

/-- A chain goes on with the word if that is its sign, or another factor if it is a product, and
ends otherwise. -/
def step (frame : Frame) (kind : NodeKind) (sign : Operator) (bracketed : Bool) (word : Word) :
    Reaction :=
  if word.continuesWith bracketed sign then .waits (frame.take word) .operand
  else
    match if sign = .times then word.factor? bracketed else none with
    | some opening => .begins frame opening
    | none => .ends (frame.outcome kind)

/-- What the frame does with an operand when a word is in view, where a chain tests the word by
itself. -/
def proceed (frame : Frame) (bracketed : Bool) (outcome : Outcome) (word : Word) : Reaction :=
  match frame.role with
  | .chain kind sign =>
    let fed := frame.add outcome
    if outcome.succeeded then fed.step kind sign bracketed word else .ends (fed.outcome kind)
  | _ => frame.receive bracketed outcome word

/-- The chains of operands are those of operators that need not touch what they go on from. -/
def IsRegular (frame : Frame) : Prop :=
  ∀ kind sign, frame.role = .chain kind sign →
    ∃ continuation, Continuation.ofOperator? sign = some continuation ∧
      continuation.mustTouch = false

variable {frame : Frame} {bracketed : Bool} {word : Word}

/-- The tests of a chain decide as the climb does. -/
theorem step_eq {kind : NodeKind} {sign : Operator} {continuation : Continuation}
    (form : Continuation.ofOperator? sign = some continuation)
    (free : continuation.mustTouch = false) :
    frame.step kind sign bracketed word =
      match word.link? bracketed with
      | some (.sign next _) =>
        if next = sign then .waits (frame.take word) .operand else .ends (frame.outcome kind)
      | some (.factor opening) =>
        if sign = .times then .begins frame opening else .ends (frame.outcome kind)
      | none => .ends (frame.outcome kind) := by
  have none_of : (∀ opening, word.link? bracketed ≠ some (.factor opening)) →
      word.factor? bracketed = none := fun other =>
    Option.eq_none_iff_forall_ne_some.mpr fun opening found =>
      other opening (Word.factor?_eq_some_iff.mp found)
  unfold step
  split
  · next goesOn =>
    rw [(Word.continuesWith_iff form free).mp goesOn]
    exact (if_pos rfl).symm
  · next apart =>
    cases link : word.link? bracketed with
    | none =>
      rw [none_of (by simp [link]), ite_self]
    | some link' =>
      cases link' with
      | sign next other =>
        have differ : next ≠ sign := by
          rintro rfl
          obtain ⟨_, own, _⟩ := Word.of_link?_eq_sign link
          cases form.symm.trans own
          exact apart ((Word.continuesWith_iff form free).mpr link)
        rw [none_of (by simp [link]), ite_self]
        exact (if_neg differ).symm
      | factor opening =>
        rw [Word.factor?_eq_some_iff.mpr link]
        by_cases product : sign = .times
        · rw [if_pos product]
          exact (if_pos product).symm
        · rw [if_neg product]
          exact (if_neg product).symm

/-- A chain goes on with its own sign. -/
theorem step_of_sign {kind : NodeKind} {sign : Operator} {continuation : Continuation}
    (link : word.link? bracketed = some (.sign sign continuation))
    (free : continuation.mustTouch = false) :
    frame.step kind sign bracketed word = .waits (frame.take word) .operand := by
  rw [step_eq (Word.of_link?_eq_sign link).2.1 free, link]
  exact if_pos rfl

/-- A product goes on with another factor. -/
theorem step_of_factor {opening : Opening}
    (link : word.link? bracketed = some (.factor opening)) (kind : NodeKind) :
    frame.step kind .times bracketed word = .begins frame opening := by
  have form : Continuation.ofOperator? .times = some .product := rfl
  rw [step_eq form rfl, link]
  exact if_pos rfl

/-- A chain ends at the end word. -/
theorem isEnd_eq_false_of_step {kind : NodeKind} {sign : Operator}
    (goesOn : ∀ outcome, frame.step kind sign bracketed word ≠ .ends outcome) :
    word.token.isEnd = false := by
  rw [← Bool.not_eq_true]
  intro ends
  have foreign := Word.isForeign_of_isEnd ends
  have unopened : word.openingInLine? bracketed = none := by
    rw [Word.openingInLine?, foreign.unopened, ite_self]
  refine goesOn (frame.outcome kind) ?_
  rw [step, Word.continuesWith, foreign.unsigned, Word.factor?, unopened]
  simp

/-- A regular construct proceeds as it receives. -/
theorem proceed_eq_receive (regular : frame.IsRegular) (bracketed : Bool) (outcome : Outcome)
    (word : Word) :
    frame.proceed bracketed outcome word = frame.receive bracketed outcome word := by
  unfold proceed
  split
  · next kind sign role =>
    obtain ⟨continuation, form, free⟩ := regular kind sign role
    rw [receive, role]
    dsimp only
    cases outcome.succeeded with
    | false => rfl
    | true => exact step_eq form free
  · rfl

theorem IsRegular.of_role_eq {other : Frame} (regular : frame.IsRegular)
    (same : other.role = frame.role) : other.IsRegular :=
  fun kind sign role => regular kind sign (same.symm.trans role)

/-- An operator that need not touch its operand makes a regular construct. -/
theorem isRegular_of_form {kind : NodeKind} {sign : Operator} {continuation : Continuation}
    (form : Continuation.ofOperator? sign = some continuation)
    (free : continuation.mustTouch = false) (floor : Int) (children : List SyntaxTree) :
    IsRegular ⟨.chain kind sign, floor, children, true⟩ := by
  rintro _ _ ⟨⟩
  exact ⟨continuation, form, free⟩

theorem isRegular_of_ne (other : ∀ kind sign, frame.role ≠ .chain kind sign) : frame.IsRegular :=
  fun kind sign role => (other kind sign role).elim

end Frame

/-- What the reaction to a word goes on with: a regular construct that waits for something that has
not been begun, or for an operand that begins with the word. -/
def Reaction.IsRegular (bracketed : Bool) (word : Word) : Reaction → Prop
  | .waits frame focus => frame.IsRegular ∧ focus.hasOperand = false
  | .begins frame opening => frame.IsRegular ∧ word.openingInLine? bracketed = some opening
  | .closes _ | .ends _ => True

namespace Frame

variable {frame : Frame} {bracketed : Bool} {word : Word}

theorem isRegular_close (kind : NodeKind) (closing : Operator) (unclosed : List Diagnostic) :
    (frame.close kind closing unclosed word).IsRegular bracketed word := by
  unfold close
  split <;> trivial

/-- A regular chain takes a step that leaves it regular. -/
theorem IsRegular.step (regular : frame.IsRegular) (kind : NodeKind) (sign : Operator) :
    (frame.step kind sign bracketed word).IsRegular bracketed word := by
  unfold Frame.step
  split
  · exact ⟨regular.of_role_eq rfl, rfl⟩
  split
  · next opening found =>
    split at found
    · exact ⟨regular, Word.openingInLine?_of_link?_eq_factor (Word.factor?_eq_some_iff.mp found)⟩
    · cases found
  · trivial

/-- Regular items stay regular when they close or go on. -/
theorem IsRegular.closeItems (regular : frame.IsRegular) (enclosure : Enclosure) :
    (frame.closeItems enclosure word).IsRegular bracketed word := by
  unfold Frame.closeItems
  split
  · exact ⟨regular.of_role_eq rfl, rfl⟩
  · exact isRegular_close _ _ _

/-- A regular construct goes on with a regular one. -/
theorem IsRegular.receive (regular : frame.IsRegular) (bracketed : Bool) (outcome : Outcome)
    (word : Word) : (frame.receive bracketed outcome word).IsRegular bracketed word := by
  obtain ⟨role, floor, children, succeeded⟩ := frame
  unfold Frame.receive
  cases role with
  | group => exact isRegular_close _ _ _
  | items enclosure =>
    dsimp only
    split
    · exact ⟨regular.of_role_eq rfl, rfl⟩
    · have fed : (Frame.add ⟨.items enclosure, floor, children, succeeded⟩ outcome).IsRegular :=
        regular.of_role_eq rfl
      exact fed.closeItems enclosure
  | operand kind => trivial
  | chain kind sign =>
    dsimp only
    split
    · trivial
    split
    · split
      · exact ⟨regular.of_role_eq rfl, rfl⟩
      · trivial
    · next link =>
      split
      · exact ⟨regular.of_role_eq rfl, Word.openingInLine?_of_link?_eq_factor link⟩
      · trivial
    · trivial
  | compound =>
    dsimp only
    split
    · exact ⟨regular.of_role_eq rfl, rfl⟩
    · trivial
  | tag last =>
    dsimp only
    split
    · exact ⟨isRegular_of_ne fun _ _ => Role.noConfusion, rfl⟩
    · trivial
  | tagPattern =>
    dsimp only
    split
    · trivial
    split
    · exact ⟨isRegular_of_ne fun _ _ => Role.noConfusion, rfl⟩
    split
    · exact ⟨isRegular_of_ne fun _ _ => Role.noConfusion, rfl⟩
    · trivial

end Frame

/-! ## The functions -/

/-- What reads words one after the other. It gives `none` if it does not end with the calls that it
is allowed, and `some none` if the words end before it does. -/
abbrev Descent : Type → Type := StateT (List Word) (OptionT Option)

namespace Descent

/-- The word in view. -/
def view : Descent Word
  | [] => some none
  | word :: words => some (some (word, word :: words))

/-- The word in view, which is read. -/
def take : Descent Word
  | [] => some none
  | word :: words => some (some (word, words))

/-- A construct that has reacted to the word in view waits for more or is complete. -/
def respond : Reaction → Descent ((Frame × Focus) ⊕ Outcome)
  | .waits frame focus => do
    let _ ← take
    return .inl (frame, focus)
  | .begins frame _ => return .inl (frame, .operand)
  | .closes outcome => do
    let _ ← take
    return .inr outcome
  | .ends outcome => return .inr outcome

/-- A construct receives the operand that begins with a word, or goes without. -/
def receive (frame : Frame) (bracketed : Bool) (word : Word) :
    Option Outcome → Descent ((Frame × Focus) ⊕ Outcome)
  | some outcome => do
    let next ← view
    respond ((frame.takeLead word).proceed bracketed outcome next)
  | none => respond (frame.proceed bracketed (frame.missing word) word)

/-- A blank that has been read, with the name that touches it. -/
def blank (kind : NodeKind) (token : Token) (named : Option SyntaxTree) : Descent Outcome := do
  let mark := SyntaxTree.leaf token
  let word ← view
  if word.token.kind = .identifier ∧ word.touches then
    let _ ← take
    return ⟨Reading.blankTree kind named [mark, SyntaxTree.ofKind .symbol [word.leaf]], true⟩
  else return ⟨Reading.blankTree kind named [mark], true⟩

end Descent

/-- An enclosure that ends with the word in view, before its first item. -/
def Frame.skipItems? (frame : Frame) (word : Word) : Option Reaction :=
  match frame.role with
  | .items enclosure =>
    if word.isOperator enclosure.closing then some (frame.closeItems enclosure word) else none
  | _ => none

/-- What a construct does with the word in view if it need not read an operand first. An enclosure
can end at once, a second bracket makes a part of a call, and an expression of a sequence can be
left out. -/
def Frame.skip? (frame : Frame) (focus : Focus) (bracketed : Bool) (word : Word) :
    Option Reaction :=
  match focus with
  | .firstItem => frame.skipItems? word
  | .arguments =>
    if word.isOperator .leftBracket && word.touches then
      some (.waits { frame.take word with role := .items .part } .firstItem)
    else frame.skipItems? word
  | .partEnd => some (frame.closePart word)
  | .statement =>
    if (word.openingInLine? bracketed).isSome then none
    else some (frame.proceed bracketed ⟨SyntaxTree.absent .null none word.token, true⟩ word)
  | _ => none

namespace Descent

/-- The functions that call one another. -/
structure Readers where
  /-- Reads an expression, if one begins with the word in view. -/
  expression : Surroundings → Descent (Option Outcome)
  /-- Goes on from an expression as long as operators bind more strongly than it is held. -/
  climb : Surroundings → Outcome → Descent Outcome
  /-- Reads the rest of a construct, turn by turn. -/
  construct : Surroundings → Frame → Focus → Descent Outcome

namespace Readers

variable (readers : Readers)

/-- Reads the construct that begins with the word in view. -/
def opened (surroundings : Surroundings) (opening : Opening) : Descent Outcome := do
  let word ← take
  let first := [SyntaxTree.leaf word.token]
  match opening with
  | .atom kind => return ⟨SyntaxTree.ofKind kind first, true⟩
  | .blank kind => blank kind word.token none
  | .group => readers.construct surroundings ⟨.group, 0, first, true⟩ .operand
  | .list => readers.construct surroundings ⟨.items .list, 0, first, true⟩ .firstItem
  | .operator kind precedence =>
    readers.construct surroundings ⟨.operand kind, precedence, first, true⟩ .operand

/-- Reads a chain of operands, the first of which is `left`. -/
def chain (surroundings : Surroundings) (precedence : Int) (left : SyntaxTree) (kind : NodeKind)
    (sign : Operator) : Descent Outcome := do
  let word ← view
  let frame : Frame := ⟨.chain kind sign, precedence, [left], true⟩
  match ← respond (frame.step kind sign surroundings.bracketed word) with
  | .inl (frame, focus) => readers.construct surroundings frame focus
  | .inr outcome => return outcome

/-- Reads the construct that goes on from `left` with the word in view. Chains leave it to their own
test whether they take the word. -/
def applied (surroundings : Surroundings) (left : SyntaxTree) (link : Word.Link) :
    Descent Outcome := do
  let word ← view
  let precedence := surroundings.grammar.precedence link.operator
  let taken := left :: word.leaves
  match link with
  | .factor _ => readers.chain surroundings precedence left .times .times
  | .sign sign continuation =>
    match continuation with
    | .flat kind => readers.chain surroundings precedence left kind sign
    | .product => readers.chain surroundings precedence left .times .times
    | .binary kind nestsRight =>
      let _ ← take
      let floor := if nestsRight then precedence - 1 else precedence
      readers.construct surroundings ⟨.operand kind, floor, taken, true⟩ .operand
    | .suffix kind =>
      let _ ← take
      return ⟨SyntaxTree.ofKind kind taken, true⟩
    | .call =>
      let _ ← take
      readers.construct surroundings ⟨.items .call, 0, taken, true⟩ .arguments
    | .pattern mark =>
      let _ ← take
      blank mark word.token (some left)
    | .messageName =>
      let _ ← take
      readers.construct surroundings ⟨.tag false, precedence, taken, true⟩ .operand
    | .compound =>
      let _ ← take
      readers.construct surroundings ⟨.compound, precedence, taken, true⟩ .statement
    | .tagSet =>
      let _ ← take
      readers.construct surroundings ⟨.tagPattern, precedence, taken, true⟩ .operand

/-- One turn of a construct: an operand, or what stands for it, and what the construct does with the
word behind it. -/
def turn (surroundings : Surroundings) (frame : Frame) (focus : Focus) :
    Descent ((Frame × Focus) ⊕ Outcome) := do
  let bracketed := surroundings.isBracketed [frame]
  let word ← view
  match frame.skip? focus bracketed word with
  | some reaction => respond reaction
  | none =>
    let operand ← readers.expression (surroundings.inside frame)
    receive frame bracketed word operand

/-- One round of a chain: its test, and the operand behind it if the chain goes on. -/
def round (surroundings : Surroundings) (frame : Frame) (kind : NodeKind) (sign : Operator) :
    Descent Bool := do
  let word ← view
  match ← respond (frame.step kind sign (surroundings.isBracketed [frame]) word) with
  | .inl (frame, _) =>
    let _ ← readers.expression (surroundings.inside frame)
    return true
  | .inr _ => return false

/-- The functions that leave all else to the given ones. -/
def above : Readers where
  expression surroundings := do
    let word ← view
    match word.opening? with
    | none => return none
    | some opening =>
      let left ← readers.opened surroundings opening
      return some (← readers.climb surroundings left)
  climb surroundings left := do
    let word ← view
    match word.link? surroundings.bracketed with
    | none => return left
    | some link =>
      if surroundings.floor < surroundings.grammar.precedence link.operator then
        let next ← readers.applied surroundings left.tree link
        readers.climb surroundings next
      else return left
  construct surroundings frame focus := do
    match ← readers.turn surroundings frame focus with
    | .inl (frame, focus) => readers.construct surroundings frame focus
    | .inr outcome => return outcome

/-- The functions with calls of one another up to the given depth. -/
def upTo : Nat → Readers
  | 0 => ⟨fun _ _ => none, fun _ _ _ => none, fun _ _ _ _ => none⟩
  | depth + 1 => (upTo depth).above

end Readers

/-- Reads the expressions of a file behind those that are given, up to the end word. -/
def file (grammar : Grammar) : Nat → List SyntaxTree → Descent (List SyntaxTree)
  | 0, _ => fun _ => none
  | depth + 1, children => do
    let word ← view
    if word.token.isEnd then return children
    else
      match ← (Readers.upTo depth).expression (FileReading.surroundings grammar) with
      | some outcome => file grammar depth (children ++ word.leadLeaves ++ [outcome.tree])
      | none =>
        let _ ← take
        file grammar depth (children ++ word.leadLeaves ++ [FileReading.skipped word])

/-- The leaves behind the last expression of a file. -/
def trailing (stream : WordStream) : List SyntaxTree :=
  match stream.ending with
  | some (ending, beyond) =>
    ending.leadLeaves ++ (beyond.filter fun token => !token.isEnd).map SyntaxTree.leaf
  | none => []

/-- Reads the file with the given tokens, with calls to the given depth. -/
def parse (depth : Nat) (grammar : Grammar) (tokens : List Token) :
    Option (Except UnendedStream SyntaxTree) :=
  let stream := WordStream.ofTokens tokens
  let words := stream.words ++ (stream.ending.map Prod.fst).toList
  (file grammar depth [] words).map fun
    | some (children, _) => .ok (SyntaxTree.ofKind .file (children ++ trailing stream))
    | none => .error ⟨tokens.length⟩

end Descent

end WolframSyntax
