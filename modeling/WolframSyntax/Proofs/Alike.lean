import WolframSyntax.Proofs.Gist
import WolframSyntax.Reading.Step

/-!
# Frames with the same gist

Everything that is unfinished has a gist, as trees do. Two words mean the same if they have the same
token and no more than trivia in front of it (`Word.Like`). What a frame does with an operand when a
word is in view depends on the gists of both and on what the word means, and outside of brackets on
whether a line ends in front of the word (`Frame.gist_receive_congr`).
-/

namespace WolframSyntax

open SyntaxTree WolframSyntax.Tree

/-! ## Gists of what is unfinished -/

/-- The outcome with the gist of its tree. -/
def Outcome.gist (outcome : Outcome) : Outcome := ⟨outcome.tree.gist, outcome.succeeded⟩

/-- The frame with the gists of its children. -/
def Frame.gist (frame : Frame) : Frame := { frame with children := gistAll frame.children }

/-- The focus with the gist of what it holds. -/
def Focus.gist : Focus → Focus
  | .blankName kind blank named => .blankName kind blank.unplaced (named.map Tree.gist)
  | .complete outcome => .complete outcome.gist
  | focus => focus

/-- The reading with the gists of its parts. -/
def Reading.gist (reading : Reading) : Reading :=
  ⟨reading.frames.map Frame.gist, reading.focus.gist⟩

/-- The reaction with the gist of what it leaves. -/
def Reaction.gist : Reaction → Reaction
  | .waits frame focus => .waits frame.gist focus.gist
  | .begins frame opening => .begins frame.gist opening
  | .closes outcome => .closes outcome.gist
  | .ends outcome => .ends outcome.gist

/-- The progress with the gist of what was read. -/
def Progress.gist : Progress → Progress
  | .reading next => .reading next.gist
  | .finished outcome => .finished (outcome.map Outcome.gist)

/-- What two expressions with the same gist have become, expressions again or finished ones. -/
theorem Progress.cases_of_gist_eq {progress twin : Progress} (same : progress.gist = twin.gist) :
    (∃ next other, progress = .reading next ∧ twin = .reading other ∧ next.gist = other.gist) ∨
      ∃ held kept, progress = .finished held ∧ twin = .finished kept ∧
        held.map Outcome.gist = kept.map Outcome.gist := by
  cases progress with
  | reading next =>
    cases twin with
    | reading other => exact .inl ⟨next, other, rfl, rfl, Progress.reading.inj same⟩
    | finished => cases same
  | finished held =>
    cases twin with
    | reading => cases same
    | finished kept => exact .inr ⟨held, kept, rfl, rfl, Progress.finished.inj same⟩

/-- Whether it matters to the focus if a word of the given kind touches what is in front of it. -/
def Focus.minds : Focus → TokenKind → Bool
  | .arguments, .operator .leftBracket | .blankName .., .identifier => true
  | _, _ => false

/-! ## Words that mean the same -/

/-- Whether the token is a blank, which goes on only from what it touches. -/
def Token.isBlank (token : Token) : Bool :=
  match token.kind with
  | .operator .blank | .operator .blankSequence | .operator .blankNullSequence => true
  | _ => false

/-- Two words with the same token and no more than trivia in front of it, blanks with the same
neighbour. -/
structure Word.Like (word other : Word) : Prop where
  token : word.token.unplaced = other.token.unplaced
  lead : gistAll word.leadLeaves = gistAll other.leadLeaves
  near : word.token.isBlank → word.touches = other.touches

namespace Word

variable {word other : Word}

theorem Like.kind (like : word.Like other) : word.token.kind = other.token.kind :=
  Token.kind_congr like.token

theorem Like.isOperator (like : word.Like other) (sign : Operator) :
    word.isOperator sign = other.isOperator sign := by
  rw [Word.isOperator, Word.isOperator, like.kind]

/-- Words that mean the same begin the same expressions. -/
theorem Like.opening? (like : word.Like other) : word.opening? = other.opening? := by
  rw [Word.opening?, Word.opening?, like.kind]

/-- Words that mean the same and begin lines alike begin the same factors. -/
theorem Like.openingInLine? (like : word.Like other) {bracketed : Bool}
    (lines : bracketed = false → word.beginsLine = other.beginsLine) :
    word.openingInLine? bracketed = other.openingInLine? bracketed := by
  unfold Word.openingInLine?
  cases bracketed with
  | true => simp [like.opening?]
  | false => simp [like.opening?, lines rfl]

/-- An operator that must touch its operand is a blank. -/
theorem isBlank_of_mustTouch {token : Token} {sign : Operator} {continuation : Continuation}
    (form : Continuation.ofKind? token.kind = some (sign, continuation))
    (must : continuation.mustTouch) : token.isBlank := by
  unfold Continuation.ofKind? at form
  split at form
  · next operator kind =>
    obtain ⟨found, made, pair⟩ := Option.map_eq_some_iff.mp form
    cases pair
    rw [Token.isBlank, kind]
    cases sign <;> cases made <;> first | rfl | cases must
  · cases form

/-- Words that mean the same and begin lines alike go on in the same way. -/
theorem Like.link? (like : word.Like other) {bracketed : Bool}
    (lines : bracketed = false → word.beginsLine = other.beginsLine) :
    word.link? bracketed = other.link? bracketed := by
  have inLine : (!bracketed && word.beginsLine) = (!bracketed && other.beginsLine) := by
    cases bracketed with
    | true => rfl
    | false => rw [lines rfl]
  unfold Word.link?
  rw [inLine, ← like.kind, like.opening?]
  split
  · rfl
  · split
    · next sign continuation form =>
      by_cases must : continuation.mustTouch
      · rw [like.near (isBlank_of_mustTouch form must)]
      · simp only [Bool.not_eq_true] at must
        simp only [must, Bool.false_and]
    · rfl

/-- Words that mean the same have leaves of one gist. -/
theorem Like.gistAll_leaf (like : word.Like other) :
    gistAll [word.leaf] = gistAll [other.leaf] := by
  refine gistAll_singleton_congr ?_
  rw [leaf, leaf, gist_leaf, gist_leaf, like.token]

/-- Words that mean the same have the same gist with what is in front of them. -/
theorem Like.gistAll_leaves (like : word.Like other) :
    gistAll word.leaves = gistAll other.leaves := by
  rw [leaves, leaves, gistAll_append, gistAll_append, like.lead, like.gistAll_leaf]

end Word

/-! ## Frames -/

/-- Outcomes of one gist have trees of one gist. -/
theorem Outcome.gistAll_of_gist_eq {held kept : Outcome} (same : held.gist = kept.gist) :
    gistAll [held.tree] = gistAll [kept.tree] :=
  gistAll_singleton_congr (congrArg Outcome.tree same)

theorem Outcome.succeeded_of_gist_eq {held kept : Outcome} (same : held.gist = kept.gist) :
    held.succeeded = kept.succeeded := by
  have same := congrArg Outcome.succeeded same
  exact same

namespace Frame

variable {left right : Frame} {held kept : Outcome} {word other : Word}

/-- Frames with the same gist differ in their children only. -/
theorem exists_of_gist_eq (same : left.gist = right.gist) :
    ∃ role floor succeeded first second, left = ⟨role, floor, first, succeeded⟩ ∧
      right = ⟨role, floor, second, succeeded⟩ ∧ gistAll first = gistAll second := by
  obtain ⟨role, floor, first, succeeded⟩ := left
  obtain ⟨otherRole, otherFloor, second, otherSucceeded⟩ := right
  obtain ⟨rfl, rfl, children, rfl⟩ := Frame.mk.inj same
  exact ⟨role, floor, succeeded, first, second, rfl, rfl, children⟩

/-- Frames that differ in their children's places have one gist. -/
theorem gist_congr {role : Role} {floor : Int} {succeeded : Bool} {first second : List SyntaxTree}
    (same : gistAll first = gistAll second) :
    gist ⟨role, floor, first, succeeded⟩ = gist ⟨role, floor, second, succeeded⟩ := by
  rw [gist, gist, same]

/-- Operands of one gist leave frames of one gist. -/
theorem gist_add_congr (frames : left.gist = right.gist) (outcomes : held.gist = kept.gist) :
    (left.add held).gist = (right.add kept).gist := by
  obtain ⟨role, floor, succeeded, first, second, rfl, rfl, children⟩ := exists_of_gist_eq frames
  rw [add, add, Outcome.succeeded_of_gist_eq outcomes]
  apply gist_congr
  rw [gistAll_append, gistAll_append, children, Outcome.gistAll_of_gist_eq outcomes]

theorem gist_take_congr (frames : left.gist = right.gist) (like : word.Like other) :
    (left.take word).gist = (right.take other).gist := by
  obtain ⟨role, floor, succeeded, first, second, rfl, rfl, children⟩ := exists_of_gist_eq frames
  apply gist_congr
  rw [gistAll_append, gistAll_append, children, like.gistAll_leaves]

theorem gist_takeLead_congr (frames : left.gist = right.gist) (like : word.Like other) :
    (left.takeLead word).gist = (right.takeLead other).gist := by
  obtain ⟨role, floor, succeeded, first, second, rfl, rfl, children⟩ := exists_of_gist_eq frames
  apply gist_congr
  rw [gistAll_append, gistAll_append, children, like.lead]

/-- A frame that goes on to wait for something else keeps its gist. -/
theorem gist_with_congr (frames : left.gist = right.gist) (role : Role) (floor : Int) :
    gist { left with role := role, floor := floor }
      = gist { right with role := role, floor := floor } := by
  obtain ⟨_, _, succeeded, first, second, rfl, rfl, children⟩ := exists_of_gist_eq frames
  exact gist_congr children

/-- Frames of one gist may take another role together. -/
theorem gist_role_congr (frames : left.gist = right.gist) (role : Role) :
    gist { left with role := role } = gist { right with role := role } := by
  obtain ⟨_, floor, succeeded, first, second, rfl, rfl, children⟩ := exists_of_gist_eq frames
  exact gist_congr children

/-- Errors for missing things leave frames of one gist, wherever they are reported. -/
theorem gist_fail_congr (frames : left.gist = right.gist) (diagnostics : List Diagnostic)
    (word other : Word) :
    (left.fail diagnostics word).gist = (right.fail diagnostics other).gist := by
  obtain ⟨role, floor, succeeded, first, second, rfl, rfl, children⟩ := exists_of_gist_eq frames
  apply gist_congr
  rw [gistAll_append, gistAll_append, children]
  congr 1
  induction diagnostics with
  | nil => rfl
  | cons diagnostic diagnostics ih =>
    rw [List.map_cons, List.map_cons, gistAll_cons, gistAll_cons (absent _ _ other.token), ih]
    rfl

/-- Frames of one gist become constructs of one gist. -/
theorem gist_outcome_congr (frames : left.gist = right.gist) (kind : NodeKind) :
    (left.outcome kind).gist = (right.outcome kind).gist := by
  obtain ⟨role, floor, succeeded, first, second, rfl, rfl, children⟩ := exists_of_gist_eq frames
  rw [Outcome.gist, Outcome.gist, outcome, outcome, gist_ofKind, gist_ofKind, children]

/-- Missing operands have one gist in frames of one gist. -/
theorem gist_missing_congr (frames : left.gist = right.gist) (word other : Word) :
    (left.missing word).gist = (right.missing other).gist := by
  obtain ⟨role, floor, succeeded, first, second, rfl, rfl, children⟩ := exists_of_gist_eq frames
  rfl

/-- Operands of one gist become tags of one gist, or are both none. -/
theorem tagOutcome_congr (outcomes : held.gist = kept.gist) :
    (tagOutcome held).1.gist = (tagOutcome kept).1.gist ∧
      (tagOutcome held).2 = (tagOutcome kept).2 := by
  have trees : held.tree.gist = kept.tree.gist := congrArg Outcome.tree outcomes
  have kind : held.tree.kind = kept.tree.kind := by rw [← kind_gist, trees, kind_gist]
  have children : gistAll held.tree.children = gistAll kept.tree.children := by
    rw [← children_gist, trees, children_gist]
  unfold tagOutcome
  rw [← kind]
  split
  · exact ⟨outcomes, rfl⟩
  · refine ⟨?_, rfl⟩
    rw [Outcome.gist, Outcome.gist, gist_ofKind, gist_ofKind, children,
      Outcome.succeeded_of_gist_eq outcomes]
  · exact ⟨outcomes, rfl⟩
  · refine ⟨?_, rfl⟩
    rw [Outcome.gist, Outcome.gist, gist_error, gist_error, Outcome.gistAll_of_gist_eq outcomes]

/-- Bracketed constructs of one gist react alike to words that mean the same. -/
theorem gist_close_congr (frames : left.gist = right.gist) (like : word.Like other)
    (kind : NodeKind) (closing : Operator) (unclosed : List Diagnostic) :
    (left.close kind closing unclosed word).gist
      = (right.close kind closing unclosed other).gist := by
  unfold close
  rw [like.isOperator]
  split
  · exact congrArg Reaction.closes (gist_outcome_congr (gist_take_congr frames like) kind)
  · exact congrArg Reaction.ends (gist_outcome_congr (gist_fail_congr frames _ _ _) kind)

/-- Items of one gist react alike to words that mean the same. -/
theorem gist_closeItems_congr (frames : left.gist = right.gist) (like : word.Like other)
    (enclosure : Enclosure) :
    (left.closeItems enclosure word).gist = (right.closeItems enclosure other).gist := by
  unfold closeItems
  rw [like.isOperator]
  split
  · exact congrArg (Reaction.waits · .partEnd) (gist_take_congr frames like)
  · exact gist_close_congr frames like _ _ _

/-- What a frame does with an operand depends on the gists of both, on the word in view, and outside
of brackets on whether the word begins a line. -/
theorem gist_receive_congr (frames : left.gist = right.gist) (outcomes : held.gist = kept.gist)
    (like : word.Like other) {bracketed : Bool}
    (lines : bracketed = false → word.beginsLine = other.beginsLine) :
    (left.receive bracketed held word).gist = (right.receive bracketed kept other).gist := by
  have fed := gist_add_congr frames outcomes
  have taken := gist_take_congr fed like
  have ended : ∀ kind, Reaction.gist (.ends ((left.add held).outcome kind))
      = Reaction.gist (.ends ((right.add kept).outcome kind)) :=
    fun kind => congrArg Reaction.ends (gist_outcome_congr fed kind)
  have waiting : ∀ focus, Reaction.gist (.waits ((left.add held).take word) focus)
      = Reaction.gist (.waits ((right.add kept).take other) focus) :=
    fun focus => congrArg (Reaction.waits · focus.gist) taken
  have succeeded := Outcome.succeeded_of_gist_eq outcomes
  obtain ⟨role, floor, success, first, second, rfl, rfl, children⟩ := exists_of_gist_eq frames
  unfold receive
  cases role with
  | group => exact gist_close_congr fed like _ _ _
  | items enclosure =>
    simp only [like.isOperator]
    split
    · exact waiting _
    · exact gist_closeItems_congr fed like enclosure
  | operand kind => exact ended kind
  | chain kind sign =>
    simp only [succeeded, like.link? lines]
    split
    · exact ended kind
    split
    · split
      · exact waiting _
      · exact ended kind
    · split
      · exact congrArg (Reaction.begins · _) fed
      · exact ended kind
    · exact ended kind
  | compound =>
    have inLine : (bracketed || !word.beginsLine) = (bracketed || !other.beginsLine) := by
      cases bracketed with
      | true => rfl
      | false => rw [lines rfl]
    simp only [like.isOperator, inLine]
    split
    · exact waiting _
    · exact ended _
  | tag last =>
    obtain ⟨tags, present⟩ := tagOutcome_congr outcomes
    have kept : ∀ role : Role, Frame.gist ⟨role, floor, first ++ [(tagOutcome held).1.tree],
        (tagOutcome held).1.succeeded⟩ = Frame.gist ⟨role, floor,
          second ++ [(tagOutcome kept).1.tree], (tagOutcome kept).1.succeeded⟩ := by
      intro role
      rw [Outcome.succeeded_of_gist_eq tags]
      apply gist_congr
      rw [gistAll_append, gistAll_append, children, Outcome.gistAll_of_gist_eq tags]
    simp only [like.isOperator, present]
    split
    · refine congrArg (Reaction.waits · .operand) ?_
      exact gist_with_congr (gist_take_congr (kept (.tag last)) like) _ _
    · exact congrArg Reaction.ends (gist_outcome_congr (kept _) _)
  | tagPattern =>
    simp only [succeeded, like.isOperator]
    split
    · exact ended _
    split
    · exact congrArg (Reaction.waits · .operand) (gist_with_congr taken _ _)
    split
    · exact congrArg (Reaction.waits · .operand) (gist_with_congr taken _ _)
    · exact congrArg Reaction.ends (gist_outcome_congr (gist_fail_congr fed _ _ _) _)

end Frame

end WolframSyntax
