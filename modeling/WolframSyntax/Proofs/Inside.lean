import WolframSyntax.Proofs.Within
import WolframSyntax.Reading.Session

/-!
# Operands

What becomes of a whole list of words is a run (`Reading.run`). The operand of a construct is read
as an expression by itself would be, held as strongly as the construct holds it, and the construct
receives the outcome when the operand is complete (`Reading.run_inside`). Unlike in
`Reading.Reads.within`, the words may stand on any lines: the operand keeps the brackets around it.
-/

namespace WolframSyntax

/-! ## Readings as runs -/

namespace Reading

/-- What reading a list of words comes to: the outcome and the words that are left, unless the words
end first. -/
def run (surroundings : Surroundings) : Reading → List Word → Option (Option Outcome × List Word)
  | _, [] => none
  | reading, word :: words =>
    match reading.read surroundings word with
    | .reading next => run surroundings next words
    | .finished outcome => some (outcome, word :: words)

end Reading

/-- What reading comes to when a word in view has been decided. -/
def Progress.run (surroundings : Surroundings) (progress : Progress) (word : Word)
    (words : List Word) : Option (Option Outcome × List Word) :=
  match progress with
  | .reading next => next.run surroundings words
  | .finished outcome => some (outcome, word :: words)

/-- The surroundings of an operand of a construct. -/
def Surroundings.inside (surroundings : Surroundings) (frame : Frame) : Surroundings :=
  ⟨surroundings.grammar, frame.floor, surroundings.isBracketed [frame]⟩

/-- The progress inside of a frame as progress of the whole. The frame receives what is finished. -/
def Progress.inside (surroundings : Surroundings) (frame : Frame) (word : Word) :
    Progress → Progress
  | .reading next => .reading (next.within [frame])
  | .finished (some outcome) => Reading.feed surroundings frame [] outcome word
  | .finished none => .finished none

namespace Reading

variable {surroundings : Surroundings} {frame : Frame} {word : Word}

/-- A run goes on with what the first word leads to. -/
theorem run_cons (reading : Reading) (words : List Word) :
    reading.run surroundings (word :: words)
      = (reading.read surroundings word).run surroundings word words := rfl

/-- A session reads on as the run does, and has no words left where the run finds no end. -/
theorem readOn_eq_run (reading : Reading) (words : List Word) :
    Session.readOn surroundings reading words
      = match reading.run surroundings words with
        | some (outcome, rest) => (some outcome, rest)
        | none => (none, []) := by
  induction words generalizing reading with
  | nil => rfl
  | cons word words ih =>
    rw [Session.readOn, run]
    cases reading.read surroundings word with
    | reading next => exact ih next
    | finished outcome => rfl

/-- Words that end before a reading does have no end word among them. -/
theorem isEnd_eq_false_of_run_eq_none {reading : Reading} {words : List Word}
    (unended : reading.run surroundings words = none) :
    ∀ word ∈ words, word.token.isEnd = false := by
  induction words generalizing reading with
  | nil => exact List.forall_mem_nil _
  | cons word words ih =>
    rw [run_cons] at unended
    cases reads : reading.read surroundings word with
    | reading next =>
      rw [reads] at unended
      exact List.forall_mem_cons.mpr ⟨isEnd_eq_false_of_read reads, ih unended⟩
    | finished outcome =>
      rw [reads] at unended
      cases unended

/-! ## Readings inside of a frame -/

/-- The outermost frame tells those inside of it whether there are brackets around. -/
theorem isBracketed_inside (frames : List Frame) :
    surroundings.isBracketed (frames ++ [frame])
      = (surroundings.inside frame).isBracketed frames := by
  simp [Surroundings.isBracketed, Surroundings.inside, Bool.or_comm, Bool.or_left_comm]

/-- The outermost frame holds those inside of it as strongly as its surroundings say. -/
theorem floorOf_inside (frames : List Frame) :
    surroundings.floorOf (frames ++ [frame]) = (surroundings.inside frame).floorOf frames := by
  cases frames <;> rfl

/-- A word goes on inside of a frame as it does alone. -/
theorem extend?_inside (frames : List Frame) (left : SyntaxTree) :
    extend? surroundings (frames ++ [frame]) left word
      = (extend? (surroundings.inside frame) frames left word).map (within [frame]) := by
  have grammar : (surroundings.inside frame).grammar = surroundings.grammar := rfl
  unfold extend?
  rw [isBracketed_inside, floorOf_inside, grammar]
  dsimp only
  cases word.link? ((surroundings.inside frame).isBracketed frames) with
  | none => rfl
  | some link =>
    cases link with
    | sign sign continuation =>
      dsimp only
      split
      · rw [Option.map_some, within_continueWith]
      · rfl
    | factor opening =>
      dsimp only
      split
      · rw [Option.map_some, multiply, multiply, within_beginOperand]
      · rfl

/-- A reaction inside of a frame is one that happens alone, if settling is. -/
theorem react_inside_of_settle {frames : List Frame} (reaction : Reaction)
    (settles : ∀ outcome, settle surroundings word (frames ++ [frame]) outcome
      = (settle (surroundings.inside frame) word frames outcome).inside surroundings frame word) :
    react surroundings (frames ++ [frame]) reaction word
      = (react (surroundings.inside frame) frames reaction word).inside
          surroundings frame word := by
  cases reaction with
  | ends outcome => exact settles outcome
  | waits | closes => rfl
  | begins next opening =>
    change Progress.reading _ = Progress.reading _
    rw [within_beginOperand]

theorem feed_inside_of_settle {inner : Frame} {frames : List Frame} (outcome : Outcome)
    (settles : ∀ outcome, settle surroundings word (frames ++ [frame]) outcome
      = (settle (surroundings.inside frame) word frames outcome).inside surroundings frame word) :
    feed surroundings inner (frames ++ [frame]) outcome word
      = (feed (surroundings.inside frame) inner frames outcome word).inside
          surroundings frame word := by
  rw [feed, feed, ← List.cons_append, isBracketed_inside]
  exact react_inside_of_settle _ settles

/-- An expression inside of a frame is complete there before the frame receives it. -/
theorem settle_inside (frames : List Frame) (outcome : Outcome) :
    settle surroundings word (frames ++ [frame]) outcome
      = (settle (surroundings.inside frame) word frames outcome).inside
          surroundings frame word := by
  induction frames generalizing outcome with
  | nil =>
    rw [List.nil_append, settle_cons, settle_nil, ← List.nil_append [frame], extend?_inside]
    cases extend? (surroundings.inside frame) [] outcome.tree word <;> rfl
  | cons inner frames ih =>
    rw [List.cons_append, settle_cons, settle_cons, ← List.cons_append, extend?_inside]
    cases extend? (surroundings.inside frame) (inner :: frames) outcome.tree word with
    | some next => rfl
    | none => exact feed_inside_of_settle outcome ih

theorem react_inside (frames : List Frame) (reaction : Reaction) :
    react surroundings (frames ++ [frame]) reaction word
      = (react (surroundings.inside frame) frames reaction word).inside surroundings frame word :=
  react_inside_of_settle reaction (settle_inside frames)

/-- An operand is read inside of a frame as it is alone. -/
theorem readOperand_inside (inner : Frame) (frames : List Frame) :
    readOperand surroundings (inner :: frames ++ [frame]) word
      = (readOperand (surroundings.inside frame) (inner :: frames) word).inside
          surroundings frame word := by
  rw [List.cons_append]
  unfold readOperand
  cases word.opening? with
  | none => exact feed_inside_of_settle _ (settle_inside frames)
  | some opening =>
    change Progress.reading _ = Progress.reading _
    rw [within_beginOperand]

theorem readFirstItem_inside (inner : Frame) (frames : List Frame) :
    readFirstItem surroundings (inner :: frames ++ [frame]) word
      = (readFirstItem (surroundings.inside frame) (inner :: frames) word).inside
          surroundings frame word := by
  have operand : readOperand surroundings (inner :: frames ++ [frame]) word
      = (readOperand (surroundings.inside frame) (inner :: frames) word).inside
          surroundings frame word := readOperand_inside inner frames
  obtain ⟨role, floor, children, succeeded⟩ := inner
  unfold readFirstItem
  rw [List.cons_append] at operand ⊢
  cases role with
  | items enclosure =>
    dsimp only
    split
    · exact react_inside frames _
    · exact operand
  | group | operand | chain | compound | tag | tagPattern => exact operand

theorem readArguments_inside (inner : Frame) (frames : List Frame) :
    readArguments surroundings (inner :: frames ++ [frame]) word
      = (readArguments (surroundings.inside frame) (inner :: frames) word).inside
          surroundings frame word := by
  rw [List.cons_append]
  unfold readArguments
  dsimp only
  split
  · rfl
  · exact readFirstItem_inside inner frames

theorem readStatement_inside (inner : Frame) (frames : List Frame) :
    readStatement surroundings (inner :: frames ++ [frame]) word
      = (readStatement (surroundings.inside frame) (inner :: frames) word).inside
          surroundings frame word := by
  unfold readStatement
  rw [isBracketed_inside, List.cons_append]
  cases word.openingInLine? ((surroundings.inside frame).isBracketed (inner :: frames)) with
  | none => exact feed_inside_of_settle _ (settle_inside frames)
  | some opening =>
    change Progress.reading _ = Progress.reading _
    rw [within_beginOperand]

theorem readBlankName_inside (frames : List Frame) (kind : NodeKind) (blank : Token)
    (named : Option SyntaxTree) :
    readBlankName surroundings (frames ++ [frame]) kind blank named word
      = (readBlankName (surroundings.inside frame) frames kind blank named word).inside
          surroundings frame word := by
  unfold readBlankName
  dsimp only
  split
  · rfl
  · exact settle_inside _ _

/-- A word is read inside of a frame as it is read alone, and the frame receives what is
finished. -/
theorem read_inside {reading : Reading} (begun : reading.IsBegun) :
    (reading.within [frame]).read surroundings word
      = (reading.read (surroundings.inside frame) word).inside surroundings frame word := by
  obtain ⟨frames, focus⟩ := reading
  cases focus with
  | complete outcome => exact settle_inside frames outcome
  | blankName kind blank named => exact readBlankName_inside frames kind blank named
  | operand | firstItem | arguments | partEnd | statement =>
    cases frames with
    | nil => exact absurd (begun rfl) Bool.false_ne_true
    | cons inner frames =>
      first
        | exact readOperand_inside inner frames
        | exact readFirstItem_inside inner frames
        | exact readArguments_inside inner frames
        | exact react_inside frames _
        | exact readStatement_inside inner frames

/-- Only a reading that has not been begun can finish without an outcome. -/
theorem isSome_of_read_eq_finished {reading : Reading} {outcome : Option Outcome}
    (begun : reading.IsBegun) (reads : reading.read surroundings word = .finished outcome) :
    outcome.isSome := by
  obtain ⟨settled, settles, decides⟩ := exists_settles_decides surroundings reading word
  rw [reads] at decides
  cases decides with
  | finishes => rfl
  | unbegun unfinished =>
    have kept := settles.keeps IsBegun (fun _ _ passes _ => passes.isBegun) begun
    rw [kept rfl] at unfinished
    cases unfinished

/-- Words are read inside of a frame as they are read alone, and the frame receives what is
finished. -/
theorem run_inside (surroundings : Surroundings) (frame : Frame) {reading : Reading}
    (begun : reading.IsBegun) (words : List Word) :
    reading.run (surroundings.inside frame) words = none ∧
        (reading.within [frame]).run surroundings words = none ∨
      ∃ outcome word rest, word :: rest <:+ words ∧
        reading.run (surroundings.inside frame) words = some (some outcome, word :: rest) ∧
        (reading.within [frame]).run surroundings words
          = (feed surroundings frame [] outcome word).run surroundings word rest := by
  induction words generalizing reading with
  | nil => exact .inl ⟨rfl, rfl⟩
  | cons word words ih =>
    rw [run_cons, run_cons, read_inside begun]
    cases reads : reading.read (surroundings.inside frame) word with
    | reading next =>
      rcases ih (isBegun_of_read reads) with unended | ⟨outcome, last, rest, behind, alone, within⟩
      · exact .inl unended
      · exact .inr ⟨outcome, last, rest, behind.trans (List.suffix_cons _ _), alone, within⟩
    | finished outcome =>
      obtain ⟨outcome, rfl⟩ := Option.isSome_iff_exists.mp (isSome_of_read_eq_finished begun reads)
      exact .inr ⟨outcome, word, words, List.suffix_refl _, rfl, rfl⟩

end Reading

end WolframSyntax
