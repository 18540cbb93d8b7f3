import WolframSyntax.Proofs.Climbing
import WolframSyntax.Proofs.Lossless

/-!
# Ends of lines

Outside of brackets an expression does not go on behind the end of a line, unless an operand is
still wanted there. Two constructs do not keep to that rule: a message name looks for its second
tag, and an assignment to a tag for its sign, without regard to lines (`Frame.CrossesLine`). They
are the only ones (`FileReading.takes_on_new_line_iff`), so that the rule as such does not hold
(`FileReading.not_keepsLines`).
-/

namespace WolframSyntax

open SyntaxTree

namespace Word

variable {word : Word}

/-- Outside brackets a word that begins a line goes on from nothing. -/
theorem link?_of_beginsLine (line : word.beginsLine) : word.link? false = none := by
  simp [link?, line]

/-- Outside brackets a word that begins a line begins no operand of what is in front of it. -/
theorem openingInLine?_of_beginsLine (line : word.beginsLine) :
    word.openingInLine? false = none := by
  simp [openingInLine?, line]

theorem touches_eq_false_of_beginsLine (line : word.beginsLine) : word.touches = false := by
  obtain ⟨token, present, _⟩ := List.any_eq_true.mp line
  exact List.isEmpty_eq_false_iff.mpr (List.ne_nil_of_mem present)

end Word

namespace Frame

variable {frame : Frame} {word : Word} {outcome : Outcome}

/-- The construct goes on with a word wherever the word stands: a message name that has one tag with
the sign of another, and an assignment to a tag with its sign. -/
def CrossesLine (frame : Frame) (outcome : Outcome) (word : Word) : Prop :=
  frame.role = .tag false ∧ (tagOutcome outcome).2 ∧ word.isOperator .doubleColon ∨
    frame.role = .tagPattern ∧ outcome.succeeded ∧
      (word.isOperator .set ∨ word.isOperator .setDelayed)

/-- In front of a word on a new line every construct without brackets is complete, apart from the
two that do not look at lines. -/
theorem exists_receive_eq_ends_iff (open' : frame.brackets = false) (line : word.beginsLine) :
    (∃ left, frame.receive false outcome word = .ends left) ↔ ¬frame.CrossesLine outcome word := by
  unfold receive CrossesLine
  cases role : frame.role with
  | group | items =>
    rw [brackets, role] at open'
    cases open'
  | operand kind => simp
  | chain kind sign =>
    simp only [Word.link?_of_beginsLine line]
    split <;> simp
  | compound => simp [line]
  | tag last =>
    obtain ⟨tag, present⟩ := tagOutcome outcome
    cases last <;> cases present <;> cases word.isOperator .doubleColon <;> simp
  | tagPattern =>
    cases outcome.succeeded <;> cases word.isOperator .set <;>
      cases word.isOperator .setDelayed <;> simp

/-- An operand that is missing lets no construct go on. -/
theorem not_crossesLine_missing : ¬frame.CrossesLine (frame.missing word) word := by
  rintro (⟨role, present, _⟩ | ⟨_, succeeded, _⟩)
  · simp [tagOutcome, missing, Tree.kind, Tree.content, absent] at present
  · cases succeeded

end Frame

theorem Surroundings.isBracketed_cons_eq_false_iff {surroundings : Surroundings} {frame : Frame}
    {frames : List Frame} : surroundings.isBracketed (frame :: frames) = false ↔
      frame.brackets = false ∧ surroundings.isBracketed frames = false := by
  simp [isBracketed, and_left_comm]

namespace Reading

variable {surroundings : Surroundings} {word : Word} {before after : Reading}

/-- Ends of lines count: the reading is outside of all brackets. -/
def IsOpen (surroundings : Surroundings) (reading : Reading) : Prop :=
  surroundings.isBracketed reading.frames = false

theorem brackets_eq_false_of_isOpen {frame : Frame} {frames : List Frame} {focus : Focus}
    (open' : IsOpen surroundings ⟨frame :: frames, focus⟩) : frame.brackets = false :=
  (Surroundings.isBracketed_cons_eq_false_iff.mp open').1

theorem not_isOpen_of_items {frame : Frame} {frames : List Frame} {focus : Focus}
    {enclosure : Enclosure} (role : frame.role = .items enclosure) :
    ¬IsOpen surroundings ⟨frame :: frames, focus⟩ := by
  intro open'
  have brackets := brackets_eq_false_of_isOpen open'
  rw [Frame.brackets, role] at brackets
  cases brackets

/-- A construct without brackets around it ends without brackets around it. -/
theorem Passes.isOpen (passes : Passes surroundings word before after)
    (open' : IsOpen surroundings before) : IsOpen surroundings after := by
  cases passes with
  | @ends _ frames outcome reacts =>
    generalize Reaction.ends outcome = reaction at reacts
    cases reacts <;> exact (Surroundings.isBracketed_cons_eq_false_iff.mp open').2
  | unnamed apart => exact open'

/-- Outside brackets an operand is complete in front of a new line. -/
theorem extend?_of_beginsLine {frames : List Frame} {left : SyntaxTree}
    (open' : surroundings.isBracketed frames = false) (line : word.beginsLine) :
    extend? surroundings frames left word = none := by
  unfold extend?
  rw [open', Word.link?_of_beginsLine line]

/-- A construct without brackets takes a word on a new line only if it does not look at lines. -/
theorem Reacts.crossesLine_of_taken {frames : List Frame} {reaction : Reaction}
    (reacts : Reacts surroundings word before frames reaction)
    (taken : ofReaction frames word reaction = .inl after)
    (awaits : before.Awaits surroundings word) (open' : IsOpen surroundings before)
    (line : word.beginsLine) :
    ∃ frame outcome, before = ⟨frame :: frames, .complete outcome⟩ ∧
      frame.CrossesLine outcome word := by
  have still : ∀ outcome, reaction ≠ .ends outcome := by
    rintro outcome rfl
    cases taken
  have unbracketed := open'
  rw [IsOpen] at unbracketed
  cases reacts with
  | @complete frame _ outcome stays =>
    by_cases crosses : frame.CrossesLine outcome word
    · exact ⟨frame, outcome, rfl, crosses⟩
    · obtain ⟨left, ends⟩ :=
        (Frame.exists_receive_eq_ends_iff (brackets_eq_false_of_isOpen open') line).mpr crosses
      exact absurd (by rw [unbracketed, ends]) (still left)
  | @missing frame _ focus wants unopened =>
    obtain ⟨left, ends⟩ := (Frame.exists_receive_eq_ends_iff (brackets_eq_false_of_isOpen open')
      line).mpr Frame.not_crossesLine_missing
    exact absurd (by rw [unbracketed, ends]) (still left)
  | @absent frame _ unopened =>
    have compound : frame.role = .compound := awaits.suits frame rfl
    have stops : ¬frame.CrossesLine ⟨SyntaxTree.absent .null none word.token, true⟩ word := by
      simp [Frame.CrossesLine, compound]
    obtain ⟨left, ends⟩ :=
      (Frame.exists_receive_eq_ends_iff (brackets_eq_false_of_isOpen open') line).mpr stops
    exact absurd (by rw [unbracketed, ends]) (still left)
  | empty begins role closing => exact (not_isOpen_of_items role open').elim
  | partEnd => exact (not_isOpen_of_items (awaits.suits _ rfl) open').elim

/-- A word on a new line that a reading takes begins an operand that is wanted, or goes on from a
construct that does not look at lines. -/
theorem Takes.wantsOperand_or_crossesLine (takes : Takes surroundings word before after)
    (awaits : before.Awaits surroundings word) (begun : before.IsBegun)
    (open' : IsOpen surroundings before) (line : word.beginsLine) :
    before.focus.wantsOperand ∧ word.opening?.isSome ∨
      ∃ frame frames outcome, before = ⟨frame :: frames, .complete outcome⟩ ∧
        frame.CrossesLine outcome word := by
  cases takes with
  | alone unfinished opens => exact absurd (begun rfl) (by simp [unfinished])
  | operand wants opens => exact .inl ⟨wants, by rw [opens]; rfl⟩
  | statement opens =>
    rw [show surroundings.isBracketed _ = false from open',
      Word.openingInLine?_of_beginsLine line] at opens
    cases opens
  | continues goesOn =>
    rw [extend?_of_beginsLine open' line] at goesOn
    cases goesOn
  | @reacts _ _ frames _ reacts taken =>
    obtain ⟨frame, outcome, same, crosses⟩ := reacts.crossesLine_of_taken taken awaits open' line
    exact .inr ⟨frame, frames, outcome, same, crosses⟩
  | part bracket touches =>
    rw [Word.touches_eq_false_of_beginsLine line] at touches
    cases touches
  | name identifier touches =>
    rw [Word.touches_eq_false_of_beginsLine line] at touches
    cases touches

/-- Outside of brackets a reading and what it passes on to decide a word alike. -/
theorem Passes.read_eq (passes : Passes surroundings word before after)
    (awaits : before.Awaits surroundings word) (open' : IsOpen surroundings before) :
    before.read surroundings word = after.read surroundings word := by
  cases passes with
  | @ends _ frames outcome reacts =>
    change _ = settle surroundings word frames outcome
    generalize same : Reaction.ends outcome = reaction at reacts
    cases reacts with
    | complete stays =>
      change settle surroundings word _ _ = _
      simp only [settle, stays, ← same, ofReaction]
    | @missing frame _ focus wants unopened =>
      have operand : readOperand surroundings (frame :: frames) word
          = settle surroundings word frames outcome := by
        simp only [readOperand, unopened, feed, ← same, react, ofReaction]
      cases focus with
      | operand => exact operand
      | firstItem =>
        change readFirstItem surroundings (frame :: frames) word = _
        unfold readFirstItem
        split
        · next same =>
          cases same
          exact (not_isOpen_of_items rfl open').elim
        · exact operand
      | arguments => exact (not_isOpen_of_items (awaits.suits frame rfl) open').elim
      | _ => cases wants
    | absent unopened =>
      change readStatement surroundings _ word = _
      simp only [readStatement, unopened, feed, ← same, react, ofReaction]
    | empty begins role closing => exact (not_isOpen_of_items role open').elim
    | partEnd => exact (not_isOpen_of_items (awaits.suits _ rfl) open').elim
  | unnamed apart =>
    change readBlankName surroundings _ _ _ _ word = _
    rw [readBlankName, if_neg apart]
    rfl

/-- Outside of brackets a word that can begin an operand is taken where one is wanted. -/
theorem exists_read_eq_reading_of_wantsOperand (awaits : before.Awaits surroundings word)
    (open' : IsOpen surroundings before) (wants : before.focus.wantsOperand)
    (opens : word.opening?.isSome) :
    ∃ next, before.read surroundings word = .reading next := by
  obtain ⟨opening, opens⟩ := Option.isSome_iff_exists.mp opens
  obtain ⟨frames, focus⟩ := before
  have operand : ∃ next, readOperand surroundings frames word = .reading next := by
    cases frames <;> simp only [readOperand, opens] <;> exact ⟨_, rfl⟩
  cases focus with
  | operand => exact operand
  | firstItem =>
    change ∃ next, readFirstItem surroundings frames word = .reading next
    unfold readFirstItem
    split
    · exact (not_isOpen_of_items rfl open').elim
    · exact operand
  | arguments =>
    cases frames with
    | nil => exact operand
    | cons frame frames => exact (not_isOpen_of_items (awaits.suits frame rfl) open').elim
  | _ => cases wants

/-- Outside of brackets a word on a new line becomes part of an expression if and only if it is the
operand that is wanted, or if it meets a construct that does not look at lines. -/
theorem exists_read_eq_reading_iff {reading : Reading} (fits : reading.Fits)
    (rests : reading.Rests surroundings) (begun : reading.IsBegun)
    (open' : IsOpen surroundings reading) (line : word.beginsLine) :
    (∃ next, reading.read surroundings word = .reading next) ↔
      (reading.focus.wantsOperand ∧ word.opening?.isSome) ∨
        ∃ frame frames outcome,
          Settles surroundings word reading ⟨frame :: frames, .complete outcome⟩ ∧
            frame.CrossesLine outcome word := by
  have kept : ∀ settled, Settles surroundings word reading settled →
      settled.Fits ∧ settled.Awaits surroundings word ∧ settled.IsBegun ∧
        IsOpen surroundings settled ∧
        reading.read surroundings word = settled.read surroundings word := by
    intro settled settles
    refine settles.keeps (fun settled => settled.Fits ∧ settled.Awaits surroundings word ∧
      settled.IsBegun ∧ IsOpen surroundings settled ∧
      reading.read surroundings word = settled.read surroundings word) ?_
      ⟨fits, rests.awaits word, begun, open', rfl⟩
    rintro before after passes ⟨fits, awaits, _, open', same⟩
    exact ⟨passes.fits fits, passes.awaits fits awaits, passes.isBegun, passes.isOpen open',
      same.trans (passes.read_eq awaits open')⟩
  constructor
  · rintro ⟨next, progress⟩
    obtain ⟨settled, settles, decides⟩ := exists_settles_decides surroundings reading word
    rw [progress] at decides
    obtain ⟨_, awaits, begun, settledOpen, _⟩ := kept settled settles
    cases decides with
    | takes taken =>
      rcases taken.wantsOperand_or_crossesLine awaits begun settledOpen line with
        ⟨wants, opens⟩ | ⟨frame, frames, outcome, rfl, crosses⟩
      · left
        -- Only a reading that has not passed anything on still wants an operand.
        rcases settles.cases_tail with same | ⟨_, _, passes⟩
        · exact ⟨same ▸ wants, opens⟩
        · cases passes <;> cases wants
      · exact .inr ⟨frame, frames, outcome, settles, crosses⟩
  · rintro (⟨wants, opens⟩ | ⟨frame, frames, outcome, settles, crosses⟩)
    · exact exists_read_eq_reading_of_wantsOperand (rests.awaits word) open' wants opens
    · obtain ⟨_, _, _, settledOpen, same⟩ := kept _ settles
      rw [same]
      change ∃ next, settle surroundings word (frame :: frames) outcome = .reading next
      have taken : ¬∃ left, frame.receive false outcome word = .ends left := by
        rw [Frame.exists_receive_eq_ends_iff (brackets_eq_false_of_isOpen settledOpen) line]
        exact not_not_intro crosses
      rw [IsOpen] at settledOpen
      simp only [settle, extend?_of_beginsLine settledOpen line]
      rw [settledOpen]
      cases reaction : frame.receive false outcome word with
      | ends left => exact (taken ⟨left, reaction⟩).elim
      | waits | begins | closes => exact ⟨_, rfl⟩

end Reading

namespace FileReading

/-- After any words of a file, outside of brackets: a word on a new line becomes part of the
expression in front of it if and only if it is the operand that is wanted there, or if it meets a
message name with one tag or an assignment to a tag that waits for its sign. -/
theorem takes_on_new_line_iff (grammar : Grammar) (words : List Word) (word : Word)
    (reading : Reading) (current : (words.foldl (read grammar) empty).current = some reading)
    (open' : reading.IsOpen (surroundings grammar)) (line : word.beginsLine) :
    (∃ next, reading.read (surroundings grammar) word = .reading next) ↔
      (reading.focus.wantsOperand ∧ word.opening?.isSome) ∨
        ∃ frame frames outcome,
          Reading.Settles (surroundings grammar) word reading
            ⟨frame :: frames, .complete outcome⟩ ∧ frame.CrossesLine outcome word := by
  have sound := (isSound_empty.foldl_read grammar words).1
  have agrees := agrees_foldl_read words (agrees_empty grammar) fits_empty
  exact Reading.exists_read_eq_reading_iff (sound.fits.current reading current)
    (agrees.current reading current) (sound.begun reading current) open' line

/-- An assignment to a tag finds its sign on the next line. -/
theorem takes_assignment_on_new_line :
    let words : List Word := [⟨[], ⟨.identifier, "f", 1, 1⟩⟩,
      ⟨[], ⟨.operator .tagSet, "/:", 1, 2⟩⟩, ⟨[], ⟨.identifier, "x", 1, 4⟩⟩]
    let word : Word := ⟨[⟨.lineBreak, "\n", 1, 5⟩], ⟨.operator .set, "=", 2, 1⟩⟩
    ∃ reading, (words.foldl (read .standard) empty).current = some reading ∧
      reading.IsOpen (surroundings .standard) ∧ word.beginsLine ∧
      ∃ frame frames outcome, Reading.Settles (surroundings .standard) word reading
        ⟨frame :: frames, .complete outcome⟩ ∧ frame.CrossesLine outcome word := by
  intro words word
  refine ⟨_, rfl, rfl, rfl, ?_⟩
  have taken := (takes_on_new_line_iff .standard words word _ rfl rfl rfl).mp ⟨_, rfl⟩
  exact taken.resolve_left fun wanted => by cases wanted.1

/-- The rule as such: outside of brackets, a complete expression does not go on with a word on a new
line. -/
def KeepsLines (grammar : Grammar) : Prop :=
  ∀ (words : List Word) (word : Word) (reading : Reading),
    (words.foldl (read grammar) empty).current = some reading →
    reading.IsOpen (surroundings grammar) → reading.focus.wantsOperand = false →
    word.beginsLine → ∀ next, reading.read (surroundings grammar) word ≠ .reading next

/-- A message name finds its second tag on the next line, against the rule. -/
theorem not_keepsLines : ¬KeepsLines .standard := by
  intro keeps
  let words : List Word := [⟨[], ⟨.identifier, "a", 1, 1⟩⟩,
    ⟨[], ⟨.operator .doubleColon, "::", 1, 2⟩⟩, ⟨[], ⟨.identifier, "b", 1, 4⟩⟩]
  let word : Word := ⟨[⟨.lineBreak, "\n", 1, 5⟩], ⟨.operator .doubleColon, "::", 2, 1⟩⟩
  exact keeps words word _ rfl rfl rfl rfl _ rfl

end FileReading

end WolframSyntax
