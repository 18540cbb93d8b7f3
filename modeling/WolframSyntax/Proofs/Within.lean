import WolframSyntax.Proofs.Layout
import WolframSyntax.Proofs.Streams
import WolframSyntax.Proofs.TermReading

/-!
# Expressions inside of others

An expression is read inside of other constructs as it is read alone, as long as the constructs hold
it no more strongly than its surroundings do and its words stand on one line
(`Reading.Reads.within`). It is ended there by every word that goes on from nothing, and leaves the
same behind as at the end of a text (`Reading.exists_read_of_stops`).
-/

namespace WolframSyntax

open SyntaxTree WolframSyntax.Tree

/-! ## Words on one line -/

namespace Word

variable {word : Word}

/-- Brackets matter to words on new lines only. -/
theorem link?_of_inLine (inLine : word.beginsLine = false) (bracketed other : Bool) :
    word.link? bracketed = word.link? other := by
  simp only [link?, inLine, Bool.and_false]

/-- A word within a line begins the same in brackets and outside of them. -/
theorem openingInLine?_of_inLine (inLine : word.beginsLine = false) (bracketed other : Bool) :
    word.openingInLine? bracketed = word.openingInLine? other := by
  simp only [openingInLine?, inLine, Bool.and_false]

end Word

/-- A construct receives its operand alike in brackets and outside of them, if the word does not
begin a line. -/
theorem Frame.receive_of_inLine {frame : Frame} {word : Word} (inLine : word.beginsLine = false)
    (outcome : Outcome) (bracketed other : Bool) :
    frame.receive bracketed outcome word = frame.receive other outcome word := by
  unfold receive
  simp only [Word.link?_of_inLine inLine bracketed other, inLine, Bool.not_false, Bool.or_true]

/-! ## Readings inside of further frames -/

/-- Some frames hold what is read inside of them as strongly as other surroundings would. -/
structure Surroundings.Supports (surroundings : Surroundings) (outer : List Frame)
    (inner : Surroundings) : Prop where
  grammar : surroundings.grammar = inner.grammar
  floor : surroundings.floorOf outer = inner.floor

/-- Supporting frames hold what is inside of them as strongly as the surroundings do. -/
theorem Surroundings.Supports.floorOf {surroundings inner : Surroundings} {outer : List Frame}
    (supports : surroundings.Supports outer inner) (frames : List Frame) :
    surroundings.floorOf (frames ++ outer) = inner.floorOf frames := by
  cases frames with
  | nil => exact supports.floor
  | cons => rfl

namespace Reading

/-- The reading inside of further frames. -/
def within (outer : List Frame) (reading : Reading) : Reading :=
  ⟨reading.frames ++ outer, reading.focus⟩

theorem within_nil (reading : Reading) : reading.within [] = reading := by
  rw [within, List.append_nil]

/-- A word begins the same expression inside of further frames. -/
theorem within_begin (frames outer : List Frame) (opening : Opening) (token : Token) :
    (begin frames opening token).within outer = begin (frames ++ outer) opening token := by
  cases opening <;> rfl

/-- An operator goes on in the same way inside of further frames. -/
theorem within_continueWith (grammar : Grammar) (frames outer : List Frame) (left : SyntaxTree)
    (sign : Operator) (continuation : Continuation) (word : Word) :
    (continueWith grammar frames left sign continuation word).within outer
      = continueWith grammar (frames ++ outer) left sign continuation word := by
  cases continuation <;> rfl

/-- A word begins the same operand inside of further frames. -/
theorem within_beginOperand (frame : Frame) (frames outer : List Frame) (opening : Opening)
    (word : Word) :
    (beginOperand frame frames opening word).within outer
      = beginOperand frame (frames ++ outer) opening word :=
  within_begin _ _ _ _

variable {surroundings inner : Surroundings} {outer : List Frame} {word : Word}

/-- A word within a line goes on in the same way inside of further frames. -/
theorem extend?_within (supports : surroundings.Supports outer inner)
    (inLine : word.beginsLine = false) (frames : List Frame) (left : SyntaxTree) :
    extend? surroundings (frames ++ outer) left word
      = (extend? inner frames left word).map (within outer) := by
  have link := Word.link?_of_inLine inLine (surroundings.isBracketed (frames ++ outer))
    (inner.isBracketed frames)
  unfold extend?
  simp only [link, supports.floorOf, supports.grammar]
  cases word.link? (inner.isBracketed frames) with
  | none => rfl
  | some link =>
    cases link with
    | sign sign continuation =>
      dsimp only
      split
      · rw [Option.map_some, within_continueWith]
      · rfl
    | factor opening =>
      dsimp only
      split
      · rw [Option.map_some, multiply, multiply, within_beginOperand]
      · rfl

/-- A reaction leads to the same reading inside of further frames if settling does. -/
theorem react_within {frames : List Frame} {reaction : Reaction} {next : Reading}
    (settles : ∀ outcome, settle inner word frames outcome = .reading next →
      settle surroundings word (frames ++ outer) outcome = .reading (next.within outer))
    (reads : react inner frames reaction word = .reading next) :
    react surroundings (frames ++ outer) reaction word = .reading (next.within outer) := by
  cases reaction with
  | waits | closes =>
    cases reads
    rfl
  | begins frame opening =>
    cases reads
    rw [within_beginOperand]
    rfl
  | ends outcome => exact settles outcome reads

/-- An outcome that is taken up inside is so inside of further frames. -/
theorem settle_within (supports : surroundings.Supports outer inner)
    (inLine : word.beginsLine = false) {frames : List Frame} {outcome : Outcome} {next : Reading}
    (reads : settle inner word frames outcome = .reading next) :
    settle surroundings word (frames ++ outer) outcome = .reading (next.within outer) := by
  induction frames generalizing outcome with
  | nil =>
    rw [settle_nil] at reads
    cases goesOn : extend? inner [] outcome.tree word with
    | none =>
      rw [goesOn] at reads
      cases reads
    | some extended =>
      rw [goesOn] at reads
      cases reads
      exact settle_of_extend? (by rw [extend?_within supports inLine, goesOn, Option.map_some])
  | cons frame frames ih =>
    rw [settle_cons] at reads
    rw [List.cons_append, settle_cons, ← List.cons_append, extend?_within supports inLine]
    cases goesOn : extend? inner (frame :: frames) outcome.tree word with
    | some extended =>
      rw [goesOn] at reads
      cases reads
      rfl
    | none =>
      rw [goesOn] at reads
      have received := frame.receive_of_inLine inLine outcome
        (surroundings.isBracketed (frame :: (frames ++ outer)))
        (inner.isBracketed (frame :: frames))
      change react surroundings (frames ++ outer) _ word = _
      rw [received]
      exact react_within (fun _ => ih) reads

/-- A construct that is fed an operand goes on in the same way inside of further frames. -/
theorem feed_within (supports : surroundings.Supports outer inner)
    (inLine : word.beginsLine = false) {frame : Frame} {frames : List Frame} {outcome : Outcome}
    {next : Reading}
    (reads : feed inner frame frames outcome word = .reading next) :
    feed surroundings frame (frames ++ outer) outcome word = .reading (next.within outer) := by
  have received := frame.receive_of_inLine inLine outcome
    (surroundings.isBracketed (frame :: (frames ++ outer))) (inner.isBracketed (frame :: frames))
  rw [feed, received]
  exact react_within (fun _ => settle_within supports inLine) reads

/-- An operand is read, or missing, in the same way inside of further frames. -/
theorem readOperand_within (supports : surroundings.Supports outer inner)
    (inLine : word.beginsLine = false) {frame : Frame} {frames : List Frame} {next : Reading}
    (reads : readOperand inner (frame :: frames) word = .reading next) :
    readOperand surroundings (frame :: (frames ++ outer)) word = .reading (next.within outer) := by
  unfold readOperand at reads ⊢
  cases opens : word.opening? with
  | some opening =>
    rw [opens] at reads
    cases reads
    rw [within_beginOperand]
  | none =>
    rw [opens] at reads
    exact feed_within supports inLine reads

theorem readFirstItem_within (supports : surroundings.Supports outer inner)
    (inLine : word.beginsLine = false) {frame : Frame} {frames : List Frame} {next : Reading}
    (reads : readFirstItem inner (frame :: frames) word = .reading next) :
    readFirstItem surroundings (frame :: (frames ++ outer)) word
      = .reading (next.within outer) := by
  obtain ⟨role, floor, children, succeeded⟩ := frame
  cases role with
  | items enclosure =>
    unfold readFirstItem at reads ⊢
    dsimp only at reads ⊢
    split at reads
    · next closing =>
      rw [if_pos closing]
      exact react_within (fun _ => settle_within supports inLine) reads
    · next other =>
      rw [if_neg other]
      exact readOperand_within supports inLine reads
  | _ => exact readOperand_within supports inLine reads

theorem readArguments_within (supports : surroundings.Supports outer inner)
    (inLine : word.beginsLine = false) {frame : Frame} {frames : List Frame} {next : Reading}
    (reads : readArguments inner (frame :: frames) word = .reading next) :
    readArguments surroundings (frame :: (frames ++ outer)) word
      = .reading (next.within outer) := by
  unfold readArguments at reads ⊢
  dsimp only at reads ⊢
  split at reads
  · next part =>
    cases reads
    rw [if_pos part]
    rfl
  · next other =>
    rw [if_neg other]
    exact readFirstItem_within supports inLine reads

theorem readStatement_within (supports : surroundings.Supports outer inner)
    (inLine : word.beginsLine = false) {frame : Frame} {frames : List Frame} {next : Reading}
    (reads : readStatement inner (frame :: frames) word = .reading next) :
    readStatement surroundings (frame :: (frames ++ outer)) word
      = .reading (next.within outer) := by
  have same := Word.openingInLine?_of_inLine inLine
    (surroundings.isBracketed (frame :: (frames ++ outer))) (inner.isBracketed (frame :: frames))
  unfold readStatement at reads ⊢
  rw [same]
  cases opens : word.openingInLine? (inner.isBracketed (frame :: frames)) with
  | some opening =>
    rw [opens] at reads
    cases reads
    rw [within_beginOperand]
  | none =>
    rw [opens] at reads
    exact feed_within supports inLine reads

/-- A word on the line of an expression that becomes part of it does so inside of other constructs
as well. -/
theorem read_within (supports : surroundings.Supports outer inner)
    (inLine : word.beginsLine = false) {reading next : Reading} (begun : reading.IsBegun)
    (reads : reading.read inner word = .reading next) :
    (reading.within outer).read surroundings word = .reading (next.within outer) := by
  obtain ⟨frames, focus⟩ := reading
  cases focus with
  | complete outcome => exact settle_within supports inLine reads
  | blankName kind blank named =>
    change readBlankName inner frames kind blank named word = _ at reads
    change readBlankName surroundings (frames ++ outer) kind blank named word = _
    unfold readBlankName at reads ⊢
    dsimp only at reads ⊢
    split at reads
    · next attached =>
      cases reads
      rw [if_pos attached]
      rfl
    · next apart =>
      rw [if_neg apart]
      exact settle_within supports inLine reads
  | operand | firstItem | arguments | partEnd | statement =>
    cases frames with
    | nil => exact absurd (begun rfl) Bool.false_ne_true
    | cons frame frames =>
      first
        | exact readOperand_within supports inLine reads
        | exact readFirstItem_within supports inLine reads
        | exact readArguments_within supports inLine reads
        | exact react_within (fun _ => settle_within supports inLine) reads
        | exact readStatement_within supports inLine reads

/-- A reading that has taken a word has been begun. -/
theorem isBegun_of_read {reading next : Reading}
    (reads : reading.read inner word = .reading next) : next.IsBegun := by
  obtain ⟨settled, _, decides⟩ := exists_settles_decides inner reading word
  rw [reads] at decides
  cases decides with
  | takes taken => exact taken.isBegun

/-- Words on one line that become part of an expression do so inside of other constructs as well. -/
theorem Reads.within (supports : surroundings.Supports outer inner) {words : List Word}
    (inLine : ∀ word ∈ words, word.beginsLine = false) {before after : Reading}
    (begun : before.IsBegun) (reads : Reads inner before words after) :
    Reads surroundings (before.within outer) words (after.within outer) := by
  induction words generalizing before with
  | nil =>
    cases reads
    rfl
  | cons word words ih =>
    obtain ⟨first, others⟩ := List.forall_mem_cons.mp inLine
    obtain ⟨next, progress, later⟩ := reads
    exact ⟨_, read_within supports first begun progress,
      ih others (isBegun_of_read progress) later⟩

end Reading

/-! ## Words that go on from nothing -/

/-- A word that goes on from nothing in front of it, neither by its sign nor by what it begins. -/
structure Word.Stops (bracketed : Bool) (word : Word) : Prop where
  unlinked : word.link? bracketed = none
  unopened : word.openingInLine? bracketed = none
  unnamed : ¬(word.token.kind = .identifier ∧ word.touches)
  unsigned : ∀ sign, (Continuation.ofOperator? sign).isSome → Opening.ofOperator? sign = none →
    word.isOperator sign = false

namespace Word

variable {word : Word}

/-- A word that goes into no expression goes on from nothing. -/
theorem stops_of_isForeign (foreign : word.IsForeign) (bracketed : Bool) :
    word.Stops bracketed where
  unlinked := foreign.link?_eq_none bracketed
  unopened := by
    cases opens : word.openingInLine? bracketed with
    | none => rfl
    | some opening =>
      exact absurd (opening?_of_openingInLine? opens) (by simp [foreign.unopened])
  unnamed := by
    rintro ⟨name, _⟩
    have unopened := foreign.unopened
    rw [opening?, name] at unopened
    cases unopened
  unsigned sign _ _ := foreign.unsigned sign

/-- An operator that neither begins nor continues an expression. -/
theorem stops_of_separator {sign : Operator} (kind : word.token.kind = .operator sign)
    (ends : Continuation.ofOperator? sign = none) (begins : Opening.ofOperator? sign = none)
    (bracketed : Bool) : word.Stops bracketed where
  unlinked := link?_of_separator kind ends begins bracketed
  unopened := by simp [openingInLine?, opening?, kind, Opening.ofKind?, begins]
  unnamed := by simp [kind]
  unsigned other goesOn _ := by
    rw [isOperator_of_kind kind, beq_eq_false_iff_ne]
    rintro rfl
    rw [ends] at goesOn
    cases goesOn

end Word

/-- Two words that go on from nothing leave the same of a construct without brackets. -/
theorem Frame.exists_receive_eq_ends_of_stops {frame : Frame} (open' : frame.brackets = false)
    {held kept : Outcome} (outcomes : held.gist = kept.gist) {word other : Word}
    {bracketed otherwise : Bool} (stops : word.Stops bracketed)
    (otherStops : other.Stops otherwise) :
    ∃ left right, frame.receive bracketed held word = .ends left ∧
      frame.receive otherwise kept other = .ends right ∧ left.gist = right.gist := by
  have fed : (frame.add held).gist = (frame.add kept).gist := gist_add_congr rfl outcomes
  have succeeded := Outcome.succeeded_of_gist_eq outcomes
  unfold receive
  cases role : frame.role with
  | group | items =>
    rw [brackets, role] at open'
    cases open'
  | operand kind => exact ⟨_, _, rfl, rfl, gist_outcome_congr fed kind⟩
  | chain kind sign =>
    simp only [stops.unlinked, otherStops.unlinked, ite_self]
    exact ⟨_, _, rfl, rfl, gist_outcome_congr fed kind⟩
  | compound =>
    simp only [stops.unsigned .semicolon rfl rfl, otherStops.unsigned .semicolon rfl rfl]
    exact ⟨_, _, rfl, rfl, gist_outcome_congr fed .compoundExpression⟩
  | tag last =>
    obtain ⟨tags, _⟩ := tagOutcome_congr outcomes
    simp only [stops.unsigned .doubleColon rfl rfl, otherStops.unsigned .doubleColon rfl rfl,
      Bool.and_false]
    refine ⟨_, _, rfl, rfl, gist_outcome_congr ?_ .messageName⟩
    rw [Outcome.succeeded_of_gist_eq tags]
    apply gist_congr
    rw [gistAll_append, gistAll_append, Outcome.gistAll_of_gist_eq tags]
  | tagPattern =>
    simp only [stops.unsigned .set rfl rfl, stops.unsigned .setDelayed rfl rfl,
      otherStops.unsigned .set rfl rfl, otherStops.unsigned .setDelayed rfl rfl, ← succeeded]
    split
    · exact ⟨_, _, rfl, rfl, gist_outcome_congr fed .tagSet⟩
    · exact ⟨_, _, rfl, rfl, gist_outcome_congr (gist_fail_congr fed _ word other) .tagSet⟩

namespace Reading

variable {surroundings inner : Surroundings} {frames outer : List Frame} {word ending : Word}
  {held kept : Outcome}

/-- Frames without brackets do not matter to a word that goes on from nothing. -/
theorem stops_append (open' : inner.isBracketed frames = false)
    (stops : word.Stops (surroundings.isBracketed outer)) :
    word.Stops (surroundings.isBracketed (frames ++ outer)) := by
  have none : frames.any Frame.brackets = false := (Bool.or_eq_false_iff.mp open').2
  rw [Surroundings.isBracketed] at stops ⊢
  rwa [List.any_append, none, Bool.false_or]

/-- A word that goes on from nothing extends no operand. -/
theorem extend?_of_stops (stops : word.Stops (surroundings.isBracketed frames))
    (left : SyntaxTree) : extend? surroundings frames left word = none := by
  unfold extend?
  rw [stops.unlinked]

/-- An expression that stands alone is finished in front of a word that goes on from nothing. -/
theorem settle_nil_of_stops (stops : word.Stops (surroundings.isBracketed []))
    (outcome : Outcome) : settle surroundings word [] outcome = .finished (some outcome) := by
  rw [settle_nil, extend?_of_stops stops]
  rfl

/-- Without its next expression, a sequence settles with an empty one. -/
theorem read_statement_of_stops {frame : Frame}
    (stops : word.Stops (surroundings.isBracketed (frame :: frames))) :
    read surroundings ⟨frame :: frames, .statement⟩ word
      = settle surroundings word (frame :: frames) ⟨absent .null none word.token, true⟩ := by
  change readStatement surroundings (frame :: frames) word = _
  rw [settle_cons, extend?_of_stops stops]
  simp only [readStatement, stops.unopened]
  rfl

/-- Two words that go on from nothing finish an expression outside of brackets alike, one of them at
the end of all, and the other one inside of further frames. -/
theorem exists_settle_of_stops (open' : inner.isBracketed frames = false)
    (outcomes : held.gist = kept.gist) (ends : ending.Stops false)
    (stops : word.Stops (surroundings.isBracketed outer)) :
    ∃ left right, settle inner ending frames held = .finished (some left) ∧
      settle surroundings word (frames ++ outer) kept = settle surroundings word outer right ∧
      left.gist = right.gist := by
  induction frames generalizing held kept with
  | nil => exact ⟨held, kept, settle_nil_of_stops (by rwa [open']) held, rfl, outcomes⟩
  | cons frame frames ih =>
    obtain ⟨own, tail⟩ := Surroundings.isBracketed_cons_eq_false_iff.mp open'
    have endsHere : ending.Stops (inner.isBracketed (frame :: frames)) := by rwa [open']
    have stopsHere : word.Stops (surroundings.isBracketed (frame :: (frames ++ outer))) :=
      stops_append open' stops
    obtain ⟨left, right, endsFrame, stopsFrame, lefts⟩ :=
      frame.exists_receive_eq_ends_of_stops own outcomes endsHere stopsHere
    obtain ⟨last, rest, finishes, settles, gists⟩ := ih tail lefts
    refine ⟨last, rest, ?_, ?_, gists⟩
    · rw [settle_cons, extend?_of_stops endsHere, feed, endsFrame]
      exact finishes
    · rw [List.cons_append, settle_cons, extend?_of_stops stopsHere, feed, stopsFrame]
      exact settles

/-- An expression that a foreign word ends without errors stands outside of brackets and is
complete, apart from the name of a blank and from an empty end of a sequence. -/
theorem isOpen_of_isClean {reading : Reading} (outside : inner.bracketed = false)
    (begun : reading.IsBegun) (foreign : ending.IsForeign)
    (clean : (reading.read inner ending).IsClean) :
    reading.IsOpen inner ∧ reading.focus.wantsOperand = false ∧
      reading.focus ≠ .partEnd := by
  obtain ⟨settled, settles, decides⟩ := exists_settles_decides inner reading ending
  have settledBegun : settled.IsBegun :=
    settles.keeps IsBegun (fun _ _ passes _ => passes.isBegun) begun
  obtain ⟨outcome, rfl, last⟩ : ∃ outcome, settled = ⟨[], .complete outcome⟩ ∧
      outcome.tree.IsClean := by
    generalize reading.read inner ending = progress at decides clean
    cases decides with
    | takes taken => exact (taken.not_isForeign foreign).elim
    | finishes stays => exact ⟨_, rfl, clean _ rfl⟩
    | unbegun unfinished unopened => exact absurd (settledBegun rfl) (by simp [unfinished])
  have settledClean : IsClean ⟨[], .complete outcome⟩ := ⟨List.forall_mem_nil _, last⟩
  clear settledBegun decides clean begun
  -- From the last construct inwards, every one that ends is no bracket.
  induction settles using Relation.ReflTransGen.head_induction_on with
  | refl =>
    refine ⟨?_, rfl, Focus.noConfusion⟩
    rw [IsOpen, Surroundings.isBracketed, outside]
    rfl
  | head passes later ih =>
    obtain ⟨open', _⟩ := ih
    obtain ⟨complete, noEnd, same | ⟨frame, inner, same⟩⟩ :=
      passes.frames_of_isClean (isClean_of_settles later settledClean)
    · rw [IsOpen, same]
      exact ⟨open', complete, noEnd⟩
    · rw [IsOpen, same]
      exact ⟨Surroundings.isBracketed_cons_eq_false_iff.mpr ⟨inner, open'⟩, complete, noEnd⟩

/-- Where an expression is ended by a foreign word without errors, every word that goes on from
nothing ends it inside of further frames, with the same gist. -/
theorem exists_read_of_stops {reading : Reading} (outside : inner.bracketed = false)
    (begun : reading.IsBegun) (foreign : ending.IsForeign)
    (clean : (reading.read inner ending).IsClean)
    (stops : word.Stops (surroundings.isBracketed outer)) :
    ∃ left right, reading.read inner ending = .finished (some left) ∧
      (reading.within outer).read surroundings word = settle surroundings word outer right ∧
      left.gist = right.gist := by
  obtain ⟨open', complete, noEnd⟩ := isOpen_of_isClean outside begun foreign clean
  have ends : ending.Stops false := Word.stops_of_isForeign foreign false
  obtain ⟨frames, focus⟩ := reading
  rw [IsOpen] at open'
  dsimp only at open'
  cases focus with
  | operand | firstItem | arguments => cases complete
  | partEnd => exact (noEnd rfl).elim
  | complete outcome => exact exists_settle_of_stops open' rfl ends stops
  | blankName kind blank named =>
    change ∃ left right, readBlankName _ _ _ _ _ _ = _ ∧ readBlankName _ _ _ _ _ _ = _ ∧ _
    rw [readBlankName, if_neg ends.unnamed, readBlankName, if_neg stops.unnamed]
    exact exists_settle_of_stops open' rfl ends stops
  | statement =>
    cases frames with
    | nil => exact absurd (begun rfl) Bool.false_ne_true
    | cons frame frames =>
      have nulls : Outcome.gist ⟨absent .null none ending.token, true⟩
          = Outcome.gist ⟨absent .null none word.token, true⟩ := by
        rw [Outcome.gist, Outcome.gist, gist_absent, gist_absent]
        rfl
      have stopsHere : word.Stops (surroundings.isBracketed (frame :: (frames ++ outer))) :=
        stops_append open' stops
      change ∃ left right, _ ∧
        read surroundings ⟨frame :: (frames ++ outer), .statement⟩ word = _ ∧ _
      rw [read_statement_of_stops (by rwa [open']), read_statement_of_stops stopsHere]
      exact exists_settle_of_stops open' nulls ends stops

end Reading

end WolframSyntax
