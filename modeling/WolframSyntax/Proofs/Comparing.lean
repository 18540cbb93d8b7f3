import WolframSyntax.Proofs.Alike
import WolframSyntax.Proofs.Faults

/-!
# Comparing two readings

Two readings with the same gist stay so when they read words that mean the same
(`Reading.gist_read_congr`, `FileReading.Behind.read`). Of the trivia in front of a word only two
facts can make a difference: whether a line ends in it, which counts outside of brackets only, and
whether there is any, which counts in front of a blank and where the focus minds (`Focus.minds`).
-/

namespace WolframSyntax

open SyntaxTree WolframSyntax.Tree

/-! ## Readings -/

namespace Surroundings

variable {surroundings : Surroundings} {frames others : List Frame}

/-- How strongly operands are bound is part of the gist. -/
theorem floorOf_congr (same : frames.map Frame.gist = others.map Frame.gist) :
    surroundings.floorOf frames = surroundings.floorOf others := by
  cases frames with
  | nil =>
    rw [List.map_eq_nil_iff.mp same.symm]
  | cons frame frames =>
    obtain ⟨other, rest, rfl, inner, _⟩ := List.map_eq_cons_iff.mp same.symm
    have floors := congrArg Frame.floor inner
    exact floors.symm

/-- Whether there are brackets around is part of the gist. -/
theorem isBracketed_congr (same : frames.map Frame.gist = others.map Frame.gist) :
    surroundings.isBracketed frames = surroundings.isBracketed others := by
  have brackets : ∀ frames : List Frame,
      frames.any Frame.brackets = (frames.map Frame.gist).any Frame.brackets := by
    intro frames
    rw [List.any_map]
    rfl
  rw [isBracketed, isBracketed, brackets frames, brackets others, same]

/-- A frame without brackets leaves what is around it. -/
theorem isBracketed_cons {frame : Frame} (open' : frame.brackets = false) (frames : List Frame) :
    surroundings.isBracketed (frame :: frames) = surroundings.isBracketed frames := by
  simp [isBracketed, open']

end Surroundings

namespace Reading

variable {surroundings : Surroundings} {word other : Word} {frames others : List Frame}

theorem gist_begin_congr (same : frames.map Frame.gist = others.map Frame.gist) (opening : Opening)
    {token twin : Token} (tokens : token.unplaced = twin.unplaced) :
    (begin frames opening token).gist = (begin others opening twin).gist := by
  have leaves : gistAll [leaf token] = gistAll [leaf twin] :=
    gistAll_singleton_congr (by rw [gist_leaf, gist_leaf, tokens])
  cases opening with
  | atom kind =>
    simp only [begin, gist, Focus.gist, Outcome.gist, gist_ofKind, leaves, same]
  | blank kind => simp only [begin, gist, Focus.gist, tokens, same, Option.map_none]
  | group | list | operator =>
    simp only [begin, gist, Focus.gist, List.map_cons, Frame.gist_congr leaves, same]

theorem gist_beginOperand_congr {frame twin : Frame} (inner : frame.gist = twin.gist)
    (outer : frames.map Frame.gist = others.map Frame.gist) (opening : Opening)
    (like : word.Like other) :
    (beginOperand frame frames opening word).gist
      = (beginOperand twin others opening other).gist := by
  refine gist_begin_congr ?_ opening like.token
  rw [List.map_cons, List.map_cons, Frame.gist_takeLead_congr inner like, outer]

/-- Words that differ in their places go on from operands in expressions that do. -/
theorem gist_continueWith_congr (same : frames.map Frame.gist = others.map Frame.gist)
    {left right : SyntaxTree} (operands : left.gist = right.gist) (grammar : Grammar)
    (sign : Operator) (continuation : Continuation) (like : word.Like other) :
    (continueWith grammar frames left sign continuation word).gist
      = (continueWith grammar others right sign continuation other).gist := by
  have taken : gistAll (left :: word.leaves) = gistAll (right :: other.leaves) := by
    rw [gistAll_cons, gistAll_cons right, gistAll_singleton_congr operands, like.gistAll_leaves]
  cases continuation with
  | suffix kind =>
    simp only [continueWith, gist, Focus.gist, Outcome.gist, gist_ofKind, taken, same]
  | pattern mark =>
    simp only [continueWith, gist, Focus.gist, like.token, operands, same, Option.map_some]
  | _ =>
    simp only [continueWith, gist, Focus.gist, List.map_cons, Frame.gist_congr taken, same]

/-- Whether and how a word goes on from an expression depends on gists only. -/
theorem extend?_congr (same : frames.map Frame.gist = others.map Frame.gist)
    {left right : SyntaxTree} (operands : left.gist = right.gist) (like : word.Like other)
    (lines : surroundings.isBracketed frames = false → word.beginsLine = other.beginsLine) :
    (extend? surroundings frames left word).map gist
      = (extend? surroundings others right other).map gist := by
  unfold extend?
  rw [← surroundings.floorOf_congr same, ← surroundings.isBracketed_congr same, like.link? lines]
  dsimp only
  split
  · split
    · exact congrArg some (gist_continueWith_congr same operands _ _ _ like)
    · rfl
  · split
    · refine congrArg some (gist_beginOperand_congr ?_ same _ like)
      exact Frame.gist_congr (gistAll_singleton_congr operands)
    · rfl
  · rfl

/-- The words begin lines alike, or what is read stands in brackets and stays free of errors. -/
def LinesAgree (surroundings : Surroundings) (frames : List Frame) (progress : Progress)
    (word other : Word) : Prop :=
  word.beginsLine = other.beginsLine ∨ surroundings.isBracketed frames ∧ progress.IsClean

/-- Outside brackets the words begin lines alike. -/
theorem LinesAgree.outside {progress : Progress}
    (lines : LinesAgree surroundings frames progress word other)
    (outside : surroundings.isBracketed frames = false) :
    word.beginsLine = other.beginsLine := by
  refine lines.resolve_right fun inside => ?_
  rw [outside] at inside
  exact Bool.false_ne_true inside.1

/-- What settles free of errors has been free of errors. -/
theorem isClean_of_settle {outcome : Outcome}
    (clean : (settle surroundings word frames outcome).IsClean) :
    outcome.tree.IsClean ∧ ∀ frame ∈ frames, frame.IsClean := by
  have readClean : (read surroundings ⟨frames, .complete outcome⟩ word).IsClean := clean
  have before := isClean_of_read readClean
  exact ⟨before.focus, before.frames⟩

/-- A construct that is complete without the word and without errors leaves the lines as they are
for the constructs around it. -/
theorem LinesAgree.tail {frame : Frame} {outcome left : Outcome}
    (lines : LinesAgree surroundings (frame :: frames) (settle surroundings word frames left) word
      other)
    (ends : frame.receive (surroundings.isBracketed (frame :: frames)) outcome word = .ends left) :
    LinesAgree surroundings frames (settle surroundings word frames left) word other := by
  refine lines.imp_right fun ⟨inside, clean⟩ => ⟨?_, clean⟩
  have open' := Frame.brackets_eq_false_of_receive_eq_ends ends (isClean_of_settle clean).1
  rwa [surroundings.isBracketed_cons open'] at inside

/-- What becomes of a construct that reacts to a word depends on gists only, if this is so when it
is complete without the word. -/
theorem gist_react_congr (same : frames.map Frame.gist = others.map Frame.gist)
    {reaction twin : Reaction} (reactions : reaction.gist = twin.gist) (like : word.Like other)
    (settles : ∀ left right, reaction = .ends left → left.gist = right.gist →
      (settle surroundings word frames left).gist = (settle surroundings other others right).gist) :
    (react surroundings frames reaction word).gist
      = (react surroundings others twin other).gist := by
  cases reaction with
  | waits frame focus =>
    cases twin with
    | waits twin twinFocus =>
      obtain ⟨inner, focuses⟩ := Reaction.waits.inj reactions
      refine congrArg Progress.reading ?_
      simp only [gist, List.map_cons, inner, focuses, same]
    | _ => cases reactions
  | begins frame opening =>
    cases twin with
    | begins twin twinOpening =>
      obtain ⟨inner, rfl⟩ := Reaction.begins.inj reactions
      exact congrArg Progress.reading (gist_beginOperand_congr inner same opening like)
    | _ => cases reactions
  | closes outcome =>
    cases twin with
    | closes twin =>
      refine congrArg Progress.reading ?_
      simp only [gist, Focus.gist, Reaction.closes.inj reactions, same]
    | _ => cases reactions
  | ends outcome =>
    cases twin with
    | ends twin => exact settles outcome twin rfl (Reaction.ends.inj reactions)
    | _ => cases reactions

theorem settle_nil (outcome : Outcome) :
    settle surroundings word [] outcome
      = ((extend? surroundings [] outcome.tree word).map .reading).getD
          (.finished (some outcome)) := by
  unfold settle
  cases extend? surroundings [] outcome.tree word <;> rfl

/-- An outcome settles in the innermost frame, unless the word goes on from it. -/
theorem settle_cons (frame : Frame) (frames : List Frame) (outcome : Outcome) :
    settle surroundings word (frame :: frames) outcome
      = ((extend? surroundings (frame :: frames) outcome.tree word).map .reading).getD
          (feed surroundings frame frames outcome word) := by
  rw [settle]
  cases extend? surroundings (frame :: frames) outcome.tree word <;> rfl

/-- An outcome settles at once if the word goes on from it. -/
theorem settle_of_extend? {outcome : Outcome} {next : Reading}
    (goesOn : extend? surroundings frames outcome.tree word = some next) :
    settle surroundings word frames outcome = .reading next := by
  cases frames <;> simp [settle, goesOn]

/-- What a frame does without regard to what could go on from the operand depends on gists only, if
this is so when it is complete without the word. -/
theorem gist_feed_congr_of_settle {frame twin : Frame} (inner : frame.gist = twin.gist)
    (outer : frames.map Frame.gist = others.map Frame.gist) {held kept : Outcome}
    (outcomes : held.gist = kept.gist) (like : word.Like other)
    (lines : LinesAgree surroundings (frame :: frames) (feed surroundings frame frames held word)
      word other)
    (settles : ∀ left right, left.gist = right.gist →
      LinesAgree surroundings frames (settle surroundings word frames left) word other →
      (settle surroundings word frames left).gist = (settle surroundings other others right).gist) :
    (feed surroundings frame frames held word).gist
      = (feed surroundings twin others kept other).gist := by
  have same : (frame :: frames).map Frame.gist = (twin :: others).map Frame.gist := by
    rw [List.map_cons, List.map_cons, inner, outer]
  have received := Frame.gist_receive_congr inner outcomes like lines.outside
  rw [feed, feed, ← surroundings.isBracketed_congr same]
  refine gist_react_congr outer received like fun left right ends lefts => ?_
  rw [feed, ends] at lines
  exact settles left right lefts (lines.tail ends)

/-- What becomes of a complete expression depends on gists only. -/
theorem gist_settle_congr (same : frames.map Frame.gist = others.map Frame.gist)
    {held kept : Outcome} (outcomes : held.gist = kept.gist) (like : word.Like other)
    (lines : LinesAgree surroundings frames (settle surroundings word frames held) word other) :
    (settle surroundings word frames held).gist = (settle surroundings other others kept).gist := by
  induction frames generalizing others held kept with
  | nil =>
    cases List.map_eq_nil_iff.mp same.symm
    have extended := extend?_congr same (congrArg Outcome.tree outcomes) like lines.outside
    rw [settle_nil, settle_nil]
    cases goesOn : extend? surroundings [] held.tree word with
    | none =>
      rw [goesOn] at extended
      rw [Option.map_eq_none_iff.mp extended.symm]
      exact congrArg (Progress.finished ∘ some) outcomes
    | some next =>
      rw [goesOn] at extended
      obtain ⟨twin, found, nexts⟩ := Option.map_eq_some_iff.mp extended.symm
      rw [found]
      exact congrArg Progress.reading nexts.symm
  | cons frame frames ih =>
    obtain ⟨twin, rest, rfl, inner, outer⟩ := List.map_eq_cons_iff.mp same.symm
    have extended := extend?_congr same (congrArg Outcome.tree outcomes) like lines.outside
    rw [settle_cons] at lines ⊢
    rw [settle_cons]
    cases goesOn : extend? surroundings (frame :: frames) held.tree word with
    | some next =>
      rw [goesOn] at extended
      obtain ⟨twinNext, found, nexts⟩ := Option.map_eq_some_iff.mp extended.symm
      rw [found]
      exact congrArg Progress.reading nexts.symm
    | none =>
      rw [goesOn] at extended lines
      rw [Option.map_eq_none_iff.mp extended.symm]
      exact gist_feed_congr_of_settle inner.symm outer.symm outcomes like lines fun _ _ =>
        ih outer.symm

/-- Frames of one gist that are fed outcomes of one gist go on with one gist. -/
theorem gist_feed_congr {frame twin : Frame} (inner : frame.gist = twin.gist)
    (outer : frames.map Frame.gist = others.map Frame.gist) {held kept : Outcome}
    (outcomes : held.gist = kept.gist) (like : word.Like other)
    (lines : LinesAgree surroundings (frame :: frames) (feed surroundings frame frames held word)
      word other) :
    (feed surroundings frame frames held word).gist
      = (feed surroundings twin others kept other).gist :=
  gist_feed_congr_of_settle inner outer outcomes like lines fun _ _ lefts =>
    gist_settle_congr outer lefts like

/-- An operand is read, or missing, with one gist. -/
theorem gist_readOperand_congr (same : frames.map Frame.gist = others.map Frame.gist)
    (like : word.Like other)
    (lines : LinesAgree surroundings frames (readOperand surroundings frames word) word other) :
    (readOperand surroundings frames word).gist = (readOperand surroundings others other).gist := by
  unfold readOperand at lines ⊢
  rw [← like.opening?]
  cases frames with
  | nil =>
    cases List.map_eq_nil_iff.mp same.symm
    cases word.opening? with
    | none => rfl
    | some opening => exact congrArg Progress.reading (gist_begin_congr rfl opening like.token)
  | cons frame frames =>
    obtain ⟨twin, rest, rfl, inner, outer⟩ := List.map_eq_cons_iff.mp same.symm
    cases opens : word.opening? with
    | none =>
      rw [opens] at lines
      exact gist_feed_congr inner.symm outer.symm (Frame.gist_missing_congr inner.symm _ _) like
        lines
    | some opening =>
      exact congrArg Progress.reading (gist_beginOperand_congr inner.symm outer.symm opening like)

/-- What is complete with an error is no way to stay free of errors. -/
theorem LinesAgree.of_not_isClean {inner : List Frame} {left : Outcome}
    (lines : LinesAgree surroundings inner (settle surroundings word frames left) word other)
    (dirty : ¬left.tree.IsClean) :
    LinesAgree surroundings frames (settle surroundings word frames left) word other :=
  .inl (lines.resolve_right fun inside => dirty (isClean_of_settle inside.2).1)

/-- A first item is read, or the close, with one gist. -/
theorem gist_readFirstItem_congr (same : frames.map Frame.gist = others.map Frame.gist)
    (like : word.Like other)
    (lines : LinesAgree surroundings frames (readFirstItem surroundings frames word) word other) :
    (readFirstItem surroundings frames word).gist
      = (readFirstItem surroundings others other).gist := by
  cases frames with
  | nil =>
    cases List.map_eq_nil_iff.mp same.symm
    exact gist_readOperand_congr rfl like lines
  | cons frame frames =>
    obtain ⟨twin, rest, rfl, inner, outer⟩ := List.map_eq_cons_iff.mp same.symm
    obtain ⟨role, floor, succeeded, first, second, rfl, rfl, children⟩ :=
      Frame.exists_of_gist_eq inner.symm
    cases role with
    | items enclosure =>
      unfold readFirstItem at lines ⊢
      simp only [← like.isOperator]
      split
      · next closing =>
        simp only [closing, if_true] at lines
        have closed := Frame.gist_closeItems_congr inner.symm like enclosure
        refine gist_react_congr outer.symm closed like fun left right ends lefts => ?_
        rw [ends] at lines
        have dirty := Frame.not_isClean_of_closeItems_eq_ends ends
        exact gist_settle_congr outer.symm lefts like (LinesAgree.of_not_isClean lines dirty)
      · next other =>
        simp only [other] at lines
        exact gist_readOperand_congr same like lines
    | _ => exact gist_readOperand_congr same like lines

/-- Arguments are read with one gist if their brackets touch alike. -/
theorem gist_readArguments_congr (same : frames.map Frame.gist = others.map Frame.gist)
    (like : word.Like other) (near : word.isOperator .leftBracket → word.touches = other.touches)
    (lines : LinesAgree surroundings frames (readArguments surroundings frames word) word other) :
    (readArguments surroundings frames word).gist
      = (readArguments surroundings others other).gist := by
  have bracket : (word.isOperator .leftBracket && word.touches)
      = (other.isOperator .leftBracket && other.touches) := by
    rw [← like.isOperator]
    by_cases bracket : word.isOperator .leftBracket
    · rw [near bracket]
    · simp [bracket]
  cases frames with
  | nil =>
    cases List.map_eq_nil_iff.mp same.symm
    exact gist_readOperand_congr rfl like lines
  | cons frame frames =>
    obtain ⟨twin, rest, rfl, inner, outer⟩ := List.map_eq_cons_iff.mp same.symm
    unfold readArguments at lines ⊢
    simp only [← bracket]
    split
    · have taken := Frame.gist_role_congr (Frame.gist_take_congr inner.symm like) (.items .part)
      refine congrArg Progress.reading ?_
      simp only [gist, List.map_cons, outer, taken]
    · next single =>
      simp only [single] at lines
      exact gist_readFirstItem_congr same like lines

/-- The end of a part is read with one gist. -/
theorem gist_readPartEnd_congr (same : frames.map Frame.gist = others.map Frame.gist)
    (like : word.Like other)
    (lines : LinesAgree surroundings frames (read surroundings ⟨frames, .partEnd⟩ word) word
      other) :
    (read surroundings ⟨frames, .partEnd⟩ word).gist
      = (read surroundings ⟨others, .partEnd⟩ other).gist := by
  cases frames with
  | nil =>
    cases List.map_eq_nil_iff.mp same.symm
    exact gist_readOperand_congr rfl like lines
  | cons frame frames =>
    obtain ⟨twin, rest, rfl, inner, outer⟩ := List.map_eq_cons_iff.mp same.symm
    have closed : (frame.closePart word).gist = (twin.closePart other).gist :=
      Frame.gist_close_congr inner.symm like _ _ _
    refine gist_react_congr outer.symm closed like fun left right ends lefts => ?_
    change LinesAgree _ _ (react surroundings frames (frame.closePart word) word) _ _ at lines
    rw [ends] at lines
    have dirty := Frame.not_isClean_of_close_eq_ends (List.cons_ne_nil _ _) ends
    exact gist_settle_congr outer.symm lefts like (LinesAgree.of_not_isClean lines dirty)

/-- The next expression of a sequence is read, or left out, with one gist. -/
theorem gist_readStatement_congr (same : frames.map Frame.gist = others.map Frame.gist)
    (like : word.Like other)
    (lines : LinesAgree surroundings frames (readStatement surroundings frames word) word other) :
    (readStatement surroundings frames word).gist
      = (readStatement surroundings others other).gist := by
  cases frames with
  | nil =>
    cases List.map_eq_nil_iff.mp same.symm
    unfold readStatement at lines ⊢
    exact gist_readOperand_congr rfl like lines
  | cons frame frames =>
    obtain ⟨twin, rest, rfl, inner, outer⟩ := List.map_eq_cons_iff.mp same.symm
    unfold readStatement at lines ⊢
    rw [← surroundings.isBracketed_congr same, ← like.openingInLine? lines.outside]
    cases opens : word.openingInLine? (surroundings.isBracketed (frame :: frames)) with
    | some opening =>
      exact congrArg Progress.reading (gist_beginOperand_congr inner.symm outer.symm opening like)
    | none =>
      rw [opens] at lines
      refine gist_feed_congr inner.symm outer.symm ?_ like lines
      rw [Outcome.gist, Outcome.gist, gist_absent, gist_absent]
      rfl

/-- A blank has the gist of its name and its own. -/
theorem gist_blankTree_congr {named twin : Option SyntaxTree}
    (names : named.map Tree.gist = twin.map Tree.gist) (kind : NodeKind)
    {first second : List SyntaxTree} (children : gistAll first = gistAll second) :
    (blankTree kind named first).gist = (blankTree kind twin second).gist := by
  have blanks : (ofKind kind first).gist = (ofKind kind second).gist := by
    rw [gist_ofKind, gist_ofKind, children]
  cases named with
  | none =>
    rw [Option.map_none] at names
    rw [Option.map_eq_none_iff.mp names.symm]
    exact blanks
  | some left =>
    obtain ⟨right, rfl, lefts⟩ := Option.map_eq_some_iff.mp names.symm
    change (ofKind .pattern [left, _]).gist = (ofKind .pattern [right, _]).gist
    rw [gist_ofKind, gist_ofKind, gistAll_cons, gistAll_cons right,
      gistAll_singleton_congr lefts, gistAll_singleton_congr blanks]

/-- A blank takes its name with one gist if the name touches alike. -/
theorem gist_readBlankName_congr (same : frames.map Frame.gist = others.map Frame.gist)
    (kind : NodeKind) {blank mark : Token} (blanks : blank.unplaced = mark.unplaced)
    {named twin : Option SyntaxTree} (names : named.map Tree.gist = twin.map Tree.gist)
    (like : word.Like other) (near : word.token.kind = .identifier → word.touches = other.touches)
    (lines : LinesAgree surroundings frames
      (readBlankName surroundings frames kind blank named word) word other) :
    (readBlankName surroundings frames kind blank named word).gist
      = (readBlankName surroundings others kind mark twin other).gist := by
  have marks : gistAll [leaf blank] = gistAll [leaf mark] :=
    gistAll_singleton_congr (by rw [gist_leaf, gist_leaf, blanks])
  have attached : (word.token.kind = .identifier ∧ word.touches)
      = (other.token.kind = .identifier ∧ other.touches) := by
    rw [← like.kind]
    by_cases name : word.token.kind = .identifier
    · rw [near name]
    · simp [name]
  unfold readBlankName at lines ⊢
  simp only [← attached]
  split
  · refine congrArg Progress.reading ?_
    simp only [gist, Focus.gist, Outcome.gist, same]
    have symbols : (ofKind .symbol [word.leaf]).gist = (ofKind .symbol [other.leaf]).gist := by
      rw [gist_ofKind, gist_ofKind, like.gistAll_leaf]
    have children : gistAll [leaf blank, ofKind .symbol [word.leaf]]
        = gistAll [leaf mark, ofKind .symbol [other.leaf]] := by
      rw [gistAll_cons, gistAll_cons (leaf mark), marks, gistAll_singleton_congr symbols]
    rw [gist_blankTree_congr names kind children]
  · next apart =>
    simp only [apart, if_false] at lines
    refine gist_settle_congr same ?_ like lines
    rw [Outcome.gist, Outcome.gist, gist_blankTree_congr names kind marks]

/-- What becomes of a reading when a word is in view depends on its gist, on the word, and on the
trivia in front of the word where the focus minds them. -/
theorem gist_read_congr {reading twin : Reading} (same : reading.gist = twin.gist)
    (like : word.Like other)
    (near : reading.focus.minds word.token.kind → word.touches = other.touches)
    (lines : LinesAgree surroundings reading.frames (reading.read surroundings word) word other) :
    (reading.read surroundings word).gist = (twin.read surroundings other).gist := by
  obtain ⟨frames, focus⟩ := reading
  obtain ⟨others, twinFocus⟩ := twin
  obtain ⟨outer, foci⟩ := Reading.mk.inj same
  dsimp only at near lines
  cases focus with
  | operand =>
    cases twinFocus <;> cases foci
    exact gist_readOperand_congr outer like lines
  | firstItem =>
    cases twinFocus <;> cases foci
    exact gist_readFirstItem_congr outer like lines
  | arguments =>
    cases twinFocus <;> cases foci
    refine gist_readArguments_congr outer like (fun bracket => near ?_) lines
    rw [Word.isOperator, beq_iff_eq] at bracket
    rw [bracket]
    rfl
  | partEnd =>
    cases twinFocus <;> cases foci
    exact gist_readPartEnd_congr outer like lines
  | statement =>
    cases twinFocus <;> cases foci
    exact gist_readStatement_congr outer like lines
  | blankName kind blank named =>
    cases twinFocus with
    | blankName twinKind mark twinNamed =>
      obtain ⟨rfl, blanks, names⟩ := Focus.blankName.inj foci
      refine gist_readBlankName_congr outer kind blanks names like (fun name => near ?_) lines
      rw [name]
      rfl
    | _ => cases foci
  | complete held =>
    cases twinFocus with
    | complete kept => exact gist_settle_congr outer (Focus.complete.inj foci) like lines
    | _ => cases foci

end Reading

/-! ## Files -/

namespace FileReading

variable {grammar : Grammar} {front : List SyntaxTree} {file twin : FileReading} {word other : Word}

/-- Of two files with the same gist, one has read something more before, which has the gist
`front`. -/
structure Behind (front : List SyntaxTree) (file twin : FileReading) : Prop where
  children : gistAll twin.children = front ++ gistAll file.children
  current : file.current.map Reading.gist = twin.current.map Reading.gist

theorem gist_skipped_congr (tokens : word.token.unplaced = other.token.unplaced) :
    (skipped word).gist = (skipped other).gist := by
  have leaves : gistAll [word.leaf] = gistAll [other.leaf] :=
    gistAll_singleton_congr (by rw [Word.leaf, Word.leaf, gist_leaf, gist_leaf, tokens])
  rw [skipped, skipped, gist_error, gist_error, leaves, Token.kind_congr tokens,
    Token.text_congr tokens]

/-- Between two expressions it does not matter what trivia a word touches, not even to a blank. -/
theorem behind_beginWith {held kept : List SyntaxTree}
    (children : gistAll kept = front ++ gistAll held)
    (tokens : word.token.unplaced = other.token.unplaced)
    (leads : gistAll word.leadLeaves = gistAll other.leadLeaves) :
    Behind front (beginWith held word) (beginWith kept other) := by
  have before :
      gistAll (kept ++ other.leadLeaves) = front ++ gistAll (held ++ word.leadLeaves) := by
    rw [gistAll_append, gistAll_append, children, leads, List.append_assoc]
  have opens : other.opening? = word.opening? := by
    rw [Word.opening?, Word.opening?, Token.kind_congr tokens]
  unfold beginWith
  rw [opens]
  cases word.opening? with
  | some opening =>
    exact ⟨before, congrArg some (Reading.gist_begin_congr rfl opening tokens)⟩
  | none =>
    refine ⟨?_, rfl⟩
    have skippedAlike := gistAll_singleton_congr (gist_skipped_congr tokens)
    rw [gistAll_append (kept ++ _), gistAll_append (held ++ _), before, skippedAlike,
      List.append_assoc]

/-- The trivia matter alike to what is being read. -/
structure TriviaAgree (grammar : Grammar) (file : FileReading) (word other : Word) : Prop where
  like : word.Like other
  near : ∀ reading ∈ file.current, reading.focus.minds word.token.kind →
    word.touches = other.touches
  lines : ∀ reading ∈ file.current, Reading.LinesAgree (surroundings grammar) reading.frames
    (reading.read (surroundings grammar) word) word other

/-- Trivia matter alike if they differ in their places only. -/
theorem triviaAgree_of_unplaced (grammar : Grammar) (file : FileReading)
    (tokens : word.token.unplaced = other.token.unplaced)
    (leads : word.lead.map Token.unplaced = other.lead.map Token.unplaced) :
    TriviaAgree grammar file word other := by
  have touches : word.touches = other.touches := by
    rw [Word.touches, Word.touches, ← List.isEmpty_map, leads, List.isEmpty_map]
  have lines : word.beginsLine = other.beginsLine := by
    have same := congrArg (List.any · fun token => token.kind == .lineBreak) leads
    rwa [List.any_map, List.any_map] at same
  exact ⟨⟨tokens, gistAll_map_leaf_congr leads, fun _ => touches⟩, fun _ _ _ => touches,
    fun _ _ => .inl lines⟩

/-- An expression that is finished has the gist of its outcome. -/
theorem gistAll_finished_congr {held kept : Option Outcome}
    (outcomes : held.map Outcome.gist = kept.map Outcome.gist) :
    gistAll (held.map Outcome.tree).toList = gistAll (kept.map Outcome.tree).toList := by
  cases held with
  | none =>
    rw [Option.map_none] at outcomes
    rw [Option.map_eq_none_iff.mp outcomes.symm]
  | some left =>
    obtain ⟨right, rfl, same⟩ := Option.map_eq_some_iff.mp outcomes.symm
    exact Outcome.gistAll_of_gist_eq same.symm

/-- The twin reads an expression where the file does. -/
theorem Behind.exists_read (behind : Behind front file twin)
    (agree : TriviaAgree grammar file word other) {reading : Reading}
    (current : file.current = some reading) :
    ∃ twinReading, twin.current = some twinReading ∧
      (reading.read (surroundings grammar) word).gist
        = (twinReading.read (surroundings grammar) other).gist := by
  obtain ⟨twinReading, twinCurrent, same⟩ := Option.map_eq_some_iff.mp
    (behind.current.symm.trans (congrArg (Option.map Reading.gist) current))
  exact ⟨twinReading, twinCurrent, Reading.gist_read_congr same.symm agree.like
    (agree.near reading current) (agree.lines reading current)⟩

/-- The twin reads no expression where the file reads none. -/
theorem Behind.current_eq_none (behind : Behind front file twin) (unbegun : file.current = none) :
    twin.current = none := by
  simpa [unbegun] using behind.current.symm

/-- Words to which trivia matter alike leave the twin as far ahead. -/
theorem Behind.read (behind : Behind front file twin)
    (agree : TriviaAgree grammar file word other) :
    Behind front (file.read grammar word) (twin.read grammar other) := by
  unfold FileReading.read
  cases current : file.current with
  | none =>
    rw [behind.current_eq_none current]
    exact behind_beginWith behind.children agree.like.token agree.like.lead
  | some reading =>
    obtain ⟨twinReading, twinCurrent, progress⟩ := behind.exists_read agree current
    rw [twinCurrent]
    dsimp only
    rcases Progress.cases_of_gist_eq progress
      with ⟨_, _, goesOn, twinGoesOn, nexts⟩ | ⟨_, _, ends, twinEnds, outcomes⟩
    · rw [goesOn, twinGoesOn]
      exact ⟨behind.children, congrArg some nexts⟩
    · rw [ends, twinEnds]
      refine behind_beginWith ?_ agree.like.token agree.like.lead
      rw [gistAll_append, gistAll_append, behind.children, List.append_assoc,
        gistAll_finished_congr outcomes]

/-- At their ends both files have one gist, but for what the twin has read before. -/
theorem Behind.finish (behind : Behind front file twin)
    (agree : TriviaAgree grammar file word other) :
    gistAll (twin.finish grammar other) = front ++ gistAll (file.finish grammar word) := by
  unfold FileReading.finish
  cases current : file.current with
  | none =>
    rw [behind.current_eq_none current]
    exact behind.children
  | some reading =>
    obtain ⟨twinReading, twinCurrent, progress⟩ := behind.exists_read agree current
    rw [twinCurrent]
    dsimp only
    rcases Progress.cases_of_gist_eq progress
      with ⟨_, _, goesOn, twinGoesOn, _⟩ | ⟨_, _, ends, twinEnds, outcomes⟩
    · rw [goesOn, twinGoesOn]
      exact behind.children
    · rw [ends, twinEnds]
      dsimp only
      rw [gistAll_append, gistAll_append, behind.children, List.append_assoc,
        gistAll_finished_congr outcomes]

end FileReading

end WolframSyntax
