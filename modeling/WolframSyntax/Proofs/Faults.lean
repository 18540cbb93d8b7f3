import WolframSyntax.Proofs.Holding
import WolframSyntax.Proofs.Staying

/-!
# Errors stay

Nodes stay, and so do errors: a reading that is not free of them never becomes so again
(`Reading.Passes.isClean`, `Reading.Takes.isClean`), and everything that was read on the way to a
tree without errors was free of them. Such a reading leaves no bracket open
(`Reading.Passes.frames_of_isClean`) and meets no foreign word before its end
(`FileReading.isClean_of_foldl_read`).
-/

namespace WolframSyntax

open SyntaxTree

/-- No child of the frame has errors. -/
def Frame.IsClean (frame : Frame) : Prop := ∀ child ∈ frame.children, child.IsClean

/-- What the focus holds has no errors. -/
def Focus.IsClean : Focus → Prop
  | .complete outcome => outcome.tree.IsClean
  | .blankName _ _ named => ∀ left ∈ named, left.IsClean
  | _ => True

/-- Nothing that has been read has errors. -/
structure Reading.IsClean (reading : Reading) : Prop where
  frames : ∀ frame ∈ reading.frames, frame.IsClean
  focus : reading.focus.IsClean

/-- What a reaction leaves has no errors. -/
def Reaction.IsClean : Reaction → Prop
  | .waits frame _ | .begins frame _ => frame.IsClean
  | .closes outcome | .ends outcome => outcome.tree.IsClean

/-- What becomes of an expression has no errors. -/
def Progress.IsClean : Progress → Prop
  | .reading next => next.IsClean
  | .finished outcome => ∀ finished ∈ outcome, finished.tree.IsClean

/-- A reading is free of errors if no node of it is one. -/
theorem Reading.isClean_iff {reading : Reading} :
    reading.IsClean ↔ ∀ node, reading.Has node → node.kind ≠ .error := by
  obtain ⟨frames, focus⟩ := reading
  have held : focus.IsClean ↔ ∀ node, focus.Has node → node.kind ≠ .error := by
    cases focus with
    | complete outcome => exact Iff.rfl
    | blankName kind blank named =>
      exact ⟨fun clean node ⟨left, same, inside⟩ => clean left same node inside,
        fun clean left same node inside => clean node ⟨left, same, inside⟩⟩
    | _ => exact ⟨fun _ _ nothing => nothing.elim, fun _ => trivial⟩
  constructor
  · rintro ⟨clean, focusClean⟩ node (⟨frame, among, child, present, inside⟩ | inside)
    · exact clean frame among child present node inside
    · exact held.mp focusClean node inside
  · intro clean
    exact ⟨fun frame among child present node inside =>
      clean node (.inl ⟨frame, among, child, present, inside⟩),
      held.mpr fun node inside => clean node (.inr inside)⟩

theorem Frame.isClean_iff {frame : Frame} :
    frame.IsClean ↔ ∀ node, frame.Has node → node.kind ≠ .error :=
  ⟨fun clean node ⟨child, present, inside⟩ => clean child present node inside,
    fun clean child present node inside => clean node ⟨child, present, inside⟩⟩

theorem Reaction.isClean_iff {reaction : Reaction} :
    reaction.IsClean ↔ ∀ node, reaction.Has node → node.kind ≠ .error := by
  cases reaction with
  | waits | begins => exact Frame.isClean_iff
  | closes | ends => exact Iff.rfl

theorem Progress.isClean_iff {progress : Progress} :
    progress.IsClean ↔ ∀ node, progress.Has node → node.kind ≠ .error := by
  cases progress with
  | reading next => exact Reading.isClean_iff
  | finished outcome =>
    exact ⟨fun clean node ⟨last, same, inside⟩ => clean last same node inside,
      fun clean last same node inside => clean node ⟨last, same, inside⟩⟩

namespace Frame

variable {frame : Frame} {word : Word} {outcome : Outcome}

/-- A bracketed construct that ends without its close shows an error. -/
theorem not_isClean_of_close_eq_ends {kind : NodeKind} {closing : Operator}
    {unclosed : List Diagnostic} (reported : unclosed ≠ [])
    (ends : frame.close kind closing unclosed word = .ends outcome) : ¬outcome.tree.IsClean := by
  unfold close at ends
  split at ends
  · cases ends
  · cases ends
    exact not_isClean_outcome_fail kind reported

/-- Items that end without their close show an error. -/
theorem not_isClean_of_closeItems_eq_ends {enclosure : Enclosure}
    (ends : frame.closeItems enclosure word = .ends outcome) : ¬outcome.tree.IsClean := by
  unfold closeItems at ends
  split at ends
  · cases ends
  · refine not_isClean_of_close_eq_ends ?_ ends
    cases enclosure <;> exact List.cons_ne_nil _ _

/-- A bracket that is left open is an error. -/
theorem brackets_eq_false_of_receive_eq_ends {bracketed : Bool} {left : Outcome}
    (ends : frame.receive bracketed outcome word = .ends left) (clean : left.tree.IsClean) :
    frame.brackets = false := by
  cases role : frame.role with
  | group =>
    unfold receive at ends
    simp only [role] at ends
    exact (not_isClean_of_close_eq_ends (List.cons_ne_nil _ _) ends clean).elim
  | items enclosure =>
    unfold receive at ends
    simp only [role] at ends
    split at ends
    · cases ends
    · exact (not_isClean_of_closeItems_eq_ends ends clean).elim
  | _ => rw [brackets, role]

/-- A frame that goes without an operand reports it. -/
theorem not_isClean_receive_missing {bracketed : Bool} :
    ¬(frame.receive bracketed (frame.missing word) word).IsClean := by
  intro clean
  have error : (frame.missing word).tree.kind = .error := rfl
  have plain : (frame.missing word).tree.kind ≠ .symbol := NodeKind.noConfusion
  have stays : (frame.receive bracketed (frame.missing word) word).Has (frame.missing word).tree :=
    has_receive plain bracketed (.inr (Tree.mem_walk_self _))
  exact Reaction.isClean_iff.mp clean _ stays error

end Frame

namespace Reading

variable {surroundings : Surroundings} {word : Word} {before after : Reading}

/-- A construct that ends free of errors was free of errors before. -/
theorem Passes.isClean (passes : Passes surroundings word before after) (clean : after.IsClean) :
    before.IsClean :=
  isClean_iff.mpr fun node held error =>
    isClean_iff.mp clean node (passes.has (by simp [error]) held) error

/-- A reading that is free of errors after a word that it took was so before it. -/
theorem Takes.isClean (takes : Takes surroundings word before after) (clean : after.IsClean) :
    before.IsClean :=
  isClean_iff.mpr fun node held error =>
    isClean_iff.mp clean node (takes.has (by simp [error]) held) error

/-- A construct that is complete without the word and without errors is no bracket. -/
theorem Passes.frames_of_isClean (passes : Passes surroundings word before after)
    (clean : after.IsClean) :
    before.focus.wantsOperand = false ∧ before.focus ≠ .partEnd ∧
      (before.frames = after.frames ∨
        ∃ frame, frame.brackets = false ∧ before.frames = frame :: after.frames) := by
  cases passes with
  | @ends _ frames outcome reacts =>
    have ended : outcome.tree.IsClean := clean.focus
    generalize same : Reaction.ends outcome = reaction at reacts
    cases reacts with
    | @complete frame _ operand stays =>
      have open' := Frame.brackets_eq_false_of_receive_eq_ends same.symm ended
      exact ⟨rfl, Focus.noConfusion, .inr ⟨frame, open', rfl⟩⟩
    | missing wants unopened =>
      have received : Reaction.IsClean (.ends outcome) := ended
      rw [same] at received
      exact (Frame.not_isClean_receive_missing received).elim
    | @absent frame _ unopened =>
      have open' := Frame.brackets_eq_false_of_receive_eq_ends same.symm ended
      exact ⟨rfl, Focus.noConfusion, .inr ⟨frame, open', rfl⟩⟩
    | empty begins role closing =>
      exact (Frame.not_isClean_of_closeItems_eq_ends same.symm ended).elim
    | partEnd =>
      exact (Frame.not_isClean_of_close_eq_ends (List.cons_ne_nil _ _) same.symm ended).elim
  | unnamed apart => exact ⟨rfl, Focus.noConfusion, .inl rfl⟩

theorem isClean_of_settles (settles : Settles surroundings word before after)
    (clean : after.IsClean) : before.IsClean := by
  refine settles.keeps (fun settled => settled.IsClean → before.IsClean) ?_ id clean
  exact fun _ _ passes kept clean => kept (passes.isClean clean)

/-- A reading was free of errors before a word if it is so with the word in view. -/
theorem isClean_of_read {reading : Reading} (clean : (reading.read surroundings word).IsClean) :
    reading.IsClean :=
  isClean_iff.mpr fun node held error =>
    Progress.isClean_iff.mp clean node (has_read surroundings word (by simp [error]) held) error

end Reading

namespace FileReading

/-- Nothing that has been read of a file has errors. -/
structure IsClean (file : FileReading) : Prop where
  below : ∀ child ∈ file.children, child.IsClean
  current : ∀ reading ∈ file.current, reading.IsClean

variable {grammar : Grammar} {file : FileReading} {word : Word}

theorem not_isClean_skipped : ¬(skipped word).IsClean := fun clean => clean.root rfl

/-- An expression free of errors begins with a word that begins one. -/
theorem isClean_of_beginWith {children : List SyntaxTree}
    (clean : (beginWith children word).IsClean) :
    (∀ child ∈ children, child.IsClean) ∧
      ∃ opening, word.opening? = some opening ∧
        beginWith children word
          = ⟨children ++ word.leadLeaves, some (Reading.begin [] opening word.token)⟩ := by
  unfold beginWith at clean ⊢
  dsimp only at clean ⊢
  split at clean
  · next opening opens =>
    exact ⟨fun child present => clean.below child (List.mem_append_left _ present),
      opening, opens, rfl⟩
  · have last := clean.below (skipped word)
      (List.mem_append_right _ (List.mem_singleton_self _))
    exact (not_isClean_skipped last).elim

/-- Progress that finishes an expression is free of errors if the expression is. -/
theorem isClean_of_finished {reading : Reading} {outcome : Option Outcome}
    (progress : reading.read (surroundings grammar) word = .finished outcome)
    (clean : ∀ child ∈ (outcome.map Outcome.tree).toList, child.IsClean) :
    (reading.read (surroundings grammar) word).IsClean := by
  rw [progress]
  intro last same
  exact clean _ (Option.mem_toList.mpr (by rw [same]; rfl))

/-- A file without errors had none before its last word and while that was in view, and the word
has its place. -/
theorem isClean_of_read (clean : (file.read grammar word).IsClean) :
    file.IsClean ∧ (∀ reading ∈ file.current,
      (reading.read (surroundings grammar) word).IsClean) ∧ ¬word.IsForeign := by
  have begins : ∀ {children : List SyntaxTree}, (beginWith children word).IsClean →
      (∀ child ∈ children, child.IsClean) ∧ ¬word.IsForeign := by
    intro children clean
    obtain ⟨below, opening, opens, _⟩ := isClean_of_beginWith clean
    refine ⟨below, fun foreign => ?_⟩
    rw [foreign.unopened] at opens
    cases opens
  unfold FileReading.read at clean
  split at clean
  · next none =>
    obtain ⟨below, placed⟩ := begins clean
    exact ⟨⟨below, by simp [none]⟩, by simp [none], placed⟩
  · next reading current =>
    have before : (∀ child ∈ file.children, child.IsClean) →
        (reading.read (surroundings grammar) word).IsClean → file.IsClean := fun below readClean =>
      ⟨below, by simpa [current] using Reading.isClean_of_read readClean⟩
    split at clean
    · next next progress =>
      have readClean : (reading.read (surroundings grammar) word).IsClean := by
        rw [progress]
        exact clean.current next rfl
      exact ⟨before clean.below readClean, by simpa [current] using readClean,
        Reading.not_isForeign_of_read progress⟩
    · next outcome progress =>
      obtain ⟨below, placed⟩ := begins clean
      obtain ⟨earlier, finished⟩ := List.forall_mem_append.mp below
      have readClean := isClean_of_finished progress finished
      exact ⟨before earlier readClean, by simpa [current] using readClean, placed⟩

/-- A file without errors had none on the way, and every word of it has its place. -/
theorem isClean_of_foldl_read {words : List Word}
    (clean : (words.foldl (read grammar) file).IsClean) :
    file.IsClean ∧ ∀ word ∈ words, ¬word.IsForeign := by
  induction words generalizing file with
  | nil => exact ⟨clean, List.forall_mem_nil _⟩
  | cons word words ih =>
    obtain ⟨readClean, later⟩ := ih clean
    obtain ⟨before, _, placed⟩ := isClean_of_read readClean
    exact ⟨before, List.forall_mem_cons.mpr ⟨placed, later⟩⟩

/-- A finished file without errors had none while its last expression was read. -/
theorem isClean_of_finish {ending : Word} (ends : ending.token.isEnd)
    (clean : ∀ child ∈ file.finish grammar ending, child.IsClean) :
    file.IsClean ∧ ∀ reading ∈ file.current,
      (reading.read (surroundings grammar) ending).IsClean := by
  unfold finish at clean
  split at clean
  · next none => exact ⟨⟨clean, by simp [none]⟩, by simp [none]⟩
  · next reading current =>
    split at clean
    · next next progress =>
      exact (Reading.not_isForeign_of_read progress (Word.isForeign_of_isEnd ends)).elim
    · next outcome progress =>
      obtain ⟨before, finished⟩ := List.forall_mem_append.mp clean
      have readClean := isClean_of_finished progress finished
      exact ⟨⟨before, by simpa [current] using Reading.isClean_of_read readClean⟩,
        by simpa [current] using readClean⟩

end FileReading

end WolframSyntax
