import WolframSyntax.Proofs.Within

/-!
# Texts with a single expression

Every word of a file goes on with the current expression or begins another one
(`FileReading.IsSound.read_cases`). So the words of a text with a single expression lead from the
first of them to the end (`FileReading.exists_reads_of_parseTokens`). If they stand on one line,
they do so as an operand of any construct that holds its operands no more strongly than a file does,
and leave the same there in front of every word that goes on from nothing
(`Reading.readsOperand_of_parseTokens`).
-/

namespace WolframSyntax

open SyntaxTree WolframSyntax.Tree

/-- In front of the words of a list stand trivia of the list. -/
theorem WordStream.mem_of_mem_lead {lead tokens : List Token} {word : Word}
    (among : word ∈ (after lead tokens).words) {token : Token} (present : token ∈ word.lead) :
    token ∈ lead ∨ token ∈ tokens ∧ token.isTrivia := by
  induction tokens generalizing lead with
  | nil => cases among
  | cons next tokens ih =>
    cases blank : next.isTrivia with
    | true =>
      rw [after_of_isTrivia blank] at among
      rcases ih among with earlier | ⟨later, trivia⟩
      · rcases List.mem_append.mp earlier with earlier | here
        · exact .inl earlier
        · cases List.mem_singleton.mp here
          exact .inr ⟨List.mem_cons_self, blank⟩
      · exact .inr ⟨List.mem_cons_of_mem _ later, trivia⟩
    | false =>
      cases ends : next.isEnd with
      | true =>
        rw [after_of_isEnd ends] at among
        cases among
      | false =>
        rw [after_of_plain blank ends] at among
        rcases List.mem_cons.mp among with rfl | among
        · exact .inl present
        · rcases ih among with none | ⟨later, trivia⟩
          · cases none
          · exact .inr ⟨List.mem_cons_of_mem _ later, trivia⟩

namespace WordStream

variable {tokens : List Token} {word : Word}

theorem gistAll_leadLeaves (among : word ∈ (ofTokens tokens).words) :
    gistAll word.leadLeaves = [] :=
  gistAll_map_leaf_of_isTrivia fun _ present =>
    ((mem_of_mem_lead among present).resolve_left (List.not_mem_nil ·)).2

/-- Words of a list without line breaks stand on one line. -/
theorem beginsLine_eq_false (inLine : ∀ token ∈ tokens, token.kind ≠ .lineBreak)
    (among : word ∈ (ofTokens tokens).words) : word.beginsLine = false := by
  refine List.any_eq_false.mpr fun token present => ?_
  rw [beq_iff_eq]
  exact inLine token ((mem_of_mem_lead among present).resolve_left (List.not_mem_nil ·)).1

end WordStream

/-- A word that does not go on from an expression that has been begun finishes it. -/
theorem Reading.exists_of_finished {surroundings : Surroundings} {reading : Reading} {word : Word}
    (begun : reading.IsBegun) {outcome : Option Outcome}
    (progress : reading.read surroundings word = .finished outcome) :
    ∃ last, outcome = some last := by
  obtain ⟨settled, settles, decides⟩ := exists_settles_decides surroundings reading word
  have settledBegun : settled.IsBegun :=
    settles.keeps IsBegun (fun _ _ passes _ => passes.isBegun) begun
  rw [progress] at decides
  cases decides with
  | finishes stays => exact ⟨_, rfl⟩
  | unbegun unfinished unopened => exact absurd (settledBegun rfl) (by simp [unfinished])

namespace FileReading

variable {grammar : Grammar} {file : FileReading} {reading : Reading} {word : Word}

/-! ## Counting expressions -/

/-- The number of expressions that have been begun. -/
def expressionCount (file : FileReading) : Nat :=
  operandCount file.children + file.current.toList.length

/-- An expression that is being read is counted with those that are finished. -/
theorem expressionCount_of_some (current : file.current = some reading) :
    file.expressionCount = operandCount file.children + 1 := by
  rw [expressionCount, current]
  rfl

theorem expressionCount_of_none (current : file.current = none) :
    file.expressionCount = operandCount file.children := by
  rw [expressionCount, current]
  rfl

/-- A word that begins an expression, or is skipped, adds one. -/
theorem expressionCount_beginWith (children : List SyntaxTree) (word : Word) :
    (beginWith children word).expressionCount = operandCount children + 1 := by
  have skippedOne : operandCount [skipped word] = 1 :=
    operandCount_singleton ⟨everywhere_fits_skipped word, rfl⟩
  unfold beginWith
  cases word.opening? with
  | some opening => simp [expressionCount]
  | none => simp [expressionCount, skippedOne]

theorem IsSound.operandCount_finished (sound : file.IsSound) (current : file.current = some reading)
    {outcome : Option Outcome}
    (progress : reading.read (surroundings grammar) word = .finished outcome) :
    operandCount (outcome.map Outcome.tree).toList = 1 := by
  obtain ⟨last, rfl⟩ := Reading.exists_of_finished (sound.begun reading current) progress
  have operand := (Reading.fits_read _ (sound.fits.current reading current) word).2 last progress
  exact operandCount_singleton operand

/-- A word goes on with the current expression, or it begins another one. -/
theorem IsSound.read_cases (sound : file.IsSound) (grammar : Grammar) (word : Word) :
    (∃ reading next, file.current = some reading ∧
      reading.read (surroundings grammar) word = .reading next ∧
      file.read grammar word = ⟨file.children, some next⟩) ∨
    (file.read grammar word).expressionCount = file.expressionCount + 1 := by
  unfold FileReading.read
  cases current : file.current with
  | none => exact .inr (by rw [expressionCount_beginWith, expressionCount_of_none current])
  | some reading =>
    dsimp only
    cases progress : reading.read (surroundings grammar) word with
    | reading next => exact .inl ⟨reading, next, rfl, progress, rfl⟩
    | finished outcome =>
      right
      dsimp only
      rw [expressionCount_beginWith, operandCount_append,
        sound.operandCount_finished current progress, expressionCount_of_some current]

/-- No expression is lost on the way. -/
theorem IsSound.expressionCount_le_foldl_read (sound : file.IsSound) (grammar : Grammar)
    (words : List Word) :
    file.expressionCount ≤ (words.foldl (FileReading.read grammar) file).expressionCount := by
  induction words generalizing file with
  | nil => exact Nat.le_refl _
  | cons word words ih =>
    refine Nat.le_trans ?_ (ih (sound.read grammar word).1)
    rcases sound.read_cases grammar word with ⟨reading, next, current, _, same⟩ | more
    · rw [same, expressionCount_of_some current, expressionCount_of_some rfl]
    · omega

/-- Words that begin no further expression become part of the current one. -/
theorem IsSound.exists_reads (sound : file.IsSound) (current : file.current = some reading)
    {words : List Word}
    (single :
      (words.foldl (FileReading.read grammar) file).expressionCount ≤ file.expressionCount) :
    ∃ last, Reading.Reads (surroundings grammar) reading words last ∧
      words.foldl (FileReading.read grammar) file = ⟨file.children, some last⟩ := by
  induction words generalizing file reading with
  | nil =>
    obtain ⟨children, _⟩ := file
    cases current
    exact ⟨reading, rfl, rfl⟩
  | cons word words ih =>
    have readSound := (sound.read grammar word).1
    have later := readSound.expressionCount_le_foldl_read grammar words
    rw [List.foldl_cons] at single ⊢
    rcases sound.read_cases grammar word with ⟨_, next, same, progress, reads⟩ | more
    · cases current.symm.trans same
      rw [reads] at readSound single ⊢
      rw [expressionCount_of_some current] at single
      obtain ⟨last, rest, folds⟩ := ih readSound rfl single
      exact ⟨last, ⟨next, progress, rest⟩, folds⟩
    · omega

/-- The expressions of a finished file are those that have been begun. -/
theorem IsSound.operandCount_finish (sound : file.IsSound) (grammar : Grammar)
    (foreign : word.IsForeign) :
    operandCount (file.finish grammar word) = file.expressionCount := by
  unfold finish
  cases current : file.current with
  | none => rw [expressionCount_of_none current]
  | some reading =>
    dsimp only
    cases progress : reading.read (surroundings grammar) word with
    | reading next =>
      exact (Reading.not_isForeign_of_read progress foreign).elim
    | finished outcome =>
      dsimp only
      rw [operandCount_append, sound.operandCount_finished current progress,
        expressionCount_of_some current]

/-! ## A single expression -/

/-- All words of a file without errors that has a single expression become part of the expression
that the first of them begins. -/
theorem exists_reads_of_foldl {first : Word} {rest : List Word}
    (clean : ((first :: rest).foldl (read grammar) empty).IsClean)
    (single : ((first :: rest).foldl (read grammar) empty).expressionCount = 1) :
    ∃ opening last, first.opening? = some opening ∧
      Reading.Reads (surroundings grammar) (Reading.begin [] opening first.token) rest last ∧
      (first :: rest).foldl (read grammar) empty = ⟨first.leadLeaves, some last⟩ := by
  rw [List.foldl_cons] at clean single ⊢
  change (rest.foldl (read grammar) (beginWith [] first)).IsClean at clean
  change (rest.foldl (read grammar) (beginWith [] first)).expressionCount = 1 at single
  change ∃ opening last, _ ∧ _ ∧ rest.foldl (read grammar) (beginWith [] first) = _
  have sound : (beginWith [] first).IsSound := (isSound_empty.read grammar first).1
  have one : (beginWith [] first).expressionCount = 1 := expressionCount_beginWith [] first
  obtain ⟨_, opening, opens, begins⟩ :=
    isClean_of_beginWith (isClean_of_foldl_read clean).1
  rw [begins] at sound one single ⊢
  obtain ⟨last, reads, folds⟩ := sound.exists_reads rfl (single.trans one.symm).le
  exact ⟨opening, last, opens, reads, folds⟩

/-- The words of a text without errors that has a single expression make up that expression, which
the end finishes without errors. -/
theorem exists_reads_of_parseTokens {body : List Token} {ending : Token}
    (unended : body.any Token.isEnd = false) (ends : ending.isEnd) {tree : SyntaxTree}
    (parsed : parseTokens grammar (body ++ [ending]) = .ok tree) (clean : tree.IsClean)
    (single : operandCount tree.children = 1) :
    ∃ first rest opening last, (WordStream.ofTokens body).words = first :: rest ∧
      first.opening? = some opening ∧
      Reading.Reads (surroundings grammar) (Reading.begin [] opening first.token) rest last ∧
      (last.read (surroundings grammar) ⟨WordStream.pending [] body, ending⟩).IsClean ∧
      ∀ outcome, last.read (surroundings grammar) ⟨WordStream.pending [] body, ending⟩
        = .finished (some outcome) → gistAll tree.children = gistAll [outcome.tree] := by
  rw [parseTokens_append_eq_ok_iff unended, readToEnd?_of_isEnd ends] at parsed
  cases parsed
  have sound := isSound_afterTokens grammar body
  have foreign : Word.IsForeign ⟨WordStream.pending [] body, ending⟩ := Word.isForeign_of_isEnd ends
  obtain ⟨fileClean, inView⟩ := isClean_of_childrenAtEnd ends clean
  have count : (afterTokens grammar body).expressionCount = 1 := by
    rw [← sound.operandCount_finish grammar foreign, ← single]
    simp [childrenAtEnd, ofKind, Tree.children]
  cases words : (WordStream.ofTokens body).words with
  | nil =>
    rw [afterTokens, words] at count
    cases count
  | cons first rest =>
    rw [afterTokens, words] at fileClean count inView ⊢
    obtain ⟨opening, last, opens, reads, folds⟩ := exists_reads_of_foldl fileClean count
    rw [folds] at inView ⊢
    refine ⟨first, rest, opening, last, rfl, opens, reads, inView last rfl, fun outcome ended => ?_⟩
    have leading : gistAll first.leadLeaves = [] :=
      WordStream.gistAll_leadLeaves (words ▸ List.mem_cons_self)
    have trailing : gistAll (Word.leadLeaves ⟨WordStream.pending [] body, ending⟩) = [] :=
      gistAll_map_leaf_of_isTrivia (WordStream.isTrivia_of_mem_pending (List.forall_mem_nil _) body)
    change gistAll (childrenAtEnd _ _ _ _) = _
    rw [childrenAtEnd, finish]
    dsimp only
    rw [ended, gistAll_append, gistAll_append, gistAll_append, leading, trailing]
    exact List.append_nil _

end FileReading

namespace Reading

theorem Reads.isBegun {surroundings : Surroundings} {before after : Reading} {words : List Word}
    (begun : before.IsBegun) (reads : Reads surroundings before words after) : after.IsBegun := by
  induction words generalizing before with
  | nil =>
    cases reads
    exact begun
  | cons word words ih =>
    obtain ⟨next, progress, later⟩ := reads
    exact ih (isBegun_of_read progress) later

/-- Wherever an operand may stand that is not held strongly, some words make up one, and the word
behind them finds it complete. The trivia in front of the operand and the operand have the given
gist. -/
def ReadsOperand (surroundings : Surroundings) (words : List Word) (word : Word)
    (gist : List SyntaxTree) : Prop :=
  ∀ (frame : Frame) (frames : List Frame) (focus : Focus), frame.floor = 0 → focus.wantsOperand →
    ∃ children last outcome, Reads surroundings ⟨frame :: frames, focus⟩ words last ∧
      last.read surroundings word
        = settle surroundings word ({ frame with children := children } :: frames) outcome ∧
      gistAll (children ++ [outcome.tree]) = gistAll frame.children ++ gist

/-- The words of a text in one line that has a single expression and no errors make up an operand in
front of every word that goes on from nothing. -/
theorem readsOperand_of_parseTokens {surroundings : Surroundings} {body : List Token}
    {ending : Token} (unended : body.any Token.isEnd = false) (ends : ending.isEnd)
    (inLine : ∀ token ∈ body, token.kind ≠ .lineBreak) {tree : SyntaxTree}
    (parsed : parseTokens surroundings.grammar (body ++ [ending]) = .ok tree)
    (clean : tree.IsClean) (single : operandCount tree.children = 1) {word : Word}
    (stops : ∀ bracketed, word.Stops bracketed) :
    ReadsOperand surroundings (WordStream.ofTokens body).words word (gistAll tree.children) := by
  obtain ⟨first, rest, opening, last, words, opens, reads, inView, gists⟩ :=
    FileReading.exists_reads_of_parseTokens unended ends parsed clean single
  intro frame frames focus weak wants
  have supports : surroundings.Supports (frame.takeLead first :: frames)
      (FileReading.surroundings surroundings.grammar) := ⟨rfl, weak⟩
  have begun := isBegun_begin [] opening first.token
  have foreign : Word.IsForeign ⟨WordStream.pending [] body, ending⟩ := Word.isForeign_of_isEnd ends
  have line : ∀ word ∈ rest, word.beginsLine = false := fun word among =>
    WordStream.beginsLine_eq_false inLine (words ▸ List.mem_cons_of_mem first among)
  have leading : gistAll first.leadLeaves = [] :=
    WordStream.gistAll_leadLeaves (words ▸ List.mem_cons_self)
  have readsInside := reads.within supports line begun
  rw [within_begin, List.nil_append] at readsInside
  have stopsHere := stops (surroundings.isBracketed (frame.takeLead first :: frames))
  obtain ⟨left, right, ended, stopped, lefts⟩ :=
    exists_read_of_stops rfl (reads.isBegun begun) foreign inView stopsHere
  refine ⟨frame.children ++ first.leadLeaves, _, right, ?_, stopped, ?_⟩
  · rw [words]
    exact ⟨_, read_of_opening? wants opens, readsInside⟩
  · rw [gists left ended, gistAll_append, gistAll_append, leading, List.append_nil,
      Outcome.gistAll_of_gist_eq lefts]

end Reading

end WolframSyntax
