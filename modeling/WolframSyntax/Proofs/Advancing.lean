import WolframSyntax.Proofs.Descent

/-!
# Reading by descent ends

The functions that read by descent end on every list of words, and come to what reading word by word
comes to (`Descent.advances`, `Descent.parse_eq`). The number of words to come is the measure: their
calls of one another go no deeper than three for each word. An expression that begins takes a word
(`Descent.readsExpressions`), so does a construct in every turn in which it goes on
(`Descent.turn_follows`), and so does what goes on from an expression (`Descent.applied_follows`). A
chain can go on without taking a word only where an operand begins, and that operand takes it.
-/

namespace WolframSyntax

/-- The expression in which a word goes on from the expression in front of it. -/
def Word.Link.extend (grammar : Grammar) (left : SyntaxTree) (word : Word) : Word.Link → Reading
  | .sign operator continuation =>
    Reading.continueWith grammar [] left operator continuation word
  | .factor opening => Reading.multiply grammar [] left opening word

/-- Only the multiplication sign makes products. -/
theorem Continuation.eq_times_of_ofOperator? {sign : Operator}
    (form : Continuation.ofOperator? sign = some .product) : sign = .times := by
  cases sign <;> first | rfl | cases form

namespace Reading

variable {surroundings : Surroundings} {word : Word}

/-- With no constructs around, a word goes on if its operator binds more strongly than the floor. -/
theorem extend?_eq (left : SyntaxTree) :
    extend? surroundings [] left word
      = match word.link? surroundings.bracketed with
        | none => none
        | some link =>
          if surroundings.floor < surroundings.grammar.precedence link.operator then
            some (link.extend surroundings.grammar left word)
          else none := by
  have bracketed : surroundings.isBracketed [] = surroundings.bracketed := Bool.or_false _
  unfold extend?
  rw [bracketed]
  rcases word.link? surroundings.bracketed with _ | _ | _ <;> rfl

end Reading

/-! ## Descents that follow a run -/

/-- Some words have been read, at least one. -/
def Consumes (words rest : List Word) : Prop := rest <:+ words ∧ rest.length < words.length

/-- The list begins with a word that begins an expression. -/
def Opens (words : List Word) : Prop :=
  ∃ word rest opening, words = word :: rest ∧ word.opening? = some opening

/-- What reading an expression leaves: less if there is one, and all words if none begins. -/
def Leaves (words : List Word) : Option Outcome → List Word → Prop
  | some _, rest => Consumes words rest
  | none, rest => rest = words ∧ ¬Opens words

/-- A list is longer than what is behind its first word. -/
theorem consumes_cons {word : Word} {words rest : List Word} (behind : rest <:+ words) :
    Consumes (word :: words) rest :=
  ⟨behind.trans (List.suffix_cons _ _), Nat.lt_succ_of_le behind.length_le⟩

/-- Words that have been consumed stay so when more are read. -/
theorem Consumes.trans_suffix {words middle rest : List Word} (consumes : Consumes words middle)
    (behind : rest <:+ middle) : Consumes words rest :=
  ⟨behind.trans consumes.1, Nat.lt_of_le_of_lt behind.length_le consumes.2⟩

/-- What reading an expression leaves is behind the words. -/
theorem Leaves.suffix {words rest : List Word} {outcome : Option Outcome}
    (leaves : Leaves words outcome rest) : rest <:+ words := by
  cases outcome with
  | some outcome => exact leaves.1
  | none => exact leaves.1 ▸ List.suffix_refl _

/-- Reading consumes words where an expression begins. -/
theorem Leaves.consumes {words rest : List Word} {outcome : Option Outcome}
    (leaves : Leaves words outcome rest) (opens : Opens words) : Consumes words rest := by
  cases outcome with
  | some outcome => exact leaves
  | none => exact (leaves.2 opens).elim

namespace Descent

variable {Result Next Final : Type} {words : List Word} {whole : Option Final}

/-- A descent over some words ends as a run does that comes to `whole`: both run out of words, or
the descent leaves words from which `later` comes to the same. -/
def Follows (descent : Descent Result) (words : List Word) (whole : Option Final)
    (later : Result → List Word → Option Final) (leaves : Result → List Word → Prop) : Prop :=
  descent words = some none ∧ whole = none ∨
    ∃ value rest, descent words = some (some (value, rest)) ∧ whole = later value rest ∧
      leaves value rest

/-- One descent after another reads what the first one leaves. -/
theorem bind_apply (descent : Descent Result) (next : Result → Descent Next) (words : List Word) :
    (descent >>= next) words
      = match descent words with
        | some (some (value, rest)) => next value rest
        | some none => some none
        | none => none := by
  simp only [bind, StateT.bind, OptionT.bind, OptionT.mk]
  rcases descent words with _ | _ | ⟨value, rest⟩ <;> rfl

/-- A descent that reads nothing follows a run that comes to the same. -/
theorem follows_pure {value : Result} {later : Result → List Word → Option Final}
    {leaves : Result → List Word → Prop} (same : whole = later value words)
    (left : leaves value words) : Follows (pure value) words whole later leaves :=
  .inr ⟨value, words, rfl, same, left⟩

/-- A descent that ends is followed by the next one from what it leaves. -/
theorem follows_bind_of_eq {descent : Descent Result} {next : Result → Descent Next}
    {value : Result} {rest : List Word} {later : Next → List Word → Option Final}
    {leaves : Next → List Word → Prop} (ends : descent words = some (some (value, rest)))
    (follows : (next value).Follows rest whole later leaves) :
    (descent >>= next).Follows words whole later leaves := by
  rw [Follows, bind_apply, ends]
  exact follows

/-- Two descents one after the other follow a run when each follows its part. -/
theorem Follows.bind {descent : Descent Result} {next : Result → Descent Next}
    {middle : Result → List Word → Option Final} {leaves : Result → List Word → Prop}
    {later : Next → List Word → Option Final} {leavesNext : Next → List Word → Prop}
    (first : descent.Follows words whole middle leaves)
    (second : ∀ value rest, leaves value rest →
      (next value).Follows rest (middle value rest) later leavesNext) :
    (descent >>= next).Follows words whole later leavesNext := by
  rcases first with ⟨ends, unended⟩ | ⟨value, rest, ends, same, left⟩
  · exact .inl ⟨by rw [bind_apply, ends], unended⟩
  · rw [same]
    exact follows_bind_of_eq ends (second value rest left)

/-- A descent that follows a run leaves whatever is implied by what it leaves. -/
theorem Follows.mono {descent : Descent Result} {later : Result → List Word → Option Final}
    {leaves less : Result → List Word → Prop}
    (follows : descent.Follows words whole later leaves)
    (weaker : ∀ value rest, leaves value rest → less value rest) :
    descent.Follows words whole later less := by
  rcases follows with unended | ⟨value, rest, ends, same, left⟩
  · exact .inl unended
  · exact .inr ⟨value, rest, ends, same, weaker value rest left⟩

/-- A descent that follows a run comes to what the run comes to. -/
theorem Follows.eq_of_some {descent : Descent Result} {value : Result} {rest : List Word}
    {leaves : Result → List Word → Prop}
    (follows : descent.Follows words (some (value, rest)) (fun value rest => some (value, rest))
      leaves) : descent words = some (some (value, rest)) ∧ leaves value rest := by
  rcases follows with ⟨-, none⟩ | ⟨_, _, ends, same, left⟩
  · cases none
  · cases same
    exact ⟨ends, left⟩

/-- A descent that looks at the word in view or takes it ends where there is none. -/
theorem follows_view {next : Word → Descent Next} {later : Next → List Word → Option Final}
    {leaves : Next → List Word → Prop} (unended : words = [] → whole = none)
    (ended : ∀ word rest, words = word :: rest →
      (next word).Follows words whole later leaves) :
    (view >>= next).Follows words whole later leaves := by
  cases words with
  | nil => exact .inl ⟨rfl, unended rfl⟩
  | cons word rest => exact ended word rest rfl

/-- A descent that takes a word follows a run if it does so after the word. -/
theorem follows_take {next : Word → Descent Next} {word : Word}
    {later : Next → List Word → Option Final} {leaves : Next → List Word → Prop}
    (ended : (next word).Follows words whole later leaves) :
    (take >>= next).Follows (word :: words) whole later leaves :=
  ended

/-! ## One step -/

variable {surroundings : Surroundings} {frame : Frame} {word : Word}

/-- What a reading comes to in which a construct waits for more or is complete. -/
def continued (surroundings : Surroundings) :
    (Frame × Focus) ⊕ Outcome → List Word → Option (Option Outcome × List Word)
  | .inl (frame, focus) => Reading.run surroundings ⟨[frame], focus⟩
  | .inr outcome => Reading.run surroundings ⟨[], .complete outcome⟩

/-- What a construct waits for can be read by descent. -/
def IsRegular : (Frame × Focus) ⊕ Outcome → Prop
  | .inl (frame, focus) => frame.IsRegular ∧ focus.hasOperand = false
  | .inr _ => True

/-- A word that begins an operand begins it inside of the construct that waits for it. -/
theorem readOperand_of_opening? {opening : Opening} (opens : word.opening? = some opening) :
    Reading.readOperand surroundings [frame] word
      = .reading (Reading.beginOperand frame [] opening word) := by
  unfold Reading.readOperand
  rw [opens]

/-- Where the word begins no operand, the construct is fed an error in place of it. -/
theorem readOperand_of_unopened (unopened : word.opening? = none) :
    Reading.readOperand surroundings [frame] word
      = Reading.feed surroundings frame [] (frame.missing word) word := by
  unfold Reading.readOperand
  rw [unopened]

/-- A run over an operand is one of the operand inside of its construct. -/
theorem run_operand {opening : Opening} (opens : word.opening? = some opening)
    (surroundings : Surroundings) (frame : Frame) (words : List Word) :
    Reading.run surroundings ⟨[frame], .operand⟩ (word :: words)
      = Reading.run surroundings (Reading.beginOperand frame [] opening word) words := by
  rw [Reading.run_cons]
  change (Reading.readOperand surroundings [frame] word).run surroundings word words = _
  rw [readOperand_of_opening? opens]
  rfl

/-- A reaction reads the word, or ends the construct, or has an operand begin with the word. -/
theorem respond_follows {bracketed : Bool} {reaction : Reaction}
    (regular : reaction.IsRegular bracketed word) (surroundings : Surroundings)
    (words : List Word) :
    (respond reaction).Follows (word :: words)
      ((Reading.react surroundings [] reaction word).run surroundings word words)
      (continued surroundings) fun next rest => IsRegular next ∧ (rest = words ∨
        rest = word :: words ∧ ((∃ outcome, reaction = .ends outcome ∧ next = .inr outcome) ∨
          ∃ frame opening, reaction = .begins frame opening ∧ next = .inl (frame, .operand))) := by
  cases reaction with
  | waits frame focus => exact .inr ⟨_, _, rfl, rfl, regular, .inl rfl⟩
  | begins frame opening =>
    have opens := Word.opening?_of_openingInLine? regular.2
    refine .inr ⟨_, _, rfl, (run_operand opens surroundings frame words).symm,
      ⟨regular.1, rfl⟩, .inr ⟨rfl, .inr ⟨_, _, rfl, rfl⟩⟩⟩
  | closes outcome => exact .inr ⟨_, _, rfl, rfl, trivial, .inl rfl⟩
  | ends outcome => exact .inr ⟨_, _, rfl, rfl, trivial, .inr ⟨rfl, .inl ⟨_, rfl, rfl⟩⟩⟩

/-- The name of a blank is read as in a run. -/
theorem blank_follows (surroundings : Surroundings) (kind : NodeKind) (token : Token)
    (named : Option SyntaxTree) (words : List Word) :
    (blank kind token named).Follows words
      (Reading.run surroundings ⟨[], .blankName kind token named⟩ words)
      (fun outcome => Reading.run surroundings ⟨[], .complete outcome⟩)
      fun _ rest => rest <:+ words := by
  refine follows_view (fun none => by rw [none]; rfl) fun word rest same => ?_
  subst same
  rw [Reading.run_cons]
  change Follows _ _
    ((Reading.readBlankName surroundings [] kind token named word).run surroundings word rest) _ _
  unfold Reading.readBlankName
  dsimp only
  split
  · next attached =>
    exact follows_take (follows_pure rfl (List.suffix_cons _ _))
  · exact follows_pure rfl (List.suffix_refl _)

/-- Progress that a construct makes by a reaction of its own, or else by an operand that has to
begin with the word. -/
def Skips (surroundings : Surroundings) (frame : Frame) (word : Word) (progress : Progress) :
    Option Reaction → Prop
  | some reaction => progress = Reading.react surroundings [] reaction word ∧
      reaction.IsRegular (surroundings.isBracketed [frame]) word ∧
      ∀ next opening, reaction ≠ .begins next opening
  | none => progress = Reading.readOperand surroundings [frame] word

/-- The first item is skipped, or read as an operand. -/
theorem skips_items (regular : frame.IsRegular) :
    Skips surroundings frame word (Reading.readFirstItem surroundings [frame] word)
      (frame.skipItems? word) := by
  obtain ⟨role, floor, children, succeeded⟩ := frame
  cases role with
  | items enclosure =>
    unfold Reading.readFirstItem Frame.skipItems?
    dsimp only
    split
    · exact ⟨rfl, regular.closeItems enclosure, fun _ _ => Frame.closeItems_ne_begins⟩
    · rfl
  | group | operand | chain | compound | tag | tagPattern => rfl

/-- Only what a construct does by itself can go without an operand. -/
theorem skips (regular : frame.IsRegular) {focus : Focus} (open' : focus.hasOperand = false) :
    Skips surroundings frame word (Reading.read surroundings ⟨[frame], focus⟩ word)
      (frame.skip? focus (surroundings.isBracketed [frame]) word) := by
  cases focus with
  | operand => rfl
  | firstItem => exact skips_items regular
  | arguments =>
    change Skips surroundings frame word (Reading.readArguments surroundings [frame] word) _
    unfold Reading.readArguments Frame.skip?
    dsimp only
    split
    · exact ⟨rfl, ⟨Frame.isRegular_of_ne fun _ _ => Role.noConfusion, rfl⟩,
        fun _ _ => Reaction.noConfusion⟩
    · exact skips_items regular
  | partEnd =>
    exact ⟨rfl, Frame.isRegular_close _ _ _, fun _ _ => Frame.close_ne_begins⟩
  | statement =>
    change Skips surroundings frame word (Reading.readStatement surroundings [frame] word) _
    unfold Reading.readStatement Frame.skip?
    cases opens : word.openingInLine? (surroundings.isBracketed [frame]) with
    | some opening =>
      exact (readOperand_of_opening? (Word.opening?_of_openingInLine? opens)).symm
    | none =>
      rw [Option.isSome_none, if_neg Bool.false_ne_true, Frame.proceed_eq_receive regular]
      refine ⟨rfl, regular.receive _ _ _, fun next opening begins => ?_⟩
      have regularBegins := regular.receive (surroundings.isBracketed [frame])
        ⟨SyntaxTree.absent .null none word.token, true⟩ word
      rw [begins] at regularBegins
      rw [regularBegins.2] at opens
      cases opens
  | blankName | complete => cases open'

/-! ## All steps -/

variable {readers : Readers}

/-- Reading an expression ends. It consumes words if there is an expression, and no words
otherwise. -/
def ReadsExpressions (readers : Readers) (words : List Word) : Prop :=
  ∀ surroundings, (readers.expression surroundings).Follows words
    (Reading.fresh.run surroundings words) (fun outcome rest => some (outcome, rest))
    (Leaves words)

/-- Reading the rest of a construct ends. It consumes words if an operand has to come next and
begins with the word in view. -/
def Constructs (readers : Readers) (words : List Word) : Prop :=
  ∀ surroundings frame focus, frame.IsRegular → focus.hasOperand = false →
    (readers.construct surroundings frame focus).Follows words
      (Reading.run surroundings ⟨[frame], focus⟩ words)
      (fun outcome => Reading.run surroundings ⟨[], .complete outcome⟩)
      fun _ rest => rest <:+ words ∧ (focus = .operand → Opens words → Consumes words rest)

/-- Climbing from a complete expression ends. -/
def Climbs (readers : Readers) (words : List Word) : Prop :=
  ∀ surroundings left, (readers.climb surroundings left).Follows words
    (Reading.run surroundings ⟨[], .complete left⟩ words)
    (fun outcome rest => some (some outcome, rest)) fun _ rest => rest <:+ words

/-- A fresh reading begins with the first word, or ends in front of it. -/
theorem run_fresh (surroundings : Surroundings) (word : Word) (words : List Word) :
    Reading.fresh.run surroundings (word :: words) = match word.opening? with
      | some opening => Reading.run surroundings (Reading.begin [] opening word.token) words
      | none => some (none, word :: words) := by
  rw [Reading.run_cons]
  change (Reading.readOperand surroundings [] word).run surroundings word words = _
  unfold Reading.readOperand
  cases word.opening? <;> rfl

/-- The construct that begins with a word is read from the words behind it. -/
theorem opened_follows (later : Constructs readers words) (surroundings : Surroundings)
    (opening : Opening) : (readers.opened surroundings opening).Follows (word :: words)
      (Reading.run surroundings (Reading.begin [] opening word.token) words)
      (fun outcome => Reading.run surroundings ⟨[], .complete outcome⟩)
      fun _ rest => rest <:+ words := by
  rw [Readers.opened]
  refine follows_take ?_
  cases opening with
  | atom kind => exact follows_pure rfl (List.suffix_refl _)
  | blank kind => exact blank_follows surroundings kind word.token none words
  | group | list | operator =>
    refine (later surroundings _ _ (Frame.isRegular_of_ne fun _ _ => Role.noConfusion)
      rfl).mono fun _ _ left => left.1

/-- An expression consumes words if one begins with the word in view, and no words otherwise. -/
theorem readsExpressions (constructs : ∀ rest, rest.length < words.length → Constructs readers rest)
    (climbs : ∀ rest, rest.length < words.length → Climbs readers rest) :
    ReadsExpressions readers.above words := by
  intro surroundings
  refine follows_view (fun none => by rw [none]; rfl) fun word rest same => ?_
  subst same
  rw [run_fresh]
  cases opens : word.opening? with
  | none =>
    refine follows_pure rfl ⟨rfl, ?_⟩
    rintro ⟨_, _, _, ⟨⟩, some⟩
    cases opens.symm.trans some
  | some opening =>
    refine (opened_follows (constructs rest (Nat.lt_succ_self _)) surroundings opening).bind
      fun left behind within => ?_
    have short : Consumes (word :: rest) behind := consumes_cons within
    refine (climbs behind short.2 surroundings left).bind fun outcome last within => ?_
    exact follows_pure rfl (short.trans_suffix within)

/-- What a frame comes to with an operand that has been read. -/
def received (surroundings : Surroundings) (frame : Frame) :
    Option Outcome → List Word → Option (Option Outcome × List Word)
  | some outcome, word :: words =>
    (Reading.feed surroundings frame [] outcome word).run surroundings word words
  | _, _ => none

/-- A descent that follows a reading by itself also follows it inside of a frame. -/
theorem Follows.inside (frame : Frame) {descent : Descent (Option Outcome)} {reading : Reading}
    {behind : List Word} {leaves : Option Outcome → List Word → Prop}
    (follows : descent.Follows words (reading.run (surroundings.inside frame) behind)
      (fun outcome rest => some (outcome, rest)) leaves) (begun : reading.IsBegun) :
    descent.Follows words ((reading.within [frame]).run surroundings behind)
      (received surroundings frame) fun outcome rest => outcome.isSome ∧ leaves outcome rest := by
  rcases Reading.run_inside surroundings frame begun behind with
    ⟨unended, within⟩ | ⟨outcome, word, rest, -, alone, within⟩
  · rcases follows with ⟨ends, -⟩ | ⟨value, rest, -, same, -⟩
    · exact .inl ⟨ends, within⟩
    · cases unended.symm.trans same
  · rcases follows with ⟨-, none⟩ | ⟨value, last, ends, same, left⟩
    · cases none.symm.trans alone
    · cases same.symm.trans alone
      exact .inr ⟨_, _, ends, within, rfl, left⟩

/-- A construct that goes on without an operand takes the word. -/
theorem missing_follows (unopened : word.opening? = none) (surroundings : Surroundings)
    (regular : frame.IsRegular) :
    (respond (frame.proceed (surroundings.isBracketed [frame]) (frame.missing word) word)).Follows
      (word :: words) ((Reading.readOperand surroundings [frame] word).run surroundings word words)
      (continued surroundings) fun next rest =>
        IsRegular next ∧ rest <:+ word :: words ∧
          (next.isLeft → Consumes (word :: words) rest) := by
  have reacts := regular.receive (surroundings.isBracketed [frame]) (frame.missing word) word
  rw [readOperand_of_unopened unopened, Reading.feed, Frame.proceed_eq_receive regular]
  refine (respond_follows reacts surroundings words).mono
    fun next rest left => ⟨left.1, ?_⟩
  rcases left.2 with rfl | ⟨rfl, ⟨outcome, -, rfl⟩ | ⟨next, opening, begins, -⟩⟩
  · have consumes : Consumes (word :: rest) rest := consumes_cons (List.suffix_refl _)
    exact ⟨consumes.1, fun _ => consumes⟩
  · exact ⟨List.suffix_refl _, fun more => absurd more Bool.false_ne_true⟩
  · rw [begins] at reacts
    cases unopened.symm.trans (Word.opening?_of_openingInLine? reacts.2)

/-- An operand consumes words if it begins with the word in view, and is missing otherwise. -/
theorem operand_follows (expressions : ReadsExpressions readers (word :: words))
    (surroundings : Surroundings) (regular : frame.IsRegular) :
    Follows (readers.expression (surroundings.inside frame) >>=
        receive frame (surroundings.isBracketed [frame]) word)
      (word :: words) ((Reading.readOperand surroundings [frame] word).run surroundings word words)
      (continued surroundings) fun next rest =>
        IsRegular next ∧ rest <:+ word :: words ∧ (next.isLeft → Consumes (word :: words) rest) ∧
          (Opens (word :: words) → Consumes (word :: words) rest) := by
  have alone := expressions (surroundings.inside frame)
  rw [run_fresh] at alone
  cases opens : word.opening? with
  | none =>
    rw [opens] at alone
    obtain ⟨reads, -, closed⟩ := alone.eq_of_some
    refine follows_bind_of_eq reads ((missing_follows opens surroundings regular).mono
      fun next rest left => ?_)
    exact ⟨left.1, left.2.1, left.2.2, fun begins => (closed begins).elim⟩
  | some opening =>
    rw [opens] at alone
    rw [readOperand_of_opening? opens]
    change Follows _ _ ((Reading.beginOperand frame [] opening word).run surroundings words) _ _
    rw [Reading.beginOperand, ← List.nil_append [frame.takeLead word],
      ← Reading.within_begin]
    have begun : (Reading.begin [] opening word.token).IsBegun := Reading.isBegun_begin _ _ _
    refine (alone.inside (frame.takeLead word) begun).bind fun outcome rest left => ?_
    obtain ⟨some, consumes⟩ := left
    obtain ⟨outcome, rfl⟩ := Option.isSome_iff_exists.mp some
    refine follows_view (fun none => by rw [none]; rfl) fun last beyond same => ?_
    subst same
    have regular' : (frame.takeLead word).IsRegular := regular.of_role_eq rfl
    rw [Frame.proceed_eq_receive regular']
    refine (respond_follows (regular'.receive _ _ _) surroundings beyond).mono
      fun next final left => ⟨left.1, ?_⟩
    have read : final <:+ last :: beyond := by
      rcases left.2 with rfl | ⟨rfl, -⟩
      · exact List.suffix_cons _ _
      · exact List.suffix_refl _
    have consumes : Consumes (word :: words) final := consumes.trans_suffix read
    exact ⟨consumes.1, fun _ => consumes, fun _ => consumes⟩

/-- A turn that goes on has read a word, and so has a turn in which an operand begins. -/
theorem turn_follows (expressions : ReadsExpressions readers words) (surroundings : Surroundings)
    (regular : frame.IsRegular) {focus : Focus}
    (open' : focus.hasOperand = false) :
    (readers.turn surroundings frame focus).Follows words
      (Reading.run surroundings ⟨[frame], focus⟩ words) (continued surroundings)
      fun next rest => IsRegular next ∧ rest <:+ words ∧ (next.isLeft → Consumes words rest) ∧
        (focus = .operand → Opens words → Consumes words rest) := by
  rw [Readers.turn]
  refine follows_view (fun none => by rw [none]; rfl) fun word rest same => ?_
  subst same
  rw [Reading.run_cons]
  have skipped : Skips surroundings frame word (Reading.read surroundings ⟨[frame], focus⟩ word)
      (frame.skip? focus (surroundings.isBracketed [frame]) word) := skips regular open'
  cases skip : frame.skip? focus (surroundings.isBracketed [frame]) word with
  | some reaction =>
    rw [skip] at skipped
    obtain ⟨same, regular, stays⟩ := skipped
    rw [same]
    refine (respond_follows regular surroundings rest).mono fun next last left => ⟨left.1, ?_⟩
    have waits : focus ≠ .operand := by
      rintro rfl
      cases skip
    rcases left.2 with rfl | ⟨rfl, ⟨outcome, -, rfl⟩ | ⟨next, opening, begins, -⟩⟩
    · have consumes : Consumes (word :: last) last := consumes_cons (List.suffix_refl _)
      exact ⟨consumes.1, fun _ => consumes, fun _ _ => consumes⟩
    · exact ⟨List.suffix_refl _, nofun, fun operand => (waits operand).elim⟩
    · exact (stays next opening begins).elim
  | none =>
    rw [skip] at skipped
    change Reading.read surroundings ⟨[frame], focus⟩ word = _ at skipped
    rw [skipped]
    exact (operand_follows expressions surroundings regular).mono
      fun next last left => ⟨left.1, left.2.1, left.2.2.1, fun _ => left.2.2.2⟩

/-- A construct is read on if expressions are, and constructs in front of fewer words. -/
theorem constructs (expressions : ReadsExpressions readers words)
    (shorter : ∀ rest, rest.length < words.length → Constructs readers rest) :
    Constructs readers.above words := by
  intro surroundings frame focus regular open'
  refine (turn_follows expressions surroundings regular open').bind
    fun next rest leaves => ?_
  obtain ⟨goesOn, behind, left, begins⟩ := leaves
  rcases next with ⟨frame, focus⟩ | outcome
  · refine (shorter rest (left rfl).2 surroundings frame focus goesOn.1 goesOn.2).mono
      fun _ last read => ?_
    have consumes : Consumes words last := (left rfl).trans_suffix read.1
    exact ⟨consumes.1, fun _ _ => consumes⟩
  · exact follows_pure rfl ⟨behind, begins⟩

/-- A chain that goes on with the word in view consumes it. -/
theorem chain_follows (here : Constructs readers (word :: words))
    (behind : Constructs readers words)
    (surroundings : Surroundings) {precedence : Int} {left : SyntaxTree} {kind : NodeKind}
    {sign : Operator} (regular : Frame.IsRegular ⟨.chain kind sign, precedence, [left], true⟩)
    {reaction : Reaction} (steps : Frame.step ⟨.chain kind sign, precedence, [left], true⟩ kind sign
      surroundings.bracketed word = reaction) (stays : ∀ outcome, reaction ≠ .ends outcome) :
    (readers.chain surroundings precedence left kind sign).Follows (word :: words)
      ((Reading.react surroundings [] reaction word).run surroundings word words)
      (fun outcome => Reading.run surroundings ⟨[], .complete outcome⟩)
      fun _ rest => Consumes (word :: words) rest := by
  have reacts : reaction.IsRegular surroundings.bracketed word := steps ▸ regular.step kind sign
  rw [Readers.chain]
  refine follows_view nofun fun _ _ same => ?_
  cases same
  dsimp only
  rw [steps]
  refine (respond_follows reacts surroundings words).bind fun next rest left => ?_
  obtain ⟨goesOn, read⟩ := left
  rcases read with rfl | ⟨rfl, ⟨outcome, ends, -⟩ | ⟨frame, opening, begins, rfl⟩⟩
  · rcases next with ⟨frame, focus⟩ | outcome
    · exact (behind surroundings frame focus goesOn.1 goesOn.2).mono
        fun _ _ read => consumes_cons read.1
    · exact follows_pure rfl (consumes_cons (List.suffix_refl _))
  · exact (stays outcome ends).elim
  · rw [begins] at reacts
    have opens := Word.opening?_of_openingInLine? reacts.2
    exact (here surroundings frame .operand goesOn.1 goesOn.2).mono
      fun _ _ read => read.2 rfl ⟨word, words, opening, rfl, opens⟩

/-- What goes on from a complete expression consumes words. -/
theorem applied_follows (here : Constructs readers (word :: words))
    (behind : Constructs readers words)
    (surroundings : Surroundings) (left : SyntaxTree) {link : Word.Link}
    (links : word.link? surroundings.bracketed = some link) :
    (readers.applied surroundings left link).Follows (word :: words)
      ((link.extend surroundings.grammar left word).run surroundings words)
      (fun outcome => Reading.run surroundings ⟨[], .complete outcome⟩)
      fun _ rest => Consumes (word :: words) rest := by
  rw [Readers.applied]
  refine follows_view nofun fun _ _ same => ?_
  cases same
  have product : Continuation.ofOperator? .times = some .product := rfl
  cases link with
  | factor opening =>
    exact chain_follows here behind surroundings (Frame.isRegular_of_form product rfl _ _)
      (Frame.step_of_factor links _) nofun
  | sign sign continuation =>
    have form := (Word.of_link?_eq_sign links).2.1
    cases continuation with
    | flat kind =>
      exact chain_follows here behind surroundings (Frame.isRegular_of_form form rfl _ _)
        (Frame.step_of_sign links rfl) nofun
    | product =>
      cases Continuation.eq_times_of_ofOperator? form
      exact chain_follows here behind surroundings (Frame.isRegular_of_form product rfl _ _)
        (Frame.step_of_sign links rfl) nofun
    | suffix kind => exact follows_take (follows_pure rfl (consumes_cons (List.suffix_refl _)))
    | pattern mark =>
      exact follows_take ((blank_follows surroundings mark word.token (some left) words).mono
        fun _ _ => consumes_cons)
    | binary | call | messageName | compound | tagSet =>
      exact follows_take ((behind surroundings _ _
        (Frame.isRegular_of_ne fun _ _ => Role.noConfusion) rfl).mono
          fun _ _ read => consumes_cons read.1)

/-- An expression climbs if the construct behind it is read, and climbing goes on over fewer words.
-/
theorem climbs (here : Constructs readers words)
    (constructs : ∀ rest, rest.length < words.length → Constructs readers rest)
    (shorter : ∀ rest, rest.length < words.length → Climbs readers rest) :
    Climbs readers.above words := by
  intro surroundings left
  refine follows_view (fun none => by rw [none]; rfl) fun word rest same => ?_
  subst same
  rw [Reading.run_cons]
  change Follows _ _ ((Reading.settle surroundings word [] left).run surroundings word rest) _ _
  rw [Reading.settle_nil, Reading.extend?_eq]
  cases links : word.link? surroundings.bracketed with
  | none => exact follows_pure rfl (List.suffix_refl _)
  | some link =>
    dsimp only
    split
    · have behind : Constructs readers rest := constructs rest (Nat.lt_succ_self _)
      refine (applied_follows here behind surroundings left.tree links).bind
        fun next middle read => ?_
      exact (shorter middle read.2 surroundings next).mono fun _ _ beyond => beyond.trans read.1
    · exact follows_pure rfl (List.suffix_refl _)

/-- What the functions come to with calls to some depth, if it suffices for the words. Each ends,
and follows the run of a reading. -/
structure Advances (depth : Nat) (words : List Word) : Prop where
  expression : 3 * words.length + 1 ≤ depth → ReadsExpressions (Readers.upTo depth) words
  construct : 3 * words.length + 2 ≤ depth → Constructs (Readers.upTo depth) words
  climb : 3 * words.length + 3 ≤ depth → Climbs (Readers.upTo depth) words

/-- All functions end if they are allowed three calls for each word. -/
theorem advances (depth : Nat) (words : List Word) : Advances depth words := by
  induction depth generalizing words with
  | zero => exact ⟨nofun, nofun, nofun⟩
  | succ depth ih =>
    have constructing (enough : 3 * words.length ≤ depth) :
        ∀ rest : List Word, rest.length < words.length → Constructs (Readers.upTo depth) rest :=
      fun rest less => (ih rest).construct (by omega)
    have climbing (enough : 3 * words.length ≤ depth) :
        ∀ rest : List Word, rest.length < words.length → Climbs (Readers.upTo depth) rest :=
      fun rest less => (ih rest).climb (by omega)
    exact {
      expression := fun enough =>
        readsExpressions (constructing (by omega)) (climbing (by omega))
      construct := fun enough =>
        constructs ((ih words).expression (by omega)) (constructing (by omega))
      climb := fun enough =>
        climbs ((ih words).construct (by omega)) (constructing (by omega)) (climbing (by omega)) }

end Descent

/-! ## Files -/

namespace FileReading

variable {grammar : Grammar} {ending : Option Word}

/-- A file goes on behind an expression as if it had held it from the beginning. -/
theorem exists_finish_foldl_read (ends : ∀ word ∈ ending, word.token.isEnd) (reading : Reading)
    (words : List Word) (children : List SyntaxTree) :
    reading.run (surroundings grammar) (words ++ ending.toList) = none ∨
      ∃ outcome rest, rest <:+ words ∧
        reading.run (surroundings grammar) (words ++ ending.toList)
          = some (outcome, rest ++ ending.toList) ∧
        ∀ word ∈ ending,
          (words.foldl (read grammar) ⟨children, some reading⟩).finish grammar word
            = (rest.foldl (read grammar)
                ⟨children ++ (outcome.map Outcome.tree).toList, none⟩).finish grammar word := by
  induction words generalizing reading with
  | nil =>
    cases ending with
    | none => exact .inl rfl
    | some word =>
      refine .inr ?_
      cases reads : reading.read (surroundings grammar) word with
      | reading next =>
        exact absurd (Reading.isEnd_eq_false_of_read reads) (by simp [ends word rfl])
      | finished outcome =>
        refine ⟨outcome, [], List.suffix_refl _, ?_, ?_⟩
        · change (reading.read (surroundings grammar) word).run _ _ _ = _
          rw [reads]
          rfl
        · rintro _ ⟨⟩
          change finish grammar ⟨children, some reading⟩ word = _
          rw [finish]
          dsimp only
          rw [reads]
          rfl
  | cons word words ih =>
    rw [List.cons_append, Reading.run_cons, List.foldl_cons, read]
    dsimp only
    cases reads : reading.read (surroundings grammar) word with
    | reading next =>
      rcases ih next with unended | ⟨outcome, rest, behind, ends, same⟩
      · exact .inl unended
      · exact .inr ⟨outcome, rest, behind.trans (List.suffix_cons _ _), ends, same⟩
    | finished outcome =>
      exact .inr ⟨outcome, word :: words, List.suffix_refl _, rfl, fun _ _ => rfl⟩

end FileReading

namespace Descent

variable {grammar : Grammar} {ending : Option Word}

/-- An expression that begins in a file ends where the file goes on behind it, or is never complete
if there is no end word. -/
theorem expression_of_opening (grammar : Grammar) (ends : ∀ word ∈ ending, word.token.isEnd)
    {readers : Readers} {word : Word} {words : List Word}
    (reads : ReadsExpressions readers (word :: (words ++ ending.toList))) {opening : Opening}
    (opens : word.opening? = some opening) (children : List SyntaxTree) :
    readers.expression (FileReading.surroundings grammar) (word :: (words ++ ending.toList))
        = some none ∧ ending = none ∨
      ∃ outcome rest, rest <:+ words ∧
        readers.expression (FileReading.surroundings grammar) (word :: (words ++ ending.toList))
          = some (some (some outcome, rest ++ ending.toList)) ∧
        ∀ last ∈ ending,
          ((word :: words).foldl (FileReading.read grammar) ⟨children, none⟩).finish grammar last
            = (rest.foldl (FileReading.read grammar)
                ⟨children ++ word.leadLeaves ++ [outcome.tree], none⟩).finish grammar last := by
  have alone := reads (FileReading.surroundings grammar)
  rw [run_fresh, opens] at alone
  rw [List.foldl_cons, FileReading.read, FileReading.beginWith, opens]
  rcases FileReading.exists_finish_foldl_read ends (Reading.begin [] opening word.token) words
    (children ++ word.leadLeaves) with unended | ⟨outcome, rest, behind, runs, same⟩
  · dsimp only at alone
    rw [unended] at alone
    rcases alone with ⟨out, -⟩ | ⟨_, _, -, ended, -⟩
    · refine .inl ⟨out, Option.eq_none_iff_forall_ne_some.mpr fun last is => ?_⟩
      have inside := Reading.isEnd_eq_false_of_run_eq_none unended last (by simp [is])
      exact absurd (ends last is) (by simp [inside])
    · cases ended
  · dsimp only at alone
    rw [runs] at alone
    obtain ⟨reads, left⟩ := alone.eq_of_some
    cases outcome with
    | none =>
      have longer := congrArg List.length left.1
      have shorter := behind.length_le
      simp only [List.length_append, List.length_cons] at longer
      omega
    | some outcome => exact .inr ⟨outcome, rest, behind, reads, same⟩

/-- A file reads one expression, or skips one word, and goes on. -/
theorem file_cons {depth : Nat} {children : List SyntaxTree} {word : Word} {words : List Word}
    (inner : word.token.isEnd = false) :
    file grammar (depth + 1) children (word :: words)
      = match (Readers.upTo depth).expression (FileReading.surroundings grammar)
            (word :: words) with
        | some (some (some outcome, rest)) =>
          file grammar depth (children ++ word.leadLeaves ++ [outcome.tree]) rest
        | some (some (none, rest)) =>
          (take >>= fun _ =>
            file grammar depth (children ++ word.leadLeaves ++ [FileReading.skipped word])) rest
        | some none => some none
        | none => none := by
  change (if word.token.isEnd then _ else _ : Descent _) (word :: words) = _
  rw [inner, if_neg Bool.false_ne_true, bind_apply]
  rcases (Readers.upTo depth).expression _ _ with _ | _ | ⟨_ | outcome, rest⟩ <;> rfl

/-- A file ends with the end word, with the expressions that reading word by word finds, and runs
out of words if there is no end word. -/
theorem file_eq (ends : ∀ word ∈ ending, word.token.isEnd) {depth : Nat} {words : List Word}
    (enough : 3 * (words ++ ending.toList).length + 2 ≤ depth)
    (inner : ∀ word ∈ words, word.token.isEnd = false) (children : List SyntaxTree) :
    file grammar depth children (words ++ ending.toList)
      = some (ending.map fun word =>
          ((words.foldl (FileReading.read grammar) ⟨children, none⟩).finish grammar word,
            [word])) := by
  induction depth generalizing words children with
  | zero => cases enough
  | succ depth ih =>
    cases words with
    | nil =>
      cases ending with
      | none => rfl
      | some word =>
        change (if word.token.isEnd then _ else _ : Descent _) [word] = _
        rw [if_pos (ends word rfl)]
        rfl
    | cons word words =>
      have deep : 3 * (word :: (words ++ ending.toList)).length + 1 ≤ depth :=
        Nat.le_of_succ_le_succ enough
      have later : ∀ rest : List Word, rest <:+ words → ∀ children,
          file grammar depth children (rest ++ ending.toList)
            = some (ending.map fun word =>
                ((rest.foldl (FileReading.read grammar) ⟨children, none⟩).finish grammar word,
                  [word])) := by
        intro rest behind
        refine ih ?_ fun word among => inner word (List.mem_cons_of_mem _ (behind.subset among))
        have shorter := behind.length_le
        simp only [List.length_cons, List.length_append] at deep ⊢
        omega
      have reads : ReadsExpressions (Readers.upTo depth) (word :: (words ++ ending.toList)) :=
        (advances depth _).expression deep
      rw [List.cons_append, file_cons (inner word (List.mem_cons_self ..))]
      cases opens : word.opening? with
      | none =>
        have alone := reads (FileReading.surroundings grammar)
        rw [run_fresh, opens] at alone
        rw [alone.eq_of_some.1, List.foldl_cons, FileReading.read, FileReading.beginWith, opens]
        exact later words (List.suffix_refl _) _
      | some opening =>
        rcases expression_of_opening grammar ends reads opens children with
          ⟨out, rfl⟩ | ⟨outcome, rest, behind, complete, same⟩
        · rw [out]
          rfl
        · rw [complete]
          refine (later rest behind _).trans (congrArg some (Option.map_congr fun last is => ?_))
          rw [same last is]

/-- A file is read by descent as it is read word by word. -/
theorem parse_eq (grammar : Grammar) {depth : Nat} {tokens : List Token}
    (enough : 3 * tokens.length + 2 ≤ depth) :
    parse depth grammar tokens = some (parseTokens grammar tokens) := by
  have ends : ∀ word ∈ (WordStream.ofTokens tokens).ending.map Prod.fst, word.token.isEnd := by
    have covers := WordStream.covers_ofTokens tokens
    unfold WordStream.Covers at covers
    rintro word among
    obtain ⟨⟨_, _⟩, found, rfl⟩ := Option.map_eq_some_iff.mp among
    rw [found] at covers
    exact covers.2.1
  have words : 3 * ((WordStream.ofTokens tokens).words
      ++ ((WordStream.ofTokens tokens).ending.map Prod.fst).toList).length + 2 ≤ depth := by
    have fewer := WordStream.length_words_le [] tokens
    unfold WordStream.ofTokens
    omega
  unfold parse parseTokens
  dsimp only
  rw [file_eq ends words WordStream.isEnd_eq_false_of_mem []]
  cases found : (WordStream.ofTokens tokens).ending with
  | none => rfl
  | some pair => simp [FileReading.tree, trailing, found, FileReading.empty]

/-! ## Ending -/

variable {Result : Type} {words : List Word} {surroundings : Surroundings}

/-- A descent ends on the words: it comes to a value, or the words run out and have no end word
among them. -/
def Returns (descent : Descent Result) (words : List Word) (leaves : Result → List Word → Prop) :
    Prop :=
  descent words = some none ∧ (∀ word ∈ words, word.token.isEnd = false) ∨
    ∃ value rest, descent words = some (some (value, rest)) ∧ leaves value rest

/-- A descent that follows a run ends if the run does wherever there is an end word. -/
theorem Follows.returns {Final : Type} {whole : Option Final} {descent : Descent Result}
    {later : Result → List Word → Option Final} {leaves : Result → List Word → Prop}
    (follows : descent.Follows words whole later leaves)
    (unended : whole = none → ∀ word ∈ words, word.token.isEnd = false) :
    descent.Returns words leaves := by
  rcases follows with ⟨ends, none⟩ | ⟨value, rest, ends, -, left⟩
  · exact .inl ⟨ends, unended none⟩
  · exact .inr ⟨value, rest, ends, left⟩

variable {depth : Nat}

/-- Applying an operator ends with three calls for each word. -/
theorem applied_returns (enough : 3 * words.length + 2 ≤ depth) {word : Word} {link : Word.Link}
    (inView : words.head? = some word) (links : word.link? surroundings.bracketed = some link)
    (left : SyntaxTree) :
    ((Readers.upTo depth).applied surroundings left link).Returns words
      fun _ rest => Consumes words rest := by
  obtain ⟨rest, rfl⟩ := List.head?_eq_some_iff.mp inView
  have here := (advances depth (word :: rest)).construct enough
  have behind := (advances depth rest).construct (by simp only [List.length_cons] at enough; omega)
  refine (applied_follows here behind surroundings left links).returns fun unended => ?_
  exact List.forall_mem_cons.mpr
    ⟨Word.isEnd_eq_false_of_link? links, Reading.isEnd_eq_false_of_run_eq_none unended⟩

/-- Reading an expression ends with three calls for each word. -/
theorem expression_returns (surroundings : Surroundings) {words : List Word}
    (enough : 3 * words.length + 1 ≤ depth) :
    ((Readers.upTo depth).expression surroundings).Returns words (Leaves words) :=
  ((advances depth words).expression enough surroundings).returns
    Reading.isEnd_eq_false_of_run_eq_none

/-- Two descents one after the other end only if the first one does. -/
theorem Returns.of_bind {Next : Type} {descent : Descent Result} {other : Descent Next}
    {rest : List Word} {leaves : Result → List Word → Prop}
    {leavesNext : Next → List Word → Prop} (returns : descent.Returns rest leaves) (value : Next)
    (same : other words = (descent >>= fun _ => pure value) rest)
    (inner : (∀ word ∈ rest, word.token.isEnd = false) → ∀ word ∈ words, word.token.isEnd = false)
    (left : ∀ result last, leaves result last → leavesNext value last) :
    other.Returns words leavesNext := by
  rcases returns with ⟨ends, unended⟩ | ⟨result, last, ends, read⟩
  · exact .inl ⟨by rw [same, bind_apply, ends], inner unended⟩
  · exact .inr ⟨value, last, by rw [same, bind_apply, ends]; rfl, left result last read⟩

/-- A round of a chain reads one operand and reacts to the word behind it. -/
theorem round_cons (readers : Readers) (surroundings : Surroundings) (frame : Frame)
    (kind : NodeKind) (sign : Operator) (word : Word) (words : List Word) :
    readers.round surroundings frame kind sign (word :: words)
      = (respond (frame.step kind sign (surroundings.isBracketed [frame]) word) >>= fun
          | .inl (frame, _) =>
            readers.expression (surroundings.inside frame) >>= fun _ => pure true
          | .inr _ => pure false) (word :: words) := rfl

/-- A round in which a chain goes on takes its sign, or else an operand that begins. -/
theorem round_returns (enough : 3 * words.length + 1 ≤ depth) {frame : Frame}
    (regular : frame.IsRegular) (kind : NodeKind) (sign : Operator) :
    ((Readers.upTo depth).round surroundings frame kind sign).Returns words
      fun goesOn rest => goesOn → Consumes words rest := by
  cases words with
  | nil => exact .inl ⟨rfl, List.forall_mem_nil _⟩
  | cons word words =>
    have reacts : (frame.step kind sign (surroundings.isBracketed [frame]) word).IsRegular
      (surroundings.isBracketed [frame]) word := regular.step kind sign
    cases step : frame.step kind sign (surroundings.isBracketed [frame]) word with
    | waits next focus =>
      have inner : word.token.isEnd = false := Frame.isEnd_eq_false_of_step (by rw [step]; nofun)
      have shorter : 3 * words.length + 1 ≤ depth := by
        simp only [List.length_cons] at enough
        omega
      refine (expression_returns (surroundings.inside next) shorter).of_bind true ?_
        (fun unended => List.forall_mem_cons.mpr ⟨inner, unended⟩)
        fun _ _ left _ => consumes_cons left.suffix
      rw [round_cons, step]
      rfl
    | begins next opening =>
      rw [step] at reacts
      have opens := Word.opening?_of_openingInLine? reacts.2
      refine (expression_returns (surroundings.inside next) enough).of_bind true ?_ id
        fun _ _ left _ => left.consumes ⟨word, words, opening, rfl, opens⟩
      rw [round_cons, step]
      rfl
    | closes outcome => exact .inr ⟨false, words, by rw [round_cons, step]; rfl, nofun⟩
    | ends outcome => exact .inr ⟨false, word :: words, by rw [round_cons, step]; rfl, nofun⟩

end Descent

/-- The surroundings of the next expression of a session. -/
def Session.surroundings (session : Session) (floor : Int) : Surroundings :=
  ⟨session.grammar, floor, session.isBracketed⟩

/-- A session reads an expression as a fresh reading does. -/
theorem Session.readExpression_eq (session : Session) (floor : Int) :
    session.readExpression floor
      = match Reading.fresh.run (session.surroundings floor) session.words with
        | some (outcome, rest) => (.ok outcome, { session with words := rest })
        | none => (.error (.unended session.length), { session with words := [] }) := by
  unfold readExpression surroundings
  dsimp only
  rw [Reading.readOn_eq_run]
  cases Reading.fresh.run _ session.words <;> rfl

namespace Descent

/-- In every state of a session, and however strongly the outside holds the expression, three calls
for each word to come suffice. The test for factors finds the words that multiply without a sign.
What goes on from an expression consumes words, so climbing ends. A chain consumes words in every
round in which it goes on, and so does every construct in every turn but its last. Reading an
expression ends and is what reading word by word comes to, and so does reading a file. -/
theorem always_returns (session : Session) (floor : Int) {depth : Nat}
    (enough : 3 * session.words.length + 3 ≤ depth) :
    (∀ word, (Word.factor? session.isBracketed word).isSome ↔
      word.next? session.isBracketed = some .times ∧ word.isOperator .times = false) ∧
    (∀ word link left, session.words.head? = some word →
      word.link? session.isBracketed = some link →
      ((Readers.upTo depth).applied (session.surroundings floor) left link).Returns session.words
        fun _ rest => Consumes session.words rest) ∧
    (∀ left, ((Readers.upTo depth).climb (session.surroundings floor) left).Returns session.words
      fun _ rest => rest <:+ session.words) ∧
    (∀ frame kind sign, frame.IsRegular →
      ((Readers.upTo depth).round (session.surroundings floor) frame kind sign).Returns
        session.words fun goesOn rest => goesOn → Consumes session.words rest) ∧
    (∀ frame focus, frame.IsRegular → focus.hasOperand = false →
      ((Readers.upTo depth).turn (session.surroundings floor) frame focus).Returns
        session.words fun next rest => IsRegular next ∧ rest <:+ session.words ∧
          (next.isLeft → Consumes session.words rest)) ∧
    (((Readers.upTo depth).expression (session.surroundings floor)).Returns session.words
      fun outcome rest => session.readExpression floor
          = (.ok outcome, { session with words := rest }) ∧ Leaves session.words outcome rest) ∧
    ∀ limit (tokens : List Token), 3 * tokens.length + 2 ≤ limit →
      parse limit session.grammar tokens = some (parseTokens session.grammar tokens) := by
  have advances := advances depth session.words
  have reads := advances.expression (by omega)
  refine ⟨fun word => Word.isSome_factor?_iff, fun word link left inView links =>
    applied_returns (by omega) inView links left, fun left => ?_, fun frame kind sign regular =>
    round_returns (by omega) regular kind sign, fun frame focus regular open' => ?_, ?_,
    fun limit tokens => parse_eq session.grammar⟩
  · exact (advances.climb enough (session.surroundings floor) left).returns
      Reading.isEnd_eq_false_of_run_eq_none
  · have turns := turn_follows reads (session.surroundings floor) regular open'
    exact (turns.mono fun _ _ left => ⟨left.1, left.2.1, left.2.2.1⟩).returns
      Reading.isEnd_eq_false_of_run_eq_none
  · rw [session.readExpression_eq]
    rcases reads (session.surroundings floor) with
      ⟨ends, unended⟩ | ⟨outcome, rest, ends, same, left⟩
    · exact .inl ⟨ends, Reading.isEnd_eq_false_of_run_eq_none unended⟩
    · rw [same]
      exact .inr ⟨outcome, rest, ends, rfl, left⟩

/-- The tokens of the line `a _`. -/
def blankApart : List Token :=
  [⟨.identifier, "a", 1, 1⟩, ⟨.whitespace, " ", 1, 2⟩, ⟨.operator .blank, "_", 1, 3⟩,
    ⟨.endOfFile, "", 1, 4⟩]

/-- The line `a _` with the blank in view. -/
def blankInView : Session :=
  ⟨.standard, 4, (Session.ofTokens .standard blankApart).words.tail, 0⟩

/-- A blank that stands apart is a factor, and is taken as one. -/
theorem always_returns_blank :
    3 * blankInView.words.length + 3 ≤ 9 ∧
    (∃ word, blankInView.words.head? = some word ∧
      word.link? blankInView.isBracketed = some (.factor (.blank .blank))) ∧
    ((Readers.upTo 9).applied (blankInView.surroundings 0)
        (SyntaxTree.leaf ⟨.identifier, "a", 1, 1⟩) (.factor (.blank .blank))).Returns
      blankInView.words (fun _ rest => Consumes blankInView.words rest) ∧
    Frame.IsRegular ⟨.chain .times .times, 400, [], true⟩ ∧
    ((Readers.upTo 9).round (blankInView.surroundings 0) ⟨.chain .times .times, 400, [], true⟩
        .times .times).Returns
      blankInView.words (fun goesOn rest => goesOn → Consumes blankInView.words rest) ∧
    Frame.IsRegular ⟨.compound, 10, [], true⟩ ∧ Focus.hasOperand .statement = false ∧
    ((Readers.upTo 9).turn (blankInView.surroundings 0) ⟨.compound, 10, [], true⟩
        .statement).Returns
      blankInView.words (fun next rest => IsRegular next ∧ rest <:+ blankInView.words ∧
        (next.isLeft → Consumes blankInView.words rest)) ∧
    3 * blankApart.length + 2 ≤ 14 ∧
    parse 14 .standard blankApart = some (parseTokens .standard blankApart) := by
  have enough : 3 * blankInView.words.length + 3 ≤ 9 := by decide
  have deep : 3 * blankApart.length + 2 ≤ 14 := by decide
  obtain ⟨-, applies, -, rounds, turns, -, parses⟩ := always_returns blankInView 0 enough
  have product : Frame.IsRegular ⟨.chain .times .times, 400, [], true⟩ := by
    rintro _ _ ⟨⟩
    exact ⟨.product, rfl, rfl⟩
  have compound : Frame.IsRegular ⟨.compound, 10, [], true⟩ :=
    Frame.isRegular_of_ne fun _ _ => Role.noConfusion
  exact ⟨enough, ⟨_, rfl, rfl⟩, applies _ _ _ rfl rfl, product, rounds _ _ _ product, compound, rfl,
    turns _ _ compound rfl, deep, parses 14 blankApart deep⟩

end Descent

end WolframSyntax
