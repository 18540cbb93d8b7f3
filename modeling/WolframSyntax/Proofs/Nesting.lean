import WolframSyntax.Proofs.Brackets

/-!
# Brackets are counted

Every bracket that has been opened and not closed is held by an unfinished construct, as long as
what is read is free of errors: the depth of a reading, which is told by the roles of its frames, is
the number of closing brackets that it expects (`Reading.depth_eq`). So the depth of a file without
errors is the number of its opening brackets less that of its closing ones
(`FileReading.depth_foldl_read`), and where it is positive ends of lines are ignored
(`Reading.isBracketed_of_depth_pos`).
-/

namespace WolframSyntax

/-- What an operator adds to the number of open brackets. -/
def Operator.turn : Operator → Int
  | .leftBracket | .leftBrace | .leftPar => 1
  | .rightBracket | .rightBrace | .rightPar => -1
  | _ => 0

/-- What a token adds to the number of open brackets. -/
def Token.turn (token : Token) : Int :=
  match token.kind with
  | .operator sign => sign.turn
  | _ => 0

/-- The number of brackets that a list of tokens opens less the number of those it closes. -/
def Token.depth : List Token → Int
  | [] => 0
  | token :: tokens => token.turn + depth tokens

/-- How many brackets a construct has opened that waits for what its role says. -/
def Role.depth : Role → Int
  | .group | .items .list | .items .call => 1
  | .items .part => 2
  | _ => 0

/-- How many of these brackets have been closed already. -/
def Focus.closed : Focus → Int
  | .partEnd => 1
  | _ => 0

/-- How many brackets are open inside frames. -/
def Frame.depthOf : List Frame → Int
  | [] => 0
  | frame :: frames => frame.role.depth + depthOf frames

/-- How many brackets of a reading are open. -/
def Reading.depth (reading : Reading) : Int :=
  Frame.depthOf reading.frames - reading.focus.closed

namespace Token

/-- A token adds one to the number of brackets that are expected or takes one away. -/
theorem turn_of_expected? {token : Token} {closers left : List Operator}
    (expects : token.expected? closers = some left) :
    token.turn = (left.length : Int) - closers.length := by
  cases bracket : token.isBracket with
  | false =>
    rw [expected?_of_plain bracket] at expects
    cases expects
    unfold isBracket at bracket
    unfold turn
    split
    · next sign kind =>
      rw [kind] at bracket
      cases sign <;> first | exact (Int.sub_self _).symm | cases bracket
    · exact (Int.sub_self _).symm
  | true =>
    obtain ⟨sign, kind, ⟨closing, opens⟩ | closes⟩ := exists_of_isBracket bracket
    · rw [expected?_of_operator kind, Operator.expected?_of_closer? opens] at expects
      cases expects
      rw [turn, kind, List.length_cons]
      cases sign <;> first | (cases opens; done) | (simp only [Operator.turn]; omega)
    · rw [expected?_of_operator kind] at expects
      rw [Operator.eq_cons_of_expected? closes expects, turn, kind, List.length_cons]
      cases sign <;> first | (cases closes; done) | (simp only [Operator.turn]; omega)

/-- The number of brackets that tokens open is that of the brackets that are expected behind
them. -/
theorem depth_of_expectedBehind? {tokens : List Token} {closers left : List Operator}
    (expects : expectedBehind? closers tokens = some left) :
    depth tokens = (left.length : Int) - closers.length := by
  induction tokens generalizing closers with
  | nil =>
    cases expects
    exact (Int.sub_self _).symm
  | cons token tokens ih =>
    rw [expectedBehind?_cons] at expects
    obtain ⟨next, step, later⟩ := Option.bind_eq_some_iff.mp expects
    rw [depth, turn_of_expected? step, ih later]
    omega

/-- Trivia do not change how deep brackets are nested. -/
theorem depth_filter_plain (tokens : List Token) :
    depth (tokens.filter fun token => !token.isTrivia) = depth tokens := by
  induction tokens with
  | nil => rfl
  | cons token tokens ih =>
    cases blank : token.isTrivia with
    | true =>
      have still := turn_of_expected? (expected?_of_plain (isBracket_of_isTrivia blank) [])
      rw [List.filter_cons_of_neg (by simp [blank]), ih, depth, still]
      exact (Int.zero_add _).symm
    | false => rw [List.filter_cons_of_pos (by simp [blank]), depth, depth, ih]

end Token

/-- A construct is as deep as it expects closing brackets. -/
theorem Role.depth_eq (role : Role) : role.depth = role.closers.length := by
  cases role with
  | items enclosure => cases enclosure <;> rfl
  | _ => rfl

namespace Frame

@[simp] theorem depthOf_cons (frame : Frame) (frames : List Frame) :
    depthOf (frame :: frames) = frame.role.depth + depthOf frames := rfl

theorem depthOf_eq (frames : List Frame) : depthOf frames = (closersOf frames).length := by
  induction frames with
  | nil => rfl
  | cons frame frames ih =>
    rw [depthOf_cons, ih, closersOf_cons, List.length_append, Role.depth_eq]
    rfl

theorem depthOf_eq_zero_of_open {frames : List Frame}
    (open' : ∀ frame ∈ frames, frame.brackets = false) : depthOf frames = 0 := by
  have none : closersOf frames = [] :=
    List.flatMap_eq_nil_iff.mpr fun frame present => closers_eq_nil_of_open (open' frame present)
  rw [depthOf_eq, none]
  rfl

end Frame

namespace Reading

variable {surroundings : Surroundings}

theorem depth_mk (frames : List Frame) (focus : Focus) :
    depth ⟨frames, focus⟩ = Frame.depthOf frames - focus.closed := rfl

/-- The brackets that are open are those whose closing ones are expected. -/
theorem depth_eq {reading : Reading} (rests : reading.Rests surroundings)
    (begun : reading.IsBegun) : reading.depth = reading.closers.length := by
  obtain ⟨frames, focus⟩ := reading
  by_cases last : focus = .partEnd
  · subst last
    cases frames with
    | nil => cases begun rfl
    | cons frame frames =>
      have part : frame.role = .items .part := rests.suits frame rfl
      rw [depth_mk, Frame.depthOf_cons, Frame.depthOf_eq, closers_cons, Frame.closers, part,
        List.length_append]
      change (2 : Int) + _ - 1 = ((1 + _ : Nat) : Int)
      omega
  · have open' : focus.closed = 0 := by cases focus <;> first | rfl | exact absurd rfl last
    rw [depth_mk, closers_of_ne_partEnd frames focus last, Frame.depthOf_eq, open', Int.sub_zero]

/-- Where brackets are open, ends of lines are ignored. -/
theorem isBracketed_of_depth_pos {reading : Reading} (open' : 0 < reading.depth) :
    surroundings.isBracketed reading.frames := by
  obtain ⟨frames, focus⟩ := reading
  rw [depth_mk] at open'
  have nonneg : 0 ≤ focus.closed := by
    cases focus with
    | partEnd => exact Int.one_nonneg
    | _ => exact Int.le_refl 0
  have positive : 0 < Frame.depthOf frames := by omega
  rw [Surroundings.isBracketed, Bool.or_eq_true_iff]
  right
  by_contra none
  simp only [Bool.not_eq_true, List.any_eq_false] at none
  have zero := Frame.depthOf_eq_zero_of_open none
  omega

end Reading

namespace FileReading

/-- How many brackets of the current expression of a file are open. -/
def depth (file : FileReading) : Int := (file.current.map Reading.depth).getD 0

variable {grammar : Grammar} {file : FileReading}

theorem depth_of_current {reading : Reading} (current : file.current = some reading) :
    file.depth = reading.depth := by
  rw [depth, current]
  rfl

/-- A file is as deep as it expects closing brackets. -/
theorem depth_eq (sound : file.IsSound) (agrees : file.Agrees grammar) :
    file.depth = file.closers.length := by
  unfold depth closers
  cases current : file.current with
  | none => rfl
  | some reading =>
    exact Reading.depth_eq (agrees.current reading current) (sound.begun reading current)

/-- The brackets that are open in a file without errors are those among its tokens. -/
theorem depth_foldl_read {words : List Word} (sound : file.IsSound) (agrees : file.Agrees grammar)
    (clean : (words.foldl (read grammar) file).IsClean) :
    (words.foldl (read grammar) file).depth
      = file.depth + Token.depth (words.map Word.token) := by
  rw [depth_eq sound agrees, depth_eq (sound.foldl_read grammar words).1
    (agrees_foldl_read words agrees sound.fits),
    Token.depth_of_expectedBehind? (expectedBehind?_foldl_read sound agrees clean)]
  omega

end FileReading

end WolframSyntax
