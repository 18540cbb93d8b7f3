import WolframSyntax.Token.Lexeme

/-!
# Lexing

A text as the list of its tokens. The tokens are the lexemes of the text with their places; the
list ends with one token for the end of the text.

Every reader splits a text into a first part and the rest without losing a character
(`Lexeme.read_append`), and the first lexeme of a nonempty text is never empty
(`Lexeme.characters_readFrom_ne_nil`). Reading on from the rest therefore comes to an end.
-/

namespace WolframSyntax

namespace Lexeme

/-- A reader that loses no character. -/
def Reader.Partitions (reader : Reader) : Prop :=
  ∀ characters, (reader characters).1 ++ (reader characters).2 = characters

/-- A run of characters of one class and what follows it are the text. -/
theorem Reader.partitions_run (belongs : Char → Bool) : (Reader.run belongs).Partitions :=
  fun _ => List.takeWhile_append_dropWhile

/-- Two readers that lose no character, one after the other, lose none. -/
theorem Reader.Partitions.andThen {first second : Reader}
    (whole : first.Partitions) (wholeAfter : second.Partitions) :
    (first.andThen second).Partitions := by
  intro characters
  show (first characters).1 ++ (second (first characters).2).1 ++ (second (first characters).2).2
    = characters
  rw [List.append_assoc, wholeAfter, whole]

/-- A name may go on over any number of contexts, each with its sign. -/
theorem partitions_readName : Reader.Partitions readName := by
  intro characters
  induction characters with
  | nil => rfl
  | cons character rest ih =>
    unfold readName
    split
    · exact congrArg (character :: ·) ih
    · rfl

theorem partitions_readBase : Reader.Partitions readBase := by
  intro characters
  unfold readBase
  split
  · exact congrArg ('^' :: '^' :: ·) (Reader.partitions_run _ _)
  · rfl

/-- A point in front of a second one is left, and no character is lost. -/
theorem partitions_readFraction : Reader.Partitions readFraction := by
  intro characters
  unfold readFraction
  split
  · split
    · rfl
    · exact congrArg ('.' :: ·) (Reader.partitions_run _ _)
  · rfl

theorem partitions_readPrecision : Reader.Partitions readPrecision := by
  intro characters
  unfold readPrecision
  split
  · exact congrArg ('\x60' :: '\x60' :: ·) (Reader.partitions_run _ _)
  · exact congrArg ('\x60' :: ·) (Reader.partitions_run _ _)
  · rfl

theorem partitions_readSign : Reader.Partitions readSign := by
  intro characters
  unfold readSign
  split <;> rfl

theorem partitions_readExponent : Reader.Partitions readExponent := by
  intro characters
  unfold readExponent
  split
  · exact congrArg ('*' :: '^' :: ·) (partitions_readSign.andThen (Reader.partitions_run _) _)
  · rfl

/-- A number is put together from its parts, each of which loses nothing. -/
theorem partitions_readNumber : Reader.Partitions readNumber :=
  (Reader.partitions_run _).andThen <| partitions_readBase.andThen <|
    partitions_readFraction.andThen <| partitions_readPrecision.andThen partitions_readExponent

/-- A literal that is not closed takes the rest of the text. -/
theorem readLiteral_append (characters : List Char) :
    (readLiteral characters).taken ++ (readLiteral characters).left = characters := by
  fun_induction readLiteral characters with
  | case1 => rfl
  | case2 => rfl
  | case3 escaped rest literal ih => exact congrArg ('\\' :: escaped :: ·) ih
  | case4 character rest _ _ literal ih => exact congrArg (character :: ·) ih

/-- A comment that is not closed takes the rest of the text, at every depth. -/
theorem readComment_append (depth : Nat) (characters : List Char) :
    (readComment depth characters).1 ++ (readComment depth characters).2 = characters := by
  fun_induction readComment depth characters with
  | case1 => rfl
  | case2 => rfl
  | case3 depth rest taken left reads ih =>
    rw [reads] at ih
    exact congrArg ('(' :: '*' :: ·) ih
  | case4 depth rest taken left reads ih =>
    rw [reads] at ih
    exact congrArg ('*' :: ')' :: ·) ih
  | case5 depth character rest _ _ taken left reads ih =>
    rw [reads] at ih
    exact congrArg (character :: ·) ih

theorem partitions_readSlotLabel : Reader.Partitions readSlotLabel := by
  intro characters
  unfold readSlotLabel
  split
  · exact Reader.partitions_run _ _
  · split
    · exact partitions_readName _
    · rfl

/-- A slot holds its own mark as well as its label. -/
theorem readSlot_append (mark : Char) (characters : List Char) :
    (readSlot mark characters).1.characters ++ (readSlot mark characters).2
      = mark :: characters := by
  unfold readSlot
  split
  · exact congrArg (mark :: '#' :: ·) (Reader.partitions_run _ _)
  · exact congrArg (mark :: ·) (partitions_readSlotLabel _)

/-- An operator found at the start of a text is spelled by the text. -/
theorem spelling_eq_take_of_longestWithin {characters : List Char} {length : Nat}
    {operator : Operator} (found : Operator.longestWithin characters length = some operator) :
    operator.spelling = characters.take operator.spelling.length := by
  induction length with
  | zero => cases found
  | succ length ih =>
    unfold Operator.longestWithin at found
    split at found
    · next spelled =>
      cases found
      have same := List.find?_some spelled
      have spelling : operator.spelling = characters.take (length + 1) := by simpa using same
      rw [spelling, List.length_take, List.take_eq_take_iff]
      omega
    · exact ih found

/-- No operator has an empty spelling. -/
theorem spelling_ne_nil (operator : Operator) : operator.spelling ≠ [] := by
  cases operator <;> exact List.cons_ne_nil _ _

/-- The first lexeme and the rest of a nonempty text make up the text. -/
theorem readFrom_append (character : Char) (rest : List Char) :
    (readFrom character rest).1.characters ++ (readFrom character rest).2 = character :: rest := by
  unfold readFrom
  split
  · exact congrArg (character :: ·) (Reader.partitions_run _ rest)
  split
  · rfl
  split
  · split <;> rfl
  split
  · next opens =>
    obtain ⟨_, star⟩ := opens
    cases rest with
    | nil => cases star
    | cons next rest =>
      cases star
      exact congrArg (character :: '*' :: ·) (readComment_append 1 rest)
  split
  · exact partitions_readName _
  split
  · exact partitions_readNumber _
  split
  · exact congrArg (character :: ·) (readLiteral_append rest)
  split
  · exact readSlot_append character rest
  split
  · next operator found =>
    show operator.spelling ++ (character :: rest).drop operator.spelling.length = character :: rest
    conv => lhs; lhs; rw [spelling_eq_take_of_longestWithin found]
    exact List.take_append_drop _ _
  · rfl

/-- The first lexeme and the rest make up the text. -/
theorem read_append (characters : List Char) :
    (read characters).1.characters ++ (read characters).2 = characters := by
  cases characters with
  | nil => rfl
  | cons character rest => exact readFrom_append character rest

/-- A name that starts with a letter or a dollar sign is not empty. -/
theorem readName_ne_nil {character : Char} {rest : List Char} (starts : startsName character) :
    (readName (character :: rest)).1 ≠ [] := by
  unfold readName
  have continues : (isAlphanumeric character || character == '$') = true := by
    unfold startsName at starts
    unfold isAlphanumeric
    simp only [Bool.or_eq_true] at starts ⊢
    exact starts.imp Or.inl id
  simp [continues]

/-- A number that starts with a digit, or with a point and a digit, is not empty. -/
theorem readNumber_ne_nil {character : Char} {rest : List Char}
    (starts :
      (Text.isDigit character || (character == '.' && beginsWith Text.isDigit rest)) = true) :
    (readNumber (character :: rest)).1 ≠ [] := by
  by_cases digit : Text.isDigit character
  · simp [readNumber, Reader.andThen, readDigits, Reader.run, digit]
  · have point : character = '.' ∧ beginsWith Text.isDigit rest := by
      simpa [digit] using starts
    obtain ⟨rfl, follows⟩ := point
    have none : readDigits ('.' :: rest) = ([], '.' :: rest) := by
      simp [readDigits, Reader.run, digit]
    have unpointed : rest.head? ≠ some '.' := by
      intro head
      cases rest with
      | nil => cases head
      | cons next rest =>
        cases head
        exact digit follows
    have fraction : (readFraction ('.' :: rest)).1 ≠ [] := by
      simp [readFraction, unpointed]
    simp only [readNumber, Reader.andThen, none, List.nil_append]
    simp [readBase, fraction]

/-- The first lexeme of a nonempty text is not empty. -/
theorem characters_readFrom_ne_nil (character : Char) (rest : List Char) :
    (readFrom character rest).1.characters ≠ [] := by
  unfold readFrom
  split
  · exact List.cons_ne_nil _ _
  split
  · exact List.cons_ne_nil _ _
  split
  · split <;> exact List.cons_ne_nil _ _
  split
  · exact List.cons_ne_nil _ _
  split
  · next starts => exact readName_ne_nil starts
  split
  · next starts => exact readNumber_ne_nil starts
  split
  · exact List.cons_ne_nil _ _
  split
  · unfold readSlot
    split <;> exact List.cons_ne_nil _ _
  split
  · exact spelling_ne_nil _
  · exact List.cons_ne_nil _ _

/-- What is left after the first lexeme is shorter than the text. -/
theorem length_readFrom_lt (character : Char) (rest : List Char) :
    (readFrom character rest).2.length < (character :: rest).length := by
  have whole := congrArg List.length (readFrom_append character rest)
  have nonempty := List.length_pos_iff.mpr (characters_readFrom_ne_nil character rest)
  rw [List.length_append] at whole
  omega

end Lexeme

/-! ## Tokens -/

/-- The tokens of the text `characters` that begins at a given place. -/
def tokensFrom (position : Position) (characters : List Char) : List Token :=
  match characters with
  | [] => [(Lexeme.read []).1.token position]
  | character :: rest =>
    let lexeme := (Lexeme.readFrom character rest).1
    lexeme.token position ::
      tokensFrom (position.advance lexeme.characters) (Lexeme.readFrom character rest).2
termination_by characters.length
decreasing_by exact Lexeme.length_readFrom_lt character rest

/-- The tokens of a text, trivia and the end of the text included. -/
def tokenize (source : String) : List Token :=
  tokensFrom Position.start source.toList

end WolframSyntax
