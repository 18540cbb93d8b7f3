import WolframSyntax.Command.Repl
import WolframSyntax.Proofs.LineEnds
import WolframSyntax.Proofs.Nesting
import WolframSyntax.Proofs.Spacing

/-!
# When a conversation waits for another line

A conversation counts the brackets of a text character by character, while the tokens of a text have
brackets of their own. The count knows string literals but no comments. So it is the number of
bracket tokens that are open and what the texts of the comments add, as long as every literal that
seems to begin in a comment seems to end there (`bracketDepth_eq_depth_tokenize`). Apart from
comments every lexeme adds what its token stands for, and leaves the count outside of literals
unless the text ends with it (`Lexeme.bracketDepthFrom_readFrom`). A comment with a bracket of its
own makes a conversation wait for a line that the tokens do not ask for (`not_counts_as_tokens`).
-/

namespace WolframSyntax

namespace Text

/-- Where a text leaves off that begins somewhere. -/
def LiteralState.through (state : LiteralState) (characters : List Char) : LiteralState :=
  characters.foldl LiteralState.after state

/-- Whether a text leaves off outside of string literals. -/
def endsOutside (text : String) : Bool :=
  LiteralState.outside.through text.toList = .outside

variable {character : Char} {characters : List Char}

/-- The count goes on over a second text from where the first one leaves off. -/
theorem bracketDepthFrom_append (state : LiteralState) (first second : List Char) :
    bracketDepthFrom state (first ++ second)
      = bracketDepthFrom state first + bracketDepthFrom (state.through first) second := by
  induction first generalizing state with
  | nil => exact (Int.zero_add _).symm
  | cons character first ih =>
    rw [List.cons_append, bracketDepthFrom, ih, bracketDepthFrom, Int.add_assoc]
    rfl

/-- The characters that the count heeds outside of literals. -/
def counted : List Char := ['(', '[', '{', ')', ']', '}', '"']

/-- Whether the count passes over a character outside of literals. -/
def isPlain (character : Char) : Bool := !counted.contains character

/-- A class without counted characters has plain ones only. -/
theorem isPlain_of_belongs {belongs : Char → Bool}
    (table : (counted.all fun character => !belongs character) = true)
    (member : belongs character) : isPlain character := by
  rw [isPlain, Bool.not_eq_true', ← Bool.not_eq_true, List.contains_iff_mem]
  intro among
  have apart := List.all_eq_true.mp table character among
  rw [member] at apart
  cases apart

/-- A plain character counts nothing. -/
theorem bracketValue_of_isPlain (plain : isPlain character) : bracketValue character = 0 := by
  simp only [isPlain, counted, List.contains_cons, List.contains_nil, Bool.not_eq_true',
    Bool.or_eq_false_iff, beq_eq_false_iff_ne] at plain
  simp [bracketValue, plain]

/-- A plain character begins no literal. -/
theorem ne_of_isPlain (plain : isPlain character) : character ≠ '"' := by
  rintro rfl
  cases plain

/-- Plain characters change nothing. -/
theorem count_of_isPlain (plain : ∀ character ∈ characters, isPlain character) :
    bracketDepthFrom .outside characters = 0 ∧
      LiteralState.outside.through characters = .outside := by
  induction characters with
  | nil => exact ⟨rfl, rfl⟩
  | cons character characters ih =>
    obtain ⟨first, later⟩ := List.forall_mem_cons.mp plain
    have stays : LiteralState.outside.after character = .outside := if_neg (ne_of_isPlain first)
    rw [bracketDepthFrom, if_pos rfl, bracketValue_of_isPlain first, LiteralState.through,
      List.foldl_cons, stays]
    exact ⟨(Int.zero_add _).trans (ih later).1, (ih later).2⟩

end Text

namespace Lexeme

open Text

variable {character : Char} {rest : List Char}

/-- A reader that takes plain characters only. -/
def Reader.TakesPlain (reader : Reader) : Prop :=
  ∀ characters, ∀ character ∈ (reader characters).1, isPlain character

/-- A run of plain characters takes plain ones only. -/
theorem Reader.takesPlain_run {belongs : Char → Bool}
    (table : (counted.all fun character => !belongs character) = true) :
    (Reader.run belongs).TakesPlain :=
  fun _ _ taken => isPlain_of_belongs table (List.mem_takeWhile_imp taken)

/-- Two readers one after the other take plain characters only if both do. -/
theorem Reader.TakesPlain.andThen {first second : Reader} (plain : first.TakesPlain)
    (plainAfter : second.TakesPlain) : (first.andThen second).TakesPlain := by
  intro characters character taken
  rcases List.mem_append.mp taken with early | late
  · exact plain characters character early
  · exact plainAfter _ character late

theorem takesPlain_readDigits : Reader.TakesPlain readDigits :=
  Reader.takesPlain_run (by decide +kernel)

theorem takesPlain_readName : Reader.TakesPlain readName := by
  intro characters
  induction characters with
  | nil => exact List.forall_mem_nil _
  | cons character rest ih =>
    unfold readName
    split
    · next named =>
      refine List.forall_mem_cons.mpr ⟨?_, ih⟩
      have continues : continuesName character := by
        simp only [continuesName, Bool.or_eq_true, Bool.and_eq_true] at named ⊢
        exact named.imp_right And.left
      exact isPlain_of_belongs (by decide +kernel) continues
    · exact List.forall_mem_nil _

theorem takesPlain_readBase : Reader.TakesPlain readBase := by
  intro characters
  unfold readBase
  split
  · exact List.forall_mem_cons.mpr ⟨rfl, List.forall_mem_cons.mpr
      ⟨rfl, Reader.takesPlain_run (by decide +kernel) _⟩⟩
  · exact List.forall_mem_nil _

theorem takesPlain_readFraction : Reader.TakesPlain readFraction := by
  intro characters
  unfold readFraction
  split
  · split
    · exact List.forall_mem_nil _
    · exact List.forall_mem_cons.mpr ⟨rfl, takesPlain_readDigits _⟩
  · exact List.forall_mem_nil _

theorem takesPlain_readPrecision : Reader.TakesPlain readPrecision := by
  have digits : (Reader.run fun c => Text.isDigit c || c == '.').TakesPlain :=
    Reader.takesPlain_run (by decide +kernel)
  intro characters
  unfold readPrecision
  split
  · exact List.forall_mem_cons.mpr ⟨rfl, List.forall_mem_cons.mpr ⟨rfl, digits _⟩⟩
  · exact List.forall_mem_cons.mpr ⟨rfl, digits _⟩
  · exact List.forall_mem_nil _

theorem takesPlain_readSign : Reader.TakesPlain readSign := by
  intro characters
  unfold readSign
  split
  · exact List.forall_mem_singleton.mpr rfl
  · exact List.forall_mem_singleton.mpr rfl
  · exact List.forall_mem_nil _

theorem takesPlain_readExponent : Reader.TakesPlain readExponent := by
  intro characters
  unfold readExponent
  split
  · exact List.forall_mem_cons.mpr ⟨rfl, List.forall_mem_cons.mpr
      ⟨rfl, takesPlain_readSign.andThen takesPlain_readDigits _⟩⟩
  · exact List.forall_mem_nil _

theorem takesPlain_readNumber : Reader.TakesPlain readNumber :=
  takesPlain_readDigits.andThen <| takesPlain_readBase.andThen <|
    takesPlain_readFraction.andThen <| takesPlain_readPrecision.andThen takesPlain_readExponent

theorem takesPlain_readSlotLabel : Reader.TakesPlain readSlotLabel := by
  intro characters
  unfold readSlotLabel
  split
  · exact takesPlain_readDigits _
  · split
    · exact takesPlain_readName _
    · exact List.forall_mem_nil _

/-- Slots are plain. -/
theorem isPlain_of_mem_readSlot (characters : List Char) :
    ∀ character ∈ (readSlot '#' characters).1.characters, isPlain character := by
  unfold readSlot
  split
  · exact List.forall_mem_cons.mpr ⟨rfl, List.forall_mem_cons.mpr
      ⟨rfl, takesPlain_readDigits _⟩⟩
  · exact List.forall_mem_cons.mpr ⟨rfl, takesPlain_readSlotLabel _⟩

/-- The rest of a literal adds nothing, and the count is outside of literals behind it if it is
closed. -/
theorem count_readLiteral (characters : List Char) :
    bracketDepthFrom .inside (readLiteral characters).taken = 0 ∧
      ((readLiteral characters).closed →
        LiteralState.inside.through (readLiteral characters).taken = .outside) := by
  fun_induction readLiteral characters with
  | case1 => exact ⟨rfl, fun closed => by cases closed⟩
  | case2 => exact ⟨rfl, fun _ => rfl⟩
  | case3 escaped rest literal ih =>
    obtain ⟨none, through⟩ := ih
    refine ⟨?_, through⟩
    change 0 + (0 + bracketDepthFrom .inside literal.taken) = 0
    rw [none]
    rfl
  | case4 character rest quote backslash literal ih =>
    obtain ⟨none, through⟩ := ih
    by_cases mark : character = '\\'
    · -- A backslash that keeps no character is the last one of the text.
      cases rest with
      | nil =>
        subst mark
        exact ⟨rfl, fun closed => by cases closed⟩
      | cons escaped rest => exact (backslash escaped rest mark rfl).elim
    · have stays : LiteralState.inside.after character = .inside := by
        rw [LiteralState.after, if_neg mark, if_neg quote]
      refine ⟨?_, fun closed => ?_⟩
      · rw [bracketDepthFrom, stays, none]
        rfl
      · rw [LiteralState.through, List.foldl_cons, stays]
        exact through closed

/-- An operator adds what it stands for. -/
theorem count_spelling (operator : Operator) :
    bracketDepthFrom .outside operator.spelling = operator.turn ∧
      LiteralState.outside.through operator.spelling = .outside := by
  cases operator <;> exact ⟨rfl, rfl⟩

/-- A character that begins no operator is no bracket. -/
theorem isPlain_of_longest?_eq_none (none : Operator.longest? (character :: rest) = none)
    (other : character ≠ '"') : isPlain character := by
  have alone := longest?_singleton_eq_none none
  rw [isPlain, Bool.not_eq_true', ← Bool.not_eq_true, List.contains_iff_mem]
  intro among
  simp only [counted, List.mem_cons, List.not_mem_nil, or_false] at among
  rcases among with rfl | rfl | rfl | rfl | rfl | rfl | rfl
  all_goals first | exact other rfl | cases alone

/-- A lexeme that is no comment adds what its token stands for. The count is outside of literals
behind it if anything is left. -/
theorem count_readFrom (position : Position) (character : Char) (rest : List Char)
    (inked : (readFrom character rest).1.kind ≠ .comment) :
    bracketDepthFrom .outside (readFrom character rest).1.characters
        = ((readFrom character rest).1.token position).turn ∧
      ((readFrom character rest).2 = [] ∨
        LiteralState.outside.through (readFrom character rest).1.characters = .outside) := by
  have plainly : ∀ {kind : TokenKind} {characters left : List Char},
      (∀ sign, kind ≠ .operator sign) → (∀ character ∈ characters, isPlain character) →
      bracketDepthFrom .outside characters = ((Lexeme.mk kind characters).token position).turn ∧
        (left = [] ∨ LiteralState.outside.through characters = .outside) := by
    intro kind characters left unsigned plain
    obtain ⟨none, outside⟩ := count_of_isPlain plain
    refine ⟨none.trans ?_, .inr outside⟩
    cases kind with
    | operator sign => exact (unsigned sign rfl).elim
    | _ => rfl
  have blanks : (counted.all fun character => !isLineBlank character) = true := by decide
  unfold readFrom at inked ⊢
  split
  · next blank =>
    exact plainly (fun _ => TokenKind.noConfusion) (List.forall_mem_cons.mpr
      ⟨isPlain_of_belongs blanks blank, Reader.takesPlain_run blanks rest⟩)
  split
  · next feed =>
    subst feed
    exact plainly (fun _ => TokenKind.noConfusion) (List.forall_mem_singleton.mpr rfl)
  split
  · next carriage =>
    subst carriage
    split
    · exact plainly (fun _ => TokenKind.noConfusion) (List.forall_mem_cons.mpr
        ⟨rfl, List.forall_mem_singleton.mpr rfl⟩)
    · exact plainly (fun _ => TokenKind.noConfusion) (List.forall_mem_singleton.mpr rfl)
  split
  · next blank feed carriage opens =>
    rw [if_neg blank, if_neg feed, if_neg carriage, if_pos opens] at inked
    exact (inked rfl).elim
  split
  · exact plainly (fun _ => TokenKind.noConfusion) (takesPlain_readName _)
  split
  · exact plainly (fun _ => TokenKind.noConfusion) (takesPlain_readNumber _)
  split
  · next quote =>
    subst quote
    obtain ⟨none, through⟩ := count_readLiteral rest
    refine ⟨?_, ?_⟩
    · change 0 + bracketDepthFrom .inside (readLiteral rest).taken = _
      rw [none]
      dsimp only
      split <;> rfl
    · cases closed : (readLiteral rest).closed with
      | false => exact .inl (left_eq_nil_of_open closed)
      | true => exact .inr (through closed)
  split
  · next mark =>
    subst mark
    have plain := isPlain_of_mem_readSlot rest
    unfold readSlot at plain ⊢
    split at plain <;> exact plainly (fun _ => TokenKind.noConfusion) plain
  · next quote _ =>
    split
    · next operator found =>
      obtain ⟨adds, outside⟩ := count_spelling operator
      exact ⟨adds, .inr outside⟩
    · next none =>
      exact plainly (fun _ => TokenKind.noConfusion)
        (List.forall_mem_singleton.mpr (isPlain_of_longest?_eq_none none quote))

end Lexeme

/-! ## The count of a text -/

/-- What the texts of the comments among the tokens add to the count. -/
def Token.commentDepth : List Token → Int
  | [] => 0
  | token :: tokens =>
    (if token.kind = .comment then Text.bracketDepth token.text else 0) + commentDepth tokens

namespace Text

/-- The count of a text is that of its tokens and of its comments, if no comment ends inside of a
literal. -/
theorem bracketDepthFrom_tokensFrom (position : Position) {characters : List Char}
    (even : ∀ token ∈ tokensFrom position characters, token.kind = .comment →
      endsOutside token.text) :
    bracketDepthFrom .outside characters
      = Token.depth (tokensFrom position characters)
        + Token.commentDepth (tokensFrom position characters) := by
  fun_induction tokensFrom position characters with
  | case1 position => rfl
  | case2 position character rest lexeme ih =>
    obtain ⟨first, later⟩ := List.forall_mem_cons.mp even
    have whole := Lexeme.readFrom_append character rest
    -- What is left is counted as a text of its own, or nothing is left.
    have behind : bracketDepthFrom (LiteralState.outside.through lexeme.characters)
        (Lexeme.readFrom character rest).2
          = bracketDepthFrom .outside (Lexeme.readFrom character rest).2 := by
      by_cases comment : lexeme.kind = .comment
      · have outside := of_decide_eq_true (first comment)
        rw [Lexeme.token, String.toList_ofList] at outside
        rw [outside]
      · rcases (Lexeme.count_readFrom position character rest comment).2 with none | outside
        · rw [none]
          rfl
        · rw [outside]
    rw [← whole, bracketDepthFrom_append, behind, ih later, Token.depth, Token.commentDepth]
    have own : bracketDepthFrom .outside lexeme.characters = (lexeme.token position).turn
        + if lexeme.kind = .comment then bracketDepth (lexeme.token position).text else 0 := by
      by_cases comment : lexeme.kind = .comment
      · have turn : (lexeme.token position).turn = 0 := by
          rw [Token.turn, Lexeme.token, comment]
        rw [if_pos comment, turn, Int.zero_add, bracketDepth, Lexeme.token, String.toList_ofList]
      · rw [if_neg comment, Int.add_zero]
        exact (Lexeme.count_readFrom position character rest comment).1
    have kind : (lexeme.token position).kind = lexeme.kind := rfl
    rw [own, kind]
    omega

end Text

/-! ## Conversations -/

namespace Repl

/-- An answer about a text leaves what is pending. -/
theorem pending_answerText (repl : Repl) (text : String) :
    (repl.answerText text).1.pending = repl.pending := by
  unfold answerText
  dsimp only
  split <;> rfl

/-- An answer about a name leaves what is pending. -/
theorem pending_answerResolve (repl : Repl) (name : String) :
    (repl.answerResolve name).1.pending = repl.pending := by
  unfold answerResolve
  split
  · rfl
  · split <;> rfl

/-- An answer leaves no lines of a text behind that were not there before. -/
theorem pending_answer (repl : Repl) (text : String) :
    (repl.answer text).1.pending = repl.pending := by
  simp only [answer, apply_ite Prod.fst, apply_ite pending, pending_answerResolve,
    pending_answerText, ite_self]

/-- The prompt goes on just in case something is pending. -/
theorem prompt_eq_iff (repl : Repl) : repl.prompt = "... " ↔ repl.pending ≠ [] := by
  unfold prompt
  cases repl.pending with
  | nil => decide
  | cons line lines => exact iff_of_true rfl (List.cons_ne_nil _ _)

/-- Behind a line that does not end it, a conversation waits for another line of the same text if
the lines so far leave a bracket open. -/
theorem prompt_read_iff (repl : Repl) {line : String}
    (stays : (repl.pending.isEmpty && leaves line) = false) :
    (repl.read line).1.map prompt = some "... " ↔
      0 < Text.bracketDepth (String.intercalate "\n" (repl.pending ++ [line])) := by
  rw [read, if_neg (Bool.eq_false_iff.mp stays)]
  dsimp only
  split
  · next opened =>
    refine iff_of_true ?_ opened
    rw [Option.map_some, Option.some.injEq, prompt_eq_iff]
    exact List.append_ne_nil_of_right_ne_nil _ (List.cons_ne_nil _ _)
  · next complete =>
    refine iff_of_false ?_ complete
    rw [Option.map_some, Option.some.injEq, prompt_eq_iff, pending_answer]
    exact fun waiting => waiting rfl

end Repl

/-- Whatever the comments of a text are, if the literals that seem to begin in each of them seem to
end there, the count of the text is that of its bracket tokens and of the texts of its comments. A
conversation waits for another line behind the text if and only if this is positive. -/
theorem bracketDepth_eq_depth_tokenize (text : String)
    (even : ∀ token ∈ tokenize text, token.kind = .comment → Text.endsOutside token.text) :
    Text.bracketDepth text
        = Token.depth (tokenize text) + Token.commentDepth (tokenize text) ∧
      ∀ (repl : Repl) (line : String),
        String.intercalate "\n" (repl.pending ++ [line]) = text →
        (repl.pending.isEmpty && Repl.leaves line) = false →
        ((repl.read line).1.map Repl.prompt = some "... " ↔
          0 < Token.depth (tokenize text) + Token.commentDepth (tokenize text)) := by
  have whole : Text.bracketDepth text
      = Token.depth (tokenize text) + Token.commentDepth (tokenize text) :=
    Text.bracketDepthFrom_tokensFrom Position.start even
  refine ⟨whole, fun repl line joined stays => ?_⟩
  rw [← whole, ← joined]
  exact repl.prompt_read_iff stays

/-- A call over two lines whose first one ends with a comment that opens no bracket on its own. -/
def commentedLine : String := "f[{x}, \"[\" (* (y) *)"

/-- One bracket of the call is open at the end of its first line, so the prompt goes on. -/
theorem bracketDepth_eq_depth_tokenize_commentedLine :
    Text.bracketDepth commentedLine = 1 ∧
      ((Repl.start "fullform" false none).1.read commentedLine).1.map Repl.prompt
        = some "... " := by
  have even : ∀ token ∈ tokenize commentedLine, token.kind = .comment →
      Text.endsOutside token.text := by
    decide +kernel
  have depth : Token.depth (tokenize commentedLine) + Token.commentDepth (tokenize commentedLine)
      = 1 := by
    decide +kernel
  obtain ⟨whole, prompts⟩ := bracketDepth_eq_depth_tokenize commentedLine even
  refine ⟨whole.trans depth, (prompts _ _ (by decide) (by decide +kernel)).mpr ?_⟩
  rw [depth]
  decide

/-- The count of a comment with a bracket in it is that of the bracket, though it is no token. -/
theorem not_counts_as_tokens : ¬∀ text, endsInComment text = false →
    Text.bracketDepth text = Token.depth (tokenize text) := by
  intro counts
  have closed : endsInComment "(* [ *)" = false := by decide +kernel
  have same := counts "(* [ *)" closed
  have counted : Text.bracketDepth "(* [ *)" = 1 := by decide
  have tokens : Token.depth (tokenize "(* [ *)") = 0 := by decide +kernel
  rw [counted, tokens] at same
  cases same

end WolframSyntax
