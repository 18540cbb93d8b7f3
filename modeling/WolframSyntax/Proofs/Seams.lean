import WolframSyntax.Proofs.Gist
import WolframSyntax.Proofs.Lossless
import WolframSyntax.Proofs.Terms

/-!
# Lexing up to a delimiter

No reader looks beyond a line feed, a comma or a square bracket (`Lexeme.Reader.Halts`), so a text
in front of such a delimiter has the lexemes that it has alone, except that a literal or a comment
that is not closed goes on and that a carriage return becomes part of a line break
(`Lexeme.readFrom_append_delimiter`, `exists_tokensFrom_append_delimiter`).
-/

namespace WolframSyntax

namespace Lexeme

variable {delimiter : Char}

namespace Reader

/-- What the reader does with a text does not depend on what follows from a delimiter on. -/
def Halts (delimiter : Char) (reader : Reader) : Prop :=
  ∀ text more, reader (text ++ delimiter :: more)
    = ((reader text).1, (reader text).2 ++ delimiter :: more)

/-- Two readers one after the other halt at a delimiter if both do. -/
theorem Halts.andThen {first second : Reader} (halts : first.Halts delimiter)
    (haltsAfter : second.Halts delimiter) : (first.andThen second).Halts delimiter := by
  intro text more
  simp only [Reader.andThen, halts text more, haltsAfter (first text).2 more]

/-- A run halts at a delimiter that does not belong to it. -/
theorem halts_run {belongs : Char → Bool} (plain : belongs delimiter = false) :
    (run belongs).Halts delimiter := by
  intro text more
  induction text with
  | nil => simp [run, plain]
  | cons character text ih =>
    simp only [run, Prod.mk.injEq] at ih ⊢
    cases member : belongs character with
    | true => simp [member, ih]
    | false => simp [member]

end Reader

/-- A delimiter that does not belong to a class changes nothing about how a text begins. -/
theorem beginsWith_append {belongs : Char → Bool} (plain : belongs delimiter = false)
    (text more : List Char) :
    beginsWith belongs (text ++ delimiter :: more) = beginsWith belongs text := by
  cases text with
  | nil => exact plain
  | cons => rfl

/-- A delimiter changes nothing about which other character a text begins with. -/
theorem head?_append_eq_some {character : Char} (other : character ≠ delimiter)
    (text more : List Char) :
    (text ++ delimiter :: more).head? = some character ↔ text.head? = some character := by
  cases text with
  | nil => simpa using Ne.symm other
  | cons => rfl

/-- What a text in front of a delimiter begins with, it begins with alone. -/
theorem exists_eq_of_append_eq {mark text more rest : List Char} (plain : delimiter ∉ mark)
    (same : text ++ delimiter :: more = mark ++ rest) :
    ∃ tail, text = mark ++ tail ∧ rest = tail ++ delimiter :: more := by
  rcases List.append_eq_append_iff.mp same with ⟨middle, rfl, last⟩ | ⟨tail, rfl, tails⟩
  · cases middle with
    | nil => exact ⟨[], by simp, last.symm⟩
    | cons first middle =>
      cases last
      simp at plain
  · exact ⟨tail, rfl, tails⟩

/-- A delimiter belongs to no name and to no number. -/
theorem classes_of_mem_delimiters (delimits : delimiter ∈ delimiters) :
    startsName delimiter = false ∧ isAlphanumeric delimiter = false ∧
      Text.isAlphabetic delimiter = false ∧ Text.isDigit delimiter = false := by
  have marked : delimiter ∈ marks := by
    have table : (delimiters.all marks.contains) = true := by decide
    exact List.contains_iff_mem.mp (List.all_eq_true.mp table delimiter delimits)
  obtain ⟨unnamed, plain, digit⟩ := plain_of_mem_marks delimiter marked
  exact ⟨unnamed, plain, (Bool.or_eq_false_iff.mp plain).1, digit⟩

/-- The characters that the readers look for are no delimiters. -/
theorem ne_of_mem_delimiters (delimits : delimiter ∈ delimiters) :
    ∀ mark ∈ ['^', '.', '\x60', '-', '+', '*', '#', '"', '$'], mark ≠ delimiter := by
  have table : (['^', '.', '\x60', '-', '+', '*', '#', '"', '$'].all
      fun mark => !delimiters.contains mark) = true := by decide
  rintro mark among rfl
  have apart := List.all_eq_true.mp table mark among
  rw [List.contains_iff_mem.mpr delimits] at apart
  cases apart

theorem halts_readName (delimits : delimiter ∈ delimiters) :
    Reader.Halts delimiter readName := by
  intro text more
  obtain ⟨unnamed, plain, _⟩ := classes_of_mem_delimiters delimits
  have inner : (delimiter == '$') = false ∧ (delimiter == '\x60') = false :=
    ⟨beq_false_of_ne (Ne.symm (ne_of_mem_delimiters delimits '$' (by decide))),
      beq_false_of_ne (Ne.symm (ne_of_mem_delimiters delimits '\x60' (by decide)))⟩
  induction text with
  | nil => simp [readName, plain, inner]
  | cons character text ih =>
    rw [List.cons_append, readName, readName, beginsWith_append unnamed, ih]
    split <;> rfl

theorem halts_readDigits (delimits : delimiter ∈ delimiters) :
    Reader.Halts delimiter readDigits :=
  Reader.halts_run (classes_of_mem_delimiters delimits).2.2.2

/-- A number without `^^` has no base. -/
theorem readBase_eq_self {characters : List Char}
    (other : ∀ rest, characters ≠ '^' :: '^' :: rest) : readBase characters = ([], characters) := by
  unfold readBase
  split
  · exact (other _ rfl).elim
  · rfl

theorem halts_readBase (delimits : delimiter ∈ delimiters) :
    Reader.Halts delimiter readBase := by
  have inner : Reader.Halts delimiter (Reader.run isAlphanumeric) :=
    Reader.halts_run (classes_of_mem_delimiters delimits).2.1
  have caret := ne_of_mem_delimiters delimits '^' (by decide)
  intro text more
  by_cases marked : ∃ rest, text = '^' :: '^' :: rest
  · obtain ⟨rest, rfl⟩ := marked
    rw [List.cons_append, List.cons_append, readBase, readBase, inner rest more]
  · rw [readBase_eq_self fun rest same => marked ⟨rest, same⟩]
    have plain : delimiter ∉ ['^', '^'] := by simp [Ne.symm caret]
    refine readBase_eq_self fun rest same => marked ?_
    exact (exists_eq_of_append_eq plain same).imp fun _ => And.left

theorem halts_readFraction (delimits : delimiter ∈ delimiters) :
    Reader.Halts delimiter readFraction := by
  have point := ne_of_mem_delimiters delimits '.' (by decide)
  intro text more
  by_cases begins : text.head? = some '.'
  · obtain ⟨rest, rfl⟩ := List.head?_eq_some_iff.mp begins
    rw [List.cons_append, readFraction, readFraction]
    simp only [head?_append_eq_some point, halts_readDigits delimits rest more]
    split <;> rfl
  · rw [readFraction_of_head?_ne begins, readFraction_of_head?_ne]
    rwa [ne_eq, head?_append_eq_some point]

theorem halts_readPrecision (delimits : delimiter ∈ delimiters) :
    Reader.Halts delimiter readPrecision := by
  have point := Ne.symm (ne_of_mem_delimiters delimits '.' (by decide))
  have backquote := ne_of_mem_delimiters delimits '\x60' (by decide)
  have inner : Reader.Halts delimiter (Reader.run fun c => Text.isDigit c || c == '.') :=
    Reader.halts_run (by simp [classes_of_mem_delimiters delimits, point])
  intro text more
  by_cases mark : text.head? = some '\x60'
  · obtain ⟨rest, rfl⟩ := List.head?_eq_some_iff.mp mark
    by_cases double : rest.head? = some '\x60'
    · obtain ⟨rest, rfl⟩ := List.head?_eq_some_iff.mp double
      rw [List.cons_append, List.cons_append, readPrecision, readPrecision, inner rest more]
    · have still : (rest ++ delimiter :: more).head? ≠ some '\x60' := by
        rwa [ne_eq, head?_append_eq_some backquote]
      rw [List.cons_append, readPrecision_single double, readPrecision_single still,
        inner rest more]
  · rw [readPrecision_of_head?_ne mark, readPrecision_of_head?_ne]
    rwa [ne_eq, head?_append_eq_some backquote]

theorem halts_readSign (delimits : delimiter ∈ delimiters) :
    Reader.Halts delimiter readSign := by
  intro text more
  by_cases signed : text.head? = some '-' ∨ text.head? = some '+'
  · rcases signed with minus | plus
    · obtain ⟨rest, rfl⟩ := List.head?_eq_some_iff.mp minus
      rfl
    · obtain ⟨rest, rfl⟩ := List.head?_eq_some_iff.mp plus
      rfl
  · obtain ⟨minus, plus⟩ := not_or.mp signed
    rw [readSign_of_head?_ne minus plus, readSign_of_head?_ne]
    · rwa [ne_eq, head?_append_eq_some (ne_of_mem_delimiters delimits '-' (by decide))]
    · rwa [ne_eq, head?_append_eq_some (ne_of_mem_delimiters delimits '+' (by decide))]

/-- A number without `*^` has no exponent. -/
theorem readExponent_eq_self {characters : List Char}
    (other : ∀ rest, characters ≠ '*' :: '^' :: rest) :
    readExponent characters = ([], characters) := by
  unfold readExponent
  split
  · exact (other _ rfl).elim
  · rfl

theorem halts_readExponent (delimits : delimiter ∈ delimiters) :
    Reader.Halts delimiter readExponent := by
  have star := ne_of_mem_delimiters delimits '*' (by decide)
  have caret := ne_of_mem_delimiters delimits '^' (by decide)
  have inner := (halts_readSign delimits).andThen (halts_readDigits delimits)
  intro text more
  by_cases marked : ∃ rest, text = '*' :: '^' :: rest
  · obtain ⟨rest, rfl⟩ := marked
    rw [List.cons_append, List.cons_append, readExponent, readExponent, inner rest more]
  · rw [readExponent_eq_self fun rest same => marked ⟨rest, same⟩]
    have plain : delimiter ∉ ['*', '^'] := by simp [Ne.symm star, Ne.symm caret]
    refine readExponent_eq_self fun rest same => marked ?_
    exact (exists_eq_of_append_eq plain same).imp fun _ => And.left

/-- A number halts at a delimiter. -/
theorem halts_readNumber (delimits : delimiter ∈ delimiters) :
    Reader.Halts delimiter readNumber :=
  (halts_readDigits delimits).andThen <| (halts_readBase delimits).andThen <|
    (halts_readFraction delimits).andThen <|
      (halts_readPrecision delimits).andThen (halts_readExponent delimits)

theorem halts_readSlotLabel (delimits : delimiter ∈ delimiters) :
    Reader.Halts delimiter readSlotLabel := by
  intro text more
  obtain ⟨_, _, letter, digit⟩ := classes_of_mem_delimiters delimits
  unfold readSlotLabel
  rw [beginsWith_append digit, beginsWith_append letter]
  split
  · exact halts_readDigits delimits text more
  · split
    · exact halts_readName delimits text more
    · rfl

/-- A slot halts at a delimiter. -/
theorem readSlot_append_delimiter (delimits : delimiter ∈ delimiters) (mark : Char)
    (text more : List Char) :
    readSlot mark (text ++ delimiter :: more)
      = ((readSlot mark text).1, (readSlot mark text).2 ++ delimiter :: more) := by
  by_cases hash : text.head? = some '#'
  · obtain ⟨rest, rfl⟩ := List.head?_eq_some_iff.mp hash
    rw [List.cons_append, readSlot, readSlot, readSequenceLabel,
      halts_readDigits delimits rest more]
  · have plain : ∀ characters : List Char, characters.head? ≠ some '#' →
        readSlot mark characters
          = (⟨.slot, mark :: (readSlotLabel characters).1⟩, (readSlotLabel characters).2) := by
      intro characters other
      unfold readSlot
      split
      · exact (other rfl).elim
      · rfl
    rw [plain text hash, plain, halts_readSlotLabel delimits text more]
    rwa [ne_eq, head?_append_eq_some (ne_of_mem_delimiters delimits '#' (by decide))]

/-- A literal that is closed is so whatever follows. -/
theorem readLiteral_append_of_closes {text : List Char} (closed : (readLiteral text).closed)
    (more : List Char) :
    readLiteral (text ++ more)
      = ⟨(readLiteral text).taken, true, (readLiteral text).left ++ more⟩ := by
  have whole := readLiteral_append text
  have reads : readLiteral ((readLiteral text).taken ++ (readLiteral text).left)
      = ⟨(readLiteral text).taken, true, (readLiteral text).left⟩ := by
    rw [whole, ← closed]
  rw [← readLiteral_append_of_closed reads, ← List.append_assoc, whole]

/-! ## Comments -/

/-- How many of `depth` nested comments and of those that begin in a text are open at its end. -/
def openComments : Nat → List Char → Nat
  | 0, _ => 0
  | depth, [] => depth
  | depth + 1, '(' :: '*' :: rest => openComments (depth + 2) rest
  | depth + 1, '*' :: ')' :: rest => openComments depth rest
  | depth + 1, _ :: rest => openComments (depth + 1) rest

/-- A character that begins no mark of a comment. -/
theorem openComments_cons {character : Char} {rest : List Char}
    (opens : ∀ inner, character = '(' → rest = '*' :: inner → False)
    (closes : ∀ outer, character = '*' → rest = ')' :: outer → False) (depth : Nat) :
    openComments (depth + 1) (character :: rest) = openComments (depth + 1) rest := by
  rw [openComments]
  · exact fun inner bracket star => opens inner bracket star
  · exact fun outer star bracket => closes outer star bracket

/-- A character of a comment that neither opens nor closes one is passed. -/
theorem readComment_cons {character : Char} {rest : List Char}
    (opens : ∀ inner, character = '(' → rest = '*' :: inner → False)
    (closes : ∀ outer, character = '*' → rest = ')' :: outer → False) (depth : Nat) :
    readComment (depth + 1) (character :: rest)
      = (character :: (readComment (depth + 1) rest).1, (readComment (depth + 1) rest).2) := by
  rw [readComment]
  · exact fun inner bracket star => opens inner bracket star
  · exact fun outer star bracket => closes outer star bracket

/-- A comment leaves as many open as there are in its own characters. -/
theorem openComments_readComment (depth : Nat) (characters : List Char) :
    openComments depth (readComment depth characters).1 = openComments depth characters := by
  fun_induction readComment depth characters with
  | case1 => rw [openComments, openComments]
  | case2 => rfl
  | case3 depth rest taken left reads ih =>
    rw [openComments, openComments, ← ih, reads]
  | case4 depth rest taken left reads ih =>
    rw [openComments, openComments, ← ih, reads]
  | case5 depth character rest opens closes taken left reads ih =>
    have whole := readComment_append (depth + 1) rest
    rw [reads] at ih whole
    rw [openComments_cons opens closes, ← ih]
    refine openComments_cons (fun inner bracket star => ?_) (fun outer star bracket => ?_) depth
    · exact opens (inner ++ left) bracket (by rw [← whole, star]; rfl)
    · exact closes (outer ++ left) star (by rw [← whole, bracket]; rfl)

/-- A comment that is closed is read in the same way whatever follows it. -/
theorem readComment_append_of_closed {depth : Nat} {line : List Char}
    (closed : openComments depth line = 0) (more : List Char) :
    readComment depth (line ++ more)
      = ((readComment depth line).1, (readComment depth line).2 ++ more) := by
  fun_induction openComments depth line with
  | case1 => rw [readComment, readComment]
  | case2 depth some => exact (some closed).elim
  | case3 depth rest ih =>
    rw [List.cons_append, List.cons_append, readComment, readComment, ih closed]
  | case4 depth rest ih =>
    rw [List.cons_append, List.cons_append, readComment, readComment, ih closed]
  | case5 depth character rest opens closes ih =>
    rw [List.cons_append, readComment_cons opens closes, readComment_cons, ih closed]
    -- A mark across the end would begin with the last character, and then nothing were closed.
    all_goals
      intro mark first second
      cases rest with
      | nil => cases closed
      | cons next rest =>
        obtain ⟨rfl, rfl⟩ := List.cons.inj second
        first | exact opens rest first rfl | exact closes rest first rfl

/-! ## Operators -/

/-- Only the operators that are a delimiter themselves have one in their spelling. -/
theorem ofSpelling?_eq_none_of_mem (delimits : delimiter ∈ delimiters) {characters : List Char}
    (long : 2 ≤ characters.length) (present : delimiter ∈ characters) :
    Operator.ofSpelling? characters = none := by
  have table (sign : Operator) : (delimiters.all fun delimiter =>
      !sign.spelling.contains delimiter || decide (sign.spelling.length < 2)) = true := by
    cases sign <;> decide
  refine List.find?_eq_none.mpr fun sign _ same => ?_
  rw [beq_iff_eq] at same
  have bound := List.all_eq_true.mp (table sign) delimiter delimits
  rw [same, List.contains_iff_mem.mpr present, Bool.not_true, Bool.false_or,
    decide_eq_true_eq] at bound
  omega

/-- No operator is longer than the text. -/
theorem longestWithin_of_length_le {characters : List Char} {length : Nat}
    (short : characters.length ≤ length) :
    Operator.longestWithin characters (length + 1) = Operator.longestWithin characters length := by
  cases length with
  | zero =>
    obtain rfl := List.length_eq_zero_iff.mp (Nat.le_zero.mp short)
    rfl
  | succ length =>
    have whole : characters.take (length + 2) = characters.take (length + 1) := by
      rw [List.take_of_length_le short, List.take_of_length_le (Nat.le_succ_of_le short)]
    rw [Operator.longestWithin, whole, Operator.longestWithin]
    cases Operator.ofSpelling? (characters.take (length + 1)) <;> rfl

/-- The longest operator in front of a delimiter does not reach it. -/
theorem longestWithin_append_delimiter (delimits : delimiter ∈ delimiters) {text : List Char}
    (some : text ≠ []) (more : List Char) (length : Nat) :
    Operator.longestWithin (text ++ delimiter :: more) length
      = Operator.longestWithin text length := by
  have filled := List.length_pos_iff.mpr some
  induction length with
  | zero => rfl
  | succ length ih =>
    by_cases short : text.length ≤ length
    · obtain ⟨rest, same⟩ : ∃ rest, length + 1 - text.length = rest + 1 :=
        ⟨length - text.length, by omega⟩
      have taken : (text ++ delimiter :: more).take (length + 1)
          = text ++ delimiter :: more.take rest := by
        rw [List.take_append, List.take_of_length_le (Nat.le_succ_of_le short), same,
          List.take_succ_cons]
      have none : Operator.ofSpelling? ((text ++ delimiter :: more).take (length + 1)) = none := by
        rw [taken]
        refine ofSpelling?_eq_none_of_mem delimits ?_ (by simp)
        rw [List.length_append, List.length_cons]
        omega
      rw [longestWithin_of_length_le short, Operator.longestWithin, none, ih]
    · rw [Operator.longestWithin, Operator.longestWithin, ih, List.take_append_of_le_length]
      omega

/-! ## Lexemes -/

/-- How many comments a lexeme leaves open. -/
def openAtEnd (lexeme : Lexeme) : Nat :=
  if lexeme.kind = .comment then openComments 1 (lexeme.characters.drop 2) else 0

/-- A text that begins as a comment is read as one. -/
theorem readFrom_comment (rest : List Char) :
    readFrom '(' ('*' :: rest)
      = (⟨.comment, '(' :: '*' :: (readComment 1 rest).1⟩, (readComment 1 rest).2) := rfl

/-- The first lexeme of a text in front of a delimiter that is no blank is the one it has alone,
unless it goes on behind the delimiter or is part of a line break with it. -/
theorem readFrom_append_delimiter (delimits : delimiter ∈ delimiters) (inked : delimiter ≠ ' ')
    {character : Char} {text : List Char} (sound : (readFrom character text).1.kind ≠ .error)
    (closed : (readFrom character text).1.openAtEnd = 0)
    (inLine : character = '\r' → delimiter = '\n' → text ≠ []) (more : List Char) :
    readFrom character (text ++ delimiter :: more)
      = ((readFrom character text).1, (readFrom character text).2 ++ delimiter :: more) := by
  have blanks : Reader.Halts delimiter (Reader.run isLineBlank) := by
    have table : (delimiters.all fun delimiter =>
        delimiter == ' ' || !isLineBlank delimiter) = true := by decide
    have blank := List.all_eq_true.mp table delimiter delimits
    rw [beq_false_of_ne inked, Bool.false_or, Bool.not_eq_true'] at blank
    exact Reader.halts_run blank
  have digit : Text.isDigit delimiter = false := (classes_of_mem_delimiters delimits).2.2.2
  have star := ne_of_mem_delimiters delimits '*' (by decide)
  by_cases comment : character = '(' ∧ text.head? = some '*'
  · obtain ⟨rfl, begins⟩ := comment
    obtain ⟨rest, rfl⟩ := List.head?_eq_some_iff.mp begins
    have closed : openComments 1 (readComment 1 rest).1 = 0 := closed
    rw [openComments_readComment] at closed
    rw [List.cons_append, readFrom_comment, readFrom_comment, readComment_append_of_closed closed]
  by_cases quote : character = '"'
  · subst quote
    rw [readFrom_quote] at sound
    have closed : (readLiteral text).closed := by
      cases closed : (readLiteral text).closed with
      | true => rfl
      | false => simp [closed] at sound
    rw [readFrom_quote, readFrom_quote, readLiteral_append_of_closes closed, closed]
  unfold readFrom
  simp only [blanks text more, head?_append_eq_some star, beginsWith_append digit,
    ← List.cons_append, halts_readName delimits (character :: text) more,
    halts_readNumber delimits (character :: text) more, Operator.longest?,
    longestWithin_append_delimiter delimits (List.cons_ne_nil character text),
    readSlot_append_delimiter delimits, if_neg comment, if_neg quote]
  split
  · rfl
  split
  · rfl
  split
  · next carriage =>
    -- A carriage return takes a line feed along, and nothing else.
    cases text with
    | nil =>
      have other : delimiter ≠ '\n' := fun feed => inLine carriage feed rfl
      split
      · next same => exact (other (List.cons.inj same).1).elim
      · rfl
    | cons next rest =>
      rw [List.cons_append]
      split
      · next same =>
        obtain ⟨rfl, rfl⟩ := List.cons.inj same
        rfl
      · next other =>
        split
        · next same => exact (other _ (by rw [(List.cons.inj same).1])).elim
        · rfl
  split
  · rfl
  split
  · rfl
  split
  · rfl
  split
  · next operator found =>
    have spelled := congrArg List.length (spelling_eq_take_of_longestWithin found)
    rw [List.length_take] at spelled
    rw [List.drop_append_of_le_length (by omega)]
  · rfl

end Lexeme

/-! ## Tokens -/

@[simp] theorem Lexeme.lexeme_token (lexeme : Lexeme) (position : Position) :
    (lexeme.token position).lexeme = lexeme := by
  rw [Lexeme.token, Token.lexeme, String.toList_ofList]

/-- A text has the token of its first lexeme in front of those of the rest. -/
theorem tokensFrom_cons (position : Position) (character : Char) (rest : List Char) :
    tokensFrom position (character :: rest)
      = (Lexeme.readFrom character rest).1.token position ::
        tokensFrom (position.advance (Lexeme.readFrom character rest).1.characters)
          (Lexeme.readFrom character rest).2 := by
  rw [tokensFrom]

/-- The places of the tokens of a text depend on where the text begins, and nothing else does. -/
theorem map_unplaced_tokensFrom (first second : Position) (characters : List Char) :
    (tokensFrom first characters).map Token.unplaced
      = (tokensFrom second characters).map Token.unplaced := by
  fun_induction tokensFrom first characters generalizing second with
  | case1 first =>
    rw [tokensFrom]
    rfl
  | case2 first character rest lexeme ih =>
    rw [tokensFrom_cons, List.map_cons, List.map_cons, ih]
    rfl

/-- In front of a comma or a square bracket a text has the tokens that it has alone, except for the
end, if it has no bad tokens and does not end inside of a comment. -/
theorem exists_tokensFrom_append_delimiter {delimiter : Char}
    (delimits : delimiter ∈ Lexeme.delimiters) (inked : delimiter ∉ [' ', '\n'])
    (position : Position) {text : List Char}
    (sound : ∀ token ∈ tokensFrom position text, token.kind ≠ .error)
    (closed : ∀ token ∈ tokensFrom position text, token.lexeme.openAtEnd = 0) (more : List Char) :
    ∃ body ending after, tokensFrom position text = body ++ [ending] ∧
      tokensFrom position (text ++ delimiter :: more)
        = body ++ tokensFrom after (delimiter :: more) ∧
      body.any Token.isEnd = false ∧ ending.isEnd := by
  simp only [List.mem_cons, List.not_mem_nil, or_false, not_or] at inked
  obtain ⟨inked, single⟩ := inked
  fun_induction tokensFrom position text with
  | case1 position => exact ⟨[], _, position, rfl, rfl, rfl, rfl⟩
  | case2 position character rest lexeme ih =>
    obtain ⟨soundFirst, soundLater⟩ := List.forall_mem_cons.mp sound
    obtain ⟨closedFirst, closedLater⟩ := List.forall_mem_cons.mp closed
    have reads := Lexeme.readFrom_append_delimiter delimits inked soundFirst
      (by simpa using closedFirst) (fun _ feed => (single feed).elim) more
    obtain ⟨body, ending, after, alone, joined, unended, ends⟩ := ih soundLater closedLater
    have inner : (lexeme.token position).isEnd = false :=
      beq_false_of_ne (Lexeme.kind_readFrom_ne_endOfFile character _)
    refine ⟨lexeme.token position :: body, ending, after, ?_, ?_, ?_, ends⟩
    · rw [alone, List.cons_append]
    · rw [List.cons_append, tokensFrom_cons, reads, joined, List.cons_append]
    · rw [List.any_cons, inner, unended, Bool.or_false]

end WolframSyntax
