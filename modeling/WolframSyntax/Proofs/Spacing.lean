import WolframSyntax.Proofs.Lines

/-!
# Tokens that are set apart by blanks

A lexeme that carries meaning ends in front of every delimiter as it ended in its text, whatever its
reader looked at there (`Lexeme.isFirm_or_of_read`). Only a literal that is not closed goes on, and
such a literal is the last token of its text. So the tokens of a text that are no trivia can be
written with blanks between them and are read again as the same tokens, and what a token is can be
told from its text (`tokenize_spaced`).
-/

namespace WolframSyntax

/-- Whether lexemes of a kind are looked for last. -/
def TokenKind.isSign : TokenKind → Bool
  | operator _ | error | other _ => true
  | _ => false

namespace Lexeme

variable {character : Char} {taken left other : List Char} {lexeme : Lexeme}

/-- A lexeme that is read wherever its characters stand in front of a delimiter or at the end. -/
def IsFirm (lexeme : Lexeme) : Prop :=
  ∀ other, Delimited other → read (lexeme.characters ++ other) = (lexeme, other)

/-- The end of a text delimits it. -/
theorem delimited_nil : Delimited [] := fun _ none => by cases none

theorem delimited_space (rest : List Char) : Delimited (' ' :: rest) := by
  intro first same
  cases same
  decide

/-! ## Slots -/

/-- The label of a slot ends where nothing follows that it may go on with. -/
theorem stops_readSlotLabel :
    Reader.Stops readSlotLabel fun character =>
      Text.isDigit character || continuesName character := by
  intro taken left other reads ends
  have undigited : beginsWith Text.isDigit other = false :=
    beginsWith_eq_false_of_imp ends fun _ digit => by rw [digit, Bool.true_or]
  have unnamed : beginsWith continuesName other = false :=
    beginsWith_eq_false_of_imp ends fun _ continues => by rw [continues, Bool.or_true]
  cases taken with
  | nil =>
    have unlettered : beginsWith Text.isAlphabetic other = false :=
      beginsWith_eq_false_of_imp unnamed fun _ letter => by
        rw [continuesName, isAlphanumeric, letter, Bool.true_or, Bool.true_or, Bool.true_or]
    rw [List.nil_append, readSlotLabel, if_neg (by simp [undigited]),
      if_neg (by simp [unlettered])]
  | cons first taken =>
    rw [List.cons_append, readSlotLabel] at reads ⊢
    change (if Text.isDigit first then _ else if Text.isAlphabetic first then _ else _) = _
      at reads
    change (if Text.isDigit first then _ else if Text.isAlphabetic first then _ else _) = _
    split at reads
    · next digit =>
      rw [if_pos digit]
      exact Reader.stops_run Text.isDigit (first :: taken) left other reads undigited
    split at reads
    · next undigit letter =>
      rw [if_neg undigit, if_pos letter]
      exact stops_readName (first :: taken) left other reads unnamed
    · cases reads

/-- A single `#` makes a slot. -/
theorem readSlot_of_head?_ne {characters : List Char} (plain : characters.head? ≠ some '#')
    (mark : Char) :
    readSlot mark characters
      = (⟨.slot, mark :: (readSlotLabel characters).1⟩, (readSlotLabel characters).2) := by
  unfold readSlot
  split
  · exact (plain rfl).elim
  · rfl

/-- A slot ends in front of a delimiter where it ended. -/
theorem readSlot_append_of_delimited {kind : TokenKind}
    (reads : readSlot '#' (taken ++ left) = (⟨kind, '#' :: taken⟩, left))
    (delimited : Delimited other) :
    readSlot '#' (taken ++ other) = (⟨kind, '#' :: taken⟩, other) := by
  have unhashed : other.head? ≠ some '#' :=
    head?_ne_of_beginsWith (beginsWith_eq_false_of_delimited delimited
      (show delimiters.any (· == '#') = false by decide)) rfl
  by_cases sequence : (taken ++ left).head? = some '#'
  · obtain ⟨rest, split⟩ := List.head?_eq_some_iff.mp sequence
    rw [split, readSlot] at reads
    simp only [Prod.mk.injEq, mk.injEq, List.cons.injEq, true_and] at reads
    obtain ⟨⟨rfl, rfl⟩, rfl⟩ := reads
    have again : readSequenceLabel ((readSequenceLabel rest).1 ++ other) = _ :=
      Reader.stops_run Text.isDigit _ _ other
        (congrArg readSequenceLabel (Reader.partitions_run Text.isDigit rest))
        (beginsWith_eq_false_of_delimited delimited (by decide +kernel))
    rw [List.cons_append, readSlot, again]
  · have unhashedAgain : (taken ++ other).head? ≠ some '#' := by
      cases taken with
      | nil => exact unhashed
      | cons first taken => exact sequence
    rw [readSlot_of_head?_ne sequence] at reads
    simp only [Prod.mk.injEq, mk.injEq, List.cons.injEq, true_and] at reads
    obtain ⟨⟨rfl, same⟩, rest⟩ := reads
    have again := stops_readSlotLabel taken left other (Prod.ext same rest)
      (beginsWith_eq_false_of_delimited delimited (by decide +kernel))
    rw [readSlot_of_head?_ne unhashedAgain, again]

/-! ## Operators and characters of no use -/

/-- A text that begins with an operator or with a character that begins no lexeme. -/
structure BeginsSign (character : Char) (rest : List Char) : Prop where
  blank : isLineBlank character = false
  feed : character ≠ '\n'
  carriage : character ≠ '\r'
  comment : ¬(character = '(' ∧ rest.head? = some '*')
  name : startsName character = false
  number : startsNumber character rest = false
  quote : character ≠ '"'
  hash : character ≠ '#'

/-- A text that begins with a sign is read as the longest operator there, or as an error. -/
theorem BeginsSign.readFrom_eq {rest : List Char} (begins : BeginsSign character rest) :
    readFrom character rest
      = match Operator.longest? (character :: rest) with
        | some operator =>
          (⟨.operator operator, operator.spelling⟩,
            (character :: rest).drop operator.spelling.length)
        | none => (⟨.error, [character]⟩, rest) := by
  have number := begins.number
  rw [startsNumber] at number
  unfold readFrom
  rw [if_neg (by simp [begins.blank]), if_neg begins.feed, if_neg begins.carriage,
    if_neg begins.comment, if_neg (by simp [begins.name]), if_neg (by simp [number]),
    if_neg begins.quote]
  exact if_neg begins.hash

/-- An operator or a bad token begins with a sign, unless it is a literal that is not closed. -/
theorem beginsSign_of_readFrom {rest : List Char}
    (sign : (readFrom character rest).1.kind.isSign) :
    BeginsSign character rest ∨ character = '"' ∧ (readLiteral rest).closed = false := by
  unfold readFrom at sign
  split at sign
  · cases sign
  next blank =>
  split at sign
  · cases sign
  next feed =>
  split at sign
  · split at sign <;> cases sign
  next carriage =>
  split at sign
  · cases sign
  next comment =>
  split at sign
  · cases sign
  next name =>
  split at sign
  · cases sign
  next number =>
  split at sign
  · next quote =>
    refine .inr ⟨quote, ?_⟩
    cases closed : (readLiteral rest).closed with
    | true => simp [closed, TokenKind.isSign] at sign
    | false => rfl
  next quote =>
  split at sign
  · unfold readSlot at sign
    split at sign <;> cases sign
  next hash =>
  exact .inl ⟨Bool.eq_false_iff.mpr blank, feed, carriage, comment, Bool.eq_false_iff.mpr name,
    Bool.eq_false_iff.mpr number, quote, hash⟩

/-- A delimiter behind some characters makes no comment and no number of them. -/
theorem BeginsSign.append (begins : BeginsSign character (taken ++ left))
    (delimited : Delimited other) : BeginsSign character (taken ++ other) := by
  refine { begins with comment := ?_, number := ?_ }
  · cases taken with
    | nil =>
      have star : other.head? ≠ some '*' :=
        head?_ne_of_beginsWith (beginsWith_eq_false_of_delimited delimited
          (show delimiters.any (· == '*') = false by decide)) rfl
      exact fun opens => star opens.2
    | cons first taken => exact begins.comment
  · cases taken with
    | nil =>
      obtain ⟨digit, _⟩ := Bool.or_eq_false_iff.mp begins.number
      have undigited : beginsWith Text.isDigit other = false :=
        beginsWith_eq_false_of_delimited delimited (by decide +kernel)
      rw [List.nil_append, startsNumber, digit, undigited, Bool.and_false, Bool.or_false]
    | cons first taken => exact begins.number

/-- The longest operator does not depend on what follows a delimiter. -/
theorem longest?_append_of_delimited {text : List Char} (some : text ≠ [])
    (delimited : Delimited other) :
    Operator.longest? (text ++ other) = Operator.longest? text := by
  cases other with
  | nil => rw [List.append_nil]
  | cons delimiter more =>
    exact longestWithin_append_delimiter (delimited delimiter rfl) some more _

/-- Every operator is the longest one in its own spelling. -/
theorem longest?_spelling (operator : Operator) :
    Operator.longest? operator.spelling = some operator := by
  cases operator <;> decide +kernel

/-- A character that begins no operator is none. -/
theorem longest?_singleton_eq_none {rest : List Char}
    (none : Operator.longest? (character :: rest) = none) :
    Operator.longest? [character] = Option.none := by
  have single : Operator.ofSpelling? [character] = Option.none := by
    simp only [Operator.longest?, Operator.longestSpelling, Operator.longestWithin] at none
    split at none
    · cases none
    split at none
    · cases none
    split at none
    · cases none
    · next found => simpa using found
  rw [Operator.longest?, Operator.longestSpelling, longestWithin_of_length_le (by simp),
    longestWithin_of_length_le (by simp), Operator.longestWithin, List.take_of_length_le (by simp),
    single]
  rfl

/-- An operator or a bad character ends in front of a delimiter where it ended. -/
theorem BeginsSign.readFrom_append {kind : TokenKind}
    (begins : BeginsSign character (taken ++ left))
    (reads : readFrom character (taken ++ left) = (⟨kind, character :: taken⟩, left))
    (delimited : Delimited other) :
    readFrom character (taken ++ other) = (⟨kind, character :: taken⟩, other) := by
  rw [begins.readFrom_eq] at reads
  rw [(begins.append delimited).readFrom_eq, ← List.cons_append]
  split at reads
  · next operator found =>
    simp only [Prod.mk.injEq, mk.injEq] at reads
    obtain ⟨⟨rfl, spelled⟩, _⟩ := reads
    rw [← spelled, longest?_append_of_delimited (spelling_ne_nil operator) delimited,
      longest?_spelling]
    exact Prod.ext rfl List.drop_left
  · next none =>
    simp only [Prod.mk.injEq, mk.injEq, List.cons.injEq, true_and] at reads
    obtain ⟨⟨rfl, rfl⟩, _⟩ := reads
    rw [longest?_append_of_delimited (List.cons_ne_nil _ _) delimited,
      longest?_singleton_eq_none none]
    rfl

/-! ## Lexemes that carry meaning -/

/-- A literal that is not closed leaves nothing. -/
theorem left_eq_nil_of_open {rest : List Char} (opened : (readLiteral rest).closed = false) :
    (readLiteral rest).left = [] := by
  fun_induction readLiteral rest with
  | case1 => rfl
  | case2 => cases opened
  | case3 escaped rest literal ih => exact ih opened
  | case4 character rest _ _ literal ih => exact ih opened

/-- What carries meaning ends in front of a delimiter where it ended, unless it is a literal that
goes on to the end of its text. -/
theorem isFirm_or_of_read (inked : lexeme.kind.isTrivia = false)
    (inner : lexeme.kind ≠ .endOfFile)
    (reads : read (lexeme.characters ++ left) = (lexeme, left)) : lexeme.IsFirm ∨ left = [] := by
  obtain ⟨character, taken, spelled, readsFrom, begins⟩ := exists_readFrom_of_read reads inner
  have atom (kind : lexeme.kind ∈ atomKinds) : lexeme.IsFirm :=
    fun other delimited => read_append_of_delimited kind reads delimited
  obtain ⟨kind, characters⟩ := lexeme
  dsimp only at spelled inked inner begins
  subst spelled
  have signed (sign : kind.isSign) : IsFirm ⟨kind, character :: taken⟩ ∨ left = [] := by
    have same : (readFrom character (taken ++ left)).1.kind.isSign := by rwa [readsFrom]
    rcases beginsSign_of_readFrom same with begins | ⟨rfl, opened⟩
    · exact .inl fun other delimited => begins.readFrom_append readsFrom delimited
    · rw [readFrom_quote] at readsFrom
      rw [← left_eq_nil_of_open opened]
      exact .inr (congrArg Prod.snd readsFrom).symm
  cases kind with
  | identifier | number | string => exact .inl (atom (by simp [atomKinds]))
  | slot | slotSequence =>
    obtain rfl : character = '#' := begins
    rw [readFrom_hash] at readsFrom
    refine .inl fun other delimited => ?_
    change readFrom '#' (taken ++ other) = _
    rw [readFrom_hash]
    exact readSlot_append_of_delimited readsFrom delimited
  | operator | error | other => exact signed rfl
  | whitespace | lineBreak | comment => cases inked
  | endOfFile => exact absurd rfl inner

/-! ## Lexemes by themselves -/

/-- A comment is read from its own characters, closed or not. -/
theorem readComment_taken (depth : Nat) (characters : List Char) :
    readComment depth (readComment depth characters).1
      = ((readComment depth characters).1, []) := by
  fun_induction readComment depth characters with
  | case1 => rw [readComment]
  | case2 depth => cases depth <;> rfl
  | case3 depth rest taken left reads ih =>
    rw [reads] at ih
    rw [readComment, ih]
  | case4 depth rest taken left reads ih =>
    rw [reads] at ih
    rw [readComment, ih]
  | case5 depth character rest opens closes taken left reads ih =>
    have whole := readComment_append (depth + 1) rest
    rw [reads] at ih whole
    -- What follows the character in the comment follows it in the text.
    rw [readComment_cons (fun inner bracket star => ?_) (fun outer star bracket => ?_), ih]
    · exact opens (inner ++ left) bracket (by rw [← whole, star]; rfl)
    · exact closes (outer ++ left) star (by rw [← whole, bracket]; rfl)

/-- A blank is read with all blanks behind it. -/
theorem readFrom_of_isLineBlank (blank : isLineBlank character) (rest : List Char) :
    readFrom character rest
      = (⟨.whitespace, character :: (Reader.run isLineBlank rest).1⟩,
          (Reader.run isLineBlank rest).2) := by
  unfold readFrom
  rw [if_pos blank]

/-- Trivia are read alike from their own characters. -/
theorem readFrom_alone_of_isTrivia {rest : List Char}
    (trivia : (readFrom character rest).1.kind.isTrivia) :
    read (readFrom character rest).1.characters = ((readFrom character rest).1, []) := by
  unfold readFrom at trivia ⊢
  split
  · next blank =>
    have again : Reader.run isLineBlank ((Reader.run isLineBlank rest).1 ++ []) = _ :=
      Reader.stops_run isLineBlank _ _ []
        (congrArg (Reader.run isLineBlank) (Reader.partitions_run isLineBlank rest)) rfl
    rw [List.append_nil] at again
    dsimp only
    rw [read, readFrom_of_isLineBlank blank, again]
  next inked =>
  rw [if_neg inked] at trivia
  split
  · next feed =>
    subst feed
    rfl
  next single =>
  rw [if_neg single] at trivia
  split
  · next carriage =>
    subst carriage
    split <;> rfl
  next plain =>
  rw [if_neg plain] at trivia
  split
  · next opens =>
    obtain ⟨rfl, star⟩ := opens
    dsimp only
    rw [read, readFrom_comment, readComment_taken]
  next other =>
  rw [if_neg other] at trivia
  exfalso
  split at trivia
  · cases trivia
  split at trivia
  · cases trivia
  split at trivia
  · dsimp only at trivia
    split at trivia <;> cases trivia
  split at trivia
  · unfold readSlot at trivia
    split at trivia <;> cases trivia
  split at trivia <;> cases trivia

/-- The first lexeme of a text is read from its own characters alone. -/
theorem read_characters (characters : List Char) :
    read (read characters).1.characters = ((read characters).1, []) := by
  cases characters with
  | nil => rfl
  | cons character rest =>
    cases trivia : (readFrom character rest).1.kind.isTrivia with
    | true => exact readFrom_alone_of_isTrivia trivia
    | false =>
      have reads : read ((readFrom character rest).1.characters ++ (readFrom character rest).2)
          = readFrom character rest := by
        rw [readFrom_append]
        rfl
      rcases isFirm_or_of_read trivia (kind_readFrom_ne_endOfFile character rest) reads with
        firm | none
      · have alone := firm [] delimited_nil
        rwa [List.append_nil] at alone
      · rw [none, List.append_nil] at reads
        exact reads.trans (Prod.ext rfl none)

end Lexeme

/-! ## Tokens -/

/-- Whether tokens of a kind carry meaning: they are neither trivia nor the end of a text. -/
def TokenKind.isInked (kind : TokenKind) : Bool := !kind.isTrivia && kind != .endOfFile

/-- The tokens that carry meaning. -/
def inkedTokens (tokens : List Token) : List Token := tokens.filter fun token => token.kind.isInked

/-- Each token of a text is read alike from its own characters. -/
theorem read_lexeme_of_mem_tokensFrom {position : Position} {characters : List Char} {token : Token}
    (present : token ∈ tokensFrom position characters) :
    Lexeme.read token.text.toList = (token.lexeme, []) := by
  fun_induction tokensFrom position characters with
  | case1 position =>
    rw [List.mem_singleton.mp present]
    rfl
  | case2 position character rest lexeme ih =>
    rcases List.mem_cons.mp present with rfl | later
    · rw [Lexeme.lexeme_token, Lexeme.token, String.toList_ofList]
      exact Lexeme.read_characters (character :: rest)
    · exact ih later

/-- The lexeme of a single space. -/
def Lexeme.space : Lexeme := ⟨.whitespace, [' ']⟩

/-- A space in front of what is no blank is read alone. -/
theorem Lexeme.read_space {rest : List Char} (inked : beginsWith isLineBlank rest = false) :
    read (' ' :: rest) = (space, rest) := by
  have none := Reader.stops_run isLineBlank [] [] rest rfl inked
  rw [List.nil_append] at none
  rw [read, readFrom_of_isLineBlank rfl, none]
  rfl

/-- A text without characters has the end as its only token. -/
theorem tokensFrom_nil (position : Position) :
    tokensFrom position [] = [(Lexeme.read []).1.token position] := by
  rw [tokensFrom]

namespace Lexeme

variable {lexeme : Lexeme}

/-- A lexeme that carries meaning and is read from its own characters. -/
structure IsInked (lexeme : Lexeme) : Prop where
  kind : lexeme.kind.isInked
  alone : read lexeme.characters = (lexeme, [])

theorem IsInked.kind_ne_endOfFile (held : lexeme.IsInked) : lexeme.kind ≠ .endOfFile := by
  intro ends
  have kind := held.kind
  rw [ends] at kind
  cases kind

theorem IsInked.characters_ne_nil (held : lexeme.IsInked) : lexeme.characters ≠ [] := by
  intro none
  have alone := held.alone
  rw [none] at alone
  exact held.kind_ne_endOfFile (congrArg (fun result => result.1.kind) alone).symm

/-- A lexeme that carries meaning begins with no blank. -/
theorem IsInked.beginsWith_isLineBlank (held : lexeme.IsInked) (more : List Char) :
    beginsWith isLineBlank (lexeme.characters ++ more) = false := by
  have alone := held.alone
  rw [← List.append_nil lexeme.characters] at alone
  obtain ⟨character, taken, spelled, reads, _⟩ :=
    exists_readFrom_of_read alone held.kind_ne_endOfFile
  rw [spelled]
  refine Bool.eq_false_iff.mpr fun blank => ?_
  have blank : isLineBlank character = true := blank
  have kind := held.kind
  rw [readFrom_of_isLineBlank blank] at reads
  rw [← congrArg (fun result => result.1.kind) reads] at kind
  cases kind

/-- A lexeme that carries meaning and does not end its text is firm. -/
theorem IsInked.isFirm (held : lexeme.IsInked)
    (reads : read (lexeme.characters ++ left) = (lexeme, left))
    (more : left ≠ []) : lexeme.IsFirm := by
  refine (isFirm_or_of_read ?_ held.kind_ne_endOfFile reads).resolve_right more
  exact Bool.not_eq_true' _ ▸ (Bool.and_eq_true_iff.mp held.kind).1

/-- Lexemes with single spaces between them. -/
def spaced (lexemes : List Lexeme) : List Lexeme := lexemes.intersperse space

/-- Between two lexemes stands one space. -/
theorem spaced_cons_cons (first second : Lexeme) (lexemes : List Lexeme) :
    spaced (first :: second :: lexemes) = first :: space :: spaced (second :: lexemes) := rfl

/-- Spaced lexemes begin with the first one. -/
theorem exists_spelled_spaced_eq (first : Lexeme) (lexemes : List Lexeme) :
    ∃ more, spelled (spaced (first :: lexemes)) = first.characters ++ more := by
  cases lexemes <;> exact ⟨_, spelled_cons _ _⟩

/-- The text of spaced lexemes is their texts with single spaces between them. -/
theorem spelled_spaced (lexemes : List Lexeme) :
    spelled (spaced lexemes) = List.intercalate [' '] (lexemes.map characters) := by
  induction lexemes with
  | nil => rfl
  | cons first lexemes ih =>
    cases lexemes with
    | nil =>
      rw [List.map_singleton, List.intercalate_singleton]
      exact List.append_nil _
    | cons second lexemes =>
      rw [List.map_cons, List.map_cons, List.intercalate_cons_cons, ← List.map_cons, ← ih,
        spaced_cons_cons, spelled_cons, spelled_cons, List.append_assoc]
      rfl

/-- The lexemes that carry meaning are found again between the spaces. -/
theorem filter_spaced {lexemes : List Lexeme} (each : ∀ lexeme ∈ lexemes, lexeme.IsInked) :
    (spaced lexemes).filter (fun lexeme => lexeme.kind.isInked) = lexemes := by
  induction lexemes with
  | nil => rfl
  | cons first lexemes ih =>
    obtain ⟨held, each⟩ := List.forall_mem_cons.mp each
    cases lexemes with
    | nil => exact List.filter_cons_of_pos held.kind
    | cons second lexemes =>
      rw [spaced_cons_cons, List.filter_cons, if_pos held.kind, List.filter_cons,
        if_neg (by decide), ih each]

end Lexeme

/-- The lexemes of the tokens that carry meaning. -/
def inkedLexemes (tokens : List Token) : List Lexeme := (inkedTokens tokens).map Token.lexeme

/-- The lexemes of the tokens that carry meaning carry meaning. -/
theorem isInked_of_mem_inkedLexemes {position : Position} {characters : List Char} :
    ∀ lexeme ∈ inkedLexemes (tokensFrom position characters), lexeme.IsInked := by
  intro lexeme among
  obtain ⟨token, present, rfl⟩ := List.mem_map.mp among
  obtain ⟨present, kind⟩ := List.mem_filter.mp present
  exact ⟨kind, read_lexeme_of_mem_tokensFrom present⟩

/-- A token that carries no meaning is left out. -/
theorem inkedLexemes_cons_of_neg {token : Token} (silent : token.kind.isInked = false)
    (tokens : List Token) : inkedLexemes (token :: tokens) = inkedLexemes tokens := by
  rw [inkedLexemes, inkedTokens, List.filter_cons, if_neg (by simp [silent])]
  rfl

/-- A token that carries meaning gives its lexeme. -/
theorem inkedLexemes_cons_of_pos {token : Token} (inked : token.kind.isInked)
    (tokens : List Token) :
    inkedLexemes (token :: tokens) = token.lexeme :: inkedLexemes tokens := by
  rw [inkedLexemes, inkedTokens, List.filter_cons, if_pos inked]
  rfl

/-- Of two lists the lexemes that carry meaning follow one another. -/
theorem inkedLexemes_append (before after : List Token) :
    inkedLexemes (before ++ after) = inkedLexemes before ++ inkedLexemes after := by
  rw [inkedLexemes, inkedTokens, List.filter_append, List.map_append]
  rfl

/-- The lexemes that carry meaning may be chosen after the tokens are. -/
theorem inkedLexemes_eq_filter (tokens : List Token) :
    inkedLexemes tokens
      = (tokens.map Token.lexeme).filter fun lexeme => lexeme.kind.isInked := by
  rw [List.filter_map]
  rfl

/-- With single spaces between them, the lexemes of a text that carry meaning are read one after the
other. -/
theorem readBefore_spaced (position : Position) (characters : List Char) :
    Lexeme.ReadBefore [] (Lexeme.spaced (inkedLexemes (tokensFrom position characters))) := by
  fun_induction tokensFrom position characters with
  | case1 position => trivial
  | case2 position character rest lexeme ih =>
    cases inked : lexeme.kind.isInked with
    | false => rwa [inkedLexemes_cons_of_neg inked]
    | true =>
      have first : lexeme.IsInked := ⟨inked, Lexeme.read_characters (character :: rest)⟩
      rw [inkedLexemes_cons_of_pos inked, Lexeme.lexeme_token]
      cases later : inkedLexemes (tokensFrom (position.advance lexeme.characters)
          (Lexeme.readFrom character rest).2) with
      | nil =>
        refine ⟨⟨first.characters_ne_nil, ?_⟩, trivial⟩
        rw [Lexeme.spelled_nil, List.append_nil, List.append_nil, first.alone]
      | cons next lexemes =>
        rw [later] at ih
        have second : next.IsInked :=
          isInked_of_mem_inkedLexemes next (later ▸ List.mem_cons_self)
        have reads : Lexeme.read (lexeme.characters ++ (Lexeme.readFrom character rest).2)
            = (lexeme, (Lexeme.readFrom character rest).2) := by
          rw [Lexeme.readFrom_append]
          rfl
        have firm : lexeme.IsFirm := first.isFirm reads fun none => by
          rw [none, tokensFrom_nil] at later
          cases later
        obtain ⟨more, spelled⟩ := Lexeme.exists_spelled_spaced_eq next lexemes
        have space : Lexeme.read (' ' :: (Lexeme.spelled (Lexeme.spaced (next :: lexemes)) ++ []))
            = (.space, Lexeme.spelled (Lexeme.spaced (next :: lexemes)) ++ []) := by
          rw [List.append_nil, spelled]
          exact Lexeme.read_space (second.beginsWith_isLineBlank more)
        exact ⟨⟨first.characters_ne_nil, firm _ (Lexeme.delimited_space _)⟩,
          ⟨List.cons_ne_nil _ _, space⟩, ih⟩

/-- The tokens of a text that carry meaning can be written with single blanks between them and are
read again with the same kinds and texts, the bad ones included. So tokens with the same text are
tokens of the same kind, whatever stands around them. -/
theorem tokenize_spaced (source : String) :
    (inkedTokens (tokenize (" ".intercalate ((inkedTokens (tokenize source)).map Token.text)))).map
        (fun token => (token.kind, token.text))
      = (inkedTokens (tokenize source)).map (fun token => (token.kind, token.text)) ∧
    ∀ token ∈ tokenize source, ∀ other, ∀ twin ∈ tokenize other,
      twin.text = token.text → twin.kind = token.kind := by
  constructor
  · have spelled : (" ".intercalate ((inkedTokens (tokenize source)).map Token.text)).toList
        = Lexeme.spelled (Lexeme.spaced (inkedLexemes (tokenize source))) ++ [] := by
      rw [String.toList_intercalate, List.append_nil, Lexeme.spelled_spaced, inkedLexemes,
        List.map_map, List.map_map]
      rfl
    obtain ⟨tokens, after, same, lexemes⟩ :=
      exists_tokensFrom_eq_append (readBefore_spaced .start source.toList) .start
    have again : inkedLexemes
        (tokenize (" ".intercalate ((inkedTokens (tokenize source)).map Token.text)))
          = inkedLexemes (tokenize source) := by
      rw [tokenize, spelled, tokenize, same, inkedLexemes_append, inkedLexemes_eq_filter tokens,
        lexemes, Lexeme.filter_spaced isInked_of_mem_inkedLexemes, tokensFrom_nil,
        inkedLexemes_cons_of_neg rfl]
      exact List.append_nil _
    have pairs (tokens : List Token) :
        (inkedTokens tokens).map (fun token => (token.kind, token.text))
          = (inkedLexemes tokens).map fun lexeme =>
              (lexeme.kind, String.ofList lexeme.characters) := by
      rw [inkedLexemes, List.map_map]
      refine List.map_congr_left fun token _ => ?_
      rw [Function.comp_apply, Token.lexeme, String.ofList_toList]
    rw [pairs, pairs, again]
  · intro token present other twin among same
    have reads := read_lexeme_of_mem_tokensFrom present
    have readsTwin := read_lexeme_of_mem_tokensFrom among
    rw [same, reads] at readsTwin
    exact congrArg (fun result => result.1.kind) readsTwin.symm

/-- What stands close together comes apart, and what stood in a comment is left out. -/
example : (inkedTokens (tokenize "4..#2(*c*)##x`1")).map Token.text
    = ["4", "..", "#2", "##", "x", "`", "1"] := by decide +kernel

end WolframSyntax
