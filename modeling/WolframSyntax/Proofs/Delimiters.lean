import Mathlib.Data.List.TakeWhile
import WolframSyntax.Token.Lexer

/-!
# Where atoms end

Names, numbers and closed strings end in front of blanks, brackets and commas. A reader that has
stopped somewhere stops at the same place when something else follows there, as long as that does
not begin with a character the reader could go on with (`Lexeme.Reader.Stops`). So an atom that is
read from one text is read from every text in which a delimiter follows it
(`Lexeme.IsAtom.read_append`).
-/

namespace WolframSyntax

namespace Lexeme

/-- A text that begins with no character of a class begins with none of a smaller class. -/
theorem beginsWith_eq_false_of_imp {wide narrow : Char → Bool} {characters : List Char}
    (none : beginsWith wide characters = false)
    (implied : ∀ character, narrow character → wide character) :
    beginsWith narrow characters = false := by
  cases characters with
  | nil => rfl
  | cons character rest =>
    rw [← Bool.not_eq_true]
    intro member
    exact Bool.false_ne_true (none.symm.trans (implied character member))

/-- A text that begins with none of some characters does not begin with one of them. -/
theorem head?_ne_of_beginsWith {belongs : Char → Bool} {characters : List Char} {character : Char}
    (none : beginsWith belongs characters = false) (member : belongs character) :
    characters.head? ≠ some character := by
  cases characters with
  | nil => simp
  | cons first rest =>
    intro same
    cases same
    exact Bool.false_ne_true (none.symm.trans member)

namespace Reader

/-- What a reader has taken from one text it takes from every text that goes on with none of the
characters `more`. -/
def Stops (reader : Reader) (more : Char → Bool) : Prop :=
  ∀ taken left other, reader (taken ++ left) = (taken, left) → beginsWith more other = false →
    reader (taken ++ other) = (taken, other)

/-- What a reader takes begins with one of the characters `first`, unless it takes nothing. -/
def Starts (reader : Reader) (first : Char → Bool) : Prop :=
  ∀ characters, (reader characters).1 ≠ [] → beginsWith first (reader characters).1

/-- A run of characters ends where none of them follows. -/
theorem stops_run (belongs : Char → Bool) : (run belongs).Stops belongs := by
  intro taken left other reads ends
  obtain ⟨taking, _⟩ := Prod.mk.inj reads
  have all : ∀ character ∈ taken, belongs character := by
    rw [← taking]
    exact fun character present => List.all_eq_true.mp List.all_takeWhile character present
  have none : other.takeWhile belongs = [] ∧ other.dropWhile belongs = other := by
    cases other with
    | nil => exact ⟨rfl, rfl⟩
    | cons character rest =>
      have plain : belongs character = false := ends
      simp [plain]
  simp only [run, List.takeWhile_append_of_pos all, List.dropWhile_append_of_pos all, none,
    List.append_nil]

/-- A run begins with one of its characters. -/
theorem starts_run (belongs : Char → Bool) : (run belongs).Starts belongs := by
  intro characters some
  cases characters with
  | nil => exact absurd rfl some
  | cons character rest =>
    cases member : belongs character with
    | true => simp [run, member, beginsWith]
    | false => simp [run, member] at some

/-- Of two readers one after the other the first one that takes something begins. -/
theorem Starts.andThen {first second : Reader} {start startAfter : Char → Bool}
    (starts : first.Starts start) (startsAfter : second.Starts startAfter) :
    (first.andThen second).Starts fun character => start character || startAfter character := by
  intro characters some
  change beginsWith _ ((first characters).1 ++ (second (first characters).2).1) = true
  change (first characters).1 ++ (second (first characters).2).1 ≠ [] at some
  cases taken : (first characters).1 with
  | cons character rest =>
    have member := starts characters (by rw [taken]; exact List.cons_ne_nil _ _)
    rw [taken] at member
    exact Bool.or_eq_true_iff.mpr (.inl member)
  | nil =>
    rw [taken, List.nil_append] at some
    cases takenAfter : (second (first characters).2).1 with
    | nil => exact absurd takenAfter some
    | cons character rest =>
      have member := startsAfter _ some
      rw [takenAfter] at member
      exact Bool.or_eq_true_iff.mpr (.inr member)

/-- Two readers one after the other stop if the first cannot go on where the second starts. -/
theorem Stops.andThen {first second : Reader} {more moreAfter start : Char → Bool}
    (stops : first.Stops more) (stopsAfter : second.Stops moreAfter) (starts : second.Starts start)
    (apart : ∀ character, start character → more character = false) (whole : first.Partitions)
    (wholeAfter : second.Partitions) :
    (first.andThen second).Stops fun character => more character || moreAfter character := by
  intro taken left other reads ends
  have ending : beginsWith more other = false :=
    beginsWith_eq_false_of_imp ends fun _ member => by rw [member, Bool.true_or]
  have endingAfter : beginsWith moreAfter other = false :=
    beginsWith_eq_false_of_imp ends fun _ member => by rw [member, Bool.or_true]
  obtain ⟨both, rest⟩ := Prod.mk.inj reads
  have split := whole (taken ++ left)
  have splitAfter := wholeAfter (first (taken ++ left)).2
  generalize firstReads : first (taken ++ left) = result at both rest split splitAfter
  obtain ⟨part, middle⟩ := result
  dsimp only at both rest split splitAfter
  generalize secondReads : second middle = resultAfter at both rest splitAfter
  obtain ⟨more', remaining⟩ := resultAfter
  dsimp only at both rest splitAfter
  subst both rest splitAfter
  have followed : beginsWith more (more' ++ other) = false := by
    cases more' with
    | nil => exact ending
    | cons character rest =>
      have started := starts (character :: rest ++ remaining)
      rw [secondReads] at started
      exact apart character (started (List.cons_ne_nil _ _))
  have again := stops part (more' ++ remaining) (more' ++ other)
    (by rw [← List.append_assoc]; exact firstReads) followed
  have againAfter := stopsAfter more' remaining other secondReads endingAfter
  simp only [Reader.andThen, List.append_assoc, again, againAfter]

end Reader

/-- Blanks, brackets and the marks of numbers, literals, slots and comments. -/
def marks : List Char :=
  [' ', '\t', '\x0c', '\n', '\r', '('] ++
    ['[', ']', ',', '.', '^', '\x60', '*', '-', '+', '"', '\\', '#']

/-- Marks are no letters and no digits. -/
theorem plain_of_mem_marks (mark : Char) (present : mark ∈ marks) :
    startsName mark = false ∧ isAlphanumeric mark = false ∧ Text.isDigit mark = false := by
  have table : (marks.all fun mark =>
      !(startsName mark || (isAlphanumeric mark || Text.isDigit mark))) = true := by
    decide +kernel
  simpa using List.all_eq_true.mp table mark present

/-- Characters that a name may go on with. -/
def continuesName (character : Char) : Bool :=
  isAlphanumeric character || character == '$' || character == '\x60'

/-- A name ends where nothing follows that a name may go on with. -/
theorem stops_readName : Reader.Stops readName continuesName := by
  intro taken left other reads ends
  induction taken with
  | nil =>
    cases other with
    | nil => rfl
    | cons character rest =>
      have ends : continuesName character = false := ends
      obtain ⟨ends, mark⟩ := Bool.or_eq_false_iff.mp ends
      simp [readName, ends, mark]
  | cons character taken ih =>
    rw [List.cons_append, readName] at reads
    split at reads
    · next continues =>
      obtain ⟨same, rest⟩ := Prod.mk.inj reads
      obtain ⟨_, same⟩ := List.cons.inj same
      have reads : readName (taken ++ left) = (taken, left) := Prod.ext same rest
      have goesOn : (isAlphanumeric character || character == '$'
          || (character == '\x60' && beginsWith startsName (taken ++ other))) = true := by
        cases taken with
        | cons next taken => exact continues
        | nil =>
          rcases Bool.or_eq_true_iff.mp continues with plain | mark
          · rw [plain, Bool.true_or]
          · obtain ⟨_, follows⟩ := Bool.and_eq_true_iff.mp mark
            cases left with
            | nil => cases follows
            | cons next left => exact absurd (congrArg Prod.fst reads) (readName_ne_nil follows)
      rw [List.cons_append, readName, if_pos goesOn, ih reads]
    · cases reads

/-- Only a `^^` gives a number a base. -/
theorem readBase_of_head?_ne {characters : List Char} (plain : characters.head? ≠ some '^') :
    readBase characters = ([], characters) := by
  unfold readBase
  split
  · exact absurd rfl plain
  · rfl

theorem stops_readBase :
    Reader.Stops readBase fun character => character == '^' || isAlphanumeric character := by
  intro taken left other reads ends
  match taken with
  | [] => exact readBase_of_head?_ne (head?_ne_of_beginsWith ends rfl)
  | [character] =>
    unfold readBase at reads
    split at reads <;> simp at reads
  | character :: next :: taken =>
    unfold readBase at reads
    split at reads
    · next rest same =>
      cases same
      have inner : Reader.run isAlphanumeric (taken ++ left) = (taken, left) := by
        simpa [Prod.ext_iff] using reads
      have again := Reader.stops_run isAlphanumeric taken left other inner
        (beginsWith_eq_false_of_imp ends fun _ member => by rw [member, Bool.or_true])
      simp only [List.cons_append, readBase, again]
    · simp at reads

theorem starts_readBase : Reader.Starts readBase (· == '^') := by
  intro characters some
  unfold readBase at some ⊢
  split <;> simp_all [beginsWith]

/-- Characters that the part after the point may go on with. -/
def continuesFraction (character : Char) : Bool := character == '.' || Text.isDigit character

/-- Only a point gives a number a fraction. -/
theorem readFraction_of_head?_ne {characters : List Char} (plain : characters.head? ≠ some '.') :
    readFraction characters = ([], characters) := by
  unfold readFraction
  split
  · exact absurd rfl plain
  · rfl

theorem stops_readFraction : Reader.Stops readFraction continuesFraction := by
  intro taken left other reads ends
  have unpointed : other.head? ≠ some '.' := head?_ne_of_beginsWith ends rfl
  match taken with
  | [] => exact readFraction_of_head?_ne unpointed
  | character :: taken =>
    unfold readFraction at reads
    split at reads
    · next rest same =>
      cases same
      split at reads
      · simp at reads
      · next single =>
        have inner : readDigits (taken ++ left) = (taken, left) := by
          simpa [Prod.ext_iff] using reads
        have again := Reader.stops_run Text.isDigit taken left other inner
          (beginsWith_eq_false_of_imp ends fun _ member => by
            rw [continuesFraction, member, Bool.or_true])
        have still : (taken ++ other).head? ≠ some '.' := by
          cases taken with
          | nil => exact unpointed
          | cons next taken => exact single
        rw [List.cons_append, readFraction, if_neg still]
        simp only [readDigits, again]
    · simp at reads

theorem starts_readFraction : Reader.Starts readFraction (· == '.') := by
  intro characters some
  unfold readFraction at some ⊢
  split
  · split <;> simp_all [beginsWith]
  · simp_all

/-- Characters that a precision mark may go on with. -/
def continuesPrecision (character : Char) : Bool :=
  character == '\x60' || Text.isDigit character || character == '.'

/-- Only a precision mark gives a number a precision. -/
theorem readPrecision_of_head?_ne {characters : List Char}
    (plain : characters.head? ≠ some '\x60') : readPrecision characters = ([], characters) := by
  unfold readPrecision
  split
  · exact absurd rfl plain
  · exact absurd rfl plain
  · rfl

/-- After a single precision mark come digits and points. -/
theorem readPrecision_single {characters : List Char} (plain : characters.head? ≠ some '\x60') :
    readPrecision ('\x60' :: characters)
      = ('\x60' :: (Reader.run (fun c => Text.isDigit c || c == '.') characters).1,
          (Reader.run (fun c => Text.isDigit c || c == '.') characters).2) := by
  unfold readPrecision
  split
  · next same =>
    cases same
    exact absurd rfl plain
  · next same =>
    cases same
    rfl
  · next other => exact absurd rfl (other characters)

theorem stops_readPrecision : Reader.Stops readPrecision continuesPrecision := by
  intro taken left other reads ends
  have unmarked : other.head? ≠ some '\x60' := head?_ne_of_beginsWith ends rfl
  have again := fun taken left reads =>
    Reader.stops_run (fun c => Text.isDigit c || c == '.') taken left other reads
      (beginsWith_eq_false_of_imp ends fun _ member => by
        rw [continuesPrecision, Bool.or_assoc, member, Bool.or_true])
  match taken with
  | [] => exact readPrecision_of_head?_ne unmarked
  | character :: taken =>
    by_cases mark : character = '\x60'
    · subst mark
      by_cases double : taken.head? = some '\x60'
      · obtain ⟨taken, rfl⟩ : ∃ rest, taken = '\x60' :: rest := by
          cases taken with
          | nil => cases double
          | cons next rest => cases double; exact ⟨rest, rfl⟩
        have inner := again taken left (by simpa [readPrecision, Prod.ext_iff] using reads)
        simp only [List.cons_append, readPrecision, inner]
      · have single : (taken ++ left).head? ≠ some '\x60' := by
          intro same
          cases taken with
          | cons next rest => exact double same
          | nil =>
            cases left with
            | nil => cases same
            | cons next left =>
              cases same
              simp [readPrecision] at reads
        have still : (taken ++ other).head? ≠ some '\x60' := by
          cases taken with
          | nil => exact unmarked
          | cons next rest => exact double
        rw [List.cons_append, readPrecision_single single] at reads
        have inner := again taken left (by simpa [Prod.ext_iff] using reads)
        rw [List.cons_append, readPrecision_single still, inner]
    · rw [readPrecision_of_head?_ne (by simpa using mark)] at reads
      cases reads

theorem starts_readPrecision : Reader.Starts readPrecision (· == '\x60') := by
  intro characters some
  unfold readPrecision at some ⊢
  split <;> simp_all [beginsWith]

/-- Only a minus or a plus is a sign. -/
theorem readSign_of_head?_ne {characters : List Char} (minus : characters.head? ≠ some '-')
    (plus : characters.head? ≠ some '+') : readSign characters = ([], characters) := by
  unfold readSign
  split
  · exact absurd rfl minus
  · exact absurd rfl plus
  · rfl

theorem stops_readSign :
    Reader.Stops readSign fun character => character == '-' || character == '+' := by
  intro taken left other reads ends
  match taken with
  | [] =>
    exact readSign_of_head?_ne (head?_ne_of_beginsWith ends rfl) (head?_ne_of_beginsWith ends rfl)
  | character :: taken =>
    unfold readSign at reads
    split at reads
    · next rest same => simp_all [readSign]
    · next rest same => simp_all [readSign]
    · simp at reads

/-- A digit is none of the marks. -/
theorem ne_of_isDigit {character other : Char} (digit : Text.isDigit character)
    (plain : Text.isDigit other = false) : (character == other) = false := by
  rw [beq_eq_false_iff_ne]
  rintro rfl
  exact Bool.false_ne_true (plain.symm.trans digit)

/-- Characters that an exponent may go on with. -/
def continuesExponent (character : Char) : Bool :=
  character == '*' || (character == '-' || character == '+' || Text.isDigit character)

/-- Only a `*^` gives a number an exponent. -/
theorem readExponent_of_head?_ne {characters : List Char} (plain : characters.head? ≠ some '*') :
    readExponent characters = ([], characters) := by
  unfold readExponent
  split
  · exact absurd rfl plain
  · rfl

theorem stops_readExponent : Reader.Stops readExponent continuesExponent := by
  intro taken left other reads ends
  match taken with
  | [] => exact readExponent_of_head?_ne (head?_ne_of_beginsWith ends rfl)
  | [character] =>
    unfold readExponent at reads
    split at reads <;> simp at reads
  | character :: next :: taken =>
    unfold readExponent at reads
    split at reads
    · next rest same =>
      cases same
      have digits : (readSign.andThen readDigits).Stops _ :=
        stops_readSign.andThen (Reader.stops_run Text.isDigit) (Reader.starts_run Text.isDigit)
          (fun character digit => by
            rw [ne_of_isDigit digit (plain_of_mem_marks '-' (by decide)).2.2,
              ne_of_isDigit digit (plain_of_mem_marks '+' (by decide)).2.2]
            rfl)
          partitions_readSign (Reader.partitions_run _)
      have again := digits taken left other (by simpa [Prod.ext_iff] using reads)
        (beginsWith_eq_false_of_imp ends fun _ member => by
          rw [continuesExponent, member, Bool.or_true])
      simp only [List.cons_append, readExponent, again]
    · simp at reads

theorem starts_readExponent : Reader.Starts readExponent (· == '*') := by
  intro characters some
  unfold readExponent at some ⊢
  split <;> simp_all [beginsWith]

/-- Characters that a number may go on with. -/
def continuesNumber (character : Char) : Bool :=
  Text.isDigit character || (character == '^' || isAlphanumeric character
    || (continuesFraction character
      || (continuesPrecision character || continuesExponent character)))

/-- A number ends where nothing follows that one of its parts may go on with. -/
theorem stops_readNumber : Reader.Stops readNumber continuesNumber := by
  -- Every part ends where the next one may start, because their marks are no digits.
  have startsPrecision := starts_readPrecision.andThen starts_readExponent
  have startsFraction := starts_readFraction.andThen startsPrecision
  have startsBase := starts_readBase.andThen startsFraction
  have precision := stops_readPrecision.andThen stops_readExponent starts_readExponent
    (fun character star => by
      rw [eq_of_beq star]
      simp [continuesPrecision, plain_of_mem_marks '*' (by decide)])
    partitions_readPrecision partitions_readExponent
  have fraction := stops_readFraction.andThen precision startsPrecision
    (fun character mark => by
      simp only [Bool.or_eq_true, beq_iff_eq] at mark
      obtain ⟨_, _, digit⟩ :=
        plain_of_mem_marks character (by rcases mark with rfl | rfl <;> decide)
      rcases mark with rfl | rfl <;> simp [continuesFraction, digit])
    partitions_readFraction (partitions_readPrecision.andThen partitions_readExponent)
  have base := stops_readBase.andThen fraction startsFraction
    (fun character mark => by
      simp only [Bool.or_eq_true, beq_iff_eq] at mark
      obtain ⟨_, member, _⟩ :=
        plain_of_mem_marks character (by rcases mark with rfl | rfl | rfl <;> decide)
      rcases mark with rfl | rfl | rfl <;> simp [member])
    partitions_readBase
    (partitions_readFraction.andThen (partitions_readPrecision.andThen partitions_readExponent))
  exact (Reader.stops_run Text.isDigit).andThen base startsBase
    (fun character mark => by
      simp only [Bool.or_eq_true, beq_iff_eq] at mark
      have among : character ∈ marks := by rcases mark with rfl | rfl | rfl | rfl <;> decide
      exact (plain_of_mem_marks character among).2.2)
    (Reader.partitions_run _)
    (partitions_readBase.andThen (partitions_readFraction.andThen
      (partitions_readPrecision.andThen partitions_readExponent)))

/-- A character that neither closes a literal nor keeps the next one from closing it. -/
theorem readLiteral_cons {character : Char} (quote : character ≠ '"') (escape : character ≠ '\\')
    (rest : List Char) :
    readLiteral (character :: rest)
      = ⟨character :: (readLiteral rest).taken, (readLiteral rest).closed,
          (readLiteral rest).left⟩ := by
  rw [readLiteral]
  · exact quote
  · exact fun _ _ same => absurd same escape

/-- A closed literal is read in the same way whatever follows it. -/
theorem readLiteral_append_of_closed {taken left : List Char}
    (reads : readLiteral (taken ++ left) = ⟨taken, true, left⟩) (other : List Char) :
    readLiteral (taken ++ other) = ⟨taken, true, other⟩ := by
  induction taken using readLiteral.induct with
  | case1 =>
    have nonempty : (readLiteral left).closed → (readLiteral left).taken ≠ [] := by
      fun_cases readLiteral left <;> simp
    rw [List.nil_append] at reads
    rw [reads] at nonempty
    exact absurd rfl (nonempty rfl)
  | case2 rest =>
    have single : rest = [] := by simp_all [readLiteral]
    rw [single]
    rfl
  | case3 escaped rest ih =>
    simp only [List.cons_append, readLiteral] at reads
    have inner : readLiteral (rest ++ left) = ⟨rest, true, left⟩ := by
      cases found : readLiteral (rest ++ left)
      simpa [found] using reads
    simp only [List.cons_append, readLiteral, ih inner]
  | case4 character rest quote escape ih =>
    by_cases backslash : character = '\\'
    · subst backslash
      cases rest with
      | cons escaped rest => exact (escape escaped rest rfl rfl).elim
      | nil => cases left <;> simp [readLiteral] at reads
    · rw [List.cons_append, readLiteral_cons quote backslash] at reads ⊢
      have inner : readLiteral (rest ++ left) = ⟨rest, true, left⟩ := by
        cases found : readLiteral (rest ++ left)
        simpa [found] using reads
      rw [ih inner]

/-- The characters that end a name or a number: a blank, the end of a line, and what separates the
parts of a full form. -/
def delimiters : List Char := [' ', '\n', ',', '[', ']']

/-- The text is at its end or goes on with a delimiter. -/
def Delimited (characters : List Char) : Prop :=
  ∀ character ∈ characters.head?, character ∈ delimiters

/-- What contains no delimiter does not go on at the end of a delimited text. -/
theorem beginsWith_eq_false_of_delimited {belongs : Char → Bool} {characters : List Char}
    (delimited : Delimited characters) (none : delimiters.any belongs = false) :
    beginsWith belongs characters = false := by
  cases characters with
  | nil => rfl
  | cons character rest =>
    exact Bool.eq_false_iff.mpr (List.any_eq_false.mp none character (delimited character rfl))

/-- Whether a number begins with a character that has the given text after it. -/
def startsNumber (character : Char) (rest : List Char) : Bool :=
  Text.isDigit character || (character == '.' && beginsWith Text.isDigit rest)

/-- A text in front of which only names and numbers are tried. -/
theorem readFrom_eq_of_plain {character : Char} {rest : List Char}
    (plain : character ∉ [' ', '\t', '\x0c', '\n', '\r', '(']) :
    readFrom character rest
      = if startsName character then
          (⟨.identifier, (readName (character :: rest)).1⟩, (readName (character :: rest)).2)
        else if startsNumber character rest then
          (⟨.number, (readNumber (character :: rest)).1⟩, (readNumber (character :: rest)).2)
        else if character = '"' then
          (⟨if (readLiteral rest).closed then .string else .error,
            character :: (readLiteral rest).taken⟩, (readLiteral rest).left)
        else if character = '#' then readSlot character rest
        else
          match Operator.longest? (character :: rest) with
          | some operator =>
            (⟨.operator operator, operator.spelling⟩,
              (character :: rest).drop operator.spelling.length)
          | none => (⟨.error, [character]⟩, rest) := by
  simp only [List.mem_cons, List.not_mem_nil, or_false, not_or] at plain
  obtain ⟨space, tab, feed, line, carriage, bracket⟩ := plain
  unfold readFrom
  rw [if_neg (by simp [isLineBlank, space, tab, feed]), if_neg line, if_neg carriage,
    if_neg fun opens => bracket opens.1]
  rfl

/-- A text that begins as a name is read as one. -/
theorem readFrom_eq_of_startsName {character : Char} {rest : List Char}
    (starts : startsName character) :
    readFrom character rest
      = (⟨.identifier, (readName (character :: rest)).1⟩, (readName (character :: rest)).2) := by
  rw [readFrom_eq_of_plain, if_pos starts]
  intro blank
  have unnamed := (plain_of_mem_marks character (List.mem_append_left _ blank)).1
  exact Bool.false_ne_true (unnamed.symm.trans starts)

/-- A text that begins as a number, and not as a name, is read as one. -/
theorem readFrom_eq_of_startsNumber {character : Char} {rest : List Char}
    (unnamed : startsName character = false) (starts : startsNumber character rest) :
    readFrom character rest
      = (⟨.number, (readNumber (character :: rest)).1⟩, (readNumber (character :: rest)).2) := by
  rw [readFrom_eq_of_plain, if_neg (by simp [unnamed]), if_pos starts]
  intro blank
  have other : character ≠ '.' := by
    rintro rfl
    exact absurd blank (by decide)
  have plain := plain_of_mem_marks character (List.mem_append_left _ blank)
  rw [startsNumber, plain.2.2, beq_false_of_ne other] at starts
  cases starts

/-- A text that begins with a quotation mark is read as a literal, closed or in error. -/
theorem readFrom_quote (rest : List Char) :
    readFrom '"' rest
      = (⟨if (readLiteral rest).closed then .string else .error, '"' :: (readLiteral rest).taken⟩,
          (readLiteral rest).left) := by
  have plain := plain_of_mem_marks '"' (by decide)
  rw [readFrom_eq_of_plain (by decide), if_neg (by simp [plain]),
    if_neg (by simp [startsNumber, plain]), if_pos rfl]

theorem readFrom_hash (rest : List Char) : readFrom '#' rest = readSlot '#' rest := by
  have plain := plain_of_mem_marks '#' (by decide)
  rw [readFrom_eq_of_plain (by decide), if_neg (by simp [plain]),
    if_neg (by simp [startsNumber, plain]), if_neg (by decide), if_pos rfl]

/-- How a text begins whose first lexeme is of a given kind. -/
def Begins (character : Char) (rest : List Char) : TokenKind → Prop
  | .identifier => startsName character = true
  | .number => startsName character = false ∧ startsNumber character rest = true
  | .string => character = '"' ∧ (readLiteral rest).closed = true
  | .slot | .slotSequence => character = '#'
  | _ => True

/-- The kind of the first lexeme tells how the text begins. -/
theorem begins_readFrom (character : Char) (rest : List Char) :
    Begins character rest (readFrom character rest).1.kind := by
  unfold readFrom
  split
  · trivial
  split
  · trivial
  split
  · split <;> trivial
  split
  · trivial
  split
  · next starts => exact starts
  split
  · next unnamed starts => exact ⟨Bool.eq_false_iff.mpr unnamed, starts⟩
  split
  · next quote =>
    dsimp only
    split
    · next closed => exact ⟨quote, closed⟩
    · trivial
  split
  · next hash =>
    unfold readSlot
    split <;> exact hash
  split <;> trivial

/-- A point with a digit after it is not a number by itself. -/
theorem readNumber_point_ne {rest : List Char} (digit : beginsWith Text.isDigit rest) :
    (readNumber ('.' :: rest)).1 ≠ ['.'] := by
  obtain ⟨_, _, plain⟩ := plain_of_mem_marks '.' (by decide)
  have none : readDigits ('.' :: rest) = ([], '.' :: rest) := by
    simp [readDigits, Reader.run, plain]
  cases rest with
  | nil => cases digit
  | cons first rest =>
    have digit : Text.isDigit first = true := digit
    have unpointed : (first :: rest).head? ≠ some '.' := by
      intro same
      cases same
      exact Bool.false_ne_true (plain.symm.trans digit)
    have fraction : (readFraction ('.' :: first :: rest)).1
        = '.' :: first :: rest.takeWhile Text.isDigit := by
      rw [readFraction, if_neg unpointed]
      simp [readDigits, Reader.run, digit]
    simp [readNumber, Reader.andThen, none, readBase, fraction]

/-- The kinds of the lexemes that stand for themselves in a full form. -/
def atomKinds : List TokenKind := [.identifier, .number, .string]

/-- A lexeme that does not end a text is read by its first character. -/
theorem exists_readFrom_of_read {lexeme : Lexeme} {left : List Char}
    (reads : read (lexeme.characters ++ left) = (lexeme, left))
    (inner : lexeme.kind ≠ .endOfFile) :
    ∃ character taken, lexeme.characters = character :: taken ∧
      readFrom character (taken ++ left) = (lexeme, left) ∧
      Begins character (taken ++ left) lexeme.kind := by
  obtain ⟨kind, characters⟩ := lexeme
  cases characters with
  | nil =>
    cases left with
    | nil =>
      cases reads
      exact absurd rfl inner
    | cons character rest =>
      exact absurd (congrArg (Lexeme.characters ∘ Prod.fst) reads)
        (characters_readFrom_ne_nil character rest)
  | cons character taken =>
    have begins := begins_readFrom character (taken ++ left)
    rw [show readFrom character (taken ++ left) = _ from reads] at begins
    exact ⟨character, taken, rfl, reads, begins⟩

/-- A name, a number or a string that is read from one text is read from every text in which a
delimiter follows it. -/
theorem read_append_of_delimited {lexeme : Lexeme} (atom : lexeme.kind ∈ atomKinds)
    {left other : List Char} (reads : read (lexeme.characters ++ left) = (lexeme, left))
    (delimited : Delimited other) : read (lexeme.characters ++ other) = (lexeme, other) := by
  have inner : lexeme.kind ≠ .endOfFile := by
    intro same
    rw [same] at atom
    exact absurd atom (by decide)
  obtain ⟨character, taken, spelled, reads, begins⟩ := exists_readFrom_of_read reads inner
  obtain ⟨kind, characters⟩ := lexeme
  dsimp only at spelled
  subst spelled
  change readFrom character (taken ++ other) = _
  dsimp only at atom begins
  simp only [atomKinds, List.mem_cons, List.not_mem_nil, or_false] at atom
  rcases atom with rfl | rfl | rfl
  · have starts : startsName character = true := begins
    rw [readFrom_eq_of_startsName starts] at reads ⊢
    have inner : readName (character :: taken ++ left) = (character :: taken, left) := by
      simpa [Prod.ext_iff] using reads
    have again := stops_readName _ _ other inner
      (beginsWith_eq_false_of_delimited delimited (by decide +kernel))
    rw [← List.cons_append, again]
  · obtain ⟨unnamed, starts⟩ := begins
    rw [readFrom_eq_of_startsNumber unnamed starts] at reads
    have inner : readNumber (character :: taken ++ left) = (character :: taken, left) := by
      simpa [Prod.ext_iff] using reads
    have again := stops_readNumber _ _ other inner
      (beginsWith_eq_false_of_delimited delimited (by decide +kernel))
    have startsAgain : startsNumber character (taken ++ other) = true := by
      cases taken with
      | cons next taken => exact starts
      | nil =>
        rcases Bool.or_eq_true_iff.mp starts with digit | point
        · rw [startsNumber, digit, Bool.true_or]
        · obtain ⟨mark, digit⟩ := Bool.and_eq_true_iff.mp point
          rw [eq_of_beq mark] at inner
          exact absurd (congrArg Prod.fst inner) (readNumber_point_ne digit)
    rw [readFrom_eq_of_startsNumber unnamed startsAgain, ← List.cons_append, again]
  · obtain ⟨rfl, closed⟩ := begins
    rw [readFrom_quote, if_pos closed] at reads
    have inner : readLiteral (taken ++ left) = ⟨taken, true, left⟩ := by
      cases found : readLiteral (taken ++ left)
      rw [found] at reads closed
      cases reads
      dsimp only at closed ⊢
      rw [closed]
    rw [readFrom_quote, readLiteral_append_of_closed inner other]
    rfl

/-- A lexeme that stands for itself in a full form: a name, a number or a closed string that is read
as one lexeme. -/
structure IsAtom (lexeme : Lexeme) : Prop where
  kind : lexeme.kind ∈ atomKinds
  reads : read lexeme.characters = (lexeme, [])

/-- A lexeme that stands for itself is read whole in front of a delimiter. -/
theorem IsAtom.read_append {lexeme : Lexeme} (atom : lexeme.IsAtom) {other : List Char}
    (delimited : Delimited other) : read (lexeme.characters ++ other) = (lexeme, other) :=
  read_append_of_delimited atom.kind (by rw [List.append_nil, atom.reads]) delimited

/-- What is read as a name, a number or a string stands for itself. -/
theorem isAtom_of_read {lexeme : Lexeme} (kind : lexeme.kind ∈ atomKinds) {left : List Char}
    (reads : read (lexeme.characters ++ left) = (lexeme, left)) : lexeme.IsAtom where
  kind := kind
  reads := by
    have nothing : Delimited [] := fun _ none => by cases none
    simpa using read_append_of_delimited kind reads nothing

theorem IsAtom.characters_ne_nil {lexeme : Lexeme} (atom : lexeme.IsAtom) :
    lexeme.characters ≠ [] := by
  intro none
  obtain ⟨kind, reads⟩ := atom
  rw [none] at reads
  cases reads
  exact absurd kind (by decide)

/-! ## Atoms that are written anew -/

/-- Every character of a name is one that a name may go on with. -/
theorem continuesName_of_mem_readName {characters : List Char} {character : Char}
    (present : character ∈ (readName characters).1) : continuesName character := by
  induction characters with
  | nil => cases present
  | cons first rest ih =>
    unfold readName at present
    split at present
    · next continues =>
      rcases List.mem_cons.mp present with rfl | later
      · simp only [Bool.or_eq_true, Bool.and_eq_true] at continues
        simp only [continuesName, Bool.or_eq_true]
        exact continues.imp id And.left
      · exact ih later
    · cases present

/-- A letter with letters and digits after it is a name. -/
theorem isAtom_name {first : Char} {rest : List Char} (starts : startsName first)
    (plain : ∀ character ∈ rest, isAlphanumeric character) :
    IsAtom ⟨.identifier, first :: rest⟩ where
  kind := List.mem_cons_self
  reads := by
    have inner : readName rest = (rest, []) := by
      clear starts
      induction rest with
      | nil => rfl
      | cons character rest ih =>
        obtain ⟨continues, plain⟩ := List.forall_mem_cons.mp plain
        rw [readName, if_pos (by simp [continues]), ih plain]
    have continues : (isAlphanumeric first || first == '$') = true := by
      simp only [startsName, isAlphanumeric, Bool.or_eq_true] at starts ⊢
      exact starts.imp Or.inl id
    change readFrom first rest = _
    rw [readFrom_eq_of_startsName starts, readName, if_pos (by rw [continues, Bool.true_or]), inner]

/-- A quotation mark closes a literal with no other one and no escape in it. -/
theorem readLiteral_of_names {name : List Char}
    (plain : ∀ character ∈ name, continuesName character) :
    readLiteral (name ++ ['"']) = ⟨name ++ ['"'], true, []⟩ := by
  induction name with
  | nil => rfl
  | cons character name ih =>
    obtain ⟨continues, plain⟩ := List.forall_mem_cons.mp plain
    have quote : character ≠ '"' := by
      rintro rfl
      simp [continuesName, plain_of_mem_marks '"' (by decide)] at continues
    have escape : character ≠ '\\' := by
      rintro rfl
      simp [continuesName, plain_of_mem_marks '\\' (by decide)] at continues
    rw [List.cons_append, readLiteral_cons quote escape, ih plain]

/-- A name in quotation marks is a string. -/
theorem isAtom_quoted {name : List Char} (plain : ∀ character ∈ name, continuesName character) :
    IsAtom ⟨.string, '"' :: (name ++ ['"'])⟩ where
  kind := List.mem_cons_of_mem _ (List.mem_cons_of_mem _ List.mem_cons_self)
  reads := by
    change readFrom '"' (name ++ ['"']) = _
    rw [readFrom_quote, readLiteral_of_names plain]
    rfl

/-- A character that a class of code points includes is in one of its ranges. -/
theorem exists_range_of_includes {ranges : Text.CodeRanges} {character : Char}
    (included : ranges.includes character) :
    ∃ range ∈ ranges, range.1 ≤ character.toNat ∧ character.toNat ≤ range.2 := by
  unfold Text.CodeRanges.includes at included
  induction ranges with
  | nil => cases included
  | cons range ranges ih =>
    unfold Text.CodeRanges.holds at included
    split at included
    · cases included
    split at included
    · next above below => exact ⟨range, List.mem_cons_self, by omega, below⟩
    · obtain ⟨found, present, within⟩ := ih included
      exact ⟨found, List.mem_cons_of_mem _ present, within⟩

/-- Whether the ranges hold a code point from `low` to `high`. -/
def meets (low high : Nat) : Text.CodeRanges → Bool
  | [] => false
  | range :: ranges => if range.2 < low then meets low high ranges else range.1 ≤ high

/-- Ranges that do not meet an interval hold no code point in it. -/
theorem holds_eq_false_of_meets {low high code : Nat} {ranges : Text.CodeRanges}
    (apart : meets low high ranges = false) (above : low ≤ code) (below : code ≤ high) :
    ranges.holds code = false := by
  induction ranges with
  | nil => rfl
  | cons range ranges ih =>
    unfold meets at apart
    unfold Text.CodeRanges.holds
    split
    · rfl
    · next reached =>
      split at apart
      · rw [if_neg (by omega)]
        exact ih apart
      · exact absurd (of_decide_eq_false apart) (by omega)

/-- Digits are no letters. -/
theorem startsName_eq_false_of_isDigit {character : Char} (digit : Text.isDigit character) :
    startsName character = false := by
  have apart : ∀ digits ∈ Text.digitRanges,
      meets digits.1 digits.2 Text.alphabeticRanges = false := by
    decide +kernel
  obtain ⟨digits, present, above, below⟩ := exists_range_of_includes digit
  refine Bool.or_eq_false_iff.mpr ⟨holds_eq_false_of_meets (apart digits present) above below, ?_⟩
  exact ne_of_isDigit digit (by decide +kernel)

/-- A run of digits is a number. -/
theorem isAtom_digits {digits : List Char} (some : digits ≠ [])
    (all : ∀ character ∈ digits, Text.isDigit character) : IsAtom ⟨.number, digits⟩ where
  kind := List.mem_cons_of_mem _ List.mem_cons_self
  reads := by
    obtain ⟨first, rest, rfl⟩ := List.exists_cons_of_ne_nil some
    have digit := all first List.mem_cons_self
    have taken : readDigits (first :: rest) = (first :: rest, []) := by
      exact Prod.ext (List.takeWhile_eq_self_iff.mpr all) (List.dropWhile_eq_nil_iff.mpr all)
    change readFrom first rest = _
    rw [readFrom_eq_of_startsNumber (startsName_eq_false_of_isDigit digit)
      (by rw [startsNumber, digit, Bool.true_or])]
    simp [readNumber, Reader.andThen, taken, readBase, readFraction, readPrecision, readExponent]

/-! ## Separators -/

/-- A lexeme of one delimiter, which is read as such whatever follows it. -/
structure IsSeparator (separator : Lexeme) : Prop where
  delimits : ∃ character ∈ delimiters, separator.characters = [character]
  reads : ∀ rest, read (separator.characters ++ rest) = (separator, rest)

/-- A text that goes on with a separator is delimited. -/
theorem IsSeparator.delimited {separator : Lexeme} (separates : separator.IsSeparator)
    (rest : List Char) : Delimited (separator.characters ++ rest) := by
  obtain ⟨character, delimits, spelled⟩ := separates.delimits
  rw [spelled]
  intro first same
  cases same
  exact delimits

theorem IsSeparator.characters_ne_nil {separator : Lexeme} (separates : separator.IsSeparator) :
    separator.characters ≠ [] := by
  obtain ⟨character, _, spelled⟩ := separates.delimits
  rw [spelled]
  exact List.cons_ne_nil _ _

/-- An operator of one character that begins no other operator is the longest one wherever it
stands. -/
theorem longestWithin_eq_of_alone {sign : Operator} {character : Char}
    (spelled : sign.spelling = [character])
    (alone : ∀ other : Operator, other.spelling.head? = some character → other = sign)
    (rest : List Char) (length : Nat) :
    Operator.longestWithin (character :: rest) (length + 1) = some sign := by
  induction length with
  | zero =>
    have found := Operator.ofSpelling?_spelling sign
    rw [spelled] at found
    simp [Operator.longestWithin, found]
  | succ length ih =>
    unfold Operator.longestWithin
    split
    · next operator found =>
      have same : operator.spelling = character :: rest.take (length + 1) := by
        simpa using List.find?_some found
      rw [alone operator (by rw [same]; rfl)]
    · exact ih

/-- The lexeme of an operator. -/
def sign (operator : Operator) : Lexeme := ⟨.operator operator, operator.spelling⟩

/-- Square brackets and commas separate the parts of a full form. -/
theorem isSeparator_sign {operator : Operator}
    (separates : operator ∈ [Operator.leftBracket, .rightBracket, .comma]) :
    (sign operator).IsSeparator := by
  obtain ⟨character, delimits, spelled, plain, mark, point, quote, hash, alone⟩ :
      ∃ character ∈ delimiters, operator.spelling = [character] ∧
        character ∉ [' ', '\t', '\x0c', '\n', '\r', '('] ∧
        character ∈ marks ∧ character ≠ '.' ∧ character ≠ '"' ∧ character ≠ '#' ∧
        ∀ other : Operator, other.spelling.head? = some character → other = operator := by
    simp only [List.mem_cons, List.not_mem_nil, or_false] at separates
    rcases separates with rfl | rfl | rfl
    all_goals
      refine ⟨_, ?_, rfl, by decide, by decide, by decide, by decide, by decide, fun other => ?_⟩
      · decide
      · cases other <;> decide
  obtain ⟨unnamed, _, digit⟩ := plain_of_mem_marks character mark
  refine ⟨⟨character, delimits, spelled⟩, fun rest => ?_⟩
  have found := longestWithin_eq_of_alone spelled alone rest 2
  rw [sign, spelled]
  change readFrom character rest = _
  rw [readFrom_eq_of_plain plain, if_neg (by simp [unnamed]),
    if_neg (by simp [startsNumber, digit, point]), if_neg quote, if_neg hash, Operator.longest?,
    Operator.longestSpelling, found]
  dsimp only
  rw [spelled]
  rfl

/-- The lexeme of a line feed. -/
def lineFeed : Lexeme := ⟨.lineBreak, ['\n']⟩

/-- A line feed separates lines. -/
theorem isSeparator_lineFeed : lineFeed.IsSeparator := ⟨⟨'\n', by decide, rfl⟩, fun _ => rfl⟩

end Lexeme

end WolframSyntax
