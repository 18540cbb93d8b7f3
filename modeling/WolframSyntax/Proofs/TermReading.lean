import WolframSyntax.Proofs.Comparing
import WolframSyntax.Proofs.Lossless
import WolframSyntax.Proofs.Terms

/-!
# Terms are read back

The tokens of a term are read as a tree that stands for the term, wherever an operand may stand and
whatever the precedences are (`Term.IsCanonical.readFrom`). Lines of terms are therefore read as a
file with these terms, one for each line (`exists_parseSource_eq_of_lines`).
-/

namespace WolframSyntax

open SyntaxTree

/-- The word of a token that nothing stands in front of. -/
def Token.word (token : Token) : Word := ⟨[], token⟩

namespace Word

variable {word : Word} {token : Token} {bracketed : Bool}

/-- An operator that goes on does so as the word of its token. -/
theorem link?_word_of_operator {sign : Operator} (kind : token.kind = .operator sign)
    {continuation : Continuation} (goesOn : Continuation.ofOperator? sign = some continuation) :
    token.word.link? bracketed = some (.sign sign continuation) :=
  link?_of_touches kind goesOn rfl bracketed

/-- An operator that neither begins nor continues an expression ends it. -/
theorem link?_of_separator {sign : Operator} (kind : word.token.kind = .operator sign)
    (ends : Continuation.ofOperator? sign = none) (unopened : Opening.ofOperator? sign = none)
    (bracketed : Bool) : word.link? bracketed = none := by
  simp [link?, opening?, kind, Continuation.ofKind?, ends, Opening.ofKind?, unopened]

/-- A word is the operator that its token is. -/
theorem isOperator_of_kind {sign : Operator} (kind : word.token.kind = .operator sign)
    (other : Operator) : word.isOperator other = (sign == other) := by
  rw [isOperator, kind, Bool.eq_iff_iff, beq_iff_eq, beq_iff_eq, TokenKind.operator.injEq]

end Word

@[simp] theorem Word.leaves_word (token : Token) :
    token.word.leaves = [SyntaxTree.leaf token] :=
  rfl

@[simp] theorem Frame.takeLead_word (frame : Frame) (token : Token) :
    frame.takeLead token.word = frame := by
  simp [Frame.takeLead, Word.leadLeaves, Token.word]

namespace Reading

variable {surroundings : Surroundings}

/-- Reading some words one after the other leads from one reading to another. -/
def Reads (surroundings : Surroundings) : Reading → List Word → Reading → Prop
  | before, [], after => before = after
  | before, word :: words, after =>
    ∃ next, before.read surroundings word = .reading next ∧ Reads surroundings next words after

/-- Words that are read one after the other are read as one list. -/
theorem Reads.append {before middle after : Reading} {words more : List Word}
    (reads : Reads surroundings before words middle)
    (readsAfter : Reads surroundings middle more after) :
    Reads surroundings before (words ++ more) after := by
  induction words generalizing before with
  | nil =>
    cases reads
    exact readsAfter
  | cons word words ih =>
    obtain ⟨next, progress, reads⟩ := reads
    exact ⟨next, progress, ih reads⟩

/-- One word leads to the reading it makes. -/
theorem Reads.single {before after : Reading} {word : Word}
    (progress : before.read surroundings word = .reading after) :
    Reads surroundings before [word] after := ⟨after, progress, rfl⟩

/-- An outcome that the word does not go on from settles as its construct reacts. -/
theorem settle_of_extend?_eq_none {frame : Frame} {frames : List Frame} {outcome : Outcome}
    {word : Word} {reading : Reading}
    (stays : extend? surroundings (frame :: frames) outcome.tree word = none)
    (reacts : ofReaction frames word
      (frame.receive (surroundings.isBracketed (frame :: frames)) outcome word) = .inl reading) :
    settle surroundings word (frame :: frames) outcome = .reading reading := by
  simp [settle, stays, reacts]

/-- A word that links nothing extends no operand. -/
theorem extend?_of_link?_eq_none {frames : List Frame} {left : SyntaxTree} {word : Word}
    (ends : ∀ bracketed, word.link? bracketed = none) :
    extend? surroundings frames left word = none := by
  simp [extend?, ends]

/-- Where an operand may begin, a word that begins an expression does so. -/
theorem read_of_opening? {frame : Frame} {frames : List Frame} {focus : Focus}
    (wants : focus.wantsOperand) {word : Word} {opening : Opening}
    (opens : word.opening? = some opening) :
    read surroundings ⟨frame :: frames, focus⟩ word
      = .reading (beginOperand frame frames opening word) := by
  have begins : readOperand surroundings (frame :: frames) word
      = .reading (beginOperand frame frames opening word) := by simp only [readOperand, opens]
  have firstItem : readFirstItem surroundings (frame :: frames) word
      = .reading (beginOperand frame frames opening word) := by
    obtain ⟨role, floor, children, succeeded⟩ := frame
    cases role with
    | items enclosure =>
      have further : word.isOperator enclosure.closing = false :=
        Word.isOperator_of_opening? opens (by cases enclosure <;> rfl)
      simp only [readFirstItem, further]
      exact begins
    | _ => exact begins
  cases focus with
  | operand => exact begins
  | firstItem => exact firstItem
  | arguments =>
    have inner : word.isOperator .leftBracket = false := Word.isOperator_of_opening? opens rfl
    simp only [read, readArguments, inner, Bool.false_and]
    exact firstItem
  | partEnd | statement | blankName | complete => cases wants

/-- Where an operand may begin, a token that is an atom is read as one. -/
theorem read_atom {frame : Frame} {frames : List Frame} {focus : Focus} (wants : focus.wantsOperand)
    {token : Token} {kind : NodeKind} (opens : Opening.ofKind? token.kind = some (.atom kind)) :
    read surroundings ⟨frame :: frames, focus⟩ token.word
      = .reading ⟨frame :: frames, .complete ⟨ofKind kind [leaf token], true⟩⟩ := by
  have opens : token.word.opening? = some (.atom kind) := opens
  rw [read_of_opening? wants opens, beginOperand, Frame.takeLead_word]
  rfl

/-- An opening bracket makes a complete expression the head of a call. -/
theorem read_openingBracket {frames : List Frame} {tree : SyntaxTree} {token : Token}
    (kind : token.kind = .operator .leftBracket) (weak : surroundings.floorOf frames ≤ 0) :
    read surroundings ⟨frames, .complete ⟨tree, true⟩⟩ token.word
      = .reading ⟨⟨.items .call, 0, [tree, leaf token], true⟩ :: frames, .arguments⟩ := by
  have strong := surroundings.grammar.precedence_pos .leftBracket
  have stronger : surroundings.floorOf frames < surroundings.grammar.precedence .leftBracket := by
    omega
  refine settle_of_extend? ?_
  rw [extend?, Word.link?_word_of_operator kind rfl]
  exact if_pos stronger

/-- A comma ends an argument and is followed by another one. -/
theorem settle_comma {frame : Frame} (call : frame.role = .items .call) (frames : List Frame)
    (outcome : Outcome) {word : Word} (kind : word.token.kind = .operator .comma) :
    settle surroundings word (frame :: frames) outcome
      = .reading ⟨(frame.add outcome).take word :: frames, .operand⟩ := by
  refine settle_of_extend?_eq_none
    (extend?_of_link?_eq_none (Word.link?_of_separator kind rfl rfl)) ?_
  simp [Frame.receive, call, Word.isOperator_of_kind kind, ofReaction]

/-- A closing bracket ends the last argument and the call. -/
theorem settle_closingBracket {frame : Frame} (call : frame.role = .items .call)
    (frames : List Frame) (outcome : Outcome) {word : Word}
    (kind : word.token.kind = .operator .rightBracket) :
    settle surroundings word (frame :: frames) outcome
      = .reading ⟨frames,
          .complete (((frame.add outcome).take word).outcome .functionCall)⟩ := by
  refine settle_of_extend?_eq_none
    (extend?_of_link?_eq_none (Word.link?_of_separator kind rfl rfl)) ?_
  simp [Frame.receive, call, Frame.closeItems, Frame.close, Enclosure.closing, Enclosure.kind,
    Word.isOperator_of_kind kind, ofReaction]

/-- A closing bracket right after the opening one ends a call without arguments. -/
theorem read_emptyBrackets {frame : Frame} (call : frame.role = .items .call)
    (frames : List Frame) {word : Word} (kind : word.token.kind = .operator .rightBracket) :
    read surroundings ⟨frame :: frames, .arguments⟩ word
      = .reading ⟨frames, .complete ((frame.take word).outcome .functionCall)⟩ := by
  obtain ⟨role, floor, children, succeeded⟩ := frame
  cases call
  simp [read, readArguments, readFirstItem, react, Frame.closeItems, Frame.close,
    Enclosure.closing, Enclosure.kind, Word.isOperator_of_kind kind, ofReaction]

end Reading

/-- A tree that stands for a term is no leaf. -/
theorem Tree.isLeaf_eq_false_of_term? {Label : Type} {tree : Tree Label} {term : Term}
    (stands : tree.term? = some term) : tree.isLeaf = false := by
  obtain ⟨label, content, children⟩ := tree
  unfold Tree.term? at stands
  change content.kind.isLeaf = false
  cases held : content.kind <;> first | rfl | (rw [held] at stands; cases stands)

namespace Term

/-- The first of some tokens begins an atom, from which the others lead to a tree that stands for a
term, wherever nothing holds the expression strongly. -/
def ReadFrom (term : Term) (tokens : List Token) : Prop :=
  ∃ first rest kind tree, tokens = first :: rest ∧
    Opening.ofKind? first.kind = some (.atom kind) ∧ Tree.term? tree = some term ∧
    ∀ surroundings : Surroundings, ∀ frames, surroundings.floorOf frames ≤ 0 →
      Reading.Reads surroundings ⟨frames, .complete ⟨ofKind kind [leaf first], true⟩⟩
        (rest.map Token.word) ⟨frames, .complete ⟨tree, true⟩⟩

/-- An atom is read from its own token. -/
theorem readFrom_atom {token : Token} (atom : token.lexeme.IsAtom) :
    (Term.atom token.lexeme).ReadFrom [token] := by
  obtain ⟨kind, opens, plain⟩ : ∃ kind, Opening.ofKind? token.kind = some (.atom kind) ∧
      kind.plainToken? = some token.kind := by
    have held : token.kind ∈ Lexeme.atomKinds := atom.kind
    simp only [Lexeme.atomKinds, List.mem_cons, List.not_mem_nil, or_false] at held
    rcases held with held | held | held <;> rw [held] <;> exact ⟨_, rfl, rfl⟩
  refine ⟨token, [], kind, ofKind kind [leaf token], rfl, opens, ?_, fun _ _ _ => rfl⟩
  have text : (ofKind kind [leaf token]).text = token.text := String.append_empty
  rw [ofKind, Tree.term?, plain]
  exact congrArg (fun text : String => some (Term.atom ⟨token.kind, text.toList⟩)) text

/-- The tokens of some arguments with commas between them are read up to the last argument. -/
theorem exists_reads_arguments {first : Term} {others : List Term} {tokens : List Token}
    (each : ∀ argument ∈ first :: others, ∀ tokens : List Token,
      tokens.map Token.lexeme = argument.lexemes → argument.ReadFrom tokens)
    (written : tokens.map Token.lexeme
      = List.intercalate [Lexeme.sign .comma] ((first :: others).map lexemes)) :
    ∃ more last, Tree.terms? (more ++ [last]) = some (first :: others) ∧
      ∀ (surroundings : Surroundings) (children : List SyntaxTree) (frames : List Frame)
        (focus : Focus), focus.wantsOperand →
        Reading.Reads surroundings ⟨⟨.items .call, 0, children, true⟩ :: frames, focus⟩
          (tokens.map Token.word)
          ⟨⟨.items .call, 0, children ++ more, true⟩ :: frames, .complete ⟨last, true⟩⟩ := by
  induction others generalizing first tokens with
  | nil =>
    rw [List.map_cons, List.map_nil, List.intercalate_singleton] at written
    obtain ⟨token, rest, kind, tree, rfl, opens, stands, reads⟩ :=
      each first List.mem_cons_self tokens written
    refine ⟨[], tree, Tree.terms?_cons (Tree.isLeaf_eq_false_of_term? stands) stands rfl, ?_⟩
    intro surroundings children frames focus wants
    rw [List.append_nil]
    exact ⟨_, Reading.read_atom wants opens, reads surroundings _ (Int.le_refl 0)⟩
  | cons next others ih =>
    obtain ⟨firstRead, othersRead⟩ := List.forall_mem_cons.mp each
    rw [List.map_cons, List.map_cons, List.intercalate_cons_cons, List.append_assoc,
      List.singleton_append] at written
    obtain ⟨firstTokens, later, rfl, firstWritten, laterWritten⟩ :=
      List.map_eq_append_iff.mp written
    obtain ⟨comma, otherTokens, rfl, isComma, othersWritten⟩ := List.map_eq_cons_iff.mp laterWritten
    obtain ⟨token, rest, kind, tree, rfl, opens, stands, reads⟩ := firstRead _ firstWritten
    obtain ⟨more, last, stand, readsOthers⟩ := ih othersRead othersWritten
    refine ⟨tree :: leaf comma :: more, last, ?_, ?_⟩
    · exact Tree.terms?_cons (Tree.isLeaf_eq_false_of_term? stands) stands
        ((Tree.terms?_cons_of_isLeaf (isLeaf_leaf comma) _).trans stand)
    · intro surroundings children frames focus wants
      have readsLater :=
        readsOthers surroundings (children ++ [tree] ++ [leaf comma]) frames .operand rfl
      have joined : children ++ [tree] ++ [leaf comma] ++ more
          = children ++ tree :: leaf comma :: more := by simp
      rw [joined] at readsLater
      rw [List.map_append]
      exact Reading.Reads.append
        ⟨_, Reading.read_atom wants opens, reads surroundings _ (Int.le_refl 0)⟩
        ⟨_, Reading.settle_comma rfl frames ⟨tree, true⟩ (congrArg Lexeme.kind isComma),
          readsLater⟩

/-- A call is read from the tokens of its head, brackets and arguments. -/
theorem readFrom_call {head : Term} {arguments : List Term} {tokens : List Token}
    (headRead : ∀ tokens : List Token, tokens.map Token.lexeme = head.lexemes →
      head.ReadFrom tokens)
    (each : ∀ argument ∈ arguments, ∀ tokens : List Token,
      tokens.map Token.lexeme = argument.lexemes → argument.ReadFrom tokens)
    (written : tokens.map Token.lexeme = (call head arguments).lexemes) :
    (call head arguments).ReadFrom tokens := by
  rw [lexemes_call] at written
  obtain ⟨headTokens, later, rfl, headWritten, laterWritten⟩ := List.map_eq_append_iff.mp written
  obtain ⟨opening, inner, rfl, isOpening, innerWritten⟩ := List.map_eq_cons_iff.mp laterWritten
  obtain ⟨argumentTokens, last, rfl, argumentsWritten, lastWritten⟩ :=
    List.map_eq_append_iff.mp innerWritten
  obtain ⟨closing, nothing, rfl, isClosing, nothingWritten⟩ := List.map_eq_cons_iff.mp lastWritten
  cases List.map_eq_nil_iff.mp nothingWritten
  obtain ⟨first, rest, kind, tree, rfl, opens, stands, reads⟩ := headRead _ headWritten
  have openingKind : opening.kind = .operator .leftBracket := congrArg Lexeme.kind isOpening
  have closingKind : closing.kind = .operator .rightBracket := congrArg Lexeme.kind isClosing
  have standsFor : ∀ children, Tree.terms? children = some arguments →
      Tree.term? (ofKind .functionCall (tree :: leaf opening :: children ++ [leaf closing]))
        = some (call head arguments) := by
    intro children stand
    have closed : Tree.terms? (children ++ [leaf closing]) = some arguments := by
      simpa using Tree.terms?_append stand
        (Tree.terms?_leaves (List.forall_mem_singleton.mpr (isLeaf_leaf closing)))
    have all := Tree.terms?_cons (Tree.isLeaf_eq_false_of_term? stands) stands
      ((Tree.terms?_cons_of_isLeaf (isLeaf_leaf opening) _).trans closed)
    rw [ofKind, Tree.term?]
    simp only [List.cons_append, all, NodeKind.plainToken?, if_true]
  cases arguments with
  | nil =>
    cases List.map_eq_nil_iff.mp argumentsWritten
    refine ⟨first, rest ++ [opening, closing], kind, _, by simp, opens, standsFor [] rfl, ?_⟩
    intro surroundings frames weak
    rw [List.map_append]
    exact (reads surroundings frames weak).append
      ⟨_, Reading.read_openingBracket openingKind weak,
        .single (Reading.read_emptyBrackets rfl frames closingKind)⟩
  | cons argument others =>
    obtain ⟨more, last, stand, readsArguments⟩ := exists_reads_arguments each argumentsWritten
    refine ⟨first, rest ++ opening :: (argumentTokens ++ [closing]), kind, _, by simp, opens,
      standsFor _ stand, ?_⟩
    intro surroundings frames weak
    have readsInner := readsArguments surroundings [tree, leaf opening] frames .arguments rfl
    rw [List.map_append, List.map_cons, List.map_append]
    refine (reads surroundings frames weak).append
      ⟨_, Reading.read_openingBracket openingKind weak, readsInner.append (.single ?_)⟩
    refine (Reading.settle_closingBracket rfl frames ⟨last, true⟩ closingKind).trans ?_
    simp [Frame.outcome, Frame.take, Frame.add]

/-- The tokens of a term are read as a tree that stands for the term. -/
theorem IsCanonical.readFrom {term : Term} (canonical : term.IsCanonical) {tokens : List Token}
    (written : tokens.map Token.lexeme = term.lexemes) : term.ReadFrom tokens := by
  induction canonical generalizing tokens with
  | atom isAtom =>
    rw [lexemes] at written
    obtain ⟨token, nothing, rfl, rfl, nothingWritten⟩ := List.map_eq_cons_iff.mp written
    cases List.map_eq_nil_iff.mp nothingWritten
    exact readFrom_atom isAtom
  | call headCanonical canonical headRead argumentsRead =>
    exact readFrom_call (fun _ => headRead)
      (fun argument present _ => argumentsRead argument present) written

/-- What is among lists joined by separators is a separator or in one of the lists. -/
theorem eq_or_mem_of_mem_intercalate {Element : Type} {lines : List (List Element)}
    {separator element : Element} (present : element ∈ List.intercalate [separator] lines) :
    element = separator ∨ ∃ line ∈ lines, element ∈ line := by
  induction lines with
  | nil => cases present
  | cons first lines ih =>
    cases lines with
    | nil => exact .inr ⟨first, List.mem_cons_self, by simpa using present⟩
    | cons next lines =>
      rw [List.intercalate_cons_cons, List.append_assoc, List.mem_append, List.singleton_append,
        List.mem_cons] at present
      rcases present with here | here | later
      · exact .inr ⟨first, List.mem_cons_self, here⟩
      · exact .inl here
      · exact (ih later).imp id fun ⟨line, held, inside⟩ =>
          ⟨line, List.mem_cons_of_mem _ held, inside⟩

/-- The lexemes of a term are neither trivia nor the end of a stream. -/
theorem IsCanonical.plain {term : Term} (canonical : term.IsCanonical) :
    ∀ lexeme ∈ term.lexemes, lexeme.kind.isTrivia = false ∧ lexeme.kind ≠ .endOfFile := by
  induction canonical with
  | @atom lexeme isAtom =>
    refine List.forall_mem_singleton.mpr ?_
    have held := isAtom.kind
    simp only [Lexeme.atomKinds, List.mem_cons, List.not_mem_nil, or_false] at held
    rcases held with held | held | held <;> rw [held] <;> decide
  | call headCanonical canonical headPlain argumentsPlain =>
    have sign : ∀ operator, (Lexeme.sign operator).kind.isTrivia = false ∧
        (Lexeme.sign operator).kind ≠ .endOfFile := fun _ => ⟨rfl, TokenKind.noConfusion⟩
    rw [lexemes_call]
    refine List.forall_mem_append.mpr ⟨headPlain, List.forall_mem_cons.mpr ⟨sign _, ?_⟩⟩
    refine List.forall_mem_append.mpr
      ⟨fun lexeme present => ?_, List.forall_mem_singleton.mpr (sign _)⟩
    rcases eq_or_mem_of_mem_intercalate present with rfl | ⟨lexemes, inside, present⟩
    · exact sign _
    · obtain ⟨argument, held, rfl⟩ := List.mem_map.mp inside
      exact argumentsPlain argument held lexeme present

end Term

/-- Tokens that are neither trivia nor the end of a stream are words of their own, apart from what
stands in front of the first one. -/
theorem WordStream.after_append {first : Token} {rest : List Token}
    (plain : ∀ token ∈ first :: rest, token.isTrivia = false ∧ token.isEnd = false)
    (lead more : List Token) :
    after lead (first :: rest ++ more)
      = ⟨⟨lead, first⟩ :: rest.map Token.word ++ (after [] more).words,
        (after [] more).ending⟩ := by
  induction rest generalizing first lead with
  | nil =>
    obtain ⟨visible, inner⟩ := plain first List.mem_cons_self
    rw [List.cons_append, after_of_plain visible inner]
    rfl
  | cons next rest ih =>
    obtain ⟨⟨visible, inner⟩, plain⟩ := List.forall_mem_cons.mp plain
    rw [List.cons_append, after_of_plain visible inner, ih plain]
    rfl

namespace FileReading

variable {grammar : Grammar}

/-- Words that lead from one reading to another do so inside a file. -/
theorem foldl_read_of_reads {children : List SyntaxTree} {before after : Reading}
    {words : List Word} (reads : Reading.Reads (surroundings grammar) before words after) :
    words.foldl (read grammar) ⟨children, some before⟩ = ⟨children, some after⟩ := by
  induction words generalizing before with
  | nil =>
    cases reads
    rfl
  | cons word words ih =>
    obtain ⟨next, progress, reads⟩ := reads
    rw [List.foldl_cons, ← ih reads, read]
    dsimp only
    rw [progress]

/-- An expression that stands alone is finished by a word that does not go on from it. -/
theorem read_finished {outcome : Outcome} {word : Word} (ends : word.link? false = none) :
    Reading.read (surroundings grammar) ⟨[], .complete outcome⟩ word
      = .finished (some outcome) := by
  change Reading.settle _ _ _ _ = _
  have stays : Reading.extend? (surroundings grammar) [] outcome.tree word = none := by
    have unbracketed : (surroundings grammar).isBracketed [] = false := rfl
    simp [Reading.extend?, unbracketed, ends]
  rw [Reading.settle, stays]

/-- An atom begins an expression behind its trivia. -/
theorem beginWith_of_atom {children : List SyntaxTree} {lead : List Token} {first : Token}
    {kind : NodeKind} (opens : Opening.ofKind? first.kind = some (.atom kind)) :
    beginWith children ⟨lead, first⟩
      = ⟨children ++ lead.map leaf,
          some ⟨[], .complete ⟨ofKind kind [leaf first], true⟩⟩⟩ := by
  have opens : Word.opening? ⟨lead, first⟩ = some (.atom kind) := opens
  simp only [beginWith, opens]
  rfl

/-- Tokens alone stand for no terms. -/
theorem terms?_map_leaf (tokens : List Token) : Tree.terms? (tokens.map leaf) = some [] := by
  refine Tree.terms?_leaves fun tree present => ?_
  obtain ⟨token, _, rfl⟩ := List.mem_map.mp present
  exact isLeaf_leaf token

/-- The tokens of a term are read as a tree that stands for the term, when the file begins a new
expression with the first of them. -/
theorem exists_foldl_read_term {term : Term} (canonical : term.IsCanonical) {done : List Term}
    {tokens lead : List Token} {children : List SyntaxTree} {file : FileReading}
    (written : tokens.map Token.lexeme = term.lexemes)
    (begins : ∀ token, file.read grammar ⟨lead, token⟩ = beginWith children ⟨lead, token⟩)
    (stand : Tree.terms? children = some done) :
    ∃ words before last, (∀ more, WordStream.after lead (tokens ++ more)
        = ⟨words ++ (WordStream.after [] more).words, (WordStream.after [] more).ending⟩) ∧
      words.foldl (read grammar) file = ⟨before, some ⟨[], .complete ⟨last, true⟩⟩⟩ ∧
      Tree.terms? (before ++ [last]) = some (done ++ [term]) := by
  have plain : ∀ token ∈ tokens, token.isTrivia = false ∧ token.isEnd = false := by
    intro token present
    have held := canonical.plain token.lexeme (written ▸ List.mem_map_of_mem present)
    exact ⟨held.1, beq_false_of_ne held.2⟩
  obtain ⟨token, rest, kind, tree, rfl, opens, stands, reads⟩ := canonical.readFrom written
  refine ⟨⟨lead, token⟩ :: rest.map Token.word, children ++ lead.map leaf, tree,
    WordStream.after_append plain lead, ?_, ?_⟩
  · rw [List.foldl_cons, begins, beginWith_of_atom opens]
    exact foldl_read_of_reads (reads _ [] (Int.le_refl 0))
  · refine Tree.terms?_append ?_
      (Tree.terms?_cons (Tree.isLeaf_eq_false_of_term? stands) stands rfl)
    simpa using Tree.terms?_append stand (terms?_map_leaf lead)

/-- The tokens of lines of terms are read as trees that stand for the terms. -/
theorem exists_foldl_read_lines {first : Term} {others done : List Term} {tokens lead : List Token}
    {children : List SyntaxTree} {file : FileReading}
    (canonical : ∀ term ∈ first :: others, term.IsCanonical)
    (written : tokens.map Token.lexeme
      = List.intercalate [Lexeme.lineFeed] ((first :: others).map Term.lexemes))
    (begins : ∀ token, file.read grammar ⟨lead, token⟩ = beginWith children ⟨lead, token⟩)
    (stand : Tree.terms? children = some done) :
    ∃ words before last, (∀ more, WordStream.after lead (tokens ++ more)
        = ⟨words ++ (WordStream.after [] more).words, (WordStream.after [] more).ending⟩) ∧
      words.foldl (read grammar) file = ⟨before, some ⟨[], .complete ⟨last, true⟩⟩⟩ ∧
      Tree.terms? (before ++ [last]) = some (done ++ first :: others) := by
  induction others generalizing first done tokens lead children file with
  | nil =>
    rw [List.map_cons, List.map_nil, List.intercalate_singleton] at written
    exact exists_foldl_read_term (canonical first List.mem_cons_self) written begins stand
  | cons next others ih =>
    obtain ⟨firstCanonical, canonical⟩ := List.forall_mem_cons.mp canonical
    rw [List.map_cons, List.map_cons, List.intercalate_cons_cons, List.append_assoc,
      List.singleton_append] at written
    obtain ⟨firstTokens, later, rfl, firstWritten, laterWritten⟩ :=
      List.map_eq_append_iff.mp written
    obtain ⟨feed, otherTokens, rfl, isFeed, othersWritten⟩ := List.map_eq_cons_iff.mp laterWritten
    obtain ⟨words, before, last, stream, run, stand⟩ :=
      exists_foldl_read_term firstCanonical firstWritten begins stand
    have feedKind : feed.kind = .lineBreak := congrArg Lexeme.kind isFeed
    have feedTrivia : feed.isTrivia = true := by rw [Token.isTrivia, feedKind]; rfl
    -- The line feed finishes the first line, and the second one begins after it.
    have beginsNext : ∀ token,
        read grammar ⟨before, some ⟨[], .complete ⟨last, true⟩⟩⟩ ⟨[feed], token⟩
          = beginWith (before ++ [last]) ⟨[feed], token⟩ := by
      intro token
      have ends : Word.link? false ⟨[feed], token⟩ = none := by
        simp [Word.link?, Word.beginsLine, feedKind]
      rw [read]
      dsimp only
      rw [read_finished ends]
      rfl
    obtain ⟨moreWords, beforeLast, lastOfAll, streamAfter, runAfter, standAfter⟩ :=
      ih canonical othersWritten beginsNext stand
    refine ⟨words ++ moreWords, beforeLast, lastOfAll, fun more => ?_, ?_, ?_⟩
    · rw [List.append_assoc, stream, List.cons_append, WordStream.after_of_isTrivia feedTrivia,
        List.nil_append, streamAfter, List.append_assoc]
    · rw [List.foldl_append, run, runAfter]
    · rw [standAfter, List.append_assoc]
      rfl

end FileReading

/-- The text with one line for each term. -/
def Term.lines (terms : List Term) : String := String.intercalate "\n" (terms.map Term.text)

/-- The text with one line for each term has the lexemes of the terms. -/
theorem exists_tokenize_lines {terms : List Term} (canonical : ∀ term ∈ terms, term.IsCanonical) :
    ∃ tokens final, tokenize (Term.lines terms) = tokens ++ [final] ∧ final.isEnd ∧
      tokens.map Token.lexeme = List.intercalate [Lexeme.lineFeed] (terms.map Term.lexemes) := by
  have text : (Term.lines terms).toList
      = Lexeme.spelled (List.intercalate [Lexeme.lineFeed] (terms.map Term.lexemes)) ++ [] := by
    rw [Term.spelled_intercalate _ fun term present => Term.toList_text (canonical term present),
      Term.lines, String.toList_intercalate, List.append_nil]
    rfl
  have nothing : Lexeme.Delimited [] := fun _ none => by cases none
  obtain ⟨tokens, after, same, written⟩ := exists_tokensFrom_eq_append
    (Term.readBefore_intercalate Lexeme.isSeparator_lineFeed
      (fun term present _ => (canonical term present).readBefore) nothing) Position.start
  refine ⟨tokens, (Lexeme.read []).1.token after, ?_, rfl, written⟩
  rw [tokenize, text, same, tokensFrom]

/-- The text with one line for each term is read as a file whose expressions stand for the terms,
whatever the precedences are. -/
theorem exists_parseSource_lines (grammar : Grammar) {terms : List Term}
    (canonical : ∀ term ∈ terms, term.IsCanonical) :
    ∃ children, parseSource grammar (Term.lines terms) = ofKind .file children ∧
      Tree.terms? children = some terms := by
  obtain ⟨tokens, final, same, ends, written⟩ := exists_tokenize_lines canonical
  have parsed := parseTokens_tokenize grammar (Term.lines terms)
  rw [same] at parsed
  suffices found : ∃ children,
      parseTokens grammar (tokens ++ [final]) = .ok (ofKind .file children) ∧
        Tree.terms? children = some terms by
    obtain ⟨children, parsedSo, stand⟩ := found
    rw [parsed] at parsedSo
    exact ⟨children, Except.ok.inj parsedSo, stand⟩
  have ending : WordStream.after [] [final] = ⟨[], some (⟨[], final⟩, [])⟩ :=
    WordStream.after_of_isEnd ends [] []
  cases terms with
  | nil =>
    cases List.map_eq_nil_iff.mp written
    refine ⟨[], ?_, rfl⟩
    rw [parseTokens, WordStream.ofTokens, List.nil_append, ending]
    rfl
  | cons first others =>
    have begins : ∀ token, FileReading.empty.read grammar ⟨[], token⟩
        = FileReading.beginWith [] ⟨[], token⟩ := fun _ => rfl
    have none : Tree.terms? ([] : List SyntaxTree) = some [] := rfl
    obtain ⟨words, before, last, stream, run, stand⟩ :=
      FileReading.exists_foldl_read_lines canonical written begins none
    refine ⟨before ++ [last], ?_, stand⟩
    have finished :
        FileReading.finish grammar ⟨before, some ⟨[], .complete ⟨last, true⟩⟩⟩ ⟨[], final⟩
          = before ++ [last] := by
      rw [FileReading.finish]
      dsimp only
      rw [FileReading.read_finished ((Word.isForeign_of_isEnd ends).link?_eq_none false)]
      rfl
    rw [parseTokens, WordStream.ofTokens, stream, ending]
    dsimp only
    rw [FileReading.tree, List.append_nil, run, finished]
    simp [Word.leadLeaves]

end WolframSyntax
