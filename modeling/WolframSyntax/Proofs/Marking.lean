import WolframSyntax.Production.Parser
import WolframSyntax.Proofs.Assembling
import WolframSyntax.Proofs.Streams

/-!
# Constructs as marks

What the marks of a construct are while a production grows, and what they become. A construct that
is not complete is an open mark (`Production.Unfinished`), and one that is complete a closed one
(`Production.Finished`). Both are said of a production in terms of an earlier one, `since`, from
which the construct was begun: the record has grown by the entries of the construct, and the entries
assemble to its children (`Production.Yields`) on every stack, and in every later production in
which the marks of the construct have kept what they were (`Production.Keeps`).

So an operand of a construct can be completed without regard to the construct around it
(`Unfinished.operand`), a mark can be put around a construct that is complete (`Finished.wrapped`)
or around what is in it, when its own is dropped (`Finished.wrapped_drop`), and when the root is
closed last the whole record assembles to one tree (`Unfinished.build`).
-/

namespace WolframSyntax

/-- What a mark keeps while constructs are put around it: its start, and all but its chain once it
has been closed. -/
structure Mark.Stays (before after : Mark) : Prop where
  start : after.start = before.start
  closed : before.stop.isSome → after.stop = before.stop ∧ after.kind = before.kind ∧
    after.message = before.message ∧ after.position = before.position ∧
    after.dropped = before.dropped

theorem Mark.Stays.refl (mark : Mark) : mark.Stays mark :=
  ⟨rfl, fun _ => ⟨rfl, rfl, rfl, rfl, rfl⟩⟩

/-- What a mark keeps early and late it keeps altogether. -/
theorem Mark.Stays.trans {first second third : Mark} (early : first.Stays second)
    (late : second.Stays third) : first.Stays third := by
  refine ⟨late.start.trans early.start, fun closed => ?_⟩
  obtain ⟨stop, kind, message, position, dropped⟩ := early.closed closed
  obtain ⟨stop', kind', message', position', dropped'⟩ := late.closed (stop ▸ closed)
  exact ⟨stop'.trans stop, kind'.trans kind, message'.trans message, position'.trans position,
    dropped'.trans dropped⟩

/-- A mark that is open and says nothing yet. -/
structure Mark.IsOpen (mark : Mark) (start : Nat) (anchor : MarkId) : Prop where
  start : mark.start = start
  stop : mark.stop = none
  message : mark.message = none
  position : mark.position = none
  dropped : mark.dropped = false
  anchor : mark.anchor = anchor

namespace Production

/-! ## The words to come -/

/-- The words behind the last token that has been read. -/
def stream (production : Production) : WordStream :=
  WordStream.ofTokens (production.tokens.drop production.lastEnd)

/-- The words to come, the end word included. -/
def words (production : Production) : List Word :=
  production.stream.words ++ (production.stream.ending.map Prod.fst).toList

/-- The token in view is the first one behind the last token read that is no trivia. -/
def IsPlaced (production : Production) : Prop :=
  production.index
    = production.lastEnd + triviaCount (production.tokens.drop production.lastEnd)

/-- A word is in view, and some tokens stand behind it. -/
structure Views (production : Production) (word : Word) (more : List Token) : Prop where
  tokens : production.tokens.drop production.lastEnd = word.lead ++ word.token :: more
  trivia : ∀ token ∈ word.lead, token.isTrivia
  plain : word.token.isTrivia = false
  index : production.index = production.lastEnd + word.lead.length

/-- The production after the token in view has been read. -/
def read (production : Production) : Production :=
  let read := production.index + 1
  { production with
    lastEnd := read
    index := read + triviaCount (production.tokens.drop read) }

/-- The leaves for the tokens between two places. -/
def leavesBetween (tokens : List Token) (first last : Nat) : List SyntaxTree :=
  (((tokens.take last).drop first).filter fun token => !token.isEnd).map SyntaxTree.leaf

variable {production : Production} {word : Word} {words : List Word} {more : List Token}

/-- At the beginning the first token that is no trivia is in view. -/
theorem isPlaced_ofTokens (tokens : List Token) : (ofTokens tokens).IsPlaced :=
  (Nat.zero_add _).symm

theorem isPlaced_read : production.read.IsPlaced := rfl

/-- What is in view: nothing, if only trivia are left, or a word. -/
theorem IsPlaced.views (placed : production.IsPlaced) :
    (production.stream = ⟨[], none⟩ ∧ production.tokens[production.index]? = none) ∨
      ∃ word more, production.Views word more := by
  have whole : (production.tokens.drop production.lastEnd).takeWhile Token.isTrivia
      ++ (production.tokens.drop production.lastEnd).dropWhile Token.isTrivia
        = production.tokens.drop production.lastEnd := List.takeWhile_append_dropWhile
  have trivia : ∀ token ∈ (production.tokens.drop production.lastEnd).takeWhile Token.isTrivia,
      token.isTrivia := List.all_eq_true.mp List.all_takeWhile
  cases behind : (production.tokens.drop production.lastEnd).dropWhile Token.isTrivia with
  | nil =>
    rw [behind, List.append_nil] at whole
    refine .inl ⟨?_, ?_⟩
    · rw [stream, WordStream.ofTokens, ← whole, ← List.append_nil (List.takeWhile _ _),
        WordStream.after_append_of_isTrivia trivia]
      rfl
    · rw [placed, triviaCount, whole]
      exact List.getElem?_eq_none (by rw [List.length_drop]; omega)
  | cons token more =>
    refine .inr ⟨⟨_, token⟩, more, ?_, trivia, ?_, placed⟩
    · rw [← behind]
      exact whole.symm
    · have first := List.head_dropWhile_not Token.isTrivia
        (behind ▸ List.cons_ne_nil token more)
      simpa [behind] using first

namespace Views

variable (views : production.Views word more)

include views

/-- The words to come begin with the word in view. -/
theorem stream_eq : production.stream = WordStream.after word.lead (word.token :: more) := by
  rw [stream, WordStream.ofTokens, views.tokens,
    WordStream.after_append_of_isTrivia views.trivia, List.nil_append]

/-- If the end is in view, no other word is to come. -/
theorem stream_of_isEnd (ends : word.token.isEnd) :
    production.stream = ⟨[], some (word, more)⟩ := by
  rw [views.stream_eq, WordStream.after_of_isEnd ends]

/-- Behind a word in view that is not the end, the words of the other tokens are to come. -/
theorem stream_of_inner (inner : word.token.isEnd = false) :
    production.stream = { WordStream.ofTokens more with
      words := word :: (WordStream.ofTokens more).words } := by
  rw [views.stream_eq, WordStream.after_of_plain views.plain inner]
  rfl

/-- The token in view is that of the word in view. -/
theorem token_eq : production.token = .ok word.token := by
  have found : production.tokens[production.index]? = some word.token := by
    rw [views.index, ← List.getElem?_drop, views.tokens, List.getElem?_append_right (Nat.le_refl _),
      Nat.sub_self]
    rfl
  rw [token, found]

/-- When the word in view has been read, the tokens behind it are left. -/
theorem drop_read : production.tokens.drop production.read.lastEnd = more := by
  change production.tokens.drop (production.index + 1) = more
  rw [views.index, Nat.add_assoc, ← List.drop_drop, views.tokens, List.drop_append]
  simp

/-- When the word in view has been read, the words of the tokens behind it are to come. -/
theorem stream_read : production.read.stream = WordStream.ofTokens more := by
  rw [stream]
  exact congrArg _ views.drop_read

/-- There is trivia in front of the token in view just if the word does not touch. -/
theorem blankBefore_eq : production.blankBefore = !word.touches := by
  rw [blankBefore, views.index, Word.touches]
  cases word.lead <;> simp

/-- Between the last token read and the one in view stands the trivia of the word. -/
theorem take_index :
    (production.tokens.take production.index).drop production.lastEnd = word.lead := by
  rw [views.index, ← List.take_drop, views.tokens, List.take_left]

/-- A line ends in front of the token in view just if the word begins a line. -/
theorem lineEndBefore_eq : production.lineEndBefore = word.beginsLine := by
  rw [lineEndBefore, views.take_index, Word.beginsLine]

/-- Any token but the end token can be read. -/
theorem advance_eq (inner : word.token.isEnd = false) :
    production.advance = .ok production.read := by
  rw [advance, views.token_eq]
  change (if word.token.isEnd then _ else _ : Except ProductionError Production) = _
  rw [inner]
  rfl

/-- The words to come are the word in view and those behind it. -/
theorem words_eq (inner : word.token.isEnd = false) :
    production.words = word :: production.read.words ∧
      production.read.stream.ending = production.stream.ending := by
  unfold Production.words
  rw [views.stream_of_inner inner, views.stream_read]
  exact ⟨rfl, rfl⟩

/-- If the end is in view, it is the only word to come. -/
theorem words_of_isEnd (ends : word.token.isEnd) : production.words = [word] := by
  rw [Production.words, views.stream_of_isEnd ends]
  rfl

/-- The word in view is the first of the words to come. -/
theorem exists_words : ∃ rest, production.words = word :: rest := by
  cases ends : word.token.isEnd with
  | true => exact ⟨[], views.words_of_isEnd ends⟩
  | false => exact ⟨_, (views.words_eq ends).1⟩

/-- When the word in view has been read, those behind it are to come. -/
theorem words_read {rest : List Word} (words : production.words = word :: rest)
    (inner : word.token.isEnd = false) : production.read.words = rest :=
  (List.cons.inj ((views.words_eq inner).1.symm.trans words)).2

end Views

/-- Marks do not change which word is in view. -/
theorem Views.of_eq {later : Production} (views : production.Views word more)
    (tokens : later.tokens = production.tokens) (lastEnd : later.lastEnd = production.lastEnd)
    (index : later.index = production.index) :
    later.Views word more :=
  ⟨by rw [tokens, lastEnd, views.tokens], views.trivia, views.plain,
    by rw [index, lastEnd, views.index]⟩

/-- The first of the words to come is in view. -/
theorem IsPlaced.exists_views {rest : List Word} (placed : production.IsPlaced)
    (words : production.words = word :: rest) : ∃ more, production.Views word more := by
  rcases placed.views with ⟨stream, -⟩ | ⟨first, more, views⟩
  · rw [Production.words, stream] at words
    cases words
  · obtain ⟨_, same⟩ := views.exists_words
    obtain rfl := (List.cons.inj (same.symm.trans words)).1
    exact ⟨more, views⟩

theorem leavesBetween_self (tokens : List Token) (place : Nat) :
    leavesBetween tokens place place = [] := by
  simp [leavesBetween]

/-- The leaves of two stretches of tokens, one behind the other, are those of both together. -/
theorem leavesBetween_append (tokens : List Token) {first middle last : Nat}
    (early : first ≤ middle) (late : middle ≤ last) :
    leavesBetween tokens first middle ++ leavesBetween tokens middle last
      = leavesBetween tokens first last := by
  have parts : (tokens.take last).drop first
      = (tokens.take middle).drop first ++ (tokens.take last).drop middle := by
    rw [List.drop_take, List.drop_take, List.drop_take, ← Nat.add_sub_cancel' early,
      ← List.drop_drop, Nat.add_sub_cancel' early, ← List.take_add]
    congr 1
    omega
  rw [leavesBetween, leavesBetween, leavesBetween, parts, List.filter_append, List.map_append]

/-- The leaves in front of the token in view are those of the trivia of the word. -/
theorem Views.leavesBetween_lead (views : production.Views word more) :
    leavesBetween production.tokens production.lastEnd production.index = word.leadLeaves := by
  rw [leavesBetween, views.take_index, WordStream.filter_of_trivia views.trivia, Word.leadLeaves]

/-- The leaf that reading adds is that of the word in view. -/
theorem Views.leavesBetween_token (views : production.Views word more)
    (inner : word.token.isEnd = false) :
    leavesBetween production.tokens production.index production.read.lastEnd = [word.leaf] := by
  have behind : production.tokens.drop production.index = word.token :: more := by
    rw [views.index, ← List.drop_drop, views.tokens, List.drop_left]
  rw [leavesBetween, List.drop_take, behind]
  change ((word.token :: more).take (production.index + 1 - production.index)
    |>.filter _).map SyntaxTree.leaf = _
  rw [Nat.add_sub_cancel_left]
  simp [inner, Word.leaf]

/-! ## What is kept of marks -/

/-- What a later production keeps of the marks from a base on. Only the chain of the base may
grow. -/
structure Keeps (base : MarkId) (production later : Production) : Prop where
  tokens : later.tokens = production.tokens
  marks : ∀ (id : MarkId) (mark : Mark), base ≤ id → production.marks[id]? = some mark →
    ∃ after : Mark, later.marks[id]? = some after ∧ mark.Stays after ∧
      (base < id → after.chain = mark.chain)

variable {base id : MarkId} {later last : Production} {change : Mark → Mark}

theorem Keeps.refl (base : MarkId) (production : Production) : Keeps base production production :=
  ⟨rfl, fun _ mark _ found => ⟨mark, found, .refl mark, fun _ => rfl⟩⟩

/-- Marks that are kept early and late are kept altogether. -/
theorem Keeps.trans (early : Keeps base production later) (late : Keeps base later last) :
    Keeps base production last := by
  refine ⟨late.tokens.trans early.tokens, fun id mark behind found => ?_⟩
  obtain ⟨middle, found, stays, chain⟩ := early.marks id mark behind found
  obtain ⟨after, found, stays', chain'⟩ := late.marks id middle behind found
  exact ⟨after, found, stays.trans stays', fun less => (chain' less).trans (chain less)⟩

/-- What is kept from one base on is kept from any mark behind it on. -/
theorem Keeps.mono {other : MarkId} (keeps : Keeps base production later) (behind : base ≤ other) :
    Keeps other production later :=
  ⟨keeps.tokens, fun id mark less found => by
    obtain ⟨after, found, stays, chain⟩ := keeps.marks id mark (Nat.le_trans behind less) found
    exact ⟨after, found, stays, fun less => chain (Nat.lt_of_le_of_lt behind less)⟩⟩

/-- Marks that were there before are found where they were. -/
theorem getElem?_of_isPrefix {mark : Mark} (grown : production.marks <+: later.marks)
    (found : production.marks[id]? = some mark) : later.marks[id]? = some mark := by
  obtain ⟨inside, _⟩ := List.getElem?_eq_some_iff.mp found
  obtain ⟨more, same⟩ := grown
  rw [← same, List.getElem?_append_left inside, found]

/-- New marks leave all others as they are. -/
theorem keeps_of_isPrefix (same : later.tokens = production.tokens)
    (grown : production.marks <+: later.marks) (base : MarkId) : Keeps base production later :=
  ⟨same, fun _ mark _ found => ⟨mark, getElem?_of_isPrefix grown found, .refl mark, fun _ => rfl⟩⟩

/-- A mark that was open may change where it does not say where it starts. -/
theorem Keeps.update (keeps : Keeps base production later)
    (open' : ∀ mark, production.marks[id]? = some mark → mark.stop = none)
    (start : ∀ mark, (change mark).start = mark.start)
    (chain : ∀ mark, (change mark).chain = mark.chain) :
    Keeps base production (later.update id change) := by
  refine ⟨keeps.tokens, fun other mark behind found => ?_⟩
  obtain ⟨after, held, stays, same⟩ := keeps.marks other mark behind found
  refine ⟨_, getElem?_update held, ?_⟩
  split
  · next is =>
    subst is
    refine ⟨⟨(start after).trans stays.start, fun closed => ?_⟩,
      fun less => (chain after).trans (same less)⟩
    rw [open' mark found] at closed
    cases closed
  · exact ⟨stays, same⟩

/-- An entry of the record changes no mark. -/
theorem Keeps.note (keeps : Keeps base production later) (event : ProductionEvent) :
    Keeps base production (later.note event) :=
  ⟨keeps.tokens, keeps.marks⟩

/-- A further mark, and a longer chain of the base. -/
theorem Keeps.add (keeps : Keeps base production later) (new : Mark) :
    Keeps base production (later.add new).1 := by
  refine ⟨keeps.tokens, fun other mark behind found => ?_⟩
  obtain ⟨after, held, stays, same⟩ := keeps.marks other mark behind found
  exact ⟨after, getElem?_add held, stays, same⟩

/-- The chain of the base may grow. -/
theorem Keeps.wrap (keeps : Keeps base production later) (wrap : List MarkId → List MarkId) :
    Keeps base production
      (later.update base fun anchor => { anchor with chain := wrap anchor.chain }) := by
  refine ⟨keeps.tokens, fun other mark behind found => ?_⟩
  obtain ⟨after, held, stays, same⟩ := keeps.marks other mark behind found
  refine ⟨_, getElem?_update held, ?_⟩
  split
  · next is =>
    subst is
    exact ⟨⟨stays.start, stays.closed⟩, fun less => absurd less (Nat.lt_irrefl _)⟩
  · exact ⟨stays, same⟩

/-! ## Unfinished constructs -/

/-- Entries of the record yield trees, from one place in the token list to another: of any open
marks, with those of `wrappers` in front that have not been dropped, they leave the innermost of
the others with the trees. -/
def Yields (production : Production) (base : MarkId) (entries : List ProductionEvent)
    (wrappers : List MarkId) (place next : Nat) (trees : List SyntaxTree) : Prop :=
  ∀ later, Keeps base production later → ∀ top children outer root,
    entries.foldlM later.assemble
        ⟨place, (wrappers.filter later.stands).map (fun id => (id, [])) ++ (top, children) :: outer,
          root⟩
      = .ok ⟨next, (top, children ++ trees) :: outer, root⟩

/-- A construct is being parsed: since then, the record has one entry that opens a mark, and
whatever it holds behind that yields the children of the construct. The mark of the construct is the
outermost one in the chain of that mark. -/
structure Unfinished (since production : Production) (place : Nat) (id : MarkId)
    (children : List SyntaxTree) : Prop where
  placed : production.IsPlaced
  tokens : production.tokens = since.tokens
  grown : since.marks <+: production.marks
  behind : since.marks.length ≤ id
  mark : ∃ mark : Mark, production.marks[id]? = some mark ∧
    mark.IsOpen since.index since.marks.length
  yields : ∃ entries wrappers next trees,
    production.record = entries.reverse ++ .opened since.marks.length :: since.record ∧
    (∃ anchor : Mark, production.marks[since.marks.length]? = some anchor ∧
      anchor.start = since.index ∧ anchor.chain = wrappers ++ [id]) ∧
    (∀ wrapper ∈ wrappers, wrapper < id) ∧
    place ≤ next ∧ next ≤ production.lastEnd ∧
    children = trees ++ leavesBetween production.tokens next production.lastEnd ∧
    production.Yields since.marks.length entries wrappers place next trees

/-- The production with a mark closed behind the last token read. -/
def shut (production : Production) (id : MarkId) (kind : NodeKind) (message : Option String) :
    Production :=
  (production.update id fun mark =>
    { mark with stop := some production.lastEnd, kind := some kind, message := message }).note
      (.closed id)

/-- A construct has been parsed since then, and nothing behind it. -/
def Finished (since production : Production) (id : MarkId) (tree : SyntaxTree) : Prop :=
  ∃ before kind message, Unfinished since before since.index id tree.children ∧
    production = before.shut id kind message ∧
    tree = .node () ⟨kind, none, message, none⟩ tree.children

/-! ### Entries -/

/-- Marks that are opened one by one are open around one another. -/
theorem openAll_reverse (ids : List MarkId) (place : Nat) (stack : List (MarkId × List SyntaxTree))
    (root : Option SyntaxTree) :
    Assembly.openAll ids.reverse ⟨place, stack, root⟩
      = ⟨place, ids.map (fun id => (id, [])) ++ stack, root⟩ := by
  rw [Assembly.openAll, List.foldl_reverse]
  congr 1
  induction ids with
  | nil => rfl
  | cons id ids ih => rw [List.foldr_cons, ih]; rfl

/-- Flushing gives the innermost open mark the leaves up to a place. -/
theorem flush_cons (tokens : List Token) (place stop : Nat) (id : MarkId)
    (children : List SyntaxTree) (outer : List (MarkId × List SyntaxTree))
    (root : Option SyntaxTree) :
    Assembly.flush tokens stop ⟨place, (id, children) :: outer, root⟩
      = ⟨max place stop, (id, children ++ leavesBetween tokens place stop) :: outer, root⟩ := rfl

/-- The innermost mark is closed. -/
theorem assemble_closed {mark : Mark} (found : later.marks[id]? = some mark)
    (stands : mark.dropped = false) {stop : Nat} (closed : mark.stop = some stop) {kind : NodeKind}
    (kinded : mark.kind = some kind) (place : Nat) (children : List SyntaxTree)
    (outer : List (MarkId × List SyntaxTree)) (root : Option SyntaxTree) :
    later.assemble ⟨place, (id, children) :: outer, root⟩ (.closed id)
      = .ok (Assembly.close ⟨kind, none, mark.message, mark.position⟩
          ⟨max place stop, (id, children ++ leavesBetween later.tokens place stop) :: outer,
            root⟩) := by
  simp only [assemble, mark?, found, bind, Except.bind, stands, closed, kinded, Bool.false_eq_true,
    if_false, if_true, flush_cons]
  rfl

/-- A mark stands in a tree unless it has been dropped. -/
theorem stands_of_getElem? {mark : Mark} (found : production.marks[id]? = some mark) :
    production.stands id = !mark.dropped := by
  rw [stands, found]
  rfl

/-! ### Beginning and going on -/

variable {since : Production} {place : Nat} {children : List SyntaxTree} {tree : SyntaxTree}

/-- A mark in front of a token, which is then read, begins a construct. -/
theorem unfinished_mark (views : production.Views word more) (inner : word.token.isEnd = false) :
    Unfinished production production.mark.1.read production.index production.mark.2
      [word.leaf] where
  placed := isPlaced_read
  tokens := rfl
  grown := List.prefix_append _ _
  behind := Nat.le_refl _
  mark := ⟨_, List.getElem?_concat_length, rfl, rfl, rfl, rfl, rfl, rfl⟩
  yields := by
    refine ⟨[], [], production.index, [], rfl, ⟨_, List.getElem?_concat_length, rfl, rfl⟩,
      List.forall_mem_nil _, Nat.le_refl _, Nat.le_succ _, ?_,
      fun later _ top children outer root => ?_⟩
    · exact (views.leavesBetween_token inner).symm
    · rw [List.append_nil]
      rfl

/-- The first mark of a production begins the file. -/
theorem unfinished_root (tokens : List Token) :
    Unfinished (ofTokens tokens) (ofTokens tokens).mark.1 0 0 [] where
  placed := isPlaced_ofTokens tokens
  tokens := rfl
  grown := List.nil_prefix
  behind := Nat.le_refl _
  mark := ⟨_, rfl, rfl, rfl, rfl, rfl, rfl, rfl⟩
  yields := by
    refine ⟨[], [], 0, [], rfl, ⟨_, rfl, rfl, rfl⟩, List.forall_mem_nil _, Nat.le_refl _,
      Nat.le_refl _, ?_, fun later _ top children outer root => ?_⟩
    · exact (leavesBetween_self tokens 0).symm
    · rw [List.append_nil]
      rfl

/-- A word that is read becomes leaves of the construct. -/
theorem Unfinished.read (unfinished : Unfinished since production place id children)
    (views : production.Views word more) (inner : word.token.isEnd = false) :
    Unfinished since production.read place id (children ++ word.leaves) where
  placed := isPlaced_read
  tokens := unfinished.tokens
  grown := unfinished.grown
  behind := unfinished.behind
  mark := unfinished.mark
  yields := by
    obtain ⟨entries, wrappers, next, trees, record, anchor, inside, early, late, rfl, yields⟩ :=
      unfinished.yields
    have ahead : production.lastEnd ≤ production.index := views.index ▸ Nat.le_add_right _ _
    have further : production.index ≤ production.read.lastEnd := Nat.le_succ _
    have beyond := Nat.le_trans ahead further
    refine ⟨entries, wrappers, next, trees, record, anchor, inside, early,
      Nat.le_trans late beyond, ?_, fun later keeps => yields later ⟨keeps.tokens, keeps.marks⟩⟩
    rw [List.append_assoc, Word.leaves, ← views.leavesBetween_lead,
      ← views.leavesBetween_token inner, leavesBetween_append _ ahead further,
      leavesBetween_append _ late beyond]
    rfl

/-! ### Ending -/

/-- The mark of a construct that is not complete is open. -/
theorem Unfinished.stop_eq_none (unfinished : Unfinished since production place id children)
    (mark : Mark) (found : production.marks[id]? = some mark) : mark.stop = none := by
  obtain ⟨held, same, open'⟩ := unfinished.mark
  cases found.symm.trans same
  exact open'.stop

/-- Closed now, the mark of a construct ends behind the last token read. -/
theorem Unfinished.max_start (unfinished : Unfinished since production since.index id children)
    {mark : Mark} (start : mark.start = since.index) :
    max mark.start production.lastEnd = production.lastEnd := by
  obtain ⟨-, -, next, -, -, -, -, early, late, -⟩ := unfinished.yields
  exact Nat.max_eq_right (start ▸ Nat.le_trans early late)

/-- Two changes of the same mark that say the same of it are the same. -/
theorem update_congr {change other : Mark → Mark} {mark : Mark}
    (found : production.marks[id]? = some mark) (same : change mark = other mark) :
    production.update id change = production.update id other := by
  have marks : production.marks.modify id change = production.marks.modify id other := by
    refine List.ext_getElem? fun place => ?_
    rw [List.getElem?_modify, List.getElem?_modify]
    by_cases here : id = place
    · rw [← here, found]
      simp [same]
    · simp [here]
  rw [update, update, marks]

/-- Two changes of one mark are one change. -/
theorem update_update (first second : Mark → Mark) :
    (production.update id first).update id second = production.update id (second ∘ first) := by
  simp [update, List.modify_modify_eq]

/-- A mark that is open can be closed. -/
theorem Unfinished.done_eq (unfinished : Unfinished since production since.index id children)
    (kind : NodeKind) : production.done id kind = .ok (production.shut id kind none) := by
  obtain ⟨mark, found, open'⟩ := unfinished.mark
  have stop := unfinished.max_start open'.start
  rw [done, mark?, found, shut]
  simp only [bind, Except.bind, Mark.isDone, open'.stop, stop, Option.isSome_none,
    Bool.false_eq_true, if_false, pure, Except.pure]
  rw [update_congr found]
  rw [open'.message]

/-- A mark that is open can be closed as an error. -/
theorem Unfinished.fail_eq (unfinished : Unfinished since production since.index id children)
    (message : String) :
    production.fail id message = (production.shut id .error (some message), none) := by
  obtain ⟨mark, found, open'⟩ := unfinished.mark
  have stop := unfinished.max_start open'.start
  have named : (production.update id fun mark => { mark with message := some message }).done id
      .error = .ok (production.shut id .error (some message)) := by
    rw [done, mark?, getElem?_update found, if_pos rfl]
    simp only [bind, Except.bind, Mark.isDone, open'.stop, Option.isSome_none,
      Bool.false_eq_true, if_false, pure, Except.pure]
    rw [update_update, update_congr found]
    · rfl
    · change { mark with
        message := some message, stop := some (max mark.start production.lastEnd),
        kind := some NodeKind.error : Mark } = _
      rw [stop]
  rw [fail, named]

/-- A construct whose mark is closed is complete. -/
theorem Unfinished.finished (unfinished : Unfinished since production since.index id children)
    (kind : NodeKind) (message : Option String) :
    Finished since (production.shut id kind message) id
      (.node () ⟨kind, none, message, none⟩ children) :=
  ⟨production, kind, message, unfinished, rfl, rfl⟩

/-! ### Finished constructs -/

/-- A change behind a list of marks leaves them where they are. -/
theorem isPrefix_update (grown : since.marks <+: production.marks)
    (behind : since.marks.length ≤ id) (change : Mark → Mark) :
    since.marks <+: (production.update id change).marks := by
  refine List.prefix_iff_getElem?.mpr fun place inside => ?_
  have apart : id ≠ place := Nat.ne_of_gt (Nat.lt_of_lt_of_le inside behind)
  rw [update, List.getElem?_modify, List.prefix_iff_getElem?.mp grown place inside]
  simp [apart]

/-- What is known of the mark of a construct when it has been closed. -/
theorem Unfinished.getElem?_shut (unfinished : Unfinished since production place id children)
    (kind : NodeKind) (message : Option String) :
    ∃ mark : Mark, (production.shut id kind message).marks[id]? = some mark ∧
      mark.start = since.index ∧ mark.stop = some production.lastEnd ∧ mark.kind = some kind ∧
      mark.message = message ∧ mark.position = none ∧ mark.dropped = false ∧
      mark.anchor = since.marks.length := by
  obtain ⟨mark, found, open'⟩ := unfinished.mark
  refine ⟨_, getElem?_update found, ?_⟩
  rw [if_pos rfl]
  exact ⟨open'.start, rfl, rfl, rfl, open'.position, open'.dropped, open'.anchor⟩

/-- Closing a mark keeps what an unfinished construct rests on. -/
theorem Unfinished.keeps_shut (unfinished : Unfinished since production place id children)
    (kind : NodeKind) (message : Option String) :
    Keeps since.marks.length production (production.shut id kind message) := by
  have kept : Keeps since.marks.length production (production.update id fun mark =>
      { mark with stop := some production.lastEnd, kind := some kind, message := message }) :=
    (Keeps.refl _ production).update unfinished.stop_eq_none (fun _ => rfl) fun _ => rfl
  exact kept.note (.closed id)

/-- What a finished construct leaves of the mark that it opened, and what its entries yield. -/
theorem Finished.yields (finished : Finished since production id tree) :
    ∃ entries wrappers,
      production.record = entries.reverse ++ .opened since.marks.length :: since.record ∧
      (∃ anchor : Mark, production.marks[since.marks.length]? = some anchor ∧
        anchor.start = since.index ∧ anchor.chain = wrappers ++ [id]) ∧
      (∀ wrapper ∈ wrappers, wrapper < id) ∧
      since.index ≤ production.lastEnd ∧
      production.Yields since.marks.length entries (wrappers ++ [id]) since.index
        production.lastEnd [tree] := by
  obtain ⟨before, kind, message, unfinished, rfl, shape⟩ := finished
  obtain ⟨entries, wrappers, next, trees, record, ⟨anchor, held, start, chain⟩, inside, early, late,
    parts, yields⟩ := unfinished.yields
  obtain ⟨mark, found, -, stop, kinded, said, position, stands, -⟩ :=
    unfinished.getElem?_shut kind message
  refine ⟨entries ++ [.closed id], wrappers, ?_, ⟨_, getElem?_update held, ?_⟩, inside,
    Nat.le_trans early late, fun later keeps top siblings outer root => ?_⟩
  · rw [List.reverse_append, shut, note]
    exact congrArg _ record
  · split <;> exact ⟨start, chain⟩
  · -- Closing the mark of the construct takes the trees of its entries off the stack as one tree.
    obtain ⟨after, present, stays, -⟩ := keeps.marks id mark unfinished.behind found
    obtain ⟨stop', kind', message', position', dropped'⟩ := stays.closed (by rw [stop]; rfl)
    have open' : later.stands id := by
      rw [stands_of_getElem? present, dropped', stands]
      rfl
    have whole := yields later ((unfinished.keeps_shut kind message).trans keeps) id []
      ((top, siblings) :: outer) root
    rw [List.filter_append, List.filter_cons_of_pos open', List.filter_nil, List.map_append,
      List.append_assoc, List.foldlM_append]
    simp only [List.map_cons, List.map_nil, List.cons_append, List.nil_append]
    rw [whole]
    change (later.assemble _ (.closed id) >>= fun assembly => pure assembly) = _
    rw [bind_pure, assemble_closed present (dropped'.trans stands) (stop'.trans stop)
      (kind'.trans kinded), message', position', said, position, keeps.tokens,
      Nat.max_eq_right late, List.nil_append]
    rw [shape, parts]
    rfl

/-- When a construct has been completed, the token in view is still the first one that is no trivia.
-/
theorem Finished.placed (finished : Finished since production id tree) : production.IsPlaced := by
  obtain ⟨before, kind, message, unfinished, rfl, -⟩ := finished
  exact unfinished.placed

/-- Completing a construct leaves the token list as it was. -/
theorem Finished.tokens (finished : Finished since production id tree) :
    production.tokens = since.tokens := by
  obtain ⟨before, kind, message, unfinished, rfl, -⟩ := finished
  exact unfinished.tokens

/-- A complete construct leaves the marks that were there before where they were. -/
theorem Finished.grown (finished : Finished since production id tree) :
    since.marks <+: production.marks := by
  obtain ⟨before, kind, message, unfinished, rfl, -⟩ := finished
  exact isPrefix_update unfinished.grown unfinished.behind _

/-- The token in view does not stand before the end of the last one read. -/
theorem IsPlaced.lastEnd_le (placed : production.IsPlaced) :
    production.lastEnd ≤ production.index :=
  placed ▸ Nat.le_add_right _ _

/-- The mark of an unfinished construct is not among those that were there before. -/
theorem Unfinished.length_lt (unfinished : Unfinished since production place id children) :
    since.marks.length < production.marks.length := by
  obtain ⟨mark, found, -⟩ := unfinished.mark
  exact Nat.lt_of_le_of_lt unfinished.behind (List.getElem?_eq_some_iff.mp found).1

/-- A finished construct becomes a child of the one that is being parsed around it, behind the
trivia in front of it. -/
theorem Unfinished.operand (unfinished : Unfinished since production place id children)
    {inner : MarkId} (finished : Finished production later inner tree) :
    Unfinished since later place id
      (children ++ leavesBetween production.tokens production.lastEnd production.index
        ++ [tree]) := by
  obtain ⟨entries, wrappers, next, trees, record, ⟨anchor, held, start, chain⟩, inside, early, late,
    rfl, yields⟩ := unfinished.yields
  obtain ⟨entries', wrappers', record', ⟨anchor', held', start', chain'⟩, -, reached, yields'⟩ :=
    finished.yields
  obtain ⟨mark, found, open'⟩ := unfinished.mark
  have ahead := unfinished.placed.lastEnd_le
  have kept := keeps_of_isPrefix finished.tokens finished.grown since.marks.length
  refine ⟨finished.placed, finished.tokens.trans unfinished.tokens,
    unfinished.grown.trans finished.grown, unfinished.behind,
    ⟨mark, getElem?_of_isPrefix finished.grown found, open'⟩,
    entries ++ .opened production.marks.length :: entries', wrappers, later.lastEnd,
    trees ++ leavesBetween production.tokens next production.index ++ [tree], ?_,
    ⟨anchor, getElem?_of_isPrefix finished.grown held, start, chain⟩, inside, by omega,
    Nat.le_refl _, ?_, fun last keeps top siblings outer root => ?_⟩
  · rw [record', record]
    simp
  · rw [leavesBetween_self, List.append_nil, List.append_assoc trees,
      leavesBetween_append _ late ahead]
  · -- The first entry opens the chain of the operand, whose entries then close all of it.
    obtain ⟨after, present, stays, same⟩ := keeps.marks production.marks.length anchor'
      (Nat.le_of_lt unfinished.length_lt) held'
    have opens : last.openedBy (.opened production.marks.length)
        = ((wrappers' ++ [inner]).filter last.stands).reverse := by
      rw [openedBy_opened present, same unfinished.length_lt, chain', List.filter_reverse]
    have tokens : last.tokens = production.tokens := keeps.tokens.trans finished.tokens
    rw [List.foldlM_append, yields last (kept.trans keeps) top siblings outer root]
    change (last.assemble _ _ >>= fun assembly => entries'.foldlM last.assemble assembly) = _
    rw [assemble_opened present, flush_cons, opens, openAll_reverse, stays.start, start', tokens,
      Nat.max_eq_right (Nat.le_trans late ahead)]
    change entries'.foldlM last.assemble _ = _
    rw [yields' last (keeps.mono (Nat.le_of_lt unfinished.length_lt))]
    simp only [List.append_assoc]

/-- The production with a node without tokens behind the last token read. -/
def withAbsent (production : Production) (kind : NodeKind) (message : Option String)
    (position : Position) : Production :=
  let opened := (production.openAt production.lastEnd message (some position)).1
  (opened.update production.marks.length fun mark =>
    { mark with stop := some production.lastEnd, kind := some kind }).note
      (.closed production.marks.length)

/-- A node without tokens can be recorded where a word is in view. -/
theorem empty_eq (views : production.Views word more) (kind : NodeKind) (message : Option String) :
    production.empty kind message
      = .ok (production.withAbsent kind message word.token.position, production.marks.length) := by
  have found : (production.openAt production.lastEnd message
      (some word.token.position)).1.marks[production.marks.length]?
        = some ⟨production.lastEnd, none, none, message, some word.token.position, false,
            production.marks.length, [production.marks.length]⟩ := List.getElem?_concat_length
  rw [empty, views.token_eq]
  change (((production.openAt production.lastEnd message (some word.token.position)).1.done
    production.marks.length kind) >>= fun closed => pure (closed, production.marks.length)) = _
  rw [done, mark?, found]
  simp only [bind, Except.bind, Mark.isDone, Option.isSome_none, Bool.false_eq_true, if_false,
    pure, Except.pure]
  congr 2
  change Production.note (update _ _ fun mark => { mark with
    stop := some (max production.lastEnd production.lastEnd), kind := some kind }) _ = _
  rw [Nat.max_self]
  rfl

/-- A node without tokens becomes a child of the construct that is being parsed. -/
theorem Unfinished.withAbsent (unfinished : Unfinished since production place id children)
    (kind : NodeKind) (message : Option String) (token : Token) :
    Unfinished since (production.withAbsent kind message token.position) place id
      (children ++ [SyntaxTree.absent kind message token]) := by
  obtain ⟨entries, wrappers, next, trees, record, ⟨anchor, held, start, chain⟩, inside, early, late,
    rfl, yields⟩ := unfinished.yields
  obtain ⟨mark, found, open'⟩ := unfinished.mark
  have marks : (production.withAbsent kind message token.position).marks
      = production.marks ++ [⟨production.lastEnd, some production.lastEnd, some kind, message,
          some token.position, false, production.marks.length, [production.marks.length]⟩] :=
    List.modifyTailIdx_add _ 0 production.marks _
  have grown : production.marks <+: (production.withAbsent kind message token.position).marks :=
    ⟨_, marks.symm⟩
  have kept : Keeps since.marks.length production
      (production.withAbsent kind message token.position) :=
    keeps_of_isPrefix (by rfl) grown _
  refine ⟨unfinished.placed, unfinished.tokens, unfinished.grown.trans grown, unfinished.behind,
    ⟨mark, getElem?_of_isPrefix grown found, open'⟩,
    entries ++ [.opened production.marks.length, .closed production.marks.length], wrappers,
    production.lastEnd, trees ++ leavesBetween production.tokens next production.lastEnd
      ++ [SyntaxTree.absent kind message token], ?_,
    ⟨anchor, getElem?_of_isPrefix grown held, start, chain⟩, inside, by omega, Nat.le_refl _, ?_,
    fun last keeps top siblings outer root => ?_⟩
  · simp only [List.reverse_append, List.append_assoc]
    exact congrArg _ (congrArg _ record)
  · exact (congrArg _ (leavesBetween_self _ _)).trans (List.append_nil _) |>.symm
  · obtain ⟨after, present, stays, same⟩ := keeps.marks production.marks.length _
      (Nat.le_of_lt unfinished.length_lt) (by rw [marks]; exact List.getElem?_concat_length)
    obtain ⟨stop, kinded, said, placed, stands⟩ := stays.closed rfl
    have chained := same unfinished.length_lt
    have open' : last.stands production.marks.length := by
      rw [stands_of_getElem? present, stands]
      rfl
    have opens : last.openedBy (.opened production.marks.length)
        = [production.marks.length].reverse := by
      rw [openedBy_opened present, chained, List.reverse_singleton, List.filter_cons_of_pos open']
      rfl
    rw [List.foldlM_append, yields last (kept.trans keeps) top siblings outer root]
    change (last.assemble _ _ >>= fun assembly =>
      last.assemble assembly (.closed production.marks.length) >>= pure) = _
    rw [assemble_opened present, flush_cons, opens, openAll_reverse, stays.start, keeps.tokens]
    change (last.assemble _ (.closed production.marks.length) >>= pure) = _
    simp only [List.map_cons, List.map_nil, List.cons_append, List.nil_append]
    rw [bind_pure, assemble_closed present stands stop kinded, said, placed, Nat.max_eq_right late,
      leavesBetween_self, Nat.max_self]
    change Except.ok (Assembly.mk production.lastEnd ((top, siblings ++ trees
      ++ leavesBetween production.tokens next production.lastEnd
      ++ [SyntaxTree.absent kind message token]) :: outer) root) = _
    simp only [List.append_assoc]

/-! ### Constructs around finished ones -/

/-- The production with a further mark around one of a chain. -/
def wrapped (production : Production) (start : Nat) (anchor id : MarkId) : Production :=
  (production.add ⟨start, none, none, none, none, false, anchor, []⟩).1.update anchor fun mark =>
    { mark with chain := insertAfter id production.marks.length mark.chain }

/-- What comes behind the last mark of a chain comes last. -/
theorem insertAfter_concat {old new : MarkId} {chain : List MarkId} (outside : old ∉ chain) :
    insertAfter old new (chain ++ [old]) = chain ++ [old] ++ [new] := by
  induction chain with
  | nil => exact if_pos rfl
  | cons other chain ih =>
    have apart : other ≠ old := fun same => outside (same ▸ List.mem_cons_self)
    rw [List.cons_append, insertAfter, if_neg apart,
      ih fun present => outside (List.mem_cons_of_mem _ present)]
    rfl

/-- A finished construct can be preceded: its mark is known, and it is in the chain of its
anchor. -/
theorem Finished.precede_eq (finished : Finished since production id tree) :
    production.precede id
        = .ok (production.wrapped since.index since.marks.length id, production.marks.length) ∧
      ∃ mark anchor : Mark, production.marks[id]? = some mark ∧
        production.marks[mark.anchor]? = some anchor ∧ id ∈ anchor.chain := by
  obtain ⟨entries, wrappers, -, ⟨anchor, held, -, chain⟩, -⟩ := finished.yields
  obtain ⟨before, kind, message, unfinished, rfl, -⟩ := finished
  obtain ⟨mark, found, start, -, -, -, -, -, anchored⟩ := unfinished.getElem?_shut kind message
  refine ⟨?_, mark, anchor, found, anchored ▸ held, by simp [chain]⟩
  rw [precede, mark?, found]
  change Except.ok ((add _ ⟨mark.start, none, none, none, none, false, mark.anchor, []⟩).1.update
    mark.anchor _, _) = _
  rw [start, anchored]
  rfl

/-- A mark around the outermost one of a chain is newer than all marks of the chain. -/
theorem forall_lt_concat {wrappers : List MarkId} {new : MarkId}
    (inside : ∀ wrapper ∈ wrappers, wrapper < id) (known : id < new) :
    ∀ wrapper ∈ wrappers ++ [id], wrapper < new :=
  List.forall_mem_append.mpr ⟨fun wrapper present => Nat.lt_trans (inside wrapper present) known,
    List.forall_mem_singleton.mpr known⟩

/-- Marks are named by numbers below their number. -/
theorem lt_length_of_getElem? {mark : Mark} (found : production.marks[id]? = some mark) :
    id < production.marks.length :=
  (List.getElem?_eq_some_iff.mp found).1

section Wrapped

variable {anchor : Mark} (held : production.marks[base]? = some anchor)

include held

/-- The mark around another one is open, and its anchor is the one of the other. -/
theorem getElem?_wrapped_new (start : Nat) (id : MarkId) :
    (production.wrapped start base id).marks[production.marks.length]?
      = some ⟨start, none, none, none, none, false, base, []⟩ := by
  rw [wrapped, getElem?_update getElem?_add_length,
    if_neg (Nat.ne_of_lt (lt_length_of_getElem? held))]

/-- The mark around the outermost one of a chain becomes the outermost one. -/
theorem getElem?_wrapped_anchor (start : Nat) {wrappers : List MarkId}
    (chain : anchor.chain = wrappers ++ [id]) (outside : id ∉ wrappers) :
    (production.wrapped start base id).marks[base]?
      = some { anchor with chain := wrappers ++ [id] ++ [production.marks.length] } := by
  rw [wrapped, getElem?_update (getElem?_add held), if_pos rfl, chain, insertAfter_concat outside]

omit held

/-- A mark around a construct changes no mark but the anchor, and that one only in its chain. -/
theorem keeps_wrapped (start : Nat) (id : MarkId) :
    Keeps base production (production.wrapped start base id) :=
  ((Keeps.refl base production).add _).wrap _

/-- A mark around a construct leaves the marks that were there before it where they were. -/
theorem isPrefix_wrapped (grown : since.marks <+: production.marks)
    (behind : since.marks.length ≤ base) (start : Nat) (id : MarkId) :
    since.marks <+: (production.wrapped start base id).marks :=
  isPrefix_update (grown.trans (List.prefix_append _ _)) behind _

end Wrapped

/-- A construct around a finished one has that one as its child. -/
theorem Finished.wrapped (finished : Finished since production id tree) :
    Unfinished since (production.wrapped since.index since.marks.length id) since.index
      production.marks.length [tree] := by
  obtain ⟨entries, wrappers, record, ⟨anchor, held, start, chain⟩, inside, reached, yields⟩ :=
    finished.yields
  have outside : id ∉ wrappers := fun present => Nat.lt_irrefl _ (inside id present)
  have known : id < production.marks.length := by
    obtain ⟨-, mark, -, found, -⟩ := finished.precede_eq
    exact lt_length_of_getElem? found
  exact ⟨finished.placed, finished.tokens, isPrefix_wrapped finished.grown (Nat.le_refl _) _ _,
    finished.grown.length_le, ⟨_, getElem?_wrapped_new held _ _, rfl, rfl, rfl, rfl, rfl, rfl⟩,
    entries, wrappers ++ [id], production.lastEnd, [tree], record,
    ⟨_, getElem?_wrapped_anchor held _ chain outside, start, rfl⟩, forall_lt_concat inside known,
    reached, Nat.le_refl _, congrArg ([tree] ++ ·) (leavesBetween_self _ _).symm,
    fun later keeps => yields later ((keeps_wrapped _ _).trans keeps)⟩

/-- A construct around a finished one whose mark is dropped gets the children of that one. -/
theorem Finished.wrapped_drop (finished : Finished since production id tree) :
    Unfinished since ((production.wrapped since.index since.marks.length id).drop id) since.index
      production.marks.length tree.children := by
  have placed := finished.placed
  have tokens := finished.tokens
  have grown := finished.grown
  obtain ⟨before, kind, message, unfinished, rfl, -⟩ := finished
  obtain ⟨entries, wrappers, next, trees, record, ⟨anchor, held, start, chain⟩, inside, early, late,
    parts, yields⟩ := unfinished.yields
  obtain ⟨mark, found, -, stop, -⟩ := unfinished.getElem?_shut kind message
  have known := lt_length_of_getElem? found
  have outside : id ∉ wrappers := fun present => Nat.lt_irrefl _ (inside id present)
  obtain ⟨anchor', held', start', chain'⟩ : ∃ anchor' : Mark,
      (before.shut id kind message).marks[since.marks.length]? = some anchor' ∧
        anchor'.start = since.index ∧ anchor'.chain = wrappers ++ [id] := by
    refine ⟨_, getElem?_update held, ?_⟩
    split <;> exact ⟨start, chain⟩
  refine ⟨placed, tokens, isPrefix_update (isPrefix_wrapped grown (Nat.le_refl _) _ _)
      unfinished.behind _, grown.length_le,
    ⟨_, getElem?_update (getElem?_wrapped_new held' _ _), ?_⟩, entries ++ [.closed id],
    wrappers ++ [id], next, trees, ?_,
    ⟨_, getElem?_update (getElem?_wrapped_anchor held' _ chain' outside), ?_⟩,
    forall_lt_concat inside known, early, late, parts,
    fun later keeps top siblings outer root => ?_⟩
  · rw [if_neg (Nat.ne_of_lt known)]
    exact ⟨rfl, rfl, rfl, rfl, rfl, rfl⟩
  · rw [List.reverse_append]
    exact congrArg _ record
  · split <;> exact ⟨start', rfl⟩
  · -- The mark was open before, so it may have changed in any way since then.
    have kept : Keeps since.marks.length before
        (((before.shut id kind message).wrapped since.index since.marks.length id).drop id) :=
      ((unfinished.keeps_shut kind message).trans (keeps_wrapped _ _)).update
        unfinished.stop_eq_none (fun _ => rfl) fun _ => rfl
    obtain ⟨after, present, dropped⟩ : ∃ after : Mark, later.marks[id]? = some after ∧
        after.dropped = true := by
      obtain ⟨around, aroundFound, stays, -⟩ := (keeps_wrapped since.index id).marks id mark
        unfinished.behind found
      obtain ⟨after, present, stays', -⟩ := keeps.marks id _ unfinished.behind
        (getElem?_update aroundFound)
      rw [if_pos rfl] at stays'
      have stop' : around.stop.isSome := by
        rw [(stays.closed (by rw [stop]; rfl)).1, stop]
        rfl
      exact ⟨after, present, (stays'.closed stop').2.2.2.2⟩
    have gone : later.stands id = false := by rw [stands_of_getElem? present, dropped]; rfl
    rw [List.filter_append, List.filter_cons_of_neg (by simp [gone]), List.filter_nil,
      List.append_nil, List.foldlM_append, yields later (kept.trans keeps)]
    change (later.assemble _ (.closed id) >>= fun assembly => pure assembly) = _
    rw [bind_pure, assemble_closed_of_dropped present dropped]

/-- A mark can be dropped before or after another one is closed. -/
theorem drop_shut {other : MarkId} (apart : other ≠ id) (kind : NodeKind)
    (message : Option String) :
    (production.shut id kind message).drop other
      = (production.drop other).shut id kind message := by
  unfold drop shut note update
  simp only [Production.mk.injEq, true_and, and_true]
  exact List.modify_modify_ne _ _ _ (Ne.symm apart)

/-! ### Files -/

/-- The production whose root has been closed and extended over all tokens. -/
theorem Unfinished.assembleAll
    (unfinished : Unfinished (ofTokens production.tokens) production 0 0 children)
    (reached : production.lastEnd ≤ production.tokens.length) {closed : Production}
    (keeps : Keeps 0 production closed)
    (record : closed.record = .closed 0 :: production.record) {root : Mark}
    (found : closed.marks[0]? = some root) (stop : root.stop = some production.tokens.length)
    {kind : NodeKind} (kinded : root.kind = some kind) (stands : root.dropped = false)
    (message : root.message = none) (position : root.position = none)
    (chain : ∀ anchor : Mark, production.marks[0]? = some anchor → root.chain = anchor.chain) :
    closed.assembleAll = .ok (SyntaxTree.ofKind kind (children
      ++ leavesBetween production.tokens production.lastEnd production.tokens.length)) := by
  obtain ⟨entries, wrappers, next, trees, before, ⟨anchor, held, -, wrapped⟩, inside, -, late, rfl,
    yields⟩ := unfinished.yields
  have alone : wrappers = [] := List.eq_nil_iff_forall_not_mem.mpr fun wrapper present =>
    absurd (inside wrapper present) (Nat.not_lt_zero _)
  subst alone
  have steps : closed.record.reverse = .opened 0 :: (entries ++ [.closed 0]) := by
    rw [record, before]
    simp [ofTokens]
  have open' : closed.stands 0 := by
    rw [stands_of_getElem? found, stands]
    rfl
  have opens : closed.openedBy (.opened 0) = [0] := by
    rw [openedBy_opened found, chain anchor held, wrapped]
    exact List.filter_cons_of_pos open'
  have inner := yields closed keeps 0 [] [] none
  rw [List.filter_nil, List.map_nil, List.nil_append] at inner
  have folds : closed.record.reverse.foldlM closed.assemble ⟨0, [], none⟩
      = .ok ⟨max next production.tokens.length, [], some (SyntaxTree.ofKind kind
          (trees ++ leavesBetween production.tokens next production.tokens.length))⟩ := by
    rw [steps]
    change (closed.assemble _ _ >>= fun assembly =>
      (entries ++ [ProductionEvent.closed 0]).foldlM closed.assemble assembly) = _
    rw [assemble_opened found, opens]
    change (entries ++ [ProductionEvent.closed 0]).foldlM closed.assemble ⟨0, [(0, [])], none⟩ = _
    rw [List.foldlM_append, inner]
    change (closed.assemble _ (.closed 0) >>= fun assembly => pure assembly) = _
    rw [bind_pure, assemble_closed found stands stop kinded, message, position, keeps.tokens,
      List.nil_append]
    rfl
  rw [Production.assembleAll, folds]
  change Except.ok _ = _
  rw [List.append_assoc, leavesBetween_append _ late reached]

/-- A file is built to its children and what is left of the tokens as further leaves. -/
theorem Unfinished.build
    (unfinished : Unfinished (ofTokens production.tokens) production 0 0 children)
    (reached : production.lastEnd ≤ production.tokens.length) (kind : NodeKind) :
    ∃ later, production.done 0 kind = .ok later ∧ later.build.2
      = .ok (SyntaxTree.ofKind kind (children
          ++ leavesBetween production.tokens production.lastEnd production.tokens.length)) := by
  obtain ⟨mark, found, open'⟩ := unfinished.mark
  obtain ⟨entries, wrappers, next, trees, record, -⟩ := unfinished.yields
  let close (held : Mark) : Mark :=
    { held with stop := some (max mark.start production.lastEnd), kind := some kind }
  let extend (held : Mark) : Mark := { held with stop := some production.tokens.length }
  refine ⟨(production.update 0 close).note (.closed 0), ?_, ?_⟩
  · rw [done, mark?, found]
    simp only [bind, Except.bind, Mark.isDone, open'.stop, Option.isSome_none, Bool.false_eq_true,
      if_false, pure, Except.pure]
    rfl
  · have last : (ProductionEvent.closed 0 :: production.record).getLast? = some (.opened 0) := by
      rw [record, ← List.cons_append]
      exact List.getLast?_concat
    have built : ((production.update 0 close).note (.closed 0)).build.2
        = (((production.update 0 close).note (.closed 0)).update 0 extend).assembleAll := by
      have first : ((production.update 0 close).note (.closed 0)).record.getLast?
          = some (.opened 0) := last
      rw [Production.build, first]
      exact congrArg Prod.snd (if_pos rfl)
    have held : (((production.update 0 close).note (.closed 0)).update 0 extend).marks[0]?
        = some (extend (close mark)) := by
      have closed : ((production.update 0 close).note (.closed 0)).marks[0]? = some (close mark) :=
        (getElem?_update found).trans (by rw [if_pos rfl])
      exact (getElem?_update closed).trans (by rw [if_pos rfl])
    rw [built]
    refine unfinished.assembleAll reached ?_ rfl held rfl rfl open'.dropped open'.message
      open'.position fun anchor same => ?_
    · have undone := unfinished.stop_eq_none
      have closed : Keeps 0 production (production.update 0 close) :=
        (Keeps.refl 0 production).update undone (fun _ => rfl) fun _ => rfl
      exact (closed.note (.closed 0)).update undone (fun _ => rfl) fun _ => rfl
    · cases found.symm.trans same
      rfl

end Production

end WolframSyntax
