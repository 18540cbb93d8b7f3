import WolframSyntax.Number.Binary64
import WolframSyntax.Reading.File

/-!
# Productions

A tree can be built step by step over a token list. A mark stands in front of a token; closing it
makes a node of the tokens read since then. A mark can also be put around an earlier one, even after
that has been closed, and a mark can be dropped, so that its tokens fall to the mark around it. The
production records where marks were opened and closed, and the tree is made from the record.
-/

namespace WolframSyntax

/-- The name of a mark: the number of marks made before it. -/
abbrev MarkId := Nat

/-- A mark. Tokens are counted from the start of the list. A mark that was put in front of a token
carries the chain of the marks around it, innermost first, itself included; a mark that was put
around another one has the same anchor. -/
structure Mark where
  start : Nat
  stop : Option Nat
  kind : Option NodeKind
  message : Option String
  position : Option Position
  dropped : Bool
  anchor : MarkId
  chain : List MarkId

namespace Mark

/-- Whether the mark has been closed. -/
def isDone (mark : Mark) : Bool := mark.stop.isSome

/-- An optional value as it is shown in reports. -/
def showOptional (value : Option String) : String := value.getD "None"

/-- The mark as it is shown in reports. -/
def display (mark : Mark) : String :=
  "Marker(start=" ++ toString mark.start ++ ", end=" ++ showOptional (mark.stop.map toString)
    ++ ", kind=" ++ showOptional (mark.kind.map fun kind => "NodeKind." ++ kind.memberName) ++ ")"

end Mark

/-- An entry of the record of a production. -/
inductive ProductionEvent where
  | opened (mark : MarkId)
  | closed (mark : MarkId)
  deriving DecidableEq, Repr

/-- Why a step of a production is refused. -/
inductive ProductionError where
  | alreadyDone (mark : Mark)
  | unknownMark
  | unended (length : Nat)
  | pastEnd (position : Position)
  | beforeStart
  | noIndex
  | nothingParsed
  | rootNotLast
  | unbalanced (mark : Mark)
  | unclosed

namespace ProductionError

/-- The report of a refusal. -/
def message : ProductionError → String
  | alreadyDone mark => mark.display ++ " is already done"
  | unknownMark => "no such marker"
  | unended length => UnendedStream.message ⟨length⟩
  | pastEnd position =>
    "Attempted to advance past end of input at line " ++ toString position.line ++ ", col "
      ++ toString position.col
  | beforeStart => "list index out of range"
  | noIndex => "cannot fit 'int' into an index-sized integer"
  | nothingParsed => "Nothing was parsed"
  | rootNotLast => "The root marker must be closed last"
  | unbalanced mark => "Unbalanced production at " ++ mark.display
  | unclosed => "Unclosed markers at end of input"

end ProductionError

/-- A token list, how much of it has been read, the marks by their names, and the record, latest
entry first. `index` is the token in view and `lastEnd` the end of the last one read, so that the
trivia between them is still open. -/
structure Production where
  tokens : List Token
  index : Nat
  lastEnd : Nat
  marks : List Mark
  record : List ProductionEvent

namespace Production

/-- The number of pieces of trivia at the start of a token list. -/
def triviaCount (tokens : List Token) : Nat := (tokens.takeWhile Token.isTrivia).length

/-- A production of which nothing has been read. -/
def ofTokens (tokens : List Token) : Production := ⟨tokens, triviaCount tokens, 0, [], []⟩

/-- The token in view. -/
def token (production : Production) : Except ProductionError Token :=
  match production.tokens[production.index]? with
  | some token => .ok token
  | none => .error (.unended production.tokens.length)

/-- The production after the token in view has been read. -/
def advance (production : Production) : Except ProductionError Production := do
  let token ← production.token
  if token.isEnd then throw (.pastEnd token.position)
  let read := production.index + 1
  return { production with
    lastEnd := read
    index := read + triviaCount (production.tokens.drop read) }

/-- The kind of the token at a distance from the one in view, trivia counted. A place before the
start of the list is counted from its end. -/
def lookahead (production : Production) (distance : Int) :
    Except ProductionError (Option TokenKind) :=
  let length : Int := production.tokens.length
  let place := production.index + distance
  if place < -indexBound then .error .noIndex
  else
    let place := if place < 0 then place + length else place
    if place < 0 then .error .beforeStart
    else .ok (production.tokens[place.toNat]?.map Token.kind)

/-- Whether there is trivia in front of the token in view. -/
def blankBefore (production : Production) : Bool := production.lastEnd < production.index

/-- Whether a line ends in front of the token in view. -/
def lineEndBefore (production : Production) : Bool :=
  ((production.tokens.take production.index).drop production.lastEnd).any fun token =>
    token.kind == .lineBreak

/-- The mark with the given name. -/
def mark? (production : Production) (id : MarkId) : Except ProductionError Mark :=
  match production.marks[id]? with
  | some mark => .ok mark
  | none => .error .unknownMark

/-- The production with a mark changed. -/
def update (production : Production) (id : MarkId) (change : Mark → Mark) : Production :=
  { production with marks := production.marks.modify id change }

/-- The production with one more mark, and its name. -/
def add (production : Production) (mark : Mark) : Production × MarkId :=
  ({ production with marks := production.marks ++ [mark] }, production.marks.length)

/-- The production with one more entry in its record. -/
def note (production : Production) (event : ProductionEvent) : Production :=
  { production with record := event :: production.record }

/-- A new mark in front of a token. -/
def openAt (production : Production) (start : Nat) (message : Option String)
    (position : Option Position) : Production × MarkId :=
  let id := production.marks.length
  let (production, id) :=
    production.add ⟨start, none, none, message, position, false, id, [id]⟩
  (production.note (.opened id), id)

/-- Puts a mark in front of the token in view. -/
def mark (production : Production) : Production × MarkId :=
  production.openAt production.index none none

/-- Closes a mark after the last token read. -/
def done (production : Production) (id : MarkId) (kind : NodeKind) :
    Except ProductionError Production := do
  let mark ← production.mark? id
  if mark.isDone then throw (.alreadyDone mark)
  let stop := max mark.start production.lastEnd
  let closed := production.update id fun mark => { mark with stop := some stop, kind := some kind }
  return closed.note (.closed id)

/-- Closes a mark as an error. The message is set even if the mark is closed already. -/
def fail (production : Production) (id : MarkId) (message : String) :
    Production × Option ProductionError :=
  let named := production.update id fun mark => { mark with message := some message }
  match named.done id .error with
  | .ok production => (production, none)
  | .error error => (named, some error)

/-- Records a node without tokens after the last token read, reported at the token in view. -/
def empty (production : Production) (kind : NodeKind) (message : Option String) :
    Except ProductionError (Production × MarkId) := do
  let token ← production.token
  let (opened, id) := production.openAt production.lastEnd message (some token.position)
  return (← opened.done id kind, id)

/-- A list with `new` after the first `old`. -/
def insertAfter (old new : MarkId) : List MarkId → List MarkId
  | [] => []
  | id :: ids => if id = old then id :: new :: ids else id :: insertAfter old new ids

/-- Puts a mark directly around another one. -/
def precede (production : Production) (id : MarkId) :
    Except ProductionError (Production × MarkId) := do
  let mark ← production.mark? id
  let (production, new) :=
    production.add ⟨mark.start, none, none, none, none, false, mark.anchor, []⟩
  return (production.update mark.anchor fun anchor =>
    { anchor with chain := insertAfter id new anchor.chain }, new)

/-- Drops a mark. -/
def drop (production : Production) (id : MarkId) : Production :=
  production.update id fun mark => { mark with dropped := true }

end Production

end WolframSyntax
