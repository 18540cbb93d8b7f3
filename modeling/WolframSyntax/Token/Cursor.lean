import WolframSyntax.Number.Binary64
import WolframSyntax.Token.Lexeme

/-!
# Cursors

A cursor reads a text piece by piece: single characters, runs of a character class, or one token
at a time. It knows the line and column of the next unread character. Where the text begins is
the caller's choice, so a cursor may be set into the middle of a text or beyond its end.

It may also be set before a text. On its way to the start it takes the characters that stand as far
from the end, as if the text went round in a circle, but it takes them blindly: looking ahead sees
nothing before the start. A cursor that stands further off than the text is long takes nothing.
-/

namespace WolframSyntax

/-- A text, how much of it has been read, and the place of the next unread character. The offset is
negative before the start of the text. -/
structure Cursor where
  source : List Char
  offset : Int
  position : Position

/-- Why a cursor cannot take a character. -/
inductive CursorError where
  | pastEnd (position : Position)
  | outOfReach
  | noIndex
  deriving DecidableEq, Repr

namespace CursorError

/-- The report of the failure. -/
def message : CursorError → String
  | pastEnd position =>
    "read past end of source at " ++ toString position.line ++ ":" ++ toString position.col
  | outOfReach => "string index out of range"
  | noIndex => "cannot fit 'int' into an index-sized integer"

end CursorError

namespace Cursor

/-- A cursor on the first character of a text. -/
def ofString (source : String) : Cursor := ⟨source.toList, 0, .start⟩

/-- The number of characters to be taken before the start of the text is reached. -/
def lead (cursor : Cursor) : Nat := (-cursor.offset).toNat

/-- Nothing, unless the cursor stands further before the text than the text is long. -/
def reach (cursor : Cursor) : Except CursorError Unit :=
  if cursor.lead ≤ cursor.source.length then .ok ()
  else .error (if isIndex cursor.offset then .outOfReach else .noIndex)

/-- The characters that can be taken: those before the start, and the unread part of the text. -/
def unread (cursor : Cursor) : List Char :=
  cursor.source.drop (cursor.source.length - cursor.lead)
    ++ cursor.source.drop cursor.offset.toNat

/-- Inside a text, what can be taken is the unread part of it. -/
theorem unread_of_nonneg {cursor : Cursor} (inside : 0 ≤ cursor.offset) :
    cursor.unread = cursor.source.drop cursor.offset.toNat := by
  have none : cursor.lead = 0 := by
    simp only [lead]
    omega
  simp [unread, none]

/-- Whether the whole text has been read. -/
def atEnd (cursor : Cursor) : Bool := cursor.source.length ≤ cursor.offset

/-- The character at a distance from the next unread one, backwards for a negative distance. -/
def peek (cursor : Cursor) (distance : Int) : Option Char :=
  let index := cursor.offset + distance
  if index < 0 then none else cursor.source[index.toNat]?

/-- The part of the text from one offset to another. A negative offset is counted from the end. -/
def between (cursor : Cursor) (start stop : Int) : List Char :=
  let place (offset : Int) : Nat :=
    (if offset < 0 then offset + cursor.source.length else offset).toNat
  (cursor.source.take (place stop)).drop (place start)

/-- The next `length` unread characters, fewer at the end of the text. -/
def lookahead (cursor : Cursor) (length : Int) : List Char :=
  cursor.between cursor.offset (cursor.offset + length)

/-- The cursor after `characters`, which are the next unread ones. -/
def pass (cursor : Cursor) (characters : List Char) : Cursor :=
  { cursor with
    offset := cursor.offset + characters.length
    position := cursor.position.advance characters }

/-- The next character, if one can be taken. -/
def first (cursor : Cursor) : Except CursorError Char := do
  cursor.reach
  match cursor.unread with
  | [] => throw (.pastEnd cursor.position)
  | character :: _ => return character

/-- Reads one character. -/
def next (cursor : Cursor) : Except CursorError Char × Cursor :=
  match cursor.first with
  | .error error => (.error error, cursor)
  | .ok character => (.ok character, cursor.pass [character])

/-- Reads with one of the readers of lexemes. Before the start they see nothing to read. -/
def read (cursor : Cursor) (reader : Lexeme.Reader) : String × Cursor :=
  let taken := if cursor.lead = 0 then (reader cursor.unread).1 else []
  (String.ofList taken, cursor.pass taken)

/-- Reads the next token; at the end of the text that is the end token, however often. Before the
start, what is not seen counts as blank; the text of that token is what lies between its offsets. -/
def token (cursor : Cursor) : Except CursorError Token × Cursor :=
  match cursor.reach with
  | .error error => (.error error, cursor)
  | .ok () =>
    if cursor.lead = 0 then
      let lexeme := (Lexeme.read cursor.unread).1
      (.ok (lexeme.token cursor.position), cursor.pass lexeme.characters)
    else
      let blank := (cursor.unread.drop cursor.lead).takeWhile Lexeme.isLineBlank
      let after := cursor.pass (cursor.unread.take cursor.lead ++ blank)
      let lexeme : Lexeme := ⟨.whitespace, cursor.between cursor.offset after.offset⟩
      (.ok (lexeme.token cursor.position), after)

/-- Reads a slot, taking the next character for its mark. -/
def slot (cursor : Cursor) : Except CursorError Token × Cursor :=
  match cursor.first with
  | .error error => (.error error, cursor)
  | .ok mark =>
    let seen := if cursor.lead ≤ 1 then cursor.unread.drop 1 else []
    let lexeme := (Lexeme.readSlot mark seen).1
    (.ok (lexeme.token cursor.position), cursor.pass lexeme.characters)

/-- Reads the longest operator, if there is one. -/
def operator (cursor : Cursor) : Except CursorError (Option Token) × Cursor :=
  match Operator.longest? (cursor.lookahead Operator.longestSpelling), cursor.reach with
  | none, _ => (.ok none, cursor)
  | some _, .error error => (.error error, cursor)
  | some sign, .ok () =>
    (.ok (some (Lexeme.token ⟨.operator sign, sign.spelling⟩ cursor.position)),
      cursor.pass sign.spelling)

/-- Reads a string literal, taking the next character for its opening mark, and tells whether it
was closed. -/
def literal (cursor : Cursor) : Except CursorError (String × Bool) × Cursor :=
  match cursor.first with
  | .error error => (.error error, cursor)
  | .ok _ =>
    let unseen := max cursor.lead 1
    let literal := Lexeme.readLiteral (cursor.unread.drop unseen)
    let taken := cursor.unread.take unseen ++ literal.taken
    (.ok (String.ofList taken, literal.closed), cursor.pass taken)

/-- Reads a comment, taking the next two characters for its opening mark. -/
def comment (cursor : Cursor) : Except CursorError String × Cursor :=
  match cursor.next with
  | (.error error, after) => (.error error, after)
  | (.ok _, after) =>
    match after.first with
    | .error error => (.error error, after)
    | .ok _ =>
      let unseen := max cursor.lead 2
      let taken :=
        cursor.unread.take unseen ++ (Lexeme.readComment 1 (cursor.unread.drop unseen)).1
      (.ok (String.ofList taken), cursor.pass taken)

end Cursor

end WolframSyntax
