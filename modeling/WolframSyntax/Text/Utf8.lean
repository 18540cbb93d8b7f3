import WolframSyntax.Text.Quoted

/-!
# Reading UTF-8

Bytes as characters. Only the shortest form of a character is accepted, and no surrogates. The
first fault is reported with the bytes it concerns: a byte that cannot begin a character, the bytes
in front of one that should have continued their character, or the bytes of a character that the
text ends in.
-/

namespace WolframSyntax

/-- What is wrong with a sequence of bytes. -/
inductive Utf8Fault where
  | badStart
  | badContinuation
  | endOfData
  deriving DecidableEq, Repr

/-- A fault with the place of its first byte, the bytes concerned and their number. -/
structure Utf8Error where
  fault : Utf8Fault
  first : UInt8
  place : Nat
  length : Nat

namespace Utf8Error

/-- The reason for a fault. -/
def reason : Utf8Fault → String
  | .badStart => "invalid start byte"
  | .badContinuation => "invalid continuation byte"
  | .endOfData => "unexpected end of data"

/-- The report of a fault. -/
def message (error : Utf8Error) : String :=
  let subject :=
    if error.length = 1 then
      "byte 0x" ++ String.ofList (Text.hexadecimal 2 error.first.toNat) ++ " in position "
        ++ toString error.place
    else
      "bytes in position " ++ toString error.place ++ "-"
        ++ toString (error.place + error.length - 1)
  "'utf-8' codec can't decode " ++ subject ++ ": " ++ reason error.fault

end Utf8Error

namespace Text

/-- The six bits a byte adds to a character. -/
def continuationBits (byte : UInt8) : Nat := byte.toNat % 0x40

/-- Whether a byte continues a character. -/
def continues (byte : UInt8) : Bool := 0x80 ≤ byte && byte < 0xC0

/-- The number of bytes a character has that begins with a byte; zero if none does. -/
def sequenceLength (first : UInt8) : Nat :=
  if first < 0x80 then 1
  else if first < 0xC2 then 0
  else if first < 0xE0 then 2
  else if first < 0xF0 then 3
  else if first < 0xF5 then 4
  else 0

/-- Whether a byte can be the second one of a character. Forms that are not shortest, surrogates and
code points that are too large show here. -/
def fitsSecond (first second : UInt8) : Bool :=
  continues second
    && !(first == 0xE0 && second < 0xA0) && !(first == 0xED && 0xA0 ≤ second)
    && !(first == 0xF0 && second < 0x90) && !(first == 0xF4 && 0x90 ≤ second)

/-- The bits that the first byte of a character of several bytes contributes. -/
def leadingBits (first : UInt8) : Nat → Nat
  | 2 => first.toNat % 0x20
  | 3 => first.toNat % 0x10
  | _ => first.toNat % 0x08

/-- The number of bytes at the start of a sequence that go on from `first`, as far as `missing`
more of them are wanted. -/
def fittingCount (first : UInt8) (missing : Nat) (rest : List UInt8) : Nat :=
  match missing, rest with
  | missing + 1, second :: rest =>
    if fitsSecond first second then 1 + ((rest.take missing).takeWhile continues).length else 0
  | _, _ => 0

/-- Reads the bytes from a place on as characters. -/
def decodeFrom (place : Nat) : List UInt8 → Except Utf8Error (List Char)
  | [] => .ok []
  | first :: rest =>
    let length := sequenceLength first
    if length = 0 then .error ⟨.badStart, first, place, 1⟩
    else
      let missing := length - 1
      let fitting := fittingCount first missing rest
      if fitting = missing then
        let code := (rest.take missing).foldl (fun code byte => code * 0x40 + continuationBits byte)
          (if length = 1 then first.toNat else leadingBits first length)
        (decodeFrom (place + length) (rest.drop missing)).map (Char.ofNat code :: ·)
      else if rest.length = fitting then .error ⟨.endOfData, first, place, fitting + 1⟩
      else .error ⟨.badContinuation, first, place, fitting + 1⟩
termination_by bytes => bytes.length
decreasing_by
  simp only [List.length_cons, List.length_drop]
  omega

/-- The text that is written in UTF-8. -/
def decodeUtf8 (bytes : List UInt8) : Except Utf8Error String :=
  (decodeFrom 0 bytes).map String.ofList

/-- Characters with every kind of line break written as a line feed. -/
def unifyLineBreaks : List Char → List Char
  | '\r' :: '\n' :: rest => '\n' :: unifyLineBreaks rest
  | '\r' :: rest => '\n' :: unifyLineBreaks rest
  | character :: rest => character :: unifyLineBreaks rest
  | [] => []

end Text

end WolframSyntax
