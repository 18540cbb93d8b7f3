/-!
# Sets of characters given by code point ranges

A class of characters is a list of inclusive code point ranges in increasing order. Membership
stops at the first range that lies above the character, so the small code points that make up
most source text are decided after a few comparisons.

One such class is that of the characters which trimming removes: those of bidirectional type WS, B
or S, and those of category Zs. It is larger than the class of the blanks between tokens, which are
space, tab and form feed only.
-/

namespace WolframSyntax.Text

/-- Inclusive ranges of code points, in increasing order and without overlap. -/
abbrev CodeRanges := List (Nat × Nat)

namespace CodeRanges

/-- Whether a code point lies in one of the ranges. -/
def holds : CodeRanges → Nat → Bool
  | [], _ => false
  | (low, high) :: ranges, code =>
    if code < low then false
    else if code ≤ high then true
    else holds ranges code

/-- Whether a character lies in one of the ranges. -/
def includes (ranges : CodeRanges) (character : Char) : Bool :=
  ranges.holds character.toNat

end CodeRanges

/-! ## Blank characters -/

/-- Code points that trimming removes. -/
def blankRanges : CodeRanges :=
  [(0x9, 0xD), (0x1C, 0x20), (0x85, 0x85), (0xA0, 0xA0), (0x1680, 0x1680), (0x2000, 0x200A),
   (0x2028, 0x2029), (0x202F, 0x202F), (0x205F, 0x205F), (0x3000, 0x3000)]

/-- Whether trimming removes the character. -/
def isBlank (character : Char) : Bool :=
  blankRanges.includes character

/-- A list of characters without its blank beginning. -/
def dropBlank (characters : List Char) : List Char :=
  characters.dropWhile isBlank

/-- A text without its blank beginning and end. -/
def trimBlank (text : String) : String :=
  String.ofList (dropBlank (dropBlank text.toList).reverse).reverse

end WolframSyntax.Text
