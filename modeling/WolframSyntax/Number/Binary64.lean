/-!
# Numbers of 64 bits

A finite floating-point number is a significand below `2 ^ 53` times a power of two whose exponent
is at least -1074. Decimals are read by rounding to the nearest number, a half going to the even
significand, and every number has a shortest decimal that reads back. All of it is integer
arithmetic.

Places in texts and lists are told by integers of 64 bits with a sign. Integers beyond them are
numbers like any other, but no place can be looked up with them.
-/

namespace WolframSyntax

/-! ## Indices -/

/-- The 63rd power of two, which is no index any more; its negative is the least index. -/
def indexBound : Nat := 0x8000000000000000

/-- Whether an integer can be an index. -/
def isIndex (number : Int) : Bool := -indexBound ≤ number && number < indexBound

/-! ## Floating-point numbers -/

/-- A floating-point number of 64 bits. -/
inductive Binary64 where
  | notANumber
  | infinite (negative : Bool)
  | finite (negative : Bool) (significand : Nat) (exponent : Int)
  deriving DecidableEq, Repr

namespace Binary64

/-- The significand of a finite number is below this, the 53rd power of two. -/
def significandBound : Nat := 0x20000000000000

/-- The least exponent of a finite number. -/
def leastExponent : Int := -1074

/-- The greatest exponent of a finite number. -/
def greatestExponent : Int := 971

/-- The quotient of two numbers, rounded to the nearest one; a half goes to the even one. -/
def roundQuotient (numerator denominator : Nat) : Nat :=
  let quotient := numerator / denominator
  let remainder := numerator % denominator
  if 2 * remainder < denominator then quotient
  else if denominator < 2 * remainder then quotient + 1
  else if quotient % 2 = 0 then quotient
  else quotient + 1

/-- A number with a signed exponent as a fraction: the factor goes above or below the bar. -/
def scale (base : Nat) (exponent : Int) (fraction : Nat × Nat) : Nat × Nat :=
  if 0 ≤ exponent then (fraction.1 * base.pow exponent.toNat, fraction.2)
  else (fraction.1, fraction.2 * base.pow (-exponent).toNat)

/-- The number nearest to a positive fraction. -/
def ofFraction (negative : Bool) (fraction : Nat × Nat) : Binary64 :=
  let estimate : Int := (fraction.1.log2 : Int) - fraction.2.log2 - 53
  let scaled := scale 2 (-estimate) fraction
  let exponent := if scaled.1 / scaled.2 < significandBound then estimate else estimate + 1
  let exponent := max exponent leastExponent
  let scaled := scale 2 (-exponent) fraction
  let significand := roundQuotient scaled.1 scaled.2
  let (significand, exponent) :=
    if significand = significandBound then (significand / 2, exponent + 1)
    else (significand, exponent)
  if greatestExponent < exponent then infinite negative
  else finite negative significand exponent

/-- Decimals at or above this power of ten are infinite. -/
def overflowExponent : Int := 310

/-- Positive decimals below this power of ten are zero. -/
def underflowExponent : Int := -330

/-- The number nearest to `digits * 10 ^ exponent`. -/
def ofDecimal (negative : Bool) (digits : Nat) (exponent : Int) : Binary64 :=
  let length : Int := (Nat.toDigits 10 digits).length
  if digits = 0 ∨ length + exponent < underflowExponent then finite negative 0 leastExponent
  else if overflowExponent < length + exponent then infinite negative
  else ofFraction negative (scale 10 exponent (digits, 1))

/-- The number nearest to an integer, unless that is infinite. -/
def ofInteger? (integer : Int) : Option Binary64 :=
  match ofDecimal (decide (integer < 0)) integer.natAbs 0 with
  | infinite _ => none
  | number => some number

/-- The number zero. -/
def zero : Binary64 := finite false 0 leastExponent

/-- Whether a number is zero, of either sign. -/
def isZero : Binary64 → Bool
  | finite _ significand _ => significand == 0
  | _ => false

/-- Whether two fractions with positive denominators are in strict order. -/
def fractionLess (left right : Nat × Nat) : Bool :=
  left.1 * right.2 < right.1 * left.2

/-- Whether a finite number equals an integer. -/
def equalsInteger (number : Binary64) (integer : Int) : Bool :=
  match number with
  | finite negative significand exponent =>
    let fraction := scale 2 exponent (significand, 1)
    let magnitude := integer.natAbs * fraction.2 == fraction.1
    magnitude && (significand == 0 || decide (integer < 0) == negative)
  | _ => false

/-- Whether two numbers are equal; a number that is none equals itself here. -/
def sameValue (left right : Binary64) : Bool :=
  left == right || (left.isZero && right.isZero)

/-- The ends of the interval of reals that round to `significand * 2 ^ exponent`. -/
def roundingInterval (significand : Nat) (exponent : Int) : (Nat × Nat) × (Nat × Nat) :=
  let below :=
    if significand = significandBound / 2 ∧ leastExponent < exponent then (4 * significand - 1, 4)
    else (2 * significand - 1, 2)
  (scale 2 exponent below, scale 2 exponent (2 * significand + 1, 2))

/-- Whether a fraction rounds to `significand * 2 ^ exponent`. The ends of the interval do so
exactly for an even significand. -/
def readsBack (significand : Nat) (exponent : Int) (fraction : Nat × Nat) : Bool :=
  let (low, high) := roundingInterval significand exponent
  let inside := fractionLess low fraction && fractionLess fraction high
  let onEnd := !fractionLess fraction low && !fractionLess high fraction
  inside || (significand % 2 == 0 && onEnd)

/-- The neighbour of a positive fraction on the grid of multiples of `10 ^ place` that reads back
as `significand * 2 ^ exponent`, the nearer one if both do, and of two equally near ones the even
one. -/
def neighbour? (significand : Nat) (exponent : Int) (fraction : Nat × Nat) (place : Int) :
    Option Nat :=
  let scaled := scale 10 (-place) fraction
  let below := scaled.1 / scaled.2
  let accepts (multiple : Nat) : Bool :=
    readsBack significand exponent (scale 10 place (multiple, 1))
  let nearest := roundQuotient scaled.1 scaled.2
  let other := if nearest = below then below + 1 else below
  if accepts nearest then some nearest else if accepts other then some other else none

/-- The number of decimal digits that always suffices. -/
def sufficientDigits : Nat := 17

/-- The first grid of at most `tries` many, ever finer, on which a neighbour reads back. -/
def firstGrid (significand : Nat) (exponent : Int) (fraction : Nat × Nat) :
    Nat → Int → Nat × Int
  | 0, place => (roundQuotient (scale 10 (-place) fraction).1 (scale 10 (-place) fraction).2, place)
  | tries + 1, place =>
    match neighbour? significand exponent fraction place with
    | some multiple => (multiple, place)
    | none => firstGrid significand exponent fraction tries (place - 1)

/-- The power of ten of the leading digit of a positive fraction, or one more. -/
def leadingPlace (fraction : Nat × Nat) : Int :=
  ((Nat.toDigits 10 fraction.1).length : Int) - (Nat.toDigits 10 fraction.2).length

/-- The shortest decimal that reads back as `significand * 2 ^ exponent`, as a multiple of a power
of ten. -/
def shortest (significand : Nat) (exponent : Int) : Nat × Int :=
  let fraction := scale 2 exponent (significand, 1)
  firstGrid significand exponent fraction (sufficientDigits + 1) (leadingPlace fraction)

end Binary64

end WolframSyntax
