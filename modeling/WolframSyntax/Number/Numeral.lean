import WolframSyntax.Number.Binary64

/-!
# Numerals

How numbers are written. A finite number is first made a decimal: the shortest one that reads back,
or the nearest one with so many places or so many digits, of two equally near ones the even one.
Then its digits are set, either with a point, or with an exponent behind the leading digit. All
digits are those of the exact number, however many are asked for.
-/

namespace WolframSyntax

/-- Decimal digits, of which the leading one stands at the power of ten `power`. -/
structure Decimal where
  digits : List Char
  power : Int
  deriving DecidableEq, Repr

namespace Decimal

/-- A multiple of the power of ten `place`. -/
def ofMultiple (multiple : Nat) (place : Int) : Decimal :=
  let digits := Nat.toDigits 10 multiple
  ⟨digits, place + digits.length - 1⟩

/-- Whether all digits are zeros. -/
def isZero (decimal : Decimal) : Bool := decimal.digits.all (· == '0')

/-- Digits with zeros behind them up to a length. -/
def padded (length : Nat) (digits : List Char) : List Char :=
  digits ++ List.replicate (length - digits.length) '0'

/-- Digits that are long enough stay as they are, others get the length. -/
theorem length_padded (length : Nat) (digits : List Char) :
    (padded length digits).length = max length digits.length := by
  simp only [padded, List.length_append, List.length_replicate]
  omega

/-- The decimal with so many digits: they are cut off, or zeros are put on at its end. -/
def withDigits (count : Nat) (decimal : Decimal) : Decimal :=
  { decimal with digits := padded count (decimal.digits.take count) }

/-- The decimal with so many digits has just as many. -/
theorem length_digits_withDigits (count : Nat) (decimal : Decimal) :
    (decimal.withDigits count).digits.length = count := by
  simp only [withDigits, length_padded, List.length_take]
  omega

/-- The decimal without the zeros at its end; the leading digit stays. -/
def trimmed (decimal : Decimal) : Decimal :=
  let kept := (decimal.digits.reverse.dropWhile (· == '0')).reverse
  { decimal with digits := if kept.isEmpty then decimal.digits.take 1 else kept }

end Decimal

namespace Binary64

/-- No digit of a finite number stands at a lower power of ten. -/
def lowestPlace : Int := -1074

/-- The multiple of the power of ten `place` that is nearest to the magnitude of a finite number. -/
def nearest (magnitude : Nat × Nat) (place : Int) : Decimal :=
  let place := max place lowestPlace
  let scaled := scale 10 (-place) magnitude
  Decimal.ofMultiple (roundQuotient scaled.1 scaled.2) place

/-- The power of ten of the leading digit of a positive fraction. -/
def leadingPower (fraction : Nat × Nat) : Int :=
  let place := leadingPlace fraction
  if fractionLess fraction (scale 10 place (1, 1)) then place - 1 else place

/-- The decimal with at most `count` digits, zeros at the end apart, that is nearest to the
magnitude of a finite number. -/
def significant (magnitude : Nat × Nat) (count : Nat) : Decimal :=
  if magnitude.1 = 0 then ⟨['0'], 0⟩
  else nearest magnitude (leadingPower magnitude - count + 1)

/-- The shortest decimal that reads back as `significand * 2 ^ exponent`. -/
def shortestDecimal (significand : Nat) (exponent : Int) : Decimal :=
  if significand = 0 then ⟨['0'], 0⟩
  else
    let (multiple, place) := shortest significand exponent
    (Decimal.ofMultiple multiple place).trimmed

end Binary64

/-- A number in writing, without its sign: the digits before the point and all that follows them.
The words for numbers that are not finite have no digits. -/
structure Numeral where
  whole : List Char
  rest : List Char
  deriving DecidableEq, Repr

namespace Numeral

/-- The numeral as text. -/
def text (numeral : Numeral) : String := String.ofList (numeral.whole ++ numeral.rest)

/-- The numeral with capital letters. -/
def capital (numeral : Numeral) : Numeral :=
  { numeral with rest := numeral.rest.map Char.toUpper }

/-- A decimal exponent with its sign and at least two digits. -/
def exponentText (power : Int) : List Char :=
  let digits := Nat.toDigits 10 power.natAbs
  (if power < 0 then '-' else '+') :: (if digits.length < 2 then '0' :: digits else digits)

/-- The digits after the point. Without any the point is written only if it is to be kept. -/
def fractionText (keepsPoint : Bool) (digits : List Char) : List Char :=
  if digits.isEmpty && !keepsPoint then [] else '.' :: digits

/-- A decimal with a point and at least `places` digits after it. -/
def positional (places : Nat) (keepsPoint : Bool) (decimal : Decimal) : Numeral :=
  let size := (decimal.power + 1).toNat
  let zeros : List Char := List.replicate (-decimal.power - 1).toNat '0'
  ⟨Decimal.padded (max size 1) (decimal.digits.take size),
    fractionText keepsPoint (Decimal.padded places (zeros ++ decimal.digits.drop size))⟩

/-- A decimal with its leading digit before the point and an exponent. -/
def scientific (keepsPoint : Bool) (decimal : Decimal) : Numeral :=
  ⟨decimal.digits.take 1,
    fractionText keepsPoint (decimal.digits.drop 1) ++ 'e' :: exponentText decimal.power⟩

/-- A decimal with a point and at least `places` digits after it, or with an exponent if its
leading digit stands more than three zeros behind the point or at the power of ten `limit` or
above. -/
def general (limit : Int) (places : Nat) (keepsPoint : Bool) (decimal : Decimal) : Numeral :=
  if decimal.power < -4 || limit ≤ decimal.power then scientific keepsPoint decimal
  else positional places keepsPoint decimal

end Numeral

/-- The ways to write a number. -/
inductive NumberForm where
  | shortest
  | rounded (digits : Nat)
  | general (digits : Nat)
  | fixed (places : Nat)
  | scientific (places : Nat)
  deriving DecidableEq, Repr

namespace NumberForm

/-- Numbers in their shortest form have an exponent from this power of ten on. -/
def shortestLimit : Int := 16

/-- The decimal that is written for a finite number. -/
def decimal (form : NumberForm) (significand : Nat) (exponent : Int) : Decimal :=
  let magnitude := Binary64.scale 2 exponent (significand, 1)
  match form with
  | shortest => Binary64.shortestDecimal significand exponent
  | rounded digits | general digits => Binary64.significant magnitude digits
  | fixed places => Binary64.nearest magnitude (-places)
  | scientific places => Binary64.significant magnitude (places + 1)

/-- A decimal in writing. When it is complete, its point is always there, and a given number of
digits are all shown. -/
def write (form : NumberForm) (complete : Bool) (decimal : Decimal) : Numeral :=
  let kept (digits : Nat) : Decimal :=
    if complete then decimal.withDigits digits else decimal.trimmed
  match form with
  | shortest => Numeral.general shortestLimit 1 complete decimal
  | rounded digits => Numeral.general (digits - 1) 1 complete (kept digits)
  | general digits => Numeral.general digits 0 complete (kept digits)
  | fixed places => Numeral.positional places complete decimal
  | scientific places => Numeral.scientific complete (decimal.withDigits (places + 1))

end NumberForm

namespace Binary64

/-- The number that is `factor` times as large. -/
def times (factor : Nat) : Binary64 → Binary64
  | finite negative significand exponent =>
    if significand = 0 then finite negative significand exponent
    else ofFraction negative (scale 2 exponent (factor * significand, 1))
  | number => number

/-- The sign and the written form of a number. The sign of a written zero can be left out; the word
for a number that is none has no sign. -/
def written (form : NumberForm) (complete unsignedZero : Bool) : Binary64 → Bool × Numeral
  | notANumber => (false, ⟨[], "nan".toList⟩)
  | infinite negative => (negative, ⟨[], "inf".toList⟩)
  | finite negative significand exponent =>
    let decimal := form.decimal significand exponent
    (negative && !(unsignedZero && decimal.isZero), form.write complete decimal)

/-- A number as text: with the fewest digits that read back, with a point or an exponent. -/
def display (number : Binary64) : String :=
  let (negative, numeral) := number.written .shortest false false
  (if negative then "-" else "") ++ numeral.text

end Binary64

end WolframSyntax
