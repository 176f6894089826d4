import Bhasha.Text.Bytes
import Bhasha.Decimal.Binary64

/-!
# Reading a decimal number

A decimal numeral is a ratio of two natural numbers.  It is read as the binary64 number nearest to
that ratio, and a ratio halfway between two numbers goes to the one whose last bit is zero.  Ratios
past the largest number are read as infinity, ratios below half the smallest as zero.

Source: benglang, package `lexer`: `lexNumber` and the library function `ParseFloat`.
-/

namespace Bhasha.Decimal

/-- The quotient of two numbers rounded to the nearest integer, halves to the even neighbour. -/
def roundDiv (numerator denominator : Nat) : Nat :=
  let quotient := numerator / denominator
  let twice := 2 * (numerator % denominator)
  if twice < denominator then quotient
  else if denominator < twice then quotient + 1
  else quotient + quotient % 2

/-- The largest `e` with `2 ^ e ≤ numerator / denominator`, for positive numbers. -/
def floorLog2 (numerator denominator : Nat) : Int :=
  let n := numerator.log2
  let d := denominator.log2
  if denominator * Nat.pow 2 n ≤ numerator * Nat.pow 2 d then (n : Int) - d else (n : Int) - d - 1

/-- The scale of the numbers around a ratio: neighbours differ by `2 ^ (scale - 1074)`. -/
def scaleOf (numerator denominator : Nat) : Nat := (floorLog2 numerator denominator + 1022).toNat

/-- The nearest binary64 number to a ratio. The bits of a magnitude are its scale above its
significand, and a significand that rounds up to the next power of two carries into the scale. -/
def ofRatio (numerator denominator : Nat) : Binary64 :=
  if numerator = 0 then .zero
  else
    let scale := scaleOf numerator denominator
    if 2046 ≤ scale then .infinity
    else
      let significand :=
        if scale ≤ 1074 then roundDiv (numerator * Nat.pow 2 (1074 - scale)) denominator
        else roundDiv numerator (denominator * Nat.pow 2 (scale - 1074))
      ⟨(min (scale * Nat.pow 2 52 + significand) Binary64.infinityBits).toUInt64⟩

/-- The number that a run of digits, and a run of digits after a point, stand for. -/
def read (whole fraction : Text) : Binary64 :=
  ofRatio (Text.digitsValue (whole ++ fraction)) (Nat.pow 10 fraction.length)

end Bhasha.Decimal
