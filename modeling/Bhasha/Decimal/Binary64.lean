/-!
# Binary64 numbers

A number literal is held as the 64 bits of its binary floating-point value, so two values are equal
exactly when all their bits are.  The magnitude of a finite number is an integer times a power of
two; nothing here computes with rounded arithmetic.

Source: benglang, package `lexer`: the value that `lexNumber` gives to a token.
-/

namespace Bhasha

/-- A binary64 number, given by its bits. -/
structure Binary64 where
  bits : UInt64
deriving DecidableEq, Repr

/-- The magnitude of a number, without its sign. -/
inductive Magnitude where
  /-- The value `significand * 2 ^ (scale - 1074)`. -/
  | finite (significand scale : Nat)
  | infinite
  | notANumber
deriving DecidableEq, Repr

namespace Binary64

def zero : Binary64 := ⟨0⟩

/-- The bits of positive infinity; every larger magnitude is no number. -/
def infinityBits : Nat := 0x7ff0000000000000

def infinity : Binary64 := ⟨0x7ff0000000000000⟩

def isNegative (x : Binary64) : Bool := x.bits.toNat ≥ Nat.pow 2 63

/-- The eleven bits of the exponent. -/
def exponentField (x : Binary64) : Nat := x.bits.toNat / Nat.pow 2 52 % Nat.pow 2 11

/-- The fifty-two bits of the fraction. -/
def fractionField (x : Binary64) : Nat := x.bits.toNat % Nat.pow 2 52

/-- The magnitude that the bits stand for. A zero exponent field has no leading one. -/
def magnitude (x : Binary64) : Magnitude :=
  if x.exponentField = 2047 then
    if x.fractionField = 0 then .infinite else .notANumber
  else if x.exponentField = 0 then .finite x.fractionField 0
  else .finite (Nat.pow 2 52 + x.fractionField) (x.exponentField - 1)

/-- Both zeros count as zero. -/
def isZero (x : Binary64) : Bool := x.bits.toNat % Nat.pow 2 63 = 0

end Binary64

end Bhasha
