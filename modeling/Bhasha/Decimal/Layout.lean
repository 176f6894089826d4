import Bhasha.Text.Bytes
import Bhasha.Decimal.Shortest

/-!
# Writing a number

Three ways to write a number.  The positional form writes out every place, the compact form changes
to an exponent for very small and for large numbers, and the pointed form marks whole numbers by a
final `.0`.  All three name the number by its shortest decimal, the pointed form of a whole number
by all its digits.

Source: benglang, package `ast`: `Dump` of `LiteralExpr` with `infLiteral`, and the numbers in the
dumps of package `main`.
-/

namespace Bhasha

namespace Decimal

/-- Digits without trailing zeros, and the number of places before the point. -/
structure Places where
  digits : Text
  point : Int
deriving DecidableEq, Repr

/-- The digits of a decimal; trailing zeros move into the place of the point. -/
def Places.ofNumeral (n : Numeral) : Places :=
  let digits := Text.ofNat n.digits
  { digits := (digits.reverse.dropWhile (· = 0x30)).reverse
    point := digits.length + n.power }

/-- The places of a finite magnitude; zero is the digit 0 before the point. -/
def Places.ofFinite (significand scale : Nat) : Places :=
  if significand = 0 then ⟨[0x30], 1⟩ else .ofNumeral (shortest significand scale)

def zeros (n : Nat) : Text := List.replicate n 0x30

/-- Every place written out. -/
def Places.positional (p : Places) : Text :=
  if p.point ≤ 0 then text "0." ++ zeros (-p.point).toNat ++ p.digits
  else
    let whole := p.point.toNat
    if p.digits.length ≤ whole then p.digits ++ zeros (whole - p.digits.length)
    else p.digits.take whole ++ [0x2e] ++ p.digits.drop whole

/-- An exponent has a sign and at least two digits. -/
def exponentText (e : Int) : Text :=
  let sign : UInt8 := if e < 0 then 0x2d else 0x2b
  let digits := Text.ofNat e.natAbs
  0x65 :: sign :: zeros (2 - digits.length) ++ digits

/-- One digit before the point, and the power of ten. -/
def Places.scientific (p : Places) : Text :=
  let point : Text := if p.digits.length ≤ 1 then [] else [0x2e]
  p.digits.take 1 ++ point ++ p.digits.drop 1 ++ exponentText (p.point - 1)

/-- Positional from a ten-thousandth up to the hundred thousands, with an exponent elsewhere. -/
def Places.compact (p : Places) : Text :=
  if p.point - 1 < -4 || 6 ≤ p.point - 1 then p.scientific else p.positional

/-- The whole value of a finite magnitude, if it has one. -/
def whole? (significand scale : Nat) : Option Nat :=
  if 1074 ≤ scale then some (significand * Nat.pow 2 (scale - 1074))
  else
    let unit := Nat.pow 2 (1074 - scale)
    if significand % unit = 0 then some (significand / unit) else none

end Decimal

namespace Binary64

open Decimal

/-- A number written with its sign; the finite magnitudes are left to `finite`. -/
def layout (finite : Nat → Nat → Text) (plusInfinity : Text) (x : Binary64) : Text :=
  let sign : Text := if x.isNegative then [0x2d] else []
  match x.magnitude with
  | .finite significand scale => sign ++ finite significand scale
  | .infinite => if x.isNegative then text "-Inf" else plusInfinity
  | .notANumber => text "NaN"

/-- The positional form; infinity is written as the least power of ten that is read as infinity. -/
def positional (x : Binary64) : Text :=
  x.layout (fun m s => (Places.ofFinite m s).positional) (0x31 :: zeros 309)

/-- The compact form. -/
def compact (x : Binary64) : Text :=
  x.layout (fun m s => (Places.ofFinite m s).compact) (text "+Inf")

/-- The pointed form: whole numbers with all their digits and `.0`, others in the compact form. -/
def pointed (x : Binary64) : Text :=
  let finite (m s : Nat) : Text :=
    match whole? m s with
    | some value => Text.ofNat value ++ text ".0"
    | none => (Places.ofFinite m s).compact
  x.layout finite (text "+Inf")

end Binary64

end Bhasha
