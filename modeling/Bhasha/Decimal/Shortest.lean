import Bhasha.Decimal.Binary64

/-!
# The shortest decimal of a number

Among the decimals that are read back as a given number, the one with the fewest digits is chosen,
and of two with equally many digits the nearer.  An exact tie goes to the even last digit.  A number
owns the ratios that lie nearer to it than to its neighbours; the two ends belong to it when its
significand is even.

Source: benglang, package `ast`: the library function `FormatFloat` in `Dump` of `LiteralExpr`.
-/

namespace Bhasha.Decimal

/-- The value `digits * 10 ^ power`. -/
structure Numeral where
  digits : Nat
  power : Int
deriving DecidableEq, Repr

/-- The ratios that are read as one number, over a common denominator. -/
structure Basin where
  low : Nat
  centre : Nat
  high : Nat
  denominator : Nat
  /-- Whether the two ends belong to the number. -/
  closed : Bool
deriving DecidableEq, Repr

/-- The basin of a positive finite magnitude. Below a power of two the neighbours stand twice as
close, except at the smallest scale. -/
def Basin.of (significand scale : Nat) : Basin :=
  let below := if significand = Nat.pow 2 52 && 0 < scale then 1 else 2
  let up := Nat.pow 2 (scale - 1076)
  { low := (4 * significand - below) * up
    centre := 4 * significand * up
    high := (4 * significand + 2) * up
    denominator := Nat.pow 2 (1076 - scale)
    closed := significand % 2 = 0 }

/-- Whether `digits * 10 ^ power` lies in the basin. -/
def Basin.holds (b : Basin) (n : Numeral) : Bool :=
  let value := n.digits * Nat.pow 10 n.power.toNat * b.denominator
  let shift := Nat.pow 10 (-n.power).toNat
  let low := b.low * shift
  let high := b.high * shift
  if b.closed then low ≤ value && value ≤ high else low < value && value < high

/-- The least power of ten, at most `fuel`, that lifts a ratio to one or more. -/
def liftingPower (numerator denominator : Nat) : Nat → Nat
  | 0 => 0
  | fuel + 1 =>
    if denominator ≤ numerator then 0
    else liftingPower (10 * numerator) denominator fuel + 1

/-- The power of ten of the first digit of the centre. -/
def Basin.decade (b : Basin) : Int :=
  if b.denominator ≤ b.centre then ((Nat.toDigits 10 (b.centre / b.denominator)).length : Int) - 1
  else -(liftingPower b.centre b.denominator 400 : Int)

/-- The neighbours of the centre on the grid of multiples of `10 ^ power`, nearer one first. -/
def Basin.neighbours (b : Basin) (power : Int) : List Numeral :=
  let numerator := b.centre * Nat.pow 10 (-power).toNat
  let denominator := b.denominator * Nat.pow 10 power.toNat
  let under := numerator / denominator
  let twice := 2 * (numerator % denominator)
  let down : Numeral := ⟨under, power⟩
  let up : Numeral := ⟨under + 1, power⟩
  if twice < denominator || (twice = denominator && under % 2 = 0) then [down, up]
  else [up, down]

/-- The first decimal of the basin on ever finer grids, starting with `count` digits. -/
def Basin.search (b : Basin) (count : Nat) : Nat → Numeral
  | 0 => ⟨0, 0⟩
  | fuel + 1 =>
    match (b.neighbours (b.decade - count + 1)).find? b.holds with
    | some found => found
    | none => b.search (count + 1) fuel

/-- Seventeen digits always tell a number from its neighbours. -/
def mostDigits : Nat := 17

/-- The shortest decimal of a positive finite magnitude. -/
def shortest (significand scale : Nat) : Numeral := (Basin.of significand scale).search 1 mostDigits

end Bhasha.Decimal
