import Bhasha.Decimal.Rounding

/-!
# Scalars of a TOML document

Numbers, dates and times.  No setting has such a value, so a scalar is only told to be well formed
and in range: integers have 64 bits, floats must not overflow, a day must exist in its month.

Source: the TOML library that `decode` of package `config` of benglang calls.
-/

namespace Bhasha.Toml

def isHexDigit (b : UInt8) : Bool := (Text.hexValue? b).isSome

def isUnderscore (b : UInt8) : Bool := b = 0x5f

def isSign (b : UInt8) : Bool := b = 0x2b || b = 0x2d

/-- Every underscore follows a digit, and the last byte is a digit. Digits of any base count. -/
def underscoresOk (digitBefore : Bool) : Text → Bool
  | [] => digitBefore
  | b :: rest => (!isUnderscore b || digitBefore) && underscoresOk (isHexDigit b) rest

/-- A zero before other digits; a base is no digit. -/
def hasLeadingZero : Text → Bool
  | 0x30 :: b :: _ => !(b = 0x62 || b = 0x6f || b = 0x78)
  | sign :: 0x30 :: _ :: _ => isSign sign
  | _ => false

/-- The value of digits in a base; underscores are passed over. -/
def valueInBase (base : Nat) (digits : Text) : Nat :=
  digits.foldl (fun n b => if isUnderscore b then n else base * n + (Text.hexValue? b).getD 0) 0

/-- An integer of 64 bits. -/
def isInteger (s : Text) : Bool :=
  underscoresOk false s && !hasLeadingZero s &&
    match s with
    | 0x30 :: 0x78 :: digits => valueInBase 16 digits < Nat.pow 2 63
    | 0x30 :: 0x6f :: digits => valueInBase 8 digits < Nat.pow 2 63
    | 0x30 :: 0x62 :: digits => valueInBase 2 digits < Nat.pow 2 63
    | 0x2d :: digits => valueInBase 10 digits ≤ Nat.pow 2 63
    | 0x2b :: digits => valueInBase 10 digits < Nat.pow 2 63
    | digits => valueInBase 10 digits < Nat.pow 2 63

/-- The parts of a float between its points and exponent marks, without empty ones. -/
def floatParts (s : Text) : List Text :=
  let cut := s.map fun b => if b = 0x65 || b = 0x45 then 0x2e else b
  (Text.splitOn 0x2e cut).filter (!·.isEmpty)

/-- A digit follows every point. -/
def pointsOk (afterPoint : Bool) : Text → Bool
  | [] => !afterPoint
  | b :: rest => (!afterPoint || Text.isDigit b) && pointsOk (b = 0x2e) rest

/-- The digits of a numeral and what follows them. -/
def spanDigits (s : Text) : Text × Text := Text.cutAt (!Text.isDigit ·) s

/-- Removes a sign at the front. -/
def dropSign : Text → Text
  | [] => []
  | b :: rest => if isSign b then rest else b :: rest

/-- The size from which an exponent takes no further digits. -/
def longExponent : Nat := 10000

/-- The size of an exponent; a digit counts only as long as the ones before it stay small. -/
def exponentSize (digits : Text) : Nat :=
  digits.foldl (fun n b => if n < longExponent then 10 * n + (b.toNat - 0x30) else n) 0

/-- Whether a decimal with an exponent is too large for a float. -/
def overflows (whole fraction : Text) (negative : Bool) (exponent : Text) : Bool :=
  let digits := Text.digitsValue (whole ++ fraction)
  let size := exponentSize exponent
  let value :=
    if negative then Decimal.ofRatio digits (Nat.pow 10 (fraction.length + size))
    else Decimal.ofRatio (digits * Nat.pow 10 size) (Nat.pow 10 fraction.length)
  value = .infinity

/-- A decimal without underscores: digits, an optional fraction and an optional exponent. -/
def isFiniteDecimal (s : Text) : Bool :=
  let (whole, rest) := spanDigits (dropSign s)
  let (fraction, rest) := match rest with
    | 0x2e :: more => spanDigits more
    | _ => ([], rest)
  if whole.isEmpty && fraction.isEmpty then false
  else
    match rest with
    | [] => !overflows whole fraction false []
    | mark :: power =>
      let negative := power.head? = some 0x2d
      let (exponent, more) := spanDigits (dropSign power)
      (mark = 0x65 || mark = 0x45) && !exponent.isEmpty && more.isEmpty &&
        !overflows whole fraction negative exponent

/-- A float that is not named. -/
def isFloat (s : Text) : Bool :=
  let parts := floatParts s
  parts.all (underscoresOk false) && !(parts.head?.any hasLeadingZero) && pointsOk false s &&
    isFiniteDecimal (s.filter (!isUnderscore ·))

def isLeapYear (year : Nat) : Bool := year % 4 = 0 && (year % 100 != 0 || year % 400 = 0)

def daysIn (year month : Nat) : Nat :=
  match month with
  | 2 => if isLeapYear year then 29 else 28
  | 4 | 6 | 9 | 11 => 30
  | _ => 31

/-- Two digits up to a limit at the front of a text, and what follows. -/
def twoDigits? (limit : Nat) : Text → Option (Nat × Text)
  | a :: b :: rest =>
    if Text.isDigit a && Text.isDigit b then
      let n := Text.digitsValue [a, b]
      if n ≤ limit then some (n, rest) else none
    else none
  | _ => none

/-- The rest of a text after a given byte. -/
def after? (byte : UInt8) : Text → Option Text
  | [] => none
  | b :: rest => if b = byte then some rest else none

/-- What follows a date. -/
def afterDate? (s : Text) : Option Text := do
  let year := s.take 4
  if year.length = 4 && year.all Text.isDigit then
    let rest ← after? 0x2d (s.drop 4)
    let (month, rest) ← twoDigits? 12 rest
    let rest ← after? 0x2d rest
    let (day, rest) ← twoDigits? 31 rest
    if 1 ≤ month && 1 ≤ day && day ≤ daysIn (Text.digitsValue year) month then some rest else none
  else none

/-- What follows a time of day. A fraction has at least one digit. -/
def afterTime? (s : Text) : Option Text := do
  let (_, rest) ← twoDigits? 23 s
  let rest ← after? 0x3a rest
  let (_, rest) ← twoDigits? 59 rest
  let rest ← after? 0x3a rest
  let (_, rest) ← twoDigits? 59 rest
  match rest with
  | 0x2e :: fraction =>
    let (digits, rest) := spanDigits fraction
    if digits.isEmpty then none else some rest
  | _ => some rest

/-- The distance from universal time. -/
def isOffset (s : Text) : Bool :=
  match s with
  | [0x5a] => true
  | sign :: rest =>
    isSign sign &&
      match twoDigits? 24 rest with
      | some (_, 0x3a :: minutes) => (twoDigits? 60 minutes).any (·.2.isEmpty)
      | _ => false
  | [] => false

/-- A date, a time, or both with an optional offset. The two are divided by a `T` or a blank. -/
def isMoment (source : Text) : Bool :=
  let s := source.map fun b =>
    if b = 0x20 || b = 0x74 then 0x54 else if b = 0x7a then 0x5a else b
  match afterDate? s with
  | some [] => true
  | some (0x54 :: rest) => (afterTime? rest).any fun rest => rest.isEmpty || isOffset rest
  | some _ => false
  | none => (afterTime? s).any (·.isEmpty)

end Bhasha.Toml
