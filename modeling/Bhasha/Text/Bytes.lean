/-!
# Text as bytes

A text is the plain sequence of its bytes.  Source files, lexemes, string literals, messages and
everything printed are such sequences, so a text that is not well-formed UTF-8 is carried through
unchanged.  Reading code points out of a text is the business of `Bhasha.Text.Utf8`.
-/

namespace Bhasha

/-- A text is the sequence of its bytes. -/
abbrev Text := List UInt8

/-- The bytes of a fixed wording. -/
def text (wording : String) : Text := wording.toUTF8.data.toList

namespace Text

/-- The byte that ends a line. -/
def lineFeed : UInt8 := 0x0a

/-- The decimal digits of a natural number. -/
def ofNat (n : Nat) : Text := (Nat.toDigits 10 n).map fun c => c.toNat.toUInt8

/-- The decimal digits of an integer, after a minus sign when it is negative. -/
def ofInt : Int → Text
  | .ofNat n => ofNat n
  | .negSucc n => 0x2d :: ofNat (n + 1)

/-- Texts one after the other with a separator between neighbours. -/
def joinWith (separator : Text) : List Text → Text
  | [] => []
  | [last] => last
  | first :: next :: rest => first ++ separator ++ joinWith separator (next :: rest)

/-- Texts on lines of their own; the last line is left open. -/
def joinLines (lines : List Text) : Text := joinWith [lineFeed] lines

def isDigit (b : UInt8) : Bool := 0x30 ≤ b && b ≤ 0x39

/-- An ASCII letter. -/
def isLetter (b : UInt8) : Bool := (0x61 ≤ b && b ≤ 0x7a) || (0x41 ≤ b && b ≤ 0x5a)

/-- The value of the digits of a text, read in base ten from the left. -/
def digitsValue (digits : Text) : Nat :=
  digits.foldl (fun n d => 10 * n + (d.toNat - 0x30)) 0

/-- A hexadecimal digit in lower case; only the last four bits of the number count. -/
def hexDigit (n : Nat) : UInt8 :=
  let d := n % 16
  if d < 10 then (0x30 + d).toUInt8 else (0x57 + d).toUInt8

/-- The last `width` hexadecimal digits of a number. -/
def hex (width n : Nat) : Text :=
  (List.range width).reverse.map fun place => hexDigit (n >>> (4 * place))

/-- The value of a hexadecimal digit of either case. -/
def hexValue? (b : UInt8) : Option Nat :=
  if isDigit b then some (b.toNat - 0x30)
  else if 0x61 ≤ b && b ≤ 0x66 then some (b.toNat - 0x57)
  else if 0x41 ≤ b && b ≤ 0x46 then some (b.toNat - 0x37)
  else none

/-- A text cut at the first byte that satisfies `stop`, which opens the second half. -/
def cutAt (stop : UInt8 → Bool) (s : Text) : Text × Text :=
  (s.takeWhile (!stop ·), s.dropWhile (!stop ·))

/-- The parts of a text between the separators; a text without separators is its only part. -/
def splitOn (separator : UInt8) : Text → List Text
  | [] => [[]]
  | b :: rest =>
    match splitOn separator rest with
    | [] => [[b]]
    | part :: parts => if b = separator then [] :: part :: parts else (b :: part) :: parts

end Text

end Bhasha
