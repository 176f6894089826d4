import Bhasha.Text.Bytes

/-!
# Code points in a text

A text is read as UTF-8 one piece at a time.  A piece is a well-formed sequence of one to four
bytes, or a single byte where no well-formed sequence begins: a lone continuation byte, an overlong
form, a surrogate, a number above U+10FFFF and a sequence that is cut short are all read byte by
byte.

Source: benglang, package `lexer`: `next`, `peek` and `peekNext` of `Lexer`, and the library
function that decodes a code point.
-/

namespace Bhasha.Utf8

/-- A continuation byte carries six bits. -/
def isContinuation (b : UInt8) : Bool := 0x80 ≤ b && b ≤ 0xbf

/-- The second bytes that a first byte of a three-byte sequence allows. -/
def allowsSecondOfThree (first second : UInt8) : Bool :=
  if first = 0xe0 then 0xa0 ≤ second && second ≤ 0xbf
  else if first = 0xed then 0x80 ≤ second && second ≤ 0x9f
  else isContinuation second

/-- The second bytes that a first byte of a four-byte sequence allows. -/
def allowsSecondOfFour (first second : UInt8) : Bool :=
  if first = 0xf0 then 0x90 ≤ second && second ≤ 0xbf
  else if first = 0xf4 then 0x80 ≤ second && second ≤ 0x8f
  else isContinuation second

/-- The low bits of a byte, as many as stay below `limit`. -/
def payload (b : UInt8) (limit : Nat) : Nat := b.toNat % limit

/-- The code point at the start of a text with the number of its bytes, if the text starts with a
well-formed sequence. -/
def decode : Text → Option (Nat × Nat)
  | [] => none
  | a :: rest =>
    if a < 0x80 then some (a.toNat, 1)
    else if 0xc2 ≤ a && a ≤ 0xdf then
      match rest with
      | b :: _ =>
        if isContinuation b then some (64 * payload a 32 + payload b 64, 2) else none
      | _ => none
    else if 0xe0 ≤ a && a ≤ 0xef then
      match rest with
      | b :: c :: _ =>
        if allowsSecondOfThree a b && isContinuation c then
          some (4096 * payload a 16 + 64 * payload b 64 + payload c 64, 3)
        else none
      | _ => none
    else if 0xf0 ≤ a && a ≤ 0xf4 then
      match rest with
      | b :: c :: d :: _ =>
        if allowsSecondOfFour a b && isContinuation c && isContinuation d then
          some (262144 * payload a 8 + 4096 * payload b 64 + 64 * payload c 64 + payload d 64, 4)
        else none
      | _ => none
    else none

/-- The number of bytes of the piece at the start of a text. -/
def width (s : Text) : Nat :=
  match decode s with
  | some (_, n) => n
  | none => 1

/-- One piece of a text. -/
inductive Piece where
  /-- A code point with the bytes that encode it. -/
  | rune (code : Nat) (bytes : Text)
  /-- A byte that belongs to no well-formed sequence. -/
  | stray (byte : UInt8)
deriving DecidableEq, Repr

/-- The bytes of a piece. -/
def Piece.bytes : Piece → Text
  | .rune _ bytes => bytes
  | .stray byte => [byte]

/-- A text cut into pieces. -/
def pieces : Text → List Piece
  | [] => []
  | b :: rest =>
    match decode (b :: rest) with
    | some (code, n) => .rune code (b :: rest.take (n - 1)) :: pieces (rest.drop (n - 1))
    | none => .stray b :: pieces rest
termination_by s => s.length
decreasing_by all_goals simp only [List.length_cons, List.length_drop]; omega

/-- A text is well formed if it has no stray byte. -/
def isWellFormed (s : Text) : Bool :=
  (pieces s).all fun piece =>
    match piece with
    | .rune _ _ => true
    | .stray _ => false

/-- The bytes of a code point. -/
def encode (code : Nat) : Text :=
  let tail (n : Nat) : UInt8 := (0x80 + n % 64).toUInt8
  if code < 0x80 then [code.toUInt8]
  else if code < 0x800 then [(0xc0 + code / 64).toUInt8, tail code]
  else if code < 0x10000 then [(0xe0 + code / 4096).toUInt8, tail (code / 64), tail code]
  else
    [(0xf0 + code / 262144).toUInt8, tail (code / 4096), tail (code / 64), tail code]

/-- A code point that UTF-8 can hold: at most U+10FFFF and no surrogate. -/
def isScalar (code : Nat) : Bool := code < 0xd800 || (0xe000 ≤ code && code ≤ 0x10ffff)

end Bhasha.Utf8
