import Bhasha.Text.Utf8

/-!
# Letter case

Names are compared without regard to case in three ways: by their capitals, by folding and by
their small letters.  Only ASCII names are ever looked for, so a mapping states the ASCII letters
and the few other letters whose counterpart is an ASCII letter or takes another number of bytes.
Every other letter stands for itself.

Source: the library functions by which benglang and its libraries compare names (`ToUpper`,
`EqualFold`, `ToLower`).
-/

namespace Bhasha.LetterCase

def isCapital (code : Nat) : Bool := 0x41 ≤ code && code ≤ 0x5a

def isSmall (code : Nat) : Bool := 0x61 ≤ code && code ≤ 0x7a

/-- The capital of a letter; the dotless i and the long s have ASCII capitals. -/
def capital (code : Nat) : Nat :=
  if isSmall code then code - 0x20
  else if code = 0x131 then 0x49
  else if code = 0x17f then 0x53
  else code

/-- The representative of a letter among its case variants; the long s folds to s and the kelvin
sign to k. -/
def fold (code : Nat) : Nat :=
  if isCapital code then code + 0x20
  else if code = 0x17f then 0x73
  else if code = 0x212a then 0x6b
  else code

/-- The capitals outside ASCII whose small letter takes another number of bytes. -/
def resized : List (Nat × Nat) := [
  (0x130, 0x69), (0x23a, 0x2c65), (0x23e, 0x2c66), (0x1e9e, 0xdf), (0x2126, 0x3c9),
  (0x212a, 0x6b), (0x212b, 0xe5), (0x2c62, 0x26b), (0x2c64, 0x27d), (0x2c6d, 0x251),
  (0x2c6e, 0x271), (0x2c6f, 0x250), (0x2c70, 0x252), (0x2c7e, 0x23f), (0x2c7f, 0x240),
  (0xa78d, 0x265), (0xa7aa, 0x266), (0xa7ab, 0x25c), (0xa7ac, 0x261), (0xa7ad, 0x26c),
  (0xa7ae, 0x26a), (0xa7b0, 0x29e), (0xa7b1, 0x287), (0xa7b2, 0x29d), (0xa7c5, 0x282),
  (0xa7cb, 0x264), (0xa7dc, 0x19b)]

/-- The small letter of a letter. -/
def small (code : Nat) : Nat :=
  if isCapital code then code + 0x20
  else
    match resized.find? (·.1 = code) with
    | some (_, letter) => letter
    | none => code

/-- A text with every code point mapped; a stray byte becomes the replacement character. -/
def mapRunes (f : Nat → Nat) (s : Text) : Text :=
  (Utf8.pieces s).flatMap fun piece =>
    match piece with
    | .rune code bytes => if f code = code then bytes else Utf8.encode (f code)
    | .stray _ => Utf8.encode 0xfffd

/-- The text in capitals. -/
def toCapitals (s : Text) : Text := mapRunes capital s

/-- The text in small letters. -/
def toSmall (s : Text) : Text := mapRunes small s

/-- Two texts are the same name if they differ in case only. -/
def sameName (a b : Text) : Bool := mapRunes fold a == mapRunes fold b

end Bhasha.LetterCase
