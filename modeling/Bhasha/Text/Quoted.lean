import Bhasha.Text.Utf8
import Bhasha.Text.Printable

/-!
# Quoted text

A text between quotation marks, on one line and readable: printable code points stand for
themselves, everything else is written as an escape.  Bytes that are not UTF-8 keep their value as
two hexadecimal digits, so no two texts are quoted alike.

Source: the library function `Quote`, which benglang calls by the verb for quoted text.
-/

namespace Bhasha.Quoted

/-- The short escapes of control characters. -/
def shortEscape? (code : Nat) : Option Text :=
  match code with
  | 0x07 => some (text "\\a")
  | 0x08 => some (text "\\b")
  | 0x0c => some (text "\\f")
  | 0x0a => some (text "\\n")
  | 0x0d => some (text "\\r")
  | 0x09 => some (text "\\t")
  | 0x0b => some (text "\\v")
  | _ => none

/-- A code point inside the quotation mark `mark`. -/
def escape (mark code : Nat) : Text :=
  if code = mark || code = 0x5c then [0x5c, code.toUInt8]
  else if Printable.isPrintable code then Utf8.encode code
  else
    match shortEscape? code with
    | some short => short
    | none =>
      if code < 0x20 || code = 0x7f then text "\\x" ++ Text.hex 2 code
      else if code < 0x10000 then text "\\u" ++ Text.hex 4 code
      else text "\\U" ++ Text.hex 8 code

/-- A piece of a text inside the quotation mark `mark`. -/
def escapePiece (mark : Nat) : Utf8.Piece → Text
  | .rune code _ => escape mark code
  | .stray byte => text "\\x" ++ Text.hex 2 byte.toNat

/-- Pieces of a text between double quotation marks. -/
def quotePieces (pieces : List Utf8.Piece) : Text :=
  0x22 :: pieces.flatMap (escapePiece 0x22) ++ [0x22]

/-- A text between double quotation marks. -/
def quote (s : Text) : Text := quotePieces (Utf8.pieces s)

/-- The first `limit` pieces of a text between double quotation marks. -/
def quoteFirst (limit : Nat) (s : Text) : Text := quotePieces ((Utf8.pieces s).take limit)

/-- A code point between single quotation marks. -/
def quoteRune (code : Nat) : Text := 0x27 :: escape 0x27 code ++ [0x27]

/-- A piece that may stand between grave accents: no control character but the tab, no grave
accent, no delete, no byte order mark and no stray byte. -/
def isPlain : Utf8.Piece → Bool
  | .rune code _ =>
    !((code < 0x20 && code != 0x09) || code = 0x60 || code = 0x7f || code = 0xfeff)
  | .stray _ => false

/-- A text between grave accents where all of it may stand there, and quoted elsewhere. -/
def quotePlain (s : Text) : Text :=
  if (Utf8.pieces s).all isPlain then 0x60 :: s ++ [0x60] else quote s

end Bhasha.Quoted
