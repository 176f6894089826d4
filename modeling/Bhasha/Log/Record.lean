import Bhasha.Log.Level

/-!
# Log records

A record has a level, a message and attributes.  It is written on one line, either as words with
their values or as an object.  In words, a key or a text is quoted if it could be misread; as an
object, texts are escaped so that a line stays one line.  Attributes keep their order, and a key may
come twice.

Source: the two record handlers that `New` of package `logs` of benglang starts.
-/

namespace Bhasha

/-- The value of an attribute. -/
inductive LogValue where
  | text (value : Text)
  | whole (value : Int)
  | truth (value : Bool)
deriving DecidableEq, Repr

structure LogRecord where
  level : LogLevel
  message : Text
  attributes : List (Text × LogValue)
deriving DecidableEq, Repr

namespace LogRecord

/-- A piece that could be misread outside quotation marks. -/
def needsQuotes : Utf8.Piece → Bool
  | .stray _ => true
  | .rune code _ =>
    if code < 0x80 then code ≤ 0x20 || code = 0x3d || code = 0x22
    else code = 0xfffd || !Printable.isPrintable code

/-- A text, quoted if it is empty or could be misread. -/
def word (s : Text) : Text :=
  let pieces := Utf8.pieces s
  if s.isEmpty || pieces.any needsQuotes then Quoted.quotePieces pieces else s

def truthText (value : Bool) : Text := if value then text "true" else text "false"

def valueWord : LogValue → Text
  | .text value => word value
  | .whole value => Text.ofInt value
  | .truth value => truthText value

/-- One word with its value. -/
def pairWord (key value : Text) : Text := word key ++ text "=" ++ value

/-- The record in words. -/
def line (r : LogRecord) : Text :=
  let heading := [(text "level", LogValue.text r.level.name), (text "msg", .text r.message)]
  let words := (heading ++ r.attributes).map fun a => pairWord a.1 (valueWord a.2)
  Text.joinWith (text " ") words ++ [Text.lineFeed]

/-- A code point inside a string of an object. -/
def escapeRune (code : Nat) (bytes : Text) : Text :=
  match code with
  | 0x22 => text "\\\""
  | 0x5c => text "\\\\"
  | 0x08 => text "\\b"
  | 0x0c => text "\\f"
  | 0x0a => text "\\n"
  | 0x0d => text "\\r"
  | 0x09 => text "\\t"
  | 0x2028 => text "\\u2028"
  | 0x2029 => text "\\u2029"
  | _ => if code < 0x20 then text "\\u" ++ Text.hex 4 code else bytes

/-- A piece of a text inside a string of an object; a stray byte becomes the replacement
character. -/
def escapePiece : Utf8.Piece → Text
  | .rune code bytes => escapeRune code bytes
  | .stray _ => text "\\ufffd"

/-- A text as a string of an object. -/
def objectString (s : Text) : Text :=
  0x22 :: (Utf8.pieces s).flatMap escapePiece ++ [0x22]

def objectValue : LogValue → Text
  | .text value => objectString value
  | .whole value => Text.ofInt value
  | .truth value => truthText value

/-- The record as an object. -/
def object (r : LogRecord) : Text :=
  let heading := [(text "level", LogValue.text r.level.name), (text "msg", .text r.message)]
  let members := (heading ++ r.attributes).map fun a =>
    objectString a.1 ++ text ":" ++ objectValue a.2
  text "\x7b" ++ Text.joinWith (text ",") members ++ text "\x7d" ++ [Text.lineFeed]

end LogRecord

end Bhasha
