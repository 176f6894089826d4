import Bhasha.Text.Utf8
import Bhasha.Token.Kind

/-!
# Lexemes

A source text falls into lexemes without gap or overlap.  The shape of the next lexeme follows from
its first byte and what comes after: a blank, a comment up to the end of its line, a string between
quotation marks, a number, a word, or an operator, each as long as the text allows.  Where none of
these begins, the lexeme is an error: a string that is never closed takes the rest of the text, any
other character stands alone.

Source: benglang, package `lexer`: `lexText`, `lexComment`, `lexString`, `lexNumber` and
`lexIdentifier` with `singles`, `doubles`, `isDigit`, `isAlpha` and `isAlphaNumeric`.
-/

namespace Bhasha

/-- What a lexeme is. -/
inductive Shape where
  | blank
  | comment
  | string
  | number
  | word
  | operator (kind : Kind)
  /-- A string without its closing quotation mark. -/
  | unclosed
  /-- A character that begins nothing. -/
  | stray
deriving DecidableEq, Repr

structure Lexeme where
  shape : Shape
  text : Text
deriving DecidableEq, Repr

namespace Lexeme

def isBlank (b : UInt8) : Bool := b = 0x20 || b = 0x0d || b = 0x09 || b = Text.lineFeed

/-- Words begin with a letter or an underscore. -/
def beginsWord (b : UInt8) : Bool := Text.isLetter b || b = 0x5f

def continuesWord (b : UInt8) : Bool := beginsWord b || Text.isDigit b

/-- The operators and marks of one byte. -/
def mark? (b : UInt8) : Option Kind :=
  match b with
  | 0x28 => some .leftParen
  | 0x29 => some .rightParen
  | 0x7b => some .leftBrace
  | 0x7d => some .rightBrace
  | 0x2c => some .comma
  | 0x2e => some .dot
  | 0x2d => some .minus
  | 0x2b => some .plus
  | 0x3b => some .semicolon
  | 0x2a => some .star
  | 0x2f => some .slash
  | 0x21 => some .bang
  | 0x3d => some .equal
  | 0x3c => some .less
  | 0x3e => some .greater
  | _ => none

/-- The operators of two bytes are a mark followed by an equals sign. -/
def withEqual? : Kind → Option Kind
  | .bang => some .bangEqual
  | .equal => some .equalEqual
  | .less => some .lessEqual
  | .greater => some .greaterEqual
  | _ => none

/-- How many bytes of `rest` satisfy `p` before the first that does not. -/
def run (p : UInt8 → Bool) (rest : Text) : Nat := (rest.takeWhile p).length

/-- The bytes of a number after its first digit. A point belongs to the number when a digit
follows. -/
def numberRun (rest : Text) : Nat :=
  let whole := run Text.isDigit rest
  match rest.drop whole with
  | 0x2e :: fraction =>
    let places := run Text.isDigit fraction
    if 0 < places then whole + 1 + places else whole
  | _ => whole

/-- The shape of the lexeme that begins with `b`, and how many bytes of `rest` belong to it. -/
def measure (b : UInt8) (rest : Text) : Shape × Nat :=
  if isBlank b then (.blank, 0)
  else if b = 0x2f && rest.head? = some 0x2f then (.comment, run (· != Text.lineFeed) rest)
  else if b = 0x22 then
    let content := run (· != 0x22) rest
    if content < rest.length then (.string, content + 1) else (.unclosed, rest.length)
  else if Text.isDigit b then (.number, numberRun rest)
  else if beginsWord b then (.word, run continuesWord rest)
  else
    match mark? b with
    | some kind =>
      match withEqual? kind, rest.head? with
      | some double, some 0x3d => (.operator double, 1)
      | _, _ => (.operator kind, 0)
    | none => (.stray, Utf8.width (b :: rest) - 1)

/-- The lexemes of a text, in order. -/
def split : Text → List Lexeme
  | [] => []
  | b :: rest =>
    let (shape, more) := measure b rest
    ⟨shape, b :: rest.take more⟩ :: split (rest.drop more)
termination_by source => source.length
decreasing_by simp only [List.length_cons, List.length_drop]; omega

/-- The line breaks inside a lexeme. -/
def lineBreaks (l : Lexeme) : Nat := l.text.count Text.lineFeed

end Lexeme

end Bhasha
