import Bhasha.Decimal.Rounding
import Bhasha.Lexeme
import Bhasha.Token.Basic

/-!
# Scanning

Scanning keeps the lexemes that mean something and turns them into tokens.  A token stands on the
line on which its lexeme ends, and the list always closes with the end of the input.  Error lexemes
become faults with a line; they never stop the scan.

Source: benglang, package `lexer`: `Scan`, `New`, and `Tokens`, `emit`, `emitLiteral` and `errorf`
of `Lexer`.
-/

namespace Bhasha

/-- What can be wrong with a lexeme. -/
inductive LexicalError where
  | unexpectedCharacter
  | unterminatedString
deriving DecidableEq, Repr

def LexicalError.message : LexicalError → Text
  | .unexpectedCharacter => text "Unexpected character."
  | .unterminatedString => text "Unterminated string."

/-- An error lexeme and the line on which it ends. -/
structure LexicalFault where
  line : Int
  error : LexicalError
deriving DecidableEq, Repr

namespace Lexeme

/-- The number that digits with an optional point stand for. -/
def numberValue (source : Text) : Binary64 :=
  let (whole, fraction) := Text.cutAt (· = 0x2e) source
  Decimal.read whole (fraction.drop 1)

/-- The text between the quotation marks. -/
def content (source : Text) : Text := (source.drop 1).dropLast

/-- The token of a lexeme that ends on `line`; blanks, comments and error lexemes have none. -/
def token? (l : Lexeme) (line : Int) : Option Token :=
  match l.shape with
  | .string => some ⟨.string, l.text, .string (content l.text), line⟩
  | .number => some ⟨.number, l.text, .number (numberValue l.text), line⟩
  | .word => some ⟨Kind.ofWord l.text, l.text, .nothing, line⟩
  | .operator kind => some ⟨kind, l.text, .nothing, line⟩
  | .blank | .comment | .unclosed | .stray => none

/-- The error of an error lexeme. -/
def error? (l : Lexeme) : Option LexicalError :=
  match l.shape with
  | .unclosed => some .unterminatedString
  | .stray => some .unexpectedCharacter
  | _ => none

end Lexeme

/-- The result of scanning a source text. -/
structure Scan where
  tokens : List Token
  faults : List LexicalFault
deriving DecidableEq, Repr

namespace Scan

/-- The scan of lexemes of which the first begins on `line`. -/
def ofLexemes (line : Nat) : List Lexeme → Scan
  | [] => ⟨[Token.endOfInput line], []⟩
  | l :: rest =>
    let here := line + l.lineBreaks
    let after := ofLexemes here rest
    { tokens := (l.token? here).toList ++ after.tokens
      faults := (l.error?.map (LexicalFault.mk here)).toList ++ after.faults }

/-- The scan of a source text, whose lines count from one. -/
def ofSource (source : Text) : Scan := ofLexemes 1 (Lexeme.split source)

end Scan

end Bhasha
