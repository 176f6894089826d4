import Bhasha.Decimal.Binary64
import Bhasha.Text.Quoted
import Bhasha.Token.Kind

/-!
# Tokens

A token has a kind, the source text it was written as, the value of a literal and a line.

Source: benglang, package `lexer`: `Token` with its `String`.
-/

namespace Bhasha

/-- The value of a literal. Sources give rise to nothing, truth values, numbers and texts; whole
numbers are there for trees that are built by hand. -/
inductive Literal where
  | nothing
  | truth (value : Bool)
  | number (value : Binary64)
  | string (value : Text)
  | whole (value : Int)
deriving DecidableEq, Repr, Inhabited

structure Token where
  kind : Kind
  lexeme : Text
  literal : Literal
  line : Int
deriving DecidableEq, Repr

namespace Token

/-- The end of the input on a given line. -/
def endOfInput (line : Int) : Token := ⟨.eof, [], .nothing, line⟩

/-- Longer source texts are cut down to this many characters when a token is described. -/
def describedLength : Nat := 16

/-- A token as one line of text. -/
def describe (t : Token) : Text :=
  if t.kind = .eof then text "EOF"
  else
    let quoted :=
      if describedLength < t.lexeme.length then Quoted.quoteFirst describedLength t.lexeme
      else Quoted.quote t.lexeme
    t.kind.name ++ text "[" ++ Text.ofInt t.line ++ text "]: " ++ quoted

end Token

end Bhasha
