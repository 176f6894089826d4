import Bhasha.Parse.Program
import Bhasha.Sink

/-!
# Diagnostics

A diagnostic is what a user sees of a fault: its line, the place that is blamed and a message.  The
diagnostics of a source come in the order in which the faults were found, the lexical ones first.

Source: benglang, package `diag`: `Diagnostic` with its `Error`, as the `Error` and `ErrorAt` of a
`Handler` make it, and the messages of packages `lexer` and `parser`.
-/

namespace Bhasha

structure Diagnostic where
  line : Int
  /-- Empty, `at end`, or `at` and the source text of a token. -/
  place : Text
  message : Text
deriving DecidableEq, Repr

namespace Diagnostic

/-- A diagnostic that blames a line. -/
def atLine (line : Int) (message : Text) : Diagnostic := ⟨line, [], message⟩

/-- A diagnostic that blames a token. -/
def atToken (t : Token) (message : Text) : Diagnostic :=
  let place := if t.kind = .eof then text " at end" else text " at '" ++ t.lexeme ++ text "'"
  ⟨t.line, place, message⟩

def ofLexical (f : LexicalFault) : Diagnostic := atLine f.line f.error.message

def ofSyntax (f : Parse.SyntaxFault) : Diagnostic := atToken f.token f.fault.message

/-- A diagnostic as text. -/
def render (d : Diagnostic) : Text :=
  text "[line " ++ Text.ofInt d.line ++ text "] Error" ++ d.place ++ text ": " ++ d.message

/-- Diagnostics as one message, none if there are none. -/
def joined? : List Diagnostic → Option Text
  | [] => none
  | first :: rest => some (Text.joinLines ((first :: rest).map render))

/-- Writes diagnostics on lines of their own and stops at the first failing write. The outcome
counts all bytes taken. -/
def deliver {m : Type → Type} [Monad m] (write : Text → m Written) : List Diagnostic → m Written
  | [] => pure ⟨0, none⟩
  | first :: rest => do
    let here ← write (first.render ++ [Text.lineFeed])
    match here.complaint? with
    | some _ => pure here
    | none =>
      let after ← deliver write rest
      pure ⟨here.count + after.count, after.complaint?⟩

/-- The message of a delivery that was cut short. -/
def undelivered (complaint : Text) : Text := text "write diagnostic: " ++ complaint

end Diagnostic

/-- All diagnostics of a reading. -/
def Reading.diagnostics (r : Reading) : List Diagnostic :=
  r.lexical.map .ofLexical ++ r.syntactic.map .ofSyntax

end Bhasha
