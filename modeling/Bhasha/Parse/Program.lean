import Bhasha.Parse.Statement
import Bhasha.Recorded
import Bhasha.Token.Scan

/-!
# Parsing a program

Parsing reads the tokens up to the first end of the input; a list without one ends after its last
token, on that token's line.  What the listener does with the reports has no influence on the
statements: it may hear them, ignore them, or put an end to the parse.

Source: benglang, package `parser`: `newParser`, `Parse` and `ParseSource`.
-/

namespace Bhasha

namespace Parse

/-- A fault attached to a token. -/
structure SyntaxFault where
  token : Token
  fault : Fault
deriving DecidableEq, Repr

/-- The end of the input in a token list. -/
def endToken (ts : List Token) : Token :=
  (ts.find? (·.kind == .eof)).getD
    (.endOfInput ((ts.getLast?.map (·.line)).getD 1))

/-- The tokens before the end of the input. -/
def body (ts : List Token) : List Token := ts.takeWhile (·.kind != .eof)

/-- The fault of a report, attached to the blamed token or to the end of the input. -/
def Report.attach (finish : Token) (r : Report) : SyntaxFault :=
  ⟨r.ahead.headD finish, r.fault⟩

/-- The statements of a token list, with every fault told to a listener. -/
def statementsM {m : Type → Type} [Monad m] (tell : SyntaxFault → m Unit) (ts : List Token) :
    m (List Stmt) := do
  match ← program (fun r => tell (r.attach (endToken ts))) (body ts) with
  | .done statements _ => pure statements
  | .bail _ => pure []

/-- The statements of a token list, without a listener. -/
def statements (ts : List Token) : List Stmt :=
  Id.run (statementsM (fun _ => pure ()) ts)

/-- The statements of a token list and the record of its faults. -/
def recorded (ts : List Token) : Recorded SyntaxFault (List Stmt) :=
  statementsM Recorded.note ts

/-- A listener that takes faults down and stops with a last word at the `limit`-th. -/
def stopAt {ε : Type} (limit : Nat) (word : ε) (f : SyntaxFault) :
    ExceptT ε (StateM (List SyntaxFault)) Unit := do
  let heard ← get
  if heard.length + 1 = limit then throw word
  else set (heard ++ [f])

/-- The statements of a token list unless the listener stops, and the faults it took down. -/
def untilFault (limit : Nat) (word : Text) (ts : List Token) :
    Except Text (List Stmt) × List SyntaxFault :=
  ((statementsM (stopAt limit word) ts).run.run [])

end Parse

/-- A program with all faults of its source text, the lexical ones apart. -/
structure Reading where
  program : Program
  lexical : List LexicalFault
  syntactic : List Parse.SyntaxFault
deriving Repr

/-- The reading of a source text. -/
def Reading.ofSource (source : Text) : Reading :=
  let scan := Scan.ofSource source
  let parsed := Parse.recorded scan.tokens
  ⟨⟨parsed.value⟩, scan.faults, parsed.records⟩

end Bhasha
