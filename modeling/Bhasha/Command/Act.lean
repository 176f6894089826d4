import Bhasha.Command.Failure
import Bhasha.Host

/-!
# What the commands do

A command runs in a session: on a host, with settings and a logger.  It reads a source, keeps a
journal of it, and reports the journal before it gives a result.  What a source turns into depends
on its content alone.

The files of a check are examined in some order.  Each finding goes to the place of its file, so the
order does not show in the result.

Source: benglang, package `main`: `readSource`, `report`, `tokensCmd`, `parseCmd`, `dump`, `fmtCmd`
and `checkCmd` with its `checkResult`.
-/

namespace Bhasha

/-- What a command runs with. -/
structure Session (m : Type → Type) where
  host : Host m
  settings : Settings
  logger : Logger m

/-- A source text and the name it is shown under. -/
structure Source where
  name : Text
  content : Text
deriving DecidableEq, Repr

/-- The name of the input. -/
def Source.inputName : Text := text "<stdin>"

/-- The operand that stands for the input. -/
def Source.inputOperand : Text := text "-"

namespace Session

variable {m : Type → Type} [Monad m]

/-- The source that an operand names: a file, or the input. -/
def source (s : Session m) (operand? : Option Text) : ExceptT Failure m Source := do
  let operand := operand?.getD Source.inputOperand
  if operand = Source.inputOperand then
    match ← s.host.input with
    | .ok content => pure ⟨Source.inputName, content⟩
    | .error complaint => throw (.input complaint)
  else
    match ← s.host.readFile operand with
    | .ok content => pure ⟨operand, content⟩
    | .error failure => throw (.unreadable [(operand, failure)])

/-- A journal of the diagnostics given. -/
def journal (s : Session m) (reported : List Diagnostic) : m Journal :=
  Journal.empty.record (some s.logger) reported

/-- Reports the journal of a source. Only one without diagnostics lets a command go on. -/
def report (s : Session m) (source : Source) (j : Journal) : ExceptT Failure m Unit := do
  if j.isFaulty then
    let written ← ExceptT.lift (j.deliver s.host.err)
    match written.complaint? with
    | some complaint => throw (.undelivered complaint)
    | none =>
      s.logger.log ⟨LogLevel.info, text "source has errors",
        [(text "source", .text source.name), (text "count", .whole j.count)]⟩
      throw (.faulty source.name j)

/-- Writes a result. -/
def give (s : Session m) (result : Text) : ExceptT Failure m Unit := do
  let written ← s.host.out result
  match written.complaint? with
  | some complaint => throw (.output complaint)
  | none => pure ()

/-- Writes texts one after the other, whatever becomes of them. -/
def writeAll (write : Text → m Written) : List Text → m Unit
  | [] => pure ()
  | first :: rest => do
    let _ ← write first
    writeAll write rest

/-- Prints the tokens of a source. -/
def tokens (s : Session m) (operand? : Option Text) : ExceptT Failure m Unit := do
  let source ← s.source operand?
  let scan := Scan.ofSource source.content
  let j ← s.journal (scan.faults.map .ofLexical)
  s.logger.log ⟨LogLevel.debug, text "scanned",
    [(text "source", .text source.name), (text "tokens", .whole scan.tokens.length)]⟩
  let lines := scan.tokens.map fun t => t.describe ++ [Text.lineFeed]
  ExceptT.lift (writeAll s.host.out lines)
  s.report source j

/-- Prints the tree of a source in the style of a name. -/
def parse (s : Session m) (style : Text) (operand? : Option Text) : ExceptT Failure m Unit := do
  let source ← s.source operand?
  let reading := Reading.ofSource source.content
  let j ← s.journal reading.diagnostics
  s.logger.log ⟨LogLevel.debug, text "parsed",
    [(text "source", .text source.name),
      (text "statements", .whole reading.program.statements.length)]⟩
  s.report source j
  match Style.ofName? style with
  | none => throw (.unsupportedStyle style)
  | some style => s.give (style.print (some reading.program.statements))

/-- Prints a source in its canonical form. -/
def fmt (s : Session m) (operand? : Option Text) : ExceptT Failure m Unit := do
  let source ← s.source operand?
  let reading := Reading.ofSource source.content
  let j ← s.journal reading.diagnostics
  s.report source j
  s.give reading.program.source

/-- What an examination of a file has found. -/
structure Finding where
  name : Text
  outcome : Except FileFailure Journal

namespace Finding

/-- The failure of a file that could not be read, with its name. -/
def unreadable? (f : Finding) : Option (Text × FileFailure) :=
  match f.outcome with
  | .ok _ => none
  | .error failure => some (f.name, failure)

def isFaulty (f : Finding) : Bool :=
  match f.outcome with
  | .ok j => j.isFaulty
  | .error _ => false

/-- The diagnostics of a file on lines of their own, each behind the name of the file. -/
def lines (f : Finding) : List Text :=
  match f.outcome with
  | .ok j => j.diagnostics.map fun d => f.name ++ text ": " ++ d.render ++ [Text.lineFeed]
  | .error _ => []

end Finding

/-- Examines a file. -/
def examine (s : Session m) (name : Text) : m Finding := do
  match ← s.host.readFile name with
  | .error failure => pure ⟨name, .error failure⟩
  | .ok content =>
    let j ← s.journal (Reading.ofSource content).diagnostics
    pure ⟨name, .ok j⟩

/-- Examines files in an order of their places, and puts each finding in its place. -/
def survey (s : Session m) (names : List Text) :
    List Nat → List (Option Finding) → m (List (Option Finding))
  | [], found => pure found
  | place :: rest, found => do
    match names[place]? with
    | none => s.survey names rest found
    | some name =>
      let finding ← s.examine name
      s.survey names rest (found.set place (some finding))

/-- What the findings of a check come to. -/
def verdict (findings : List Finding) : Except Failure Text :=
  match findings.filterMap (·.unreadable?) with
  | [] =>
    let faulty := findings.countP (·.isFaulty)
    if 0 < faulty then .error (.faultyFiles faulty findings.length)
    else .ok (Text.ofNat findings.length ++ text " files ok\n")
  | unreadable => .error (.unreadable unreadable)

/-- Reports the diagnostics of files, which are examined in an order of their places. -/
def checkIn (s : Session m) (order : List Nat) (names : List Text) : ExceptT Failure m Unit := do
  let found ← s.survey names order (names.map fun _ => none)
  let findings := found.filterMap id
  ExceptT.lift (writeAll s.host.err (findings.flatMap (·.lines)))
  match verdict findings with
  | .error failure => throw failure
  | .ok result =>
    let _ ← s.host.out result
    pure ()

/-- Reports the diagnostics of files. -/
def check (s : Session m) (names : List Text) : ExceptT Failure m Unit :=
  s.checkIn (List.range names.length) names

end Session

end Bhasha
