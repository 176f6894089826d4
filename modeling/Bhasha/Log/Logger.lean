import Bhasha.Diagnostic
import Bhasha.Files
import Bhasha.Log.Record

/-!
# Loggers

A logger writes the records from a level on: in words, and as objects too if it has a file for
them.  A record that cannot be written is lost, and nobody is told.

Source: benglang, package `logs`: `New`.
-/

namespace Bhasha

/-- A logger. -/
structure Logger (m : Type → Type) where
  threshold : LogLevel
  writeLine : Text → m Unit
  writeObject? : Option (Text → m Unit)

namespace Logger

variable {m : Type → Type} [Monad m]

/-- Writes a record unless its level is too low. -/
def log (l : Logger m) (r : LogRecord) : m Unit := do
  if l.threshold ≤ r.level then
    l.writeLine r.line
    match l.writeObject? with
    | some write => write r.object
    | none => pure ()

/-- The record of a diagnostic. -/
def diagnosticRecord (d : Diagnostic) : LogRecord :=
  ⟨LogLevel.debug, text "diagnostic",
    [(text "line", .whole d.line), (text "where", .text d.place),
      (text "message", .text d.message)]⟩

/-- Writes a record for each diagnostic. -/
def logDiagnostics (l : Logger m) : List Diagnostic → m Unit
  | [] => pure ()
  | first :: rest => do
    l.log (diagnosticRecord first)
    l.logDiagnostics rest

/-- Why there is no logger. -/
inductive Error where
  | level (source : Text) (error : LogLevel.Error)
  | file (path : Text) (failure : FileFailure)
deriving DecidableEq, Repr

def Error.message : Error → Text
  | .level source e => e.message source
  | .file path failure =>
    text "open log file " ++ Quoted.quote path ++ text ": " ++ failure.message

/-- A logger from the text of a level, which writes in words by `writeLine` and as objects to the
end of a file unless its path is empty. -/
def start (writeLine : Text → m Unit)
    (openToAppend : Text → m (Except FileFailure (Text → m Unit))) (level path : Text) :
    m (Except Error (Logger m)) := do
  match LogLevel.read level with
  | .error e => pure (.error (.level level e))
  | .ok threshold =>
    if path.isEmpty then pure (.ok ⟨threshold, writeLine, none⟩)
    else
      match ← openToAppend path with
      | .error failure => pure (.error (.file path failure))
      | .ok append => pure (.ok ⟨threshold, writeLine, some append⟩)

end Logger

end Bhasha
