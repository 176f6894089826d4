import Bhasha.Log.Logger

/-!
# Journals

A journal collects diagnostics in the order in which they are reported.  Each one is also logged, if
there is a logger; what becomes of the log has no influence on the journal.

Source: benglang, package `diag`: `Handler` with `NewHandler`, `add`, `Count`, `HadError`,
`Diagnostics`, `Err` and `WriteTo`.
-/

namespace Bhasha

structure Journal where
  diagnostics : List Diagnostic
deriving DecidableEq, Repr

namespace Journal

/-- The journal without diagnostics. -/
def empty : Journal := ⟨[]⟩

def count (j : Journal) : Nat := j.diagnostics.length

/-- Whether anything was reported. -/
def isFaulty (j : Journal) : Bool := 0 < j.count

variable {m : Type → Type} [Monad m]

/-- Takes further diagnostics. -/
def record (logger? : Option (Logger m)) (reported : List Diagnostic) (j : Journal) :
    m Journal := do
  match logger? with
  | some logger => logger.logDiagnostics reported
  | none => pure ()
  pure ⟨j.diagnostics ++ reported⟩

/-- All diagnostics as one message, none if there are none. -/
def message? (j : Journal) : Option Text := Diagnostic.joined? j.diagnostics

/-- Writes the diagnostics on lines of their own. -/
def deliver (write : Text → m Written) (j : Journal) : m Written :=
  Diagnostic.deliver write j.diagnostics

end Journal

end Bhasha
