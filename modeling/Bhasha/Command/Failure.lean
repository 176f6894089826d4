import Bhasha.Command.Usage
import Bhasha.Journal
import Bhasha.Settings

/-!
# How a command fails

A source with diagnostics is one kind of failure and has its own exit code.  All other failures are
told to the user in a last word on the error output.

Source: benglang, package `main`: `exitError`, `exitDataErr` and the errors of `setup`,
`readSource`, `report`, `dump` and `checkCmd`; the last word is that of `main`.
-/

namespace Bhasha

inductive Failure where
  | usage (error : UsageError)
  | settings (error : Settings.LoadError)
  | logger (error : Logger.Error)
  /-- The input could not be read. -/
  | input (complaint : Text)
  /-- Files that could not be read, with their names. -/
  | unreadable (files : List (Text × FileFailure))
  /-- The diagnostics could not be written. -/
  | undelivered (complaint : Text)
  | unsupportedStyle (name : Text)
  /-- The result could not be written. -/
  | output (complaint : Text)
  /-- A source has diagnostics. -/
  | faulty (source : Text) (journal : Journal)
  /-- Some of the checked files have diagnostics. -/
  | faultyFiles (count total : Nat)
deriving DecidableEq, Repr

namespace Failure

def unreadableMessage (file : Text × FileFailure) : Text :=
  text "read " ++ Quoted.quote file.1 ++ text ": " ++ file.2.message

def message : Failure → Text
  | .usage e => e.message
  | .settings e => e.message
  | .logger e => text "setup logger: " ++ e.message
  | .input complaint => text "read stdin: " ++ complaint
  | .unreadable files => Text.joinLines (files.map unreadableMessage)
  | .undelivered complaint => Diagnostic.undelivered complaint
  | .unsupportedStyle name => Style.unsupported name
  | .output complaint => complaint
  | .faulty source journal => source ++ text ": " ++ journal.message?.getD []
  | .faultyFiles count total =>
    Text.ofNat count ++ text " of " ++ Text.ofNat total ++ text " files have errors"

/-- Whether diagnostics are the failure. -/
def isFaulty : Failure → Bool
  | .faulty _ _ | .faultyFiles _ _ => true
  | _ => false

/-- The exit code. -/
def code (f : Failure) : Nat := if f.isFaulty then 65 else 1

/-- What the user is told last. -/
def lastWord (f : Failure) : Text :=
  if f.isFaulty then [] else text "Fail: " ++ f.message ++ text ".\n"

/-- The failures of files that are behind a failure. -/
def fileFailures : Failure → List FileFailure
  | .settings (.unreadable _ f) => [f]
  | .logger (.file _ f) => [f]
  | .unreadable files => files.map (·.2)
  | _ => []

end Failure

end Bhasha
