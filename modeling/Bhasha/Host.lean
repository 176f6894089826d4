import Bhasha.Files
import Bhasha.Sink

/-!
# What a command runs on

A host gives a command its input, two places for output and the files.  The commands know nothing
else of their surroundings, so that they run in the same way on the streams and files of a process
and in a world that is a plain value.

A file that was opened for the log stays open.  A host has no service for closing it, so the error
`close log`, which a run adds when that fails, does not occur.

Source: benglang, package `main`: the streams that `run` is given, and the files it opens.
-/

namespace Bhasha

/-- The services of a host, as actions of `m`. -/
structure Host (m : Type → Type) where
  /-- All of the input, or the complaint of reading it. -/
  input : m (Except Text Text)
  out : Text → m Written
  err : Text → m Written
  /-- Writes a line of the log to the error output, whatever becomes of it. -/
  log : Text → m Unit
  readFile : Text → m (Except FileFailure Text)
  /-- Opens a file for appending and gives the action that appends to it. -/
  openToAppend : Text → m (Except FileFailure (Text → m Unit))

/-- A world as a value. -/
structure World where
  input : Except Text Text
  out : Sink
  err : Sink
  /-- What stands before each line of the log, such as the time. -/
  stamp : Text
  files : Files

namespace World

def writeOut (bytes : Text) : StateM World Written := fun w =>
  (w.out.outcome bytes, { w with out := w.out.after bytes })

def writeErr (bytes : Text) : StateM World Written := fun w =>
  (w.err.outcome bytes, { w with err := w.err.after bytes })

def writeLog (line : Text) : StateM World Unit := fun w =>
  ((), { w with err := w.err.after (w.stamp ++ line) })

def appendTo (path : EntryPath) (bytes : Text) : StateM World Unit := fun w =>
  ((), { w with files := w.files.extend path bytes })

def openToAppend (path : Text) : StateM World (Except FileFailure (Text → StateM World Unit)) :=
  fun w =>
    match w.files.openToAppend path with
    | .ok (found, files) => (.ok (appendTo found), { w with files })
    | .error failure => (.error failure, w)

/-- The host of a world. -/
def host : Host (StateM World) where
  input := fun w => (w.input, w)
  out := writeOut
  err := writeErr
  log := writeLog
  readFile := fun path w => (w.files.read path, w)
  openToAppend := openToAppend

end World

end Bhasha
