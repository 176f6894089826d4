import Bhasha.Command.Run

/-!
# The program

The host of a process: its streams and its files.  All that is decided is decided by
`Bhasha.Command.execute`.

Source: benglang, package `main`: `main`.
-/

namespace Bhasha.Streams

def bytesOf (s : Text) : ByteArray := ⟨s.toArray⟩

/-- Reads a stream to its end. -/
partial def readAll (stream : IO.FS.Stream) (before : ByteArray) : IO ByteArray := do
  let more ← stream.read 65536
  if more.isEmpty then pure before else readAll stream (before ++ more)

/-- The result of an action, or the complaint of its failure. -/
def attempt {α : Type} (action : IO α) : IO (Except IO.Error α) := do
  try
    let a ← action
    pure (.ok a)
  catch e => pure (.error e)

/-- Writes bytes at once. -/
def write (stream : IO.FS.Stream) (bytes : Text) : IO Written := do
  let action : IO Unit := do
    stream.write (bytesOf bytes)
    stream.flush
  match ← attempt action with
  | .ok () => pure ⟨bytes.length, none⟩
  | .error e => pure ⟨0, some (text (toString e))⟩

/-- The reason of a failure by the number that the system gives it. -/
def fileError (e : IO.Error) : FileError :=
  match e with
  | .noFileOrDirectory _ _ _ => .notFound
  | .inappropriateType _ 20 _ => .notDirectory
  | .inappropriateType _ 21 _ => .isDirectory
  | .permissionDenied _ _ _ => .other (text "permission denied")
  | _ => .other (text (toString e))

/-- A path as the system takes it. -/
def pathOf (path : Text) : String := (String.fromUTF8? (bytesOf path)).getD ""

def readFile (path : Text) : IO (Except FileFailure Text) := do
  match ← attempt (IO.FS.readBinFile (pathOf path)) with
  | .ok bytes => pure (.ok bytes.data.toList)
  | .error e => pure (.error ⟨fileError e = .isDirectory, path, fileError e⟩)

def openToAppend (path : Text) : IO (Except FileFailure (Text → IO Unit)) := do
  match ← attempt (IO.FS.Handle.mk (pathOf path) .append) with
  | .error e => pure (.error ⟨false, path, fileError e⟩)
  | .ok handle =>
    pure (.ok fun bytes => do
      let action : IO Unit := do
        handle.write (bytesOf bytes)
        handle.flush
      let _ ← attempt action)

/-- The host of this process. -/
def host : IO (Host IO) := do
  let out ← IO.getStdout
  let err ← IO.getStderr
  let stdin ← IO.getStdin
  let input : IO (Except Text Text) := do
    match ← attempt (readAll stdin .empty) with
    | .ok bytes => pure (.ok bytes.data.toList)
    | .error e => pure (.error (text (toString e)))
  let log (line : Text) : IO Unit := do
    let _ ← write err line
  pure ⟨input, write out, write err, log, readFile, openToAppend⟩

end Bhasha.Streams

/-- Runs the program and exits with its code. -/
def main (arguments : List String) : IO UInt32 := do
  let host ← Bhasha.Streams.host
  let code ← Bhasha.Command.execute host (arguments.map Bhasha.text)
  pure code.toUInt32
