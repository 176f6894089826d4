import Bhasha.Command.Act
import Bhasha.Command.Help

/-!
# Running the program

The arguments name a command.  Its flags are read first, then help is given if a flag asks for it,
then the operands are counted; only after that are settings loaded and a logger started.  The help
command is no exception: it fails where the settings or the log file do.

The log file is not released at the end of a run, and the error `close log` of doing so is left out.

Source: benglang, package `main`: `run`, `setup`, `main`, and the operands that the commands ask for
(`MaximumNArgs`, `MinimumNArgs`).
-/

namespace Bhasha.Command

variable {m : Type → Type} [Monad m]

/-- Whether a command takes as many operands. -/
def countOperands (command : Command) (operands : List Text) : Except UsageError Unit :=
  match command with
  | .tokens | .parse | .fmt =>
    if 1 < operands.length then .error (.tooManyOperands operands.length) else .ok ()
  | .check => if operands.isEmpty then .error .noOperand else .ok ()
  | .help => .ok ()

/-- Gives help. When it cannot be written, the complaint goes to the error output. -/
def giveHelp (host : Host m) (help : Text) : m Unit := do
  let written ← host.out help
  match written.complaint? with
  | some complaint => let _ ← host.err (complaint ++ [Text.lineFeed])
  | none => pure ()

/-- The help on topics, which are searched for a command in the same way as arguments. -/
def helpOn (topics : List Text) : Text :=
  match find topics with
  | .ok (command?, _) => Help.ofTopic command?
  | .error _ => Help.unknownTopic topics

/-- A logger as the settings say, with its lines on the error output. -/
def startLogger (host : Host m) (settings : Settings) : m (Except Logger.Error (Logger m)) :=
  Logger.start host.log host.openToAppend settings.level settings.logFile

/-- Loads settings and starts a logger. A level in the flags goes before the one in the settings. -/
def start (host : Host m) (flags : Flags) : ExceptT Failure m (Session m) := do
  match ← ExceptT.lift (Settings.load host.readFile flags.config) with
  | .error e => throw (.settings e)
  | .ok settings =>
    let settings :=
      if flags.logLevel.isEmpty then settings else { settings with level := flags.logLevel }
    match ← ExceptT.lift (startLogger host settings) with
    | .error e => throw (.logger e)
    | .ok logger => pure ⟨host, settings, logger⟩

/-- Runs a command in a session. -/
def act (command : Command) (given : Arguments) (s : Session m) : ExceptT Failure m Unit :=
  match command with
  | .tokens => s.tokens given.operands.head?
  | .parse =>
    let style := if given.flags.style.isEmpty then s.settings.style else given.flags.style
    s.parse style given.operands.head?
  | .fmt => s.fmt given.operands.head?
  | .check => s.check given.operands
  | .help => ExceptT.lift (giveHelp s.host (helpOn given.operands))

/-- A usage error as a failure. -/
def orFail {α : Type} (x : Except UsageError α) : ExceptT Failure m α :=
  match x with
  | .ok a => pure a
  | .error e => throw (.usage e)

/-- Runs the program with its arguments. -/
def run (host : Host m) (arguments : List Text) : ExceptT Failure m Unit := do
  let (command?, rest) ← orFail (find arguments)
  let given ← orFail (Arguments.read command? rest)
  match command? with
  | none => ExceptT.lift (giveHelp host Help.ofProgram)
  | some command =>
    if given.flags.help then ExceptT.lift (giveHelp host (Help.ofCommand command))
    else
      orFail (countOperands command given.operands)
      let session ← start host given.flags
      act command given session

/-- Runs the program, says the last word about a failure and gives the exit code. -/
def execute (host : Host m) (arguments : List Text) : m Nat := do
  match ← (run host arguments).run with
  | .ok () => pure 0
  | .error failure =>
    let _ ← host.err failure.lastWord
    pure failure.code

end Bhasha.Command
