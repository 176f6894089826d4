import Bhasha.Command.Run

/-!
# Starting a command

A command line that begins with the name of a command runs this command on the flags and operands
behind the name.  If the flags name neither settings nor a level, the command runs in the plain
session of its host, and starting it has no effect at all.  The logger of the plain session is
silent below warnings, so neither the records of diagnostics nor those of the commands are written.
-/

namespace Bhasha

theorem ok_of_toOption {ε α : Type} {r : Except ε α} {a : α} (value : r.toOption = some a) :
    r = .ok a := by
  cases r with
  | ok b => exact congrArg Except.ok (Option.some.inj value)
  | error failure => cases value

namespace Session

variable {m : Type → Type} [Monad m]

/-- The session that the default settings give on a host. -/
def plainOn (host : Host m) : Session m :=
  ⟨host, .default, ⟨LogLevel.warn, host.log, none⟩⟩

/-- Nothing below a warning is logged. -/
theorem log_silent (host : Host m) {level : LogLevel} (low : ¬ LogLevel.warn ≤ level)
    (message : Text) (attributes : List (Text × LogValue)) :
    (plainOn host).logger.log ⟨level, message, attributes⟩ = pure () :=
  if_neg low

theorem debug_low : ¬ LogLevel.warn ≤ LogLevel.debug := by decide

theorem info_low : ¬ LogLevel.warn ≤ LogLevel.info := by decide

variable [LawfulMonad m]

theorem logDiagnostics_silent (host : Host m) (ds : List Diagnostic) :
    (plainOn host).logger.logDiagnostics ds = pure () := by
  induction ds with
  | nil => rfl
  | cons first rest ih =>
    rw [Logger.logDiagnostics, Logger.diagnosticRecord, log_silent host debug_low, ih, pure_bind]

theorem journal_eq (host : Host m) (ds : List Diagnostic) :
    (plainOn host).journal ds = pure ⟨ds⟩ := by
  have silent := logDiagnostics_silent host ds
  change ((plainOn host).logger.logDiagnostics ds >>= fun _ => pure _) = _
  rw [silent, pure_bind]
  rfl

end Session

namespace Command

theorem find_name (command : Command) (rest : List Text) :
    find (command.name :: rest) = .ok (some command, rest) := by
  have notEnd : command.name ≠ endOfFlags := by cases command <;> decide
  have noFlag : takesNext command.name = false := by cases command <;> decide
  have word : isWord command.name = true := by cases command <;> decide
  have known : ofName? command.name = some command := by cases command <;> decide
  have first : words (command.name :: rest) = command.name :: words rest := by
    rw [words.eq_def]
    simp [notEnd, noFlag, word]
  have others : withoutWord command.name (command.name :: rest) = rest := by
    rw [withoutWord.eq_def]
    simp [notEnd, noFlag]
  rw [find, first]
  dsimp only
  rw [known]
  dsimp only
  rw [others]

theorem readFrom_operand {known : List Flag} {name : Text} (named : name.head? ≠ some 0x2d)
    (rest : List Text) (a : Arguments) :
    Arguments.readFrom known (name :: rest) a =
      Arguments.readFrom known rest (a.addOperands [name]) := by
  rw [Arguments.readFrom]
  · rintro rfl
    exact named rfl
  · rintro written rfl
    exact named rfl
  · rintro first more rfl
    exact named rfl

/-- The flag for the style has its value in the next argument. -/
theorem readFrom_style (value : Text) (rest : List Text) (a : Arguments) :
    Arguments.readFrom (Flag.ofCommand (some .parse)) (text "--style" :: value :: rest) a =
      Arguments.readFrom (Flag.ofCommand (some .parse)) rest
        { a with flags := Flag.style.set value a.flags } := by
  have written : text "--style" = 0x2d :: 0x2d :: text "style" := by decide
  have flag : LongFlag.read (Flag.ofCommand (some .parse)) (text "style") =
      .valued .style none := by
    decide
  rw [written, Arguments.readFrom]
  · simp only [flag]
  · decide

/-- Names that are no flags are operands, in their order. -/
theorem readFrom_operands {known : List Flag} {names : List Text}
    (named : ∀ name ∈ names, name.head? ≠ some 0x2d) (a : Arguments) :
    Arguments.readFrom known names a = .ok (a.addOperands names) := by
  induction names generalizing a with
  | nil => simp [Arguments.readFrom, Arguments.addOperands]
  | cons name rest ih =>
    obtain ⟨first, others⟩ := List.forall_mem_cons.mp named
    rw [readFrom_operand first, ih others]
    simp [Arguments.addOperands]

theorem read_operands (command : Command) {names : List Text}
    (named : ∀ name ∈ names, name.head? ≠ some 0x2d) :
    Arguments.read (some command) names = .ok ⟨.unset, names⟩ :=
  readFrom_operands named _

/-- A single operand behind the name of a command. -/
theorem read_operand (command : Command) {name : Text} (named : name.head? ≠ some 0x2d) :
    Arguments.read (some command) [name] = .ok ⟨.unset, [name]⟩ :=
  read_operands command (by simpa using named)

/-- The default settings keep the log at warnings. -/
theorem read_default_level : LogLevel.read Settings.default.level = .ok LogLevel.warn := by
  have cut : Text.cutAt (fun b => b = 0x2b || b = 0x2d) Settings.default.level =
      (text "warn", []) := by
    decide +kernel
  have known : LogLevel.ofName? (text "warn") = some .warn := by decide +kernel
  have near : LogLevel.warn + Int64.ofInt 0 = .warn := by decide
  rw [LogLevel.read, cut]
  dsimp only
  rw [LogLevel.ofNameAndOffset, known]
  dsimp only
  rw [near]

variable {m : Type → Type} [Monad m] [LawfulMonad m]

theorem lift_pure {α : Type} (a : α) :
    (ExceptT.lift (pure a) : ExceptT Failure m α) = pure a :=
  ExceptT.ext (map_pure _ _)

/-- Flags that name no settings and no level start the plain session. -/
theorem start_plain (host : Host m) {flags : Flags} (config : flags.config = [])
    (level : flags.logLevel = []) : start host flags = pure (Session.plainOn host) := by
  have loaded : Settings.load host.readFile flags.config = pure (.ok .default) := by
    rw [config]
    rfl
  have logger : startLogger host .default = pure (.ok (Session.plainOn host).logger) := by
    rw [startLogger, Logger.start, read_default_level]
    rfl
  rw [start, loaded, lift_pure, pure_bind]
  simp only [level, List.isEmpty_nil, if_true]
  rw [logger, lift_pure, pure_bind]
  rfl

/-- A command that is found is run on what its flags and operands give. -/
theorem run_found (host : Host m) {arguments rest : List Text} {command : Command}
    {given : Arguments} (found : find arguments = .ok (some command, rest))
    (read : Arguments.read (some command) rest = .ok given) (noHelp : given.flags.help = false) :
    run host arguments =
      orFail (countOperands command given.operands) >>= fun _ =>
        start host given.flags >>= act command given := by
  rw [run, found, orFail, pure_bind]
  dsimp only
  rw [read, orFail, pure_bind, noHelp]
  rfl

/-- A command is run on what the flags and operands behind its name give. -/
theorem run_plain (host : Host m) {command : Command} {rest : List Text} {given : Arguments}
    (read : Arguments.read (some command) rest = .ok given) (noHelp : given.flags.help = false)
    (config : given.flags.config = []) (level : given.flags.logLevel = [])
    (counted : countOperands command given.operands = .ok ()) :
    run host (command.name :: rest) = act command given (Session.plainOn host) := by
  rw [run_found host (find_name command rest) read noHelp, counted, orFail, pure_bind,
    start_plain host config level, pure_bind]

end Command

end Bhasha
