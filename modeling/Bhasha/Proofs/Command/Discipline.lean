import Bhasha.Command.Run

/-!
# What a command can do to its world

A command reaches its world through the services of the host only, and the log through its logger.
So it keeps whatever the services and the logger keep: a property of actions, together with what it
says of their values, that holds of pure values and is passed on along `>>=`.

The outcome of a write to the output is set apart.  Printing tokens and checking files never look at
it, so for them a property need not say what the outcome is; parsing and formatting do look, and so
does giving help.
-/

namespace Bhasha

/-- Every value is good. -/
def Any {α : Type} : α → Prop := fun _ => True

/-- A value is good if there is one. -/
def IfDone {α : Type} (good : α → Prop) : Except Failure α → Prop
  | .ok a => good a
  | .error _ => True

/-- A property of actions on a world with good values, which sequences of actions inherit. -/
structure Discipline where
  Holds : {α : Type} → (α → Prop) → StateM World α → Prop
  done : ∀ {α : Type} {good : α → Prop} {a : α}, good a → Holds good (pure a)
  bind : ∀ {α β : Type} {good : α → Prop} {good' : β → Prop} {x : StateM World α}
    {f : α → StateM World β}, Holds good x → (∀ a, good a → Holds good' (f a)) →
      Holds good' (x >>= f)

namespace Discipline

variable {D : Discipline} {α β : Type} {good : α → Prop} {good' : β → Prop}

theorem lift {x : StateM World α} (inner : D.Holds good x) :
    D.Holds (IfDone good) (ExceptT.lift x : ExceptT Failure (StateM World) α).run := by
  change D.Holds (IfDone good) (x >>= fun a => pure (.ok a))
  exact D.bind inner fun _ fine => D.done fine

theorem throw (failure : Failure) :
    D.Holds (IfDone good) (throw failure : ExceptT Failure (StateM World) α).run :=
  D.done trivial

theorem bindOk {x : ExceptT Failure (StateM World) α} {f : α → ExceptT Failure (StateM World) β}
    (first : D.Holds (IfDone good) x.run)
    (next : ∀ a, good a → D.Holds (IfDone good') (f a).run) :
    D.Holds (IfDone good') (x >>= f).run := by
  rw [ExceptT.run_bind]
  refine D.bind first fun r fine => ?_
  cases r with
  | ok a => exact next a fine
  | error failure => exact D.done trivial

/-- The services that never touch the output keep a discipline. -/
structure Served (D : Discipline) : Prop where
  input : D.Holds Any World.host.input
  readFile : ∀ path, D.Holds Any (World.host.readFile path)
  err : ∀ bytes, D.Holds Any (World.host.err bytes)

/-- Writes to the output keep a discipline where nobody looks at their outcomes. -/
def Prints (D : Discipline) : Prop :=
  ∀ {α : Type} {good : α → Prop} (bytes : Text) {next : StateM World α},
    D.Holds good next → D.Holds good (World.host.out bytes >>= fun _ => next)

/-- Writes to the output keep a discipline, whatever their outcomes. -/
def Delivers (D : Discipline) : Prop := ∀ bytes, D.Holds Any (World.host.out bytes)

theorem Delivers.prints (delivers : D.Delivers) : D.Prints :=
  fun bytes _ rest => D.bind (delivers bytes) fun _ _ => rest

theorem Served.allErr (served : D.Served) (lines : List Text) :
    D.Holds Any (Session.writeAll World.host.err lines) := by
  induction lines with
  | nil => exact D.done trivial
  | cons first rest ih =>
    rw [Session.writeAll]
    exact D.bind (served.err first) fun _ _ => ih

theorem Prints.allOut (prints : D.Prints) (lines : List Text) :
    D.Holds Any (Session.writeAll World.host.out lines) := by
  induction lines with
  | nil => exact D.done trivial
  | cons first rest ih =>
    rw [Session.writeAll]
    exact prints first ih

end Discipline

/-- A session in a world whose services and logger keep a discipline. -/
structure Session.Keeps (D : Discipline) (s : Session (StateM World)) : Prop where
  served : D.Served
  host : s.host = World.host
  line : ∀ bytes, D.Holds Any (s.logger.writeLine bytes)
  object : ∀ write, s.logger.writeObject? = some write → ∀ bytes, D.Holds Any (write bytes)

namespace Session.Keeps

open Discipline

variable {D : Discipline} {s : Session (StateM World)} (keeps : s.Keeps D)
include keeps

theorem log (record : LogRecord) : D.Holds Any (s.logger.log record) := by
  rw [Logger.log]
  split
  · refine D.bind (keeps.line _) fun _ _ => ?_
    cases written : s.logger.writeObject? with
    | none => exact D.done trivial
    | some write => exact keeps.object write written _
  · exact D.done trivial

theorem journal (ds : List Diagnostic) : D.Holds Any (s.journal ds) := by
  have logged : D.Holds Any (s.logger.logDiagnostics ds) := by
    induction ds with
    | nil => exact D.done trivial
    | cons first rest ih =>
      rw [Logger.logDiagnostics]
      exact D.bind (keeps.log _) fun _ _ => ih
  exact D.bind logged fun _ _ => D.done trivial

theorem source (operand? : Option Text) : D.Holds (IfDone Any) (s.source operand?).run := by
  rw [Session.source, keeps.host]
  split
  · refine bindOk (lift keeps.served.input) fun read _ => ?_
    cases read with
    | ok content => exact D.done trivial
    | error complaint => exact throw _
  · refine bindOk (lift (keeps.served.readFile _)) fun read _ => ?_
    cases read with
    | ok content => exact D.done trivial
    | error failure => exact throw _

theorem deliver (ds : List Diagnostic) : D.Holds Any (Diagnostic.deliver s.host.err ds) := by
  rw [keeps.host]
  induction ds with
  | nil => exact D.done trivial
  | cons first rest ih =>
    rw [Diagnostic.deliver]
    refine D.bind (keeps.served.err _) fun here _ => ?_
    cases here.complaint? with
    | some complaint => exact D.done trivial
    | none => exact D.bind ih fun _ _ => D.done trivial

theorem report (source : Source) (j : Journal) : D.Holds (IfDone Any) (s.report source j).run := by
  rw [Session.report]
  split
  · refine bindOk (lift (keeps.deliver _)) fun written _ => ?_
    cases written.complaint? with
    | some complaint => exact throw _
    | none => exact bindOk (lift (keeps.log _)) fun _ _ => throw _
  · exact D.done trivial

theorem examine (name : Text) : D.Holds Any (s.examine name) := by
  rw [Session.examine, keeps.host]
  refine D.bind (keeps.served.readFile name) fun read _ => ?_
  cases read with
  | error failure => exact D.done trivial
  | ok content => exact D.bind (keeps.journal _) fun _ _ => D.done trivial

theorem survey (names : List Text) (order : List Nat) (found : List (Option Finding)) :
    D.Holds Any (s.survey names order found) := by
  induction order generalizing found with
  | nil => exact D.done trivial
  | cons place rest ih =>
    rw [Session.survey]
    cases names[place]? with
    | none => exact ih found
    | some name => exact D.bind (keeps.examine name) fun _ _ => ih _

theorem tokens (prints : D.Prints) (operand? : Option Text) :
    D.Holds (IfDone Any) (s.tokens operand?).run := by
  rw [Session.tokens]
  refine bindOk (keeps.source operand?) fun source _ => ?_
  refine bindOk (lift (keeps.journal _)) fun j _ => ?_
  refine bindOk (lift (keeps.log _)) fun _ _ => ?_
  rw [keeps.host]
  exact bindOk (lift (prints.allOut _)) fun _ _ => keeps.report source j

theorem check (prints : D.Prints) (names : List Text) :
    D.Holds (IfDone Any) (s.check names).run := by
  rw [Session.check, checkIn]
  refine bindOk (lift (keeps.survey names _ _)) fun found _ => ?_
  rw [keeps.host]
  refine bindOk (lift (keeps.served.allErr _)) fun _ _ => ?_
  cases verdict (found.filterMap id) with
  | error failure => exact throw _
  | ok result => exact prints result (D.done trivial)

variable (delivers : D.Delivers)
include delivers

theorem give (result : Text) : D.Holds (IfDone Any) (s.give result).run := by
  rw [Session.give, keeps.host]
  refine bindOk (lift (delivers result)) fun written _ => ?_
  cases written.complaint? with
  | some complaint => exact throw _
  | none => exact D.done trivial

theorem parse (style : Text) (operand? : Option Text) :
    D.Holds (IfDone Any) (s.parse style operand?).run := by
  rw [Session.parse]
  refine bindOk (keeps.source operand?) fun source _ => ?_
  refine bindOk (lift (keeps.journal _)) fun j _ => ?_
  refine bindOk (lift (keeps.log _)) fun _ _ => ?_
  refine bindOk (keeps.report source j) fun _ _ => ?_
  cases Style.ofName? style with
  | none => exact throw _
  | some style => exact keeps.give delivers _

theorem fmt (operand? : Option Text) : D.Holds (IfDone Any) (s.fmt operand?).run := by
  rw [Session.fmt]
  refine bindOk (keeps.source operand?) fun source _ => ?_
  refine bindOk (lift (keeps.journal _)) fun j _ => ?_
  refine bindOk (keeps.report source j) fun _ _ => ?_
  exact keeps.give delivers _

end Session.Keeps

theorem Discipline.Served.giveHelp {D : Discipline} (served : D.Served) (delivers : D.Delivers)
    (help : Text) : D.Holds Any (Command.giveHelp World.host help) := by
  rw [Command.giveHelp]
  refine D.bind (delivers help) fun written _ => ?_
  cases written.complaint? with
  | some complaint => exact D.bind (served.err _) fun _ _ => D.done trivial
  | none => exact D.done trivial

theorem Session.Keeps.act {D : Discipline} {s : Session (StateM World)} (keeps : s.Keeps D)
    (delivers : D.Delivers) (command : Command) (given : Arguments) :
    D.Holds (IfDone Any) (Command.act command given s).run := by
  cases command with
  | tokens => exact keeps.tokens delivers.prints _
  | parse => exact keeps.parse delivers _ _
  | fmt => exact keeps.fmt delivers _
  | check => exact keeps.check delivers.prints _
  | help =>
    rw [Command.act, keeps.host]
    exact Discipline.lift (keeps.served.giveHelp delivers _)

/-! ## Before there is a session -/

theorem Discipline.Served.load {D : Discipline} (served : D.Served) (path : Text) :
    D.Holds Any (Settings.load World.host.readFile path) := by
  rw [Settings.load]
  split
  · exact D.done trivial
  · refine D.bind (served.readFile path) fun read _ => ?_
    cases read with
    | error failure => exact D.done trivial
    | ok source =>
      dsimp only
      cases Settings.read source <;> exact D.done trivial

theorem Discipline.orFail {D : Discipline} {α : Type} (x : Except UsageError α) :
    D.Holds (IfDone Any) (Command.orFail x : ExceptT Failure (StateM World) α).run := by
  cases x <;> exact D.done trivial

end Bhasha
