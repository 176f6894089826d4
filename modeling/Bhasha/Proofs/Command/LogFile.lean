import Bhasha.Proofs.Command.Discipline
import Bhasha.Proofs.Files

/-!
# The files that a run changes

Commands read files, and none of them writes to one.  The only file that is open for writing is the
log, which is opened when a session starts and created if it does not exist.  So at most one file is
another after a run than before, and it begins with what it held.
-/

namespace Bhasha

/-- The run ends with a good value, and writes to at most one file, behind what it holds. -/
def WritesAt {α : Type} (log? : Option EntryPath) (good : α → Prop) (x : StateM World α) : Prop :=
  ∀ w, good (x.run w).1 ∧ Files.GrowsAt log? w.files (x.run w).2.files

namespace WritesAt

variable {α β : Type} {log? : Option EntryPath} {good : α → Prop} {good' : β → Prop}

theorem done {a : α} (fine : good a) : WritesAt log? good (pure a) :=
  fun w => ⟨fine, .refl log? w.files⟩

theorem bind {x : StateM World α} {f : α → StateM World β} (first : WritesAt log? good x)
    (next : ∀ a, good a → WritesAt log? good' (f a)) : WritesAt log? good' (x >>= f) := by
  intro w
  obtain ⟨fine, grows⟩ := first w
  obtain ⟨fine', grows'⟩ := next _ fine (x.run w).2
  exact ⟨fine', grows.trans grows'⟩

/-- Writing to one file only. -/
def discipline (log? : Option EntryPath) : Discipline where
  Holds := WritesAt log?
  done := done
  bind := bind

/-- A run that leaves all files alone. -/
theorem of_same {x : StateM World α} (same : ∀ w, (x.run w).2.files = w.files) :
    WritesAt log? Any x := by
  intro w
  rw [same]
  exact ⟨trivial, .refl log? w.files⟩

theorem served : (discipline log?).Served where
  input := of_same fun _ => rfl
  readFile _ := of_same fun _ => rfl
  err _ := of_same fun _ => rfl

theorem delivers : (discipline log?).Delivers := fun _ => of_same fun _ => rfl

end WritesAt

/-- The run chooses the file that it may write to, if any, and ends with a value that is good for
that file. -/
def Opens {α : Type} (good : Option EntryPath → α → Prop) (x : StateM World α) : Prop :=
  ∀ w, ∃ log?, good log? (x.run w).1 ∧ Files.GrowsAt log? w.files (x.run w).2.files

namespace Opens

variable {α β : Type} {good : α → Prop} {fit : Option EntryPath → α → Prop}
  {fit' : Option EntryPath → β → Prop}

theorem none {x : StateM World α} (writes : WritesAt none (fit none) x) : Opens fit x :=
  fun w => ⟨_, writes w⟩

theorem after {x : StateM World α} {f : α → StateM World β} (first : WritesAt Option.none good x)
    (next : ∀ a, good a → Opens fit' (f a)) : Opens fit' (x >>= f) := by
  intro w
  obtain ⟨fine, untouched⟩ := first w
  obtain ⟨log?, fine', grows⟩ := next _ fine (x.run w).2
  exact ⟨log?, fine', untouched.ofNone.trans grows⟩

theorem bind {x : StateM World α} {f : α → StateM World β} (first : Opens fit x)
    (next : ∀ log? a, fit log? a → WritesAt log? (fit' log?) (f a)) : Opens fit' (x >>= f) := by
  intro w
  obtain ⟨log?, fine, grows⟩ := first w
  obtain ⟨fine', grows'⟩ := next log? _ fine (x.run w).2
  exact ⟨log?, fine', grows.trans grows'⟩

theorem lift {x : StateM World α} (inner : Opens fit x) :
    Opens (fun log? => IfDone (fit log?))
      (ExceptT.lift x : ExceptT Failure (StateM World) α).run := by
  change Opens (fun log? => IfDone (fit log?)) (x >>= fun a => pure (.ok a))
  exact inner.bind fun _ _ fine => .done fine

variable {x : ExceptT Failure (StateM World) α} {f : α → ExceptT Failure (StateM World) β}

theorem afterOk (first : WritesAt Option.none (IfDone good) x.run)
    (next : ∀ a, good a → Opens (fun log? => IfDone (fit' log?)) (f a).run) :
    Opens (fun log? => IfDone (fit' log?)) (x >>= f).run := by
  rw [ExceptT.run_bind]
  refine after first fun r fine => ?_
  cases r with
  | ok a => exact next a fine
  | error failure => exact none (.done trivial)

theorem bindOk (first : Opens (fun log? => IfDone (fit log?)) x.run)
    (next : ∀ log? a, fit log? a → WritesAt log? (IfDone (fit' log?)) (f a).run) :
    Opens (fun log? => IfDone (fit' log?)) (x >>= f).run := by
  rw [ExceptT.run_bind]
  refine bind first fun log? r fine => ?_
  cases r with
  | ok a => exact next log? a fine
  | error failure => exact .done trivial

end Opens

/-- A file that is open for appending is the one that is written to. -/
theorem opens_openToAppend (path : Text) :
    Opens (fun log? opened => ∀ append, opened = .ok append →
      ∀ bytes, WritesAt log? Any (append bytes)) (World.host.openToAppend path) := by
  intro w
  have ran : (World.host.openToAppend path).run w = World.openToAppend path w := rfl
  rw [ran, World.openToAppend]
  cases opened : w.files.openToAppend path with
  | error failure => exact ⟨none, nofun, .refl none w.files⟩
  | ok target =>
    obtain ⟨log, files⟩ := target
    refine ⟨some log, fun append same bytes v => ?_, .openToAppend opened⟩
    cases same
    exact ⟨trivial, .extend v.files log bytes⟩

namespace Command

/-- A logger keeps to the file that it is started with, if there is one. -/
theorem opens_startLogger (settings : Settings) :
    Opens (fun log? started => ∀ logger, started = .ok logger →
        Session.Keeps (WritesAt.discipline log?) ⟨World.host, settings, logger⟩)
      (startLogger World.host settings) := by
  have keeps {log? : Option EntryPath} {threshold : LogLevel}
      {object? : Option (Text → StateM World Unit)}
      (object : ∀ write, object? = some write → ∀ bytes, WritesAt log? Any (write bytes)) :
      Session.Keeps (WritesAt.discipline log?)
        ⟨World.host, settings, ⟨threshold, World.host.log, object?⟩⟩ :=
    ⟨WritesAt.served, rfl, fun _ => WritesAt.of_same fun _ => rfl, object⟩
  rw [startLogger, Logger.start]
  cases LogLevel.read settings.level with
  | error e => exact .none (.done nofun)
  | ok threshold =>
    dsimp only
    split
    · refine .none (.done fun logger started => ?_)
      cases started
      exact keeps nofun
    · refine (opens_openToAppend settings.logFile).bind fun log? opened appends => ?_
      cases opened with
      | error failure => exact .done nofun
      | ok append =>
        refine .done fun logger started => ?_
        cases started
        refine keeps fun write same => ?_
        cases same
        exact appends append rfl

theorem opens_start (flags : Flags) :
    Opens (fun log? => IfDone fun s => s.Keeps (WritesAt.discipline log?))
      (start World.host flags).run := by
  rw [start]
  refine .afterOk (Discipline.lift (D := WritesAt.discipline none)
    (WritesAt.served.load _)) fun loaded _ => ?_
  cases loaded with
  | error e => exact .none (.done trivial)
  | ok settings =>
    dsimp only
    refine .bindOk (opens_startLogger _).lift fun log? started keeps => ?_
    cases started with
    | error e => exact .done trivial
    | ok logger => exact .done (keeps logger rfl)

theorem opens_run (arguments : List Text) :
    Opens (fun _ => IfDone Any) (run World.host arguments).run := by
  have usage {α : Type} (x : Except UsageError α) : WritesAt none (IfDone Any)
      (orFail x : ExceptT Failure (StateM World) α).run :=
    Discipline.orFail (D := WritesAt.discipline none) x
  have help (help : Text) : Opens (fun _ => IfDone Any)
      (ExceptT.lift (giveHelp World.host help) : ExceptT Failure (StateM World) Unit).run :=
    .lift (.none (WritesAt.served.giveHelp WritesAt.delivers help))
  rw [run]
  refine .afterOk (usage _) fun found _ => ?_
  obtain ⟨command?, rest⟩ := found
  refine .afterOk (usage _) fun given _ => ?_
  cases command? with
  | none => exact help _
  | some command =>
    dsimp only
    split
    · exact help _
    · refine .afterOk (usage _) fun _ _ => ?_
      exact .bindOk (opens_start _) fun log? s keeps => keeps.act WritesAt.delivers command given

end Command

/-- Whatever its arguments are, a run changes no file but its log, which it only adds to. -/
theorem only_log_changes (w : World) (distinct : w.files.Distinct) (arguments : List Text) :
    ∃ log?, ∀ change ∈ w.files.changesSince ((Command.execute World.host arguments).run w).2.files,
      some change.1 = log? ∧ (w.files.content? change.1).getD [] <+: change.2 := by
  have executed : Opens (fun _ => Any) (Command.execute World.host arguments) := by
    rw [Command.execute]
    refine .bind (Command.opens_run arguments) fun log? ended _ => ?_
    cases ended with
    | ok done => exact .done trivial
    | error failure => exact .bind (WritesAt.served.err _) fun _ _ => .done trivial
  obtain ⟨log?, -, grows⟩ := executed w
  exact ⟨log?, fun change changed => grows.of_change distinct changed⟩

end Bhasha
