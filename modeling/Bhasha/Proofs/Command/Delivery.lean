import Bhasha.Proofs.Command.Discipline
import Bhasha.Proofs.Command.Writes

/-!
# Output that is cut short

A run whose output has room for some bytes only is compared with the same run on an output without a
limit.  As long as no outcome of a write is looked at, both runs go the same way and the limited
output holds the first bytes of the other, as many as there is room for.  Printing tokens and
checking files go so to their end, so they succeed even if what they print is lost.  Parsing and
formatting write once, look at the outcome, and fail unless everything was taken.
-/

namespace Bhasha

namespace Sink

/-- A sink with a limit beside one without, after the same writes. -/
structure CutTo (room : Nat) (full cut : Sink) : Prop where
  endless : full.room = none
  left : cut.room = some (room - full.taken.length)
  taken : cut.taken = full.taken.take room

variable {room : Nat} {complaint : Text} {full cut : Sink}

theorem cutTo_start : CutTo room .unlimited (.limited room complaint) where
  endless := rfl
  left := rfl
  taken := List.take_nil.symm

namespace CutTo

theorem fitting (before : CutTo room full cut) (bytes : Text) :
    cut.fitting bytes = min (room - full.taken.length) bytes.length := by
  rw [Sink.fitting, before.left]

theorem after (before : CutTo room full cut) (bytes : Text) :
    CutTo room (full.after bytes) (cut.after bytes) where
  endless := room_after before.endless bytes
  left := by
    rw [taken_after_of_room before.endless, List.length_append]
    simp only [Sink.after, before.fitting, before.left, Option.map_some, Option.some.injEq]
    omega
  taken := by
    rw [taken_after, before.fitting, before.taken, taken_after_of_room before.endless,
      List.take_append, ← List.take_eq_take_min]

end CutTo

/-- The first write to a limited output fails exactly if there is no room for all of it. -/
theorem complaint?_limited (bytes : Text) :
    ((Sink.limited room complaint).outcome bytes).complaint? =
      if bytes.length ≤ room then none else some complaint := by
  have fits : (Sink.limited room complaint).fitting bytes = min room bytes.length := rfl
  rw [outcome, fits]
  by_cases all : bytes.length ≤ room
  · rw [if_pos all, if_neg (by omega)]
  · rw [if_neg all, if_pos (by omega)]
    rfl

end Sink

/-- The run neither looks at the output nor changes it. -/
def LeavesOut {α : Type} (x : StateM World α) : Prop :=
  ∀ (w : World) (s : Sink), x.run { w with out := s } = ((x.run w).1, { (x.run w).2 with out := s })

/-- In two worlds that differ in their outputs at most, the run ends with the same value, which is
good, and the worlds still differ in their outputs at most.  The outputs are related before and
after it. -/
def Heedless {α : Type} (rel : Sink → Sink → Prop) (good : α → Prop) (x : StateM World α) : Prop :=
  ∀ (w : World) (s s' : Sink), rel s s' → ∃ (a : α) (w' : World) (t t' : Sink),
    good a ∧ rel t t' ∧
    x.run { w with out := s } = (a, { w' with out := t }) ∧
    x.run { w with out := s' } = (a, { w' with out := t' })

section

variable {α β : Type} {rel : Sink → Sink → Prop} {good : α → Prop} {good' : β → Prop}

theorem LeavesOut.heedless {x : StateM World α} (leaves : LeavesOut x)
    (gives : ∀ w, good (x.run w).1) : Heedless rel good x :=
  fun w s s' related => ⟨(x.run w).1, (x.run w).2, s, s', gives w, related, leaves w s, leaves w s'⟩

namespace Heedless

theorem done {a : α} (fine : good a) : Heedless rel good (pure a) :=
  fun w s s' related => ⟨a, w, s, s', fine, related, rfl, rfl⟩

theorem bind {x : StateM World α} {f : α → StateM World β} (first : Heedless rel good x)
    (next : ∀ a, good a → Heedless rel good' (f a)) : Heedless rel good' (x >>= f) := by
  intro w s s' related
  obtain ⟨a, w', t, t', fine, related', ran, ran'⟩ := first w s s' related
  obtain ⟨b, w'', u, u', fine', related'', went, went'⟩ := next a fine w' t t' related'
  refine ⟨b, w'', u, u', fine', related'', ?_, ?_⟩
  · rw [StateT.run_bind, ran]
    exact went
  · rw [StateT.run_bind, ran']
    exact went'

/-- Going the same way whatever the outputs are. -/
def discipline (rel : Sink → Sink → Prop) : Discipline where
  Holds := Heedless rel
  done := done
  bind := bind

end Heedless

end

/-! ## The services of a world -/

section

variable {rel : Sink → Sink → Prop}

theorem heedless_served : (Heedless.discipline rel).Served where
  input := LeavesOut.heedless (fun _ _ => rfl) fun _ => trivial
  readFile _ := LeavesOut.heedless (fun _ _ => rfl) fun _ => trivial
  err _ := LeavesOut.heedless (fun _ _ => rfl) fun _ => trivial

/-- A file that is open for appending is apart from the output. -/
theorem heedless_openToAppend (path : Text) :
    Heedless rel (fun opened => ∀ append, opened = .ok append → ∀ bytes, LeavesOut (append bytes))
      (World.host.openToAppend path) := by
  refine LeavesOut.heedless (fun w s => ?_) fun w append opened bytes => ?_
  · change World.openToAppend path _ = _
    unfold World.host World.openToAppend
    simp only [StateT.run]
    cases w.files.openToAppend path <;> rfl
  · change (World.openToAppend path w).1 = _ at opened
    unfold World.openToAppend at opened
    cases found : w.files.openToAppend path with
    | error failure =>
      simp only [found] at opened
      cases opened
    | ok file =>
      simp only [found] at opened
      cases opened
      exact fun _ _ => rfl

/-- A write to the output keeps the outputs in step if what comes next does not look at its
outcome. -/
theorem heedless_prints {room : Nat} : (Heedless.discipline (Sink.CutTo room)).Prints := by
  -- The outcomes of the two writes may differ, but `next` is given neither.
  intro _ _ bytes next rest w s s' related
  exact rest w (s.after bytes) (s'.after bytes) (related.after bytes)

end

/-! ## A session -/

namespace Session

/-- A session in a world, with a logger that leaves the output alone. -/
structure LogsApart (s : Session (StateM World)) : Prop where
  host : s.host = World.host
  line : ∀ bytes, LeavesOut (s.logger.writeLine bytes)
  object : ∀ write, s.logger.writeObject? = some write → ∀ bytes, LeavesOut (write bytes)

theorem LogsApart.keeps {rel : Sink → Sink → Prop} {s : Session (StateM World)}
    (apart : s.LogsApart) : s.Keeps (Heedless.discipline rel) where
  served := heedless_served
  host := apart.host
  line bytes := (apart.line bytes).heedless fun _ => trivial
  object write same bytes := (apart.object write same bytes).heedless fun _ => trivial

end Session

/-! ## Starting a session -/

namespace Command

variable {rel : Sink → Sink → Prop}

theorem heedless_startLogger (settings : Settings) :
    Heedless rel
      (fun started => ∀ logger, started = .ok logger →
        Session.LogsApart ⟨World.host, settings, logger⟩)
      (startLogger World.host settings) := by
  rw [startLogger, Logger.start]
  cases LogLevel.read settings.level with
  | error e =>
    refine .done fun logger started => ?_
    cases started
  | ok threshold =>
    dsimp only
    split
    · refine .done fun logger started => ?_
      cases started
      refine ⟨rfl, fun _ _ _ => rfl, fun write none => ?_⟩
      cases none
    · refine (heedless_openToAppend _).bind fun opened apart => ?_
      cases opened with
      | error failure =>
        refine .done fun logger started => ?_
        cases started
      | ok append =>
        -- The logger keeps the action that the host gave it, and it is the only such action.
        refine .done fun logger started => ?_
        cases started
        refine ⟨rfl, fun _ _ _ => rfl, fun write same => ?_⟩
        cases same
        exact apart append rfl

theorem heedless_start (flags : Flags) :
    Heedless rel (IfDone Session.LogsApart) (start World.host flags).run := by
  rw [start]
  refine Discipline.bindOk (D := Heedless.discipline rel)
    (Discipline.lift (heedless_served.load _)) fun loaded _ => ?_
  cases loaded with
  | error e => exact Discipline.throw _
  | ok settings =>
    dsimp only
    refine Discipline.bindOk (Discipline.lift (heedless_startLogger _)) fun started apart => ?_
    cases started with
    | error e => exact Discipline.throw _
    | ok logger => exact Heedless.done (apart logger rfl)

end Command

/-! ## Commands that look at the outcome -/

/-- On a limited output the run prints as much as there is room for, and it fails with the complaint
of the output unless all that it prints without a limit is taken. -/
def Noticing (room : Nat) (complaint : Text) (x : ExceptT Failure (StateM World) Unit) : Prop :=
  ∀ w : World,
    let full := x.run.run { w with out := .unlimited }
    let cut := x.run.run { w with out := .limited room complaint }
    cut.2.out.taken = full.2.out.taken.take room ∧
      cut.1 = if full.2.out.taken.length ≤ room then full.1 else .error (.output complaint)

namespace Noticing

variable {α : Type} {room : Nat} {complaint : Text} {good : α → Prop}

/-- Nothing has been written to either output. -/
def Untouched (room : Nat) (complaint : Text) (s s' : Sink) : Prop :=
  s = .unlimited ∧ s' = .limited room complaint

theorem after {x : ExceptT Failure (StateM World) α} {f : α → ExceptT Failure (StateM World) Unit}
    (first : Heedless (Untouched room complaint) (IfDone good) x.run)
    (next : ∀ a, good a → Noticing room complaint (f a)) : Noticing room complaint (x >>= f) := by
  intro w full cut
  obtain ⟨r, w', _, _, fine, ⟨rfl, rfl⟩, ran, ran'⟩ := first w _ _ ⟨rfl, rfl⟩
  simp only [full, cut, ExceptT.run_bind, StateT.run_bind, ran, ran']
  cases r with
  | ok a => exact next a fine w'
  -- A failure before the result leaves both outputs empty, and nothing is lost.
  | error failure => exact ⟨List.take_nil.symm, (if_pos (Nat.zero_le room)).symm⟩

theorem throw (failure : Failure) : Noticing room complaint (throw failure) :=
  fun _ => ⟨List.take_nil.symm, (if_pos (Nat.zero_le room)).symm⟩

end Noticing

namespace Session

variable {room : Nat} {complaint : Text} {s : Session (StateM World)} (apart : s.LogsApart)
include apart

theorem run_give (result : Text) (w : World) (sink : Sink) :
    (s.give result).run.run { w with out := sink } =
      (match (sink.outcome result).complaint? with
        | some complaint => .error (.output complaint)
        | none => .ok (),
        { w with out := sink.after result }) := by
  rw [give, apart.host]
  change StateT.run (ExceptT.run (match (sink.outcome result).complaint? with
    | some complaint => throw (Failure.output complaint)
    | none => pure ())) { w with out := sink.after result } = _
  cases (sink.outcome result).complaint? <;> rfl

theorem noticing_give (result : Text) : Noticing room complaint (s.give result) := by
  intro w full cut
  have start : Sink.CutTo room .unlimited (.limited room complaint) := Sink.cutTo_start
  have all : (Sink.unlimited.after result).taken = result := Sink.taken_after_of_room rfl result
  have kept : Sink.unlimited.outcome result = ⟨result.length, none⟩ :=
    Sink.outcome_of_room rfl result
  simp only [full, cut, run_give apart, Sink.complaint?_limited, kept]
  refine ⟨(start.after result).taken, ?_⟩
  rw [all]
  by_cases fits : result.length ≤ room
  · rw [if_pos fits, if_pos fits]
  · rw [if_neg fits, if_neg fits]

theorem noticing_parse (style : Text) (operand? : Option Text) :
    Noticing room complaint (s.parse style operand?) := by
  rw [parse]
  refine .after (apart.keeps.source operand?) fun source _ => ?_
  refine .after (Discipline.lift (apart.keeps.journal _)) fun j _ => ?_
  refine .after (Discipline.lift (apart.keeps.log _)) fun _ _ => ?_
  refine .after (apart.keeps.report source j) fun _ _ => ?_
  cases Style.ofName? style with
  | none => exact .throw _
  | some style => exact noticing_give apart _

theorem noticing_fmt (operand? : Option Text) : Noticing room complaint (s.fmt operand?) := by
  rw [fmt]
  refine .after (apart.keeps.source operand?) fun source _ => ?_
  refine .after (Discipline.lift (apart.keeps.journal _)) fun j _ => ?_
  refine .after (apart.keeps.report source j) fun _ _ => ?_
  exact noticing_give apart _

end Session

theorem Heedless.cut {room : Nat} {complaint : Text} {x : ExceptT Failure (StateM World) Unit}
    (heedless : Heedless (Sink.CutTo room) (IfDone Any) x.run) (w : World) :
    let full := x.run.run { w with out := .unlimited }
    let cut := x.run.run { w with out := .limited room complaint }
    cut.2.out.taken = full.2.out.taken.take room ∧ cut.1 = full.1 := by
  have start : Sink.CutTo room .unlimited (.limited room complaint) := Sink.cutTo_start
  obtain ⟨r, w', t, t', -, related, ran, ran'⟩ := heedless w _ _ start
  simp only [ran, ran']
  exact ⟨related.taken, trivial⟩

namespace Command

section

variable {arguments rest : List Text} {command : Command} {given : Arguments}
  (found : find arguments = .ok (some command, rest))
  (read : Arguments.read (some command) rest = .ok given) (noHelp : given.flags.help = false)
include found read noHelp

theorem heedless_run {rel : Sink → Sink → Prop}
    (acts : ∀ s, s.LogsApart → Heedless rel (IfDone Any) (act command given s).run) :
    Heedless rel (IfDone Any) (run World.host arguments).run := by
  rw [run_found World.host found read noHelp]
  exact Discipline.bindOk (D := Heedless.discipline rel) (Discipline.orFail _) fun _ _ =>
    Discipline.bindOk (heedless_start _) acts

theorem noticing_run {room : Nat} {complaint : Text}
    (acts : ∀ s, s.LogsApart → Noticing room complaint (act command given s)) :
    Noticing room complaint (run World.host arguments) := by
  rw [run_found World.host found read noHelp]
  exact .after (Discipline.orFail (D := Heedless.discipline _) _) fun _ _ =>
    .after (heedless_start _) acts

end

end Command

/-- A command that is run with room for some bytes on its output, and the same command without a
limit.  The output with the limit takes the first bytes of what is printed without it, as many as
there is room for.  Parsing and formatting fail with the complaint of the output unless that is all,
and end alike otherwise.  Printing tokens and checking end alike in either case, so that they may
succeed with output lost. -/
theorem output_cut_short (w : World) {arguments rest : List Text} {command : Command}
    {given : Arguments} (room : Nat) (complaint : Text)
    (found : Command.find arguments = .ok (some command, rest))
    (read : Arguments.read (some command) rest = .ok given) (noHelp : given.flags.help = false)
    (acting : command ≠ .help) :
    let run := (Command.run World.host arguments).run.run
    let full := run { w with out := .unlimited }
    let cut := run { w with out := .limited room complaint }
    cut.2.out.taken = full.2.out.taken.take room ∧
    (command = .parse ∨ command = .fmt →
      cut.1 = if full.2.out.taken.length ≤ room then full.1 else .error (.output complaint)) ∧
    (command = .tokens ∨ command = .check → cut.1 = full.1) := by
  intro run full cut
  cases command with
  | tokens =>
    obtain ⟨taken, same⟩ := (Command.heedless_run found read noHelp fun _ apart =>
      apart.keeps.tokens heedless_prints _).cut w
    exact ⟨taken, nofun, fun _ => same⟩
  | parse =>
    obtain ⟨taken, noticed⟩ := Command.noticing_run found read noHelp
      (fun _ apart => Session.noticing_parse apart _ _) w
    exact ⟨taken, fun _ => noticed, nofun⟩
  | fmt =>
    obtain ⟨taken, noticed⟩ := Command.noticing_run found read noHelp
      (fun _ apart => Session.noticing_fmt apart _) w
    exact ⟨taken, fun _ => noticed, nofun⟩
  | check =>
    obtain ⟨taken, same⟩ := (Command.heedless_run found read noHelp fun _ apart =>
      apart.keeps.check heedless_prints _).cut w
    exact ⟨taken, nofun, fun _ => same⟩
  | help => exact absurd rfl acting

/-- A world with a text on the input and in a file. -/
def smallSource : World where
  input := .ok (text "lekho 1;")
  out := .unlimited
  err := .unlimited
  stamp := []
  files := ⟨[([text "f"], text "lekho 1;")], []⟩

theorem tokens_lost_unnoticed :
    let w := smallSource
    let run := (Command.run World.host [text "tokens"]).run.run
    let full := run { w with out := .unlimited }
    let cut := run { w with out := .limited 5 (text "boom") }
    full.2.out.taken =
        text "PRINT[1]: \"lekho\"\nNUMBER[1]: \"1\"\nSEMICOLON[1]: \";\"\nEOF\n" ∧
      cut.1 = .ok () ∧ cut.2.out.taken = text "PRINT" := by
  intro w run full cut
  have read : Arguments.read (some .tokens) [] = .ok ⟨.unset, []⟩ := rfl
  obtain ⟨taken, -, same⟩ := output_cut_short w 5 (text "boom") (Command.find_name .tokens []) read
    rfl nofun
  have ran : Command.run World.host [text "tokens"] = _ :=
    Command.run_plain World.host read rfl rfl rfl rfl
  have ended : full.1 = .ok () := by
    simp only [full, run, ran]
    exact ok_of_toOption (by decide +kernel)
  have printed : full.2.out.taken =
      text "PRINT[1]: \"lekho\"\nNUMBER[1]: \"1\"\nSEMICOLON[1]: \";\"\nEOF\n" := by
    simp only [full, run, ran]
    decide +kernel
  refine ⟨printed, (same (.inl rfl)).trans ended, taken.trans ?_⟩
  exact (congrArg (List.take 5) printed).trans (by decide)

/-- The success of a command means that its output took all that it printed. -/
def Command.Delivers (command : Command) : Prop :=
  ∀ (w : World) (rest : List Text) (room : Nat) (complaint : Text),
    let run := (Command.run World.host (command.name :: rest)).run.run
    let full := run { w with out := .unlimited }
    let cut := run { w with out := .limited room complaint }
    cut.1 = .ok () → cut.2.out.taken = full.2.out.taken

theorem success_without_delivery : ¬ Command.tokens.Delivers ∧ ¬ Command.check.Delivers := by
  have named : (text "f").head? ≠ some 0x2d := by decide
  constructor
  · intro delivers
    have claimed := delivers smallSource [text "f"] 5 (text "boom")
    rw [Command.run_plain World.host (Command.read_operand .tokens named) rfl rfl rfl rfl]
      at claimed
    exact absurd (claimed (ok_of_toOption (by decide +kernel))) (by decide +kernel)
  · intro delivers
    have claimed := delivers smallSource [text "f"] 5 (text "boom")
    rw [Command.run_plain World.host (Command.read_operand .check named) rfl rfl rfl rfl]
      at claimed
    exact absurd (claimed (ok_of_toOption (by decide +kernel))) (by decide +kernel)

end Bhasha
