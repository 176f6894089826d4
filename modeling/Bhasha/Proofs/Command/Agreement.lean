import Bhasha.Proofs.Command.Survey

/-!
# The commands agree on a source

Every command that is given a readable file, on default settings and with room on both outputs, runs
to its end.  Printing tokens fails exactly if the source has lexical diagnostics.  Parsing, in any
style, formatting and checking fail exactly if the source has diagnostics at all, with the same
diagnostics on the error output and with nothing on the output; otherwise there is nothing on the
error output, and what is printed depends on the program of the source alone.
-/

namespace Bhasha

open Text (lineFeed)

namespace Session

variable {base : World} {source : Source} {operand? : Option Text}

theorem writes_tokens (given : Writes base (plain.source operand?).run (.ok source) [] []) :
    Writes base (plain.tokens operand?).run
      (ending source.name ((Scan.ofSource source.content).faults.map .ofLexical))
      ((Scan.ofSource source.content).tokens.flatMap fun t => t.describe ++ [lineFeed])
      (Diagnostic.lines ((Scan.ofSource source.content).faults.map .ofLexical)) := by
  rw [tokens]
  refine given.afterOk ?_
  refine (writes_journal _ _).lift.afterOk ?_
  refine (writes_log debug_low _ _).lift.afterOk ?_
  rw [List.flatMap_def, ← List.append_nil (List.flatten _)]
  exact (writes_allOut _).lift.bindOk (writes_report source _)

/-- A command that prints something unless there are diagnostics to report. -/
theorem writes_reported {next : Unit → ExceptT Failure (StateM World) Unit} {product : Text}
    (source : Source) (ds : List Diagnostic)
    (prints : Writes base (next ()).run (.ok ()) product []) :
    Writes base (plain.report source ⟨ds⟩ >>= next).run (ending source.name ds)
      (if ds = [] then product else []) (Diagnostic.lines ds) := by
  have reported := @writes_report base source ds
  cases ds with
  | nil => exact reported.afterOk prints
  | cons first rest => exact reported.bindError

theorem writes_parse (given : Writes base (plain.source operand?).run (.ok source) [] [])
    {styleName : Text} {style : Style} (known : Style.ofName? styleName = some style) :
    Writes base (plain.parse styleName operand?).run
      (ending source.name (Reading.ofSource source.content).diagnostics)
      (if (Reading.ofSource source.content).diagnostics = [] then
        style.print (some (Reading.ofSource source.content).program.statements) else [])
      (Diagnostic.lines (Reading.ofSource source.content).diagnostics) := by
  rw [parse]
  refine given.afterOk ?_
  refine (writes_journal _ _).lift.afterOk ?_
  refine (writes_log debug_low _ _).lift.afterOk ?_
  refine writes_reported source _ ?_
  rw [known]
  exact writes_give _

theorem writes_fmt (given : Writes base (plain.source operand?).run (.ok source) [] []) :
    Writes base (plain.fmt operand?).run
      (ending source.name (Reading.ofSource source.content).diagnostics)
      (if (Reading.ofSource source.content).diagnostics = [] then
        (Reading.ofSource source.content).program.source else [])
      (Diagnostic.lines (Reading.ofSource source.content).diagnostics) := by
  rw [fmt]
  refine given.afterOk ?_
  refine (writes_journal _ _).lift.afterOk ?_
  exact writes_reported source _ (writes_give _)

/-- A single file is checked as any number of them is. -/
theorem writes_check {name content : Text} (readable : base.files.read name = .ok content) :
    Writes base (plain.check [name]).run
      (if (Reading.ofSource content).diagnostics = [] then .ok () else .error (.faultyFiles 1 1))
      (if (Reading.ofSource content).diagnostics = [] then text "1 files ok\n" else [])
      (linesOf name (Reading.ofSource content).diagnostics) := by
  have each : ∀ place < [name].length, place ∈ List.range [name].length := by simp
  have checked := Survey.writes_checkIn base.serves each
  have found : Survey.diagnostics base.files.read name =
      (Reading.ofSource content).diagnostics := by
    rw [Survey.diagnostics, readable]
  have all : Survey.unreadable base.files.read [name] = [] := by
    simp [Survey.unreadable, readable]
  have counted : Survey.faulty base.files.read [name] =
      if (Reading.ofSource content).diagnostics = [] then 0 else 1 := by
    rw [Survey.faulty, List.countP_singleton, found]
    split <;> simp_all
  have wording : Text.ofNat 1 ++ text " files ok\n" = text "1 files ok\n" := by decide
  rw [Survey.verdict_eq, all, counted, if_neg fun some => some rfl, List.map_singleton,
    List.flatten_singleton, Survey.block, found] at checked
  rw [check]
  -- The number of faulty files is 0 or 1, and it decides the verdict in the same way.
  by_cases clean : (Reading.ofSource content).diagnostics = []
  · simp only [clean, if_true] at checked ⊢
    rw [← wording]
    exact checked
  · simp only [clean, if_false] at checked ⊢
    exact checked

end Session

namespace Command

variable {base : World} {out err : Text}

theorem writes_run {command : Command} {rest : List Text} {given : Arguments}
    {r : Except Failure Unit} (read : Arguments.read (some command) rest = .ok given)
    (noHelp : given.flags.help = false) (config : given.flags.config = [])
    (level : given.flags.logLevel = [])
    (counted : countOperands command given.operands = .ok ())
    (acts : Writes base (act command given Session.plain).run r out err) :
    Writes base (run World.host (command.name :: rest)).run r out err := by
  rw [run_plain World.host read noHelp config level counted]
  exact acts

theorem writes_execute_ok {arguments : List Text}
    (ran : Writes base (run World.host arguments).run (.ok ()) out err) :
    Writes base (execute World.host arguments) 0 out err :=
  ran.before (.done _)

/-- A failure has the last word. -/
theorem writes_execute_error {arguments : List Text} {failure : Failure}
    (ran : Writes base (run World.host arguments).run (.error failure) out err) :
    Writes base (execute World.host arguments) failure.code out (err ++ failure.lastWord) := by
  have told : Writes base (World.host.err failure.lastWord >>= fun _ => pure failure.code)
      failure.code [] failure.lastWord :=
    (writes_err failure.lastWord).before (.done _)
  rw [execute, ← List.append_nil out]
  exact ran.bind told

/-- Diagnostics have an exit code of their own and no last word. -/
theorem writes_execute_faulty {arguments : List Text} {failure : Failure}
    (ran : Writes base (run World.host arguments).run (.error failure) out err)
    (faulty : failure.isFaulty = true) :
    Writes base (execute World.host arguments) 65 out err := by
  have silent : failure.lastWord = [] := by rw [Failure.lastWord, if_pos faulty]
  have code : failure.code = 65 := by rw [Failure.code, if_pos faulty]
  have told := writes_execute_error ran
  rwa [silent, code, List.append_nil] at told

/-- A run that fails exactly if there are diagnostics. -/
theorem writes_execute {arguments : List Text} {failure : Failure} {ds : List Diagnostic}
    (faulty : failure.isFaulty = true)
    (ran : Writes base (run World.host arguments).run
      (if ds = [] then .ok () else .error failure) out err) :
    Writes base (execute World.host arguments) (if ds = [] then 0 else 65) out err := by
  cases ds with
  | nil => exact writes_execute_ok ran
  | cons first rest => exact writes_execute_faulty ran faulty

end Command

/-- What a run of the program shows: its exit code and what is on the two outputs. -/
structure Result where
  code : Nat
  out : Text
  err : Text
deriving DecidableEq, Repr

/-- The result of running the program in a world. -/
def World.result (w : World) (arguments : List Text) : Result :=
  let (code, after) := (Command.execute World.host arguments).run w
  ⟨code, after.out.taken, after.err.taken⟩

/-- What a run shows that prints something, unless there are diagnostics to report. -/
def Result.ofFound (ds : List Diagnostic) (reported printed : Text) : Result :=
  if ds = [] then ⟨0, printed, []⟩ else ⟨65, [], reported⟩

section

variable {w : World} {name content : Text}

theorem World.result_eq {arguments : List Text} {code : Nat} {out err : Text}
    (freshOut : w.out = .unlimited) (freshErr : w.err = .unlimited)
    (ran : Writes w (Command.execute World.host arguments) code out err) :
    w.result arguments = ⟨code, out, err⟩ := by
  obtain ⟨w', same, rfl, rfl⟩ := ran.run_fresh freshOut freshErr
  simp only [World.result, same]

/-- A run that prints something and succeeds unless there are diagnostics. -/
theorem World.result_ofFound {arguments : List Text} {failure : Failure} {ds : List Diagnostic}
    {reported printed : Text} (freshOut : w.out = .unlimited) (freshErr : w.err = .unlimited)
    (faulty : failure.isFaulty = true) (silent : ds = [] → reported = [])
    (ran : Writes w (Command.run World.host arguments).run
      (if ds = [] then .ok () else .error failure) (if ds = [] then printed else []) reported) :
    w.result arguments = Result.ofFound ds reported printed := by
  have same := World.result_eq freshOut freshErr (Command.writes_execute faulty ran)
  rw [same, Result.ofFound]
  split
  · rename_i clean
    rw [silent clean]
  · rfl

theorem lines_of_nil {ds : List Diagnostic} (clean : ds = []) : Diagnostic.lines ds = [] := by
  rw [clean]
  rfl

/-- Operands that name a source in a world, for the commands that read one source: what it is shown
as, and its content. -/
structure Names (w : World) (operands : List Text) (shown content : Text) : Prop where
  read : ∀ known a, Arguments.readFrom known operands a = .ok (a.addOperands operands)
  atMostOne : operands.length ≤ 1
  opened : Writes w (Session.plain.source operands.head?).run (.ok ⟨shown, content⟩) [] []

theorem Names.given {operands : List Text} {shown : Text} (names : Names w operands shown content)
    (command : Command) : Arguments.read (some command) operands = .ok ⟨.unset, operands⟩ :=
  names.read _ _

theorem Names.counted {operands : List Text} {shown : Text} (names : Names w operands shown content)
    (command : Command) (one : command ≠ .check) :
    Command.countOperands command operands = .ok () := by
  have few : ¬ 1 < operands.length := Nat.not_lt.mpr names.atMostOne
  cases command with
  | tokens | parse | fmt => exact if_neg few
  | check => exact absurd rfl one
  | help => rfl

theorem names_file (named : name.head? ≠ some 0x2d) (readable : w.files.read name = .ok content) :
    Names w [name] name content where
  read known a := Command.readFrom_operands (by simpa using named) a
  atMostOne := Nat.le_refl 1
  opened := by
    have file : name ≠ Source.inputOperand := by
      rintro rfl
      exact named (by decide)
    exact Session.writes_source file readable

section

variable {operands : List Text} {shown : Text} (freshOut : w.out = .unlimited)
  (freshErr : w.err = .unlimited) (names : Names w operands shown content)
include freshOut freshErr names

theorem World.result_tokens :
    w.result (text "tokens" :: operands) =
      ⟨if (Reading.ofSource content).lexical.map Diagnostic.ofLexical = [] then 0 else 65,
        (Scan.ofSource content).tokens.flatMap fun t => t.describe ++ [lineFeed],
        Diagnostic.lines ((Reading.ofSource content).lexical.map Diagnostic.ofLexical)⟩ := by
  have acts := Session.writes_tokens names.opened
  have ran := Command.writes_run (names.given .tokens) rfl rfl rfl (names.counted _ nofun) acts
  exact World.result_eq freshOut freshErr (Command.writes_execute rfl ran)

/-- Parsing in the style that is given. -/
theorem World.result_parse (style : Style) :
    w.result (text "parse" :: text "--style" :: style.name :: operands) =
      Result.ofFound (Reading.ofSource content).diagnostics
        (Diagnostic.lines (Reading.ofSource content).diagnostics)
        (style.print (some (Reading.ofSource content).program.statements)) := by
  have known : Style.ofName? style.name = some style := by cases style <;> decide
  have given : style.name.isEmpty = false := by cases style <;> decide
  have acts := Session.writes_parse names.opened known
  have chosen : Command.act .parse ⟨{ Flags.unset with style := style.name }, operands⟩
      Session.plain = Session.plain.parse style.name operands.head? := by
    rw [Command.act]
    simp only [given]
    rfl
  have read : Arguments.read (some .parse) (text "--style" :: style.name :: operands) =
      .ok ⟨{ Flags.unset with style := style.name }, operands⟩ :=
    (Command.readFrom_style style.name operands _).trans (names.read _ _)
  rw [← chosen] at acts
  have ran := Command.writes_run read rfl rfl rfl (names.counted _ nofun) acts
  exact World.result_ofFound freshOut freshErr rfl lines_of_nil ran

theorem World.result_parse_default :
    w.result (text "parse" :: operands) =
      Result.ofFound (Reading.ofSource content).diagnostics
        (Diagnostic.lines (Reading.ofSource content).diagnostics)
        (Style.pretty.print (some (Reading.ofSource content).program.statements)) := by
  have known : Style.ofName? Settings.default.style = some .pretty := by decide
  have acts := Session.writes_parse names.opened known
  have ran := Command.writes_run (names.given .parse) rfl rfl rfl (names.counted _ nofun) acts
  exact World.result_ofFound freshOut freshErr rfl lines_of_nil ran

theorem World.result_fmt :
    w.result (text "fmt" :: operands) =
      Result.ofFound (Reading.ofSource content).diagnostics
        (Diagnostic.lines (Reading.ofSource content).diagnostics)
        (Reading.ofSource content).program.source := by
  have acts := Session.writes_fmt names.opened
  have ran := Command.writes_run (names.given .fmt) rfl rfl rfl (names.counted _ nofun) acts
  exact World.result_ofFound freshOut freshErr rfl lines_of_nil ran

end

theorem World.result_check (freshOut : w.out = .unlimited) (freshErr : w.err = .unlimited)
    (named : name.head? ≠ some 0x2d) (readable : w.files.read name = .ok content) :
    w.result [text "check", name] =
      Result.ofFound (Reading.ofSource content).diagnostics
        (Session.linesOf name (Reading.ofSource content).diagnostics) (text "1 files ok\n") := by
  have acts := Session.writes_check readable
  have ran := Command.writes_run (Command.read_operand .check named) rfl rfl rfl rfl acts
  have silent : (Reading.ofSource content).diagnostics = [] →
      Session.linesOf name (Reading.ofSource content).diagnostics = [] := by
    intro clean
    rw [clean]
    rfl
  exact World.result_ofFound freshOut freshErr rfl silent ran

end

/-- The commands agree on every source that is in a readable file.  Printing tokens fails exactly if
the source has lexical diagnostics, and prints every token either way.  Parsing in each style,
formatting and checking fail exactly if the source has diagnostics: then they print nothing and
report all of them in order, checking with the name of the file before each.  If there are none,
nothing is reported, and formatting and parsing in the style of sources print the same text. -/
theorem commands_agree (w : World) (name content : Text) (freshOut : w.out = .unlimited)
    (freshErr : w.err = .unlimited) (named : name.head? ≠ some 0x2d)
    (readable : w.files.read name = .ok content) :
    let reading := Reading.ofSource content
    let lexical := reading.lexical.map Diagnostic.ofLexical
    let found := reading.diagnostics
    let printing := Result.ofFound found (Diagnostic.lines found)
    w.result [text "tokens", name] =
      ⟨if lexical = [] then 0 else 65,
        (Scan.ofSource content).tokens.flatMap fun t => t.describe ++ [lineFeed],
        Diagnostic.lines lexical⟩ ∧
    (∀ style : Style, w.result [text "parse", text "--style", style.name, name] =
      printing (style.print (some reading.program.statements))) ∧
    w.result [text "parse", name] =
      printing (Style.pretty.print (some reading.program.statements)) ∧
    w.result [text "parse", text "--style", text "source", name] = printing reading.program.source ∧
    w.result [text "fmt", name] = printing reading.program.source ∧
    w.result [text "check", name] =
      Result.ofFound found (Session.linesOf name found) (text "1 files ok\n") := by
  intro reading lexical found printing
  have names := names_file named readable
  have parsed := World.result_parse freshOut freshErr names
  exact ⟨World.result_tokens freshOut freshErr names, parsed,
    World.result_parse_default freshOut freshErr names, parsed .source,
    World.result_fmt freshOut freshErr names,
    World.result_check freshOut freshErr named readable⟩

/-- A world with one file, which is named like a command. -/
def oneFile : World where
  input := .ok []
  out := .unlimited
  err := .unlimited
  stamp := []
  files := ⟨[([text "tokens"], text "1 = 2;\n#")], []⟩

theorem oneFile_read :
    oneFile.files.read (text "tokens") = .ok (text "1 = 2;\n#") :=
  ok_of_toOption (by decide +kernel)

theorem oneFile_is_checked :
    oneFile.files.read (text "tokens") = .ok (text "1 = 2;\n#") ∧
    oneFile.result [text "check", text "tokens"] =
      ⟨65, [], text "tokens: [line 2] Error: Unexpected character.\n" ++
        text "tokens: [line 1] Error at '=': Invalid assignment target.\n"⟩ := by
  have checked := (commands_agree oneFile (text "tokens") (text "1 = 2;\n#") rfl rfl (by decide)
    oneFile_read).2.2.2.2.2
  refine ⟨oneFile_read, checked.trans ?_⟩
  decide +kernel

end Bhasha
