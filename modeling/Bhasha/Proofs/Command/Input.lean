import Bhasha.Proofs.Command.Agreement

/-!
# A source from the input

The commands that read one source take it from the input if they have no operand, or the operand
that stands for the input.  What such a command shows depends on the content of the source alone, so
it shows the same as for a file with this content.

Checking is for files: a check without operands is refused before anything is read.
-/

namespace Bhasha

namespace Command

/-- A dash alone is no flag. -/
theorem readFrom_dash (known : List Flag) (a : Arguments) :
    Arguments.readFrom known [Source.inputOperand] a =
      .ok (a.addOperands [Source.inputOperand]) := by
  have written : Source.inputOperand = [0x2d] := by decide
  rw [written, Arguments.readFrom]
  · rfl
  · intro same
    cases same
  · intro flag same
    cases same
  · intro first more same
    cases same

theorem writes_refusal {base : World} :
    Writes base (run World.host [text "check"]).run (.error (.usage .noOperand)) [] [] := by
  have read : Arguments.read (some .check) [] = .ok ⟨.unset, []⟩ := rfl
  have found : find [text "check"] = .ok (some .check, []) := find_name .check []
  rw [run_found World.host found read rfl]
  exact .done _

end Command

section

variable {w : World} {content : Text}

theorem names_input (given : w.input = .ok content) : Names w [] Source.inputName content where
  read known a := by simp [Arguments.readFrom, Arguments.addOperands]
  atMostOne := Nat.zero_le 1
  opened := Session.writes_source_input rfl given

theorem names_dash (given : w.input = .ok content) :
    Names w [Source.inputOperand] Source.inputName content where
  read := Command.readFrom_dash
  atMostOne := Nat.le_refl 1
  opened := Session.writes_source_input rfl given

end

/-- The command lines of the commands that read one source, up to the operand. -/
inductive ReadsSource : List Text → Prop
  | tokens : ReadsSource [text "tokens"]
  | parse : ReadsSource [text "parse"]
  | parseIn (style : Style) : ReadsSource [text "parse", text "--style", style.name]
  | fmt : ReadsSource [text "fmt"]

/-- Sources with the same content are treated alike, wherever they come from. -/
theorem ReadsSource.result_eq {line : List Text} (reads : ReadsSource line) {w w' : World}
    {operands operands' : List Text} {shown shown' content : Text} (freshOut : w.out = .unlimited)
    (freshErr : w.err = .unlimited) (freshOut' : w'.out = .unlimited)
    (freshErr' : w'.err = .unlimited) (names : Names w operands shown content)
    (names' : Names w' operands' shown' content) :
    w.result (line ++ operands) = w'.result (line ++ operands') := by
  cases reads with
  | tokens =>
    have here := World.result_tokens freshOut freshErr names
    have there := World.result_tokens freshOut' freshErr' names'
    exact here.trans there.symm
  | parse =>
    have here := World.result_parse_default freshOut freshErr names
    have there := World.result_parse_default freshOut' freshErr' names'
    exact here.trans there.symm
  | parseIn style =>
    have here := World.result_parse freshOut freshErr names style
    have there := World.result_parse freshOut' freshErr' names' style
    exact here.trans there.symm
  | fmt =>
    have here := World.result_fmt freshOut freshErr names
    have there := World.result_fmt freshOut' freshErr' names'
    exact here.trans there.symm

theorem World.result_refusal {w : World} (freshOut : w.out = .unlimited)
    (freshErr : w.err = .unlimited) :
    w.result [text "check"] =
      ⟨1, [], text "Fail: requires at least 1 arg(s), only received 0.\n"⟩ := by
  have told : (Failure.usage .noOperand).lastWord =
      text "Fail: requires at least 1 arg(s), only received 0.\n" := by
    decide
  rw [World.result_eq freshOut freshErr (Command.writes_execute_error Command.writes_refusal), told]
  rfl

/-- A text on the input and a text in a file that are the same give the same exit code and the same
text on either output, for every command that reads one source, with a dash for an operand or
without an operand.  A check without operands is refused. -/
theorem input_is_read_like_a_file (w w' : World) (name content : Text)
    (freshOut : w.out = .unlimited) (freshErr : w.err = .unlimited)
    (freshOut' : w'.out = .unlimited) (freshErr' : w'.err = .unlimited)
    (given : w.input = .ok content) (named : name.head? ≠ some 0x2d)
    (readable : w'.files.read name = .ok content) :
    (∀ line, ReadsSource line →
      w.result line = w'.result (line ++ [name]) ∧
      w.result (line ++ [text "-"]) = w'.result (line ++ [name])) ∧
    w.result [text "check"] =
      ⟨1, [], text "Fail: requires at least 1 arg(s), only received 0.\n"⟩ := by
  have file := names_file named readable
  refine ⟨fun line reads => ?_, World.result_refusal freshOut freshErr⟩
  have alike {operands : List Text} (names : Names w operands Source.inputName content) :
      w.result (line ++ operands) = w'.result (line ++ [name]) :=
    reads.result_eq freshOut freshErr freshOut' freshErr' names file
  have bare := alike (names_input given)
  rw [List.append_nil] at bare
  exact ⟨bare, alike (names_dash given)⟩

theorem faulty_input_is_read_like_its_file :
    let content := text "1 = 2;\n#"
    let w := { oneFile with input := .ok content }
    w.input = .ok content ∧ w.files.read (text "tokens") = .ok content ∧
    w.result [text "fmt"] = oneFile.result [text "fmt", text "tokens"] ∧
    w.result [text "fmt", text "-"] = oneFile.result [text "fmt", text "tokens"] := by
  intro content w
  have alike := (input_is_read_like_a_file w oneFile (text "tokens") content rfl rfl rfl rfl rfl
    (by decide) oneFile_read).1
  exact ⟨rfl, oneFile_read, alike _ .fmt⟩

/-- A world with the same text on the input and in a file. -/
def sameTwice : World where
  input := .ok (text "lekho 1;")
  out := .unlimited
  err := .unlimited
  stamp := []
  files := ⟨[([text "f"], text "lekho 1;")], []⟩

/-- Checking does not treat the input like a file. -/
theorem check_without_file_differs :
    ¬ ∀ command ∈ [Command.tokens, .parse, .fmt, .check], ∀ (w : World) (name content : Text),
      w.out = .unlimited → w.err = .unlimited → w.input = .ok content →
      name.head? ≠ some 0x2d → w.files.read name = .ok content →
      let fromInput := w.result [command.name]
      let fromFile := w.result [command.name, name]
      fromInput.code = fromFile.code ∧ fromInput.out = fromFile.out := by
  intro alike
  have named : (text "f").head? ≠ some 0x2d := by decide
  have readable : sameTwice.files.read (text "f") = .ok (text "lekho 1;") :=
    ok_of_toOption (by decide +kernel)
  have clean : (Reading.ofSource (text "lekho 1;")).diagnostics = [] := by decide +kernel
  have fromFile : (sameTwice.result [text "check", text "f"]).code = 0 := by
    rw [World.result_check rfl rfl named readable, clean]
    rfl
  have fromInput : (sameTwice.result [text "check"]).code = 1 := by
    rw [World.result_refusal rfl rfl]
  have same := (alike .check (by decide) sameTwice (text "f") _ rfl rfl rfl named readable).1
  have impossible : 1 = 0 := fromInput.symm.trans (same.trans fromFile)
  cases impossible

end Bhasha
