import Bhasha.Command.Flags

/-!
# Help texts

A help text says what a command does, how it is called and which flags it has.  The descriptions of
the flags in one list start in one column, three blanks behind the longest flag.

Source: benglang, package `main`: the texts of `rootCmd`, `tokensCmd`, `parseCmd`, `fmtCmd` and
`checkCmd`, laid out as its command library does.
-/

namespace Bhasha.Help

/-- A flag as it is listed. -/
structure Entry where
  label : Text
  description : Text
deriving DecidableEq, Repr

def config : Entry := ⟨text "      --config string", text "TOML config file"⟩

def logLevel : Entry :=
  ⟨text "      --log-level string",
    text "log level (debug, info, warn, error), overrides the config"⟩

def style : Entry :=
  ⟨text "      --style string", text "dump style: pretty, litter or source (default from config)"⟩

/-- The flag for the help on a command or on the program. -/
def help (name : Text) : Entry := ⟨text "  -h, --help", text "help for " ++ name⟩

/-- A text filled up with blanks. -/
def pad (width : Nat) (s : Text) : Text := s ++ List.replicate (width - s.length) 0x20

/-- Flags on lines of their own, under a heading. -/
def flagList (heading : Text) (entries : List Entry) : Text :=
  let width := entries.foldl (fun widest e => max widest e.label.length) 0
  text "\n" ++ heading ++ text ":\n" ++
    entries.flatMap fun e => pad (width + 3) e.label ++ e.description ++ text "\n"

/-- The commands that are listed, with what they do. -/
def listing : List (Text × Text) :=
  [(text "check", Command.check.summary),
    (text "completion", text "Generate the autocompletion script for the specified shell"),
    (text "fmt", Command.fmt.summary), (text "help", Command.help.summary),
    (text "parse", Command.parse.summary), (text "tokens", Command.tokens.summary)]

/-- The column in which the summaries of the commands start. -/
def summaryColumn : Nat := 12

/-- How the program is called, with the flags given. -/
def usage (flags : List Entry) : Text :=
  text "Usage:\n  " ++ Command.program ++ text " [command]\n\nAvailable Commands:\n" ++
    (listing.flatMap fun entry =>
      text "  " ++ pad summaryColumn entry.1 ++ entry.2 ++ text "\n") ++
    flagList (text "Flags") flags ++
    text "\nUse \"" ++ Command.program ++
    text " [command] --help\" for more information about a command.\n"

/-- The help on the program. -/
def ofProgram : Text :=
  text "benglang turns source text into tokens and syntax trees.\n\n" ++
  text "Every command reads the file given as argument, or stdin when the argument\n" ++
  text "is missing or \"-\". Lexical and syntax errors are all reported before exiting\n" ++
  text "with status 65.\n\n" ++
  usage [config, help Command.program, logLevel]

/-- What a help text says first. -/
def introduction : Command → Text
  | .help =>
    text "Help provides help for any command in the application.\n" ++
    text "Simply type benglang help [path to command] for full details."
  | command => command.summary

/-- The help on a command. -/
def ofCommand (command : Command) : Text :=
  let flags := if command = .parse then [help command.name, style] else [help command.name]
  introduction command ++ text "\n\nUsage:\n  " ++ Command.program ++ text " " ++ command.name ++
    text " " ++ command.operands ++ text " [flags]\n" ++
    flagList (text "Flags") flags ++ flagList (text "Global Flags") [config, logLevel]

/-- The help on a command or on the program. -/
def ofTopic : Option Command → Text
  | none => ofProgram
  | some command => ofCommand command

/-- The answer to a question about something that is no command. -/
def unknownTopic (topics : List Text) : Text :=
  let quoted := Text.joinWith (text " ") (topics.map Quoted.quotePlain)
  text "Unknown help topic [" ++ quoted ++ text "]\n" ++ usage [config, logLevel]

end Bhasha.Help
