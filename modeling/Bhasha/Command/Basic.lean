import Bhasha.Text.Bytes

/-!
# Commands

The commands of the program and how they are called.

Source: benglang, package `main`: the commands that `rootCmd` adds. The command `help` comes from
the command library.
-/

namespace Bhasha

inductive Command where
  | tokens
  | parse
  | fmt
  | check
  | help
deriving DecidableEq, Repr

namespace Command

/-- The name of the program. -/
def program : Text := text "benglang"

def name : Command → Text
  | .tokens => text "tokens"
  | .parse => text "parse"
  | .fmt => text "fmt"
  | .check => text "check"
  | .help => text "help"

def all : List Command := [.tokens, .parse, .fmt, .check, .help]

/-- The command with a given name. -/
def ofName? (name : Text) : Option Command := all.find? (·.name == name)

/-- What a command is called with. -/
def operands : Command → Text
  | .tokens | .parse | .fmt => text "[file]"
  | .check => text "file..."
  | .help => text "[command]"

/-- What a command does. -/
def summary : Command → Text
  | .tokens => text "Print the token stream"
  | .parse => text "Print the syntax tree"
  | .fmt => text "Print the source in canonical form"
  | .check => text "Report the errors of every file"
  | .help => text "Help about any command"

end Command

end Bhasha
