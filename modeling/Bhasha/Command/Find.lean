import Bhasha.Command.Usage

/-!
# Finding the command

The command is the first word among the arguments that is no flag and no value of a flag.  At this
point no flag is known, so every flag without an equality sign is taken to have its value in the
next argument.  A flag whose value would be the last argument ends the search.

Source: the way in which the command library of benglang finds what `rootCmd` is asked for (`Find`,
`stripFlags`).
-/

namespace Bhasha.Command

/-- The argument after which only operands come. -/
def endOfFlags : Text := text "--"

/-- Whether an argument looks like a flag with its value in the next argument. -/
def takesNext (argument : Text) : Bool :=
  !argument.contains 0x3d &&
    ((text "--").isPrefixOf argument || (argument.length = 2 && argument.head? = some 0x2d))

def isWord (argument : Text) : Bool := !argument.isEmpty && argument.head? != some 0x2d

/-- The words among the arguments. -/
def words : List Text → List Text
  | [] => []
  | argument :: rest =>
    if argument = endOfFlags then []
    else if takesNext argument then
      match rest with
      | [] => []
      | _ :: after => if after.isEmpty then [] else words after
    else if isWord argument then argument :: words rest
    else words rest

/-- The arguments without the first one that is the given word. -/
def withoutWord (word : Text) : List Text → List Text
  | [] => []
  | argument :: rest =>
    if argument = endOfFlags then argument :: rest
    else if takesNext argument then
      match rest with
      | [] => [argument]
      | value :: after => argument :: value :: withoutWord word after
    else if argument = word then rest
    else argument :: withoutWord word rest

/-- The command that the arguments name, if they name one, and the other arguments. -/
def find (arguments : List Text) : Except UsageError (Option Command × List Text) :=
  match words arguments with
  | [] => .ok (none, arguments)
  | word :: _ =>
    match ofName? word with
    | some command => .ok (some command, withoutWord word arguments)
    | none => .error (.unknownCommand word)

end Bhasha.Command
