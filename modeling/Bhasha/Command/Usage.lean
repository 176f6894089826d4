import Bhasha.Command.Basic
import Bhasha.Command.Suggestion
import Bhasha.Text.Quoted

/-!
# Usage errors

What can be wrong with the arguments of the program before a command runs.

Source: the errors that the command library of benglang gives for the arguments of `rootCmd`.
-/

namespace Bhasha

inductive UsageError where
  | unknownCommand (word : Text)
  | badFlag (argument : Text)
  | unknownFlag (name : Text)
  /-- A letter that names no flag, and the letters from it on. -/
  | unknownShorthand (letter : UInt8) (letters : Text)
  | missingValue (argument : Text)
  | noTruthValue (value : Text)
  | tooManyOperands (received : Nat)
  | noOperand
deriving DecidableEq, Repr

def UsageError.message : UsageError → Text
  | .unknownCommand word =>
    text "unknown command " ++ Quoted.quote word ++ text " for " ++ Quoted.quote Command.program ++
      Suggestion.hint word
  | .badFlag argument => text "bad flag syntax: " ++ argument
  | .unknownFlag name => text "unknown flag: --" ++ name
  | .unknownShorthand letter letters =>
    text "unknown shorthand flag: " ++ Quoted.quoteRune letter.toNat ++ text " in -" ++ letters
  | .missingValue argument => text "flag needs an argument: " ++ argument
  | .noTruthValue value =>
    text "invalid argument " ++ Quoted.quote value ++
      text " for \"-h, --help\" flag: strconv.ParseBool: parsing " ++ Quoted.quote value ++
      text ": invalid syntax"
  | .tooManyOperands received =>
    text "accepts at most 1 arg(s), received " ++ Text.ofNat received
  | .noOperand => text "requires at least 1 arg(s), only received 0"

end Bhasha
