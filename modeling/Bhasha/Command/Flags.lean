import Bhasha.Command.Find

/-!
# Flags

Flags stand before, between and after the operands.  A flag has its value behind an equality sign
or in the next argument; the flag for help is a truth value and needs none.  The last value of a
flag counts.  A single dash is an operand.  Arguments of the form `-test.x` are passed over.

Source: benglang, package `main`: the flags of `rootCmd` and `parseCmd`, read as its command library
reads them.
-/

namespace Bhasha

/-- A flag with a text for its value. -/
inductive Flag where
  | config
  | logLevel
  | style
deriving DecidableEq, Repr

/-- The values of the flags. -/
structure Flags where
  config : Text
  logLevel : Text
  style : Text
  help : Bool
deriving DecidableEq, Repr

/-- Flags and operands. -/
structure Arguments where
  flags : Flags
  operands : List Text
deriving DecidableEq, Repr

namespace Flag

def name : Flag → Text
  | .config => text "config"
  | .logLevel => text "log-level"
  | .style => text "style"

/-- The flags that a command has; all have the ones of the program. -/
def ofCommand (command? : Option Command) : List Flag :=
  if command? = some .parse then [.config, .logLevel, .style] else [.config, .logLevel]

def set (flag : Flag) (value : Text) (flags : Flags) : Flags :=
  match flag with
  | .config => { flags with config := value }
  | .logLevel => { flags with logLevel := value }
  | .style => { flags with style := value }

end Flag

namespace Flags

/-- The flags when none is given. -/
def unset : Flags := ⟨[], [], [], false⟩

def trueWords : List Text :=
  [text "1", text "t", text "T", text "TRUE", text "true", text "True"]

def falseWords : List Text :=
  [text "0", text "f", text "F", text "FALSE", text "false", text "False"]

/-- Sets the flag for help by the text of a truth value. -/
def setHelp (value : Text) (flags : Flags) : Except UsageError Flags :=
  if trueWords.contains value then .ok { flags with help := true }
  else if falseWords.contains value then .ok { flags with help := false }
  else .error (.noTruthValue value)

/-- Reads letters behind one dash. Only the letter for help is a flag. -/
def readLetters : Text → Flags → Except UsageError Flags
  | [], flags => .ok flags
  | letter :: rest, flags =>
    if (text "test.").isPrefixOf (letter :: rest) then .ok flags
    else if letter != 0x68 then .error (.unknownShorthand letter (letter :: rest))
    else
      match rest with
      | 0x3d :: first :: more => flags.setHelp (first :: more)
      | _ => readLetters rest { flags with help := true }

end Flags

/-- A flag behind two dashes. -/
inductive LongFlag where
  | malformed
  | unknown (name : Text)
  | help (value? : Option Text)
  | valued (flag : Flag) (value? : Option Text)
deriving DecidableEq, Repr

/-- The flag that is written behind two dashes, with the value behind its equality sign. -/
def LongFlag.read (known : List Flag) (written : Text) : LongFlag :=
  if written.head? = some 0x2d || written.head? = some 0x3d then .malformed
  else
    let (name, more) := Text.cutAt (· = 0x3d) written
    let value? := if more.isEmpty then none else some (more.drop 1)
    if name = text "help" then .help value?
    else
      match known.find? (·.name == name) with
      | some flag => .valued flag value?
      | none => .unknown name

namespace Arguments

def addOperands (given : List Text) (a : Arguments) : Arguments :=
  { a with operands := a.operands ++ given }

/-- Reads arguments. -/
def readFrom (known : List Flag) : List Text → Arguments → Except UsageError Arguments
  | [], a => .ok a
  | argument :: rest, a =>
    match argument with
    | [0x2d, 0x2d] => .ok (a.addOperands rest)
    | 0x2d :: 0x2d :: written =>
      match LongFlag.read known written with
      | .malformed => .error (.badFlag argument)
      | .unknown name => .error (.unknownFlag name)
      | .help none => readFrom known rest { a with flags := { a.flags with help := true } }
      | .help (some value) =>
        match a.flags.setHelp value with
        | .error e => .error e
        | .ok flags => readFrom known rest { a with flags }
      | .valued flag (some value) =>
        readFrom known rest { a with flags := flag.set value a.flags }
      | .valued flag none =>
        match rest with
        | [] => .error (.missingValue argument)
        | value :: after => readFrom known after { a with flags := flag.set value a.flags }
    | 0x2d :: first :: more =>
      match a.flags.readLetters (first :: more) with
      | .error e => .error e
      | .ok flags => readFrom known rest { a with flags }
    | _ => readFrom known rest (a.addOperands [argument])

/-- The flags and operands of a command. -/
def read (command? : Option Command) (arguments : List Text) : Except UsageError Arguments :=
  readFrom (Flag.ofCommand command?) arguments ⟨.unset, []⟩

end Arguments

end Bhasha
