import Bhasha.Text.LetterCase
import Bhasha.Text.Quoted

/-!
# Log levels

A level is a 64-bit integer.  Four values have names, and a level between them is written as the
nearest name below with the distance.  A level is read from a name in any case, followed by an
optional signed number, which wraps around at the ends of the range.  The number is read before the
name is looked at, so of two faults the number's is reported.

Source: benglang, package `config`: `SlogLevel` of `LogConfig` and the levels of the log library.
-/

namespace Bhasha

/-- A log level. -/
abbrev LogLevel := Int64

namespace LogLevel

def debug : LogLevel := -4

def info : LogLevel := 0

def warn : LogLevel := 4

def error : LogLevel := 8

/-- Why a text is no level. -/
inductive Error where
  | unknownName
  | notANumber (numeral : Text)
  | outOfRange (numeral : Text)
deriving DecidableEq, Repr

def numeralMessage (numeral reason : Text) : Text :=
  text "strconv.Atoi: parsing " ++ Quoted.quote numeral ++ text ": " ++ reason

def Error.reason : Error → Text
  | .unknownName => text "unknown name"
  | .notANumber numeral => numeralMessage numeral (text "invalid syntax")
  | .outOfRange numeral => numeralMessage numeral (text "value out of range")

/-- The message for a text that is no level. -/
def Error.message (source : Text) (e : Error) : Text :=
  text "invalid log level " ++ Quoted.quote source ++ text ": slog: level string " ++
    Quoted.quote source ++ text ": " ++ e.reason

/-- What the digits of a numeral come to. -/
inductive Magnitude where
  | value (n : Nat)
  | notANumber
  | tooLarge
deriving DecidableEq, Repr

/-- Reads digits from the left. Reading ends at the first byte that is no digit, and as soon as the
value needs more than 64 bits. -/
def magnitude (n : Nat) : Text → Magnitude
  | [] => .value n
  | b :: rest =>
    if !Text.isDigit b then .notANumber
    else
      let next := 10 * n + (b.toNat - 0x30)
      if Nat.pow 2 64 ≤ next then .tooLarge else magnitude next rest

/-- The value of a sign and digits. -/
def signedNumeral (numeral : Text) : Except Error Int :=
  let negative := numeral.head? = some 0x2d
  match numeral.drop 1 with
  | [] => .error (.notANumber numeral)
  | digits =>
    match magnitude 0 digits with
    | .notANumber => .error (.notANumber numeral)
    | .tooLarge => .error (.outOfRange numeral)
    | .value n =>
      if negative then if Nat.pow 2 63 < n then .error (.outOfRange numeral) else .ok (-(n : Int))
      else if Nat.pow 2 63 ≤ n then .error (.outOfRange numeral)
      else .ok n

/-- The level of a name, in any case. -/
def ofName? (name : Text) : Option LogLevel :=
  let capitals := LetterCase.toCapitals name
  if capitals = text "DEBUG" then some debug
  else if capitals = text "INFO" then some info
  else if capitals = text "WARN" then some warn
  else if capitals = text "ERROR" then some error
  else none

/-- The level of a name with its offset. -/
def ofNameAndOffset (name : Text) (offset : Int) : Except Error LogLevel :=
  match ofName? name with
  | some level => .ok (level + Int64.ofInt offset)
  | none => .error .unknownName

/-- Reads a level. -/
def read (source : Text) : Except Error LogLevel :=
  match Text.cutAt (fun b => b = 0x2b || b = 0x2d) source with
  | (name, []) => ofNameAndOffset name 0
  | (name, numeral) =>
    match signedNumeral numeral with
    | .ok offset => ofNameAndOffset name offset
    | .error e => .error e

/-- A name and the distance from it, unless there is none. -/
def named (base : Text) (distance : Int) : Text :=
  if distance = 0 then base
  else if distance < 0 then base ++ Text.ofInt distance
  else base ++ text "+" ++ Text.ofInt distance

/-- A level as text. -/
def name (level : LogLevel) : Text :=
  let n := level.toInt
  if n < 0 then named (text "DEBUG") (n + 4)
  else if n < 4 then named (text "INFO") n
  else if n < 8 then named (text "WARN") (n - 4)
  else named (text "ERROR") (n - 8)

end LogLevel

end Bhasha
