import Bhasha.Text.Utf8

/-!
# Strings of a TOML document

The four kinds of strings: plain and verbatim, each on one line or on several.  In a plain string a
backslash begins an escape; before the end of a line it takes away the line break and the blanks
after it.  A string of several lines may hold one or two quotation marks in a row, also right before
the three that close it.

Source: the TOML library that `decode` of package `config` of benglang calls.
-/

namespace Bhasha.Toml

def isBlank (b : UInt8) : Bool := b = 0x20 || b = 0x09

def isLineBreak (b : UInt8) : Bool := b = 0x0a || b = 0x0d

/-- The code point of a given number of hexadecimal digits, and what follows them. -/
def codePoint? (digits : Nat) (s : Text) : Option (Text × Text) := do
  let values ← (s.take digits).mapM Text.hexValue?
  let code := values.foldl (fun n d => 16 * n + d) 0
  if values.length = digits && Utf8.isScalar code then some (Utf8.encode code, s.drop digits)
  else none

/-- The bytes of an escape after its backslash, and what follows it. -/
def escape? : Text → Option (Text × Text)
  | 0x62 :: rest => some ([0x08], rest)
  | 0x74 :: rest => some ([0x09], rest)
  | 0x6e :: rest => some ([0x0a], rest)
  | 0x66 :: rest => some ([0x0c], rest)
  | 0x72 :: rest => some ([0x0d], rest)
  | 0x22 :: rest => some ([0x22], rest)
  | 0x5c :: rest => some ([0x5c], rest)
  | 0x75 :: rest => codePoint? 4 rest
  | 0x55 :: rest => codePoint? 8 rest
  | _ => none

/-- What follows the blanks and line breaks after a backslash, if a line ends among them. -/
def afterFold? (s : Text) : Option Text :=
  let (gap, rest) := Text.cutAt (fun b => !(isBlank b || isLineBreak b)) s
  if gap.contains Text.lineFeed then some rest else none

/-- The value of a plain string, where `folds` allows line breaks to be taken away. The fuel is
spent by one for each byte or escape. -/
def unescape? (folds : Bool) : Nat → Text → Option Text
  | _, [] => some []
  | 0, _ => none
  | fuel + 1, 0x5c :: rest =>
    match (if folds then afterFold? rest else none) with
    | some rest => unescape? folds fuel rest
    | none =>
      match escape? rest with
      | some (bytes, rest) => (unescape? folds fuel rest).map (bytes ++ ·)
      | none => none
  | fuel + 1, b :: rest => (unescape? folds fuel rest).map (b :: ·)

/-- A string on one line up to its closing mark, and what follows it. A backslash guards the byte
after it in a plain string. -/
def untilMark? (mark : UInt8) : Text → Option (Text × Text)
  | [] => none
  | b :: rest =>
    if b = mark then some ([], rest)
    else if isLineBreak b then none
    else if b = 0x5c && mark = 0x22 then
      match rest with
      | [] => none
      | c :: more =>
        if isLineBreak c then none
        else (untilMark? mark more).map fun found => (b :: c :: found.1, found.2)
    else (untilMark? mark rest).map fun found => (b :: found.1, found.2)

/-- Whether three marks after `behind`, which is held backwards, and before another mark are one
mark too many. -/
def tooManyMarks (mark : UInt8) (behind : Text) : Bool :=
  match behind with
  | a :: b :: more =>
    a = mark && b = mark && !(mark = 0x22 && more.head? = some 0x5c)
  | _ => false

/-- A string of several lines up to its three closing marks, and what follows them. A backslash
guards the byte after it in a plain string. What was read before is held backwards in `behind`. -/
def untilMarks? (mark : UInt8) (behind : Text) : Text → Option (Text × Text)
  | [] => none
  | b :: rest =>
    if b = mark && rest.take 2 = [mark, mark] && rest[2]? != some mark then
      some (behind.reverse, rest.drop 2)
    else if b = mark && rest.take 3 = [mark, mark, mark] && tooManyMarks mark behind then none
    else if b = 0x5c && mark = 0x22 then
      match rest with
      | [] => none
      | c :: more => untilMarks? mark (c :: b :: behind) more
    else untilMarks? mark (b :: behind) rest

/-- A text without a line break at its front. -/
def dropLineBreak : Text → Text
  | 0x0a :: rest => rest
  | 0x0d :: 0x0a :: rest => rest
  | s => s

/-- The value of a string on one line after its opening mark. -/
def oneLine? (mark : UInt8) (s : Text) : Option (Text × Text) := do
  let (raw, rest) ← untilMark? mark s
  let value ← if mark = 0x22 then unescape? false raw.length raw else some raw
  some (value, rest)

/-- The value of a string of several lines after its opening marks. -/
def manyLines? (mark : UInt8) (s : Text) : Option (Text × Text) := do
  let (raw, rest) ← untilMarks? mark [] s
  let raw := dropLineBreak raw
  let value ← if mark = 0x22 then unescape? true raw.length raw else some raw
  some (value, rest)

/-- The value of a string after its first mark. -/
def quotation? (mark : UInt8) (s : Text) : Option (Text × Text) :=
  match s with
  | a :: b :: rest =>
    if a = mark && b = mark then manyLines? mark rest else oneLine? mark s
  | _ => oneLine? mark s

end Bhasha.Toml
