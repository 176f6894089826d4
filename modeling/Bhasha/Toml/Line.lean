import Bhasha.Toml.Quotation
import Bhasha.Toml.Scalar

/-!
# Lines of a TOML document

A document is a list of headers, headers of array elements, and keys with their values.  This module
reads a text into that list; what the lines define together is the business of
`Bhasha.Toml.Document`.  A text with control characters, or one that is not UTF-8, has no reading.

Source: the TOML library that `decode` of package `config` of benglang calls.
-/

namespace Bhasha.Toml

/-- The parts of a key. -/
abbrev Key := List Text

/-- A value as it is written. -/
inductive Raw where
  | string (value : Text)
  /-- A number, a truth value, a date or a time. -/
  | scalar
  | array (items : List Raw)
  | table (entries : List (Key × Raw))
deriving Repr, Inhabited

/-- A line of a document. -/
inductive Line where
  | header (key : Key)
  | element (key : Key)
  | entry (key : Key) (value : Raw)
deriving Repr

def isBareKeyByte (b : UInt8) : Bool :=
  Text.isLetter b || Text.isDigit b || b = 0x5f || b = 0x2d

def skipBlanks (s : Text) : Text := s.dropWhile isBlank

/-- Skips a comment at the front of a text, up to the end of its line. -/
def skipComment (s : Text) : Text := s.dropWhile (!isLineBreak ·)

/-- Skips blanks, line breaks and comments. -/
def skipGap (fuel : Nat) (s : Text) : Text :=
  match fuel, s.dropWhile fun b => isBlank b || isLineBreak b with
  | fuel + 1, 0x23 :: rest => skipGap fuel (skipComment rest)
  | _, rest => rest

/-- One part of a key: bare, or a string on one line. -/
def keyPart? : Text → Option (Text × Text)
  | 0x22 :: rest => oneLine? 0x22 rest
  | 0x27 :: rest => oneLine? 0x27 rest
  | s =>
    let (bare, rest) := Text.cutAt (!isBareKeyByte ·) s
    if bare.isEmpty then none else some (bare, rest)

/-- The parts of a key with points between them, up to the closing byte. -/
def key? (closing : UInt8) : Nat → Text → Option (Key × Text)
  | 0, _ => none
  | fuel + 1, s => do
    let (part, rest) ← keyPart? (skipBlanks s)
    match skipBlanks rest with
    | [] => none
    | b :: rest =>
      if b = closing then some ([part], rest)
      else if b = 0x2e then
        let (parts, rest) ← key? closing fuel rest
        some (part :: parts, rest)
      else none

/-- Whether a byte can belong to a date or a time. -/
def isMomentByte (b : UInt8) : Bool :=
  Text.isDigit b || b = 0x2d || b = 0x3a || b = 0x54 || b = 0x74 || b = 0x20 || b = 0x2e ||
    b = 0x5a || b = 0x7a || b = 0x2b

/-- Whether a byte can belong to a float after its point or exponent mark. -/
def isFloatByte (b : UInt8) : Bool :=
  Text.isDigit b || isUnderscore b || b = 0x2e || isSign b || b = 0x65 || b = 0x45

def isFloatMark (b : UInt8) : Bool := b = 0x2e || b = 0x65 || b = 0x45

/-- A text without blanks at its end. -/
def trimEnd (s : Text) : Text := (s.reverse.dropWhile (· = 0x20)).reverse

/-- Accepts a scalar that is well formed, and goes on after it. -/
def accept? (wellFormed : Text → Bool) (scalar rest : Text) : Option Text :=
  if wellFormed scalar then some rest else none

/-- What follows a decimal number. -/
def afterDecimal? (s : Text) : Option Text :=
  let body := dropSign s
  let lead := s.take (s.length - body.length)
  let (digits, rest) := Text.cutAt (fun b => !(Text.isDigit b || isUnderscore b)) body
  if !(digits.head?.any Text.isDigit) then none
  else if rest.head?.any isFloatMark then
    let (float, rest) := Text.cutAt (!isFloatByte ·) rest
    accept? isFloat (lead ++ digits ++ float) rest
  else accept? isInteger (lead ++ digits) rest

/-- What follows a number in another base; its first digit stands right after the base. -/
def afterBased? (base : UInt8) (isBaseDigit : UInt8 → Bool) (s : Text) : Option Text :=
  if s.head?.any isBaseDigit then
    let (digits, rest) := Text.cutAt (fun b => !(isBaseDigit b || isUnderscore b)) s
    accept? isInteger (0x30 :: base :: digits) rest
  else none

/-- What follows a number, a date or a time that begins with a digit. -/
def afterDigit? (s : Text) : Option Text :=
  match s with
  | 0x30 :: 0x62 :: rest => afterBased? 0x62 (fun b => b = 0x30 || b = 0x31) rest
  | 0x30 :: 0x6f :: rest => afterBased? 0x6f (fun b => 0x30 ≤ b && b ≤ 0x37) rest
  | 0x30 :: 0x78 :: rest => afterBased? 0x78 isHexDigit rest
  | _ =>
    let (digits, rest) := spanDigits s
    let isMoment := rest.head?.any (fun b => b = 0x2d || b = 0x3a) &&
      !(digits = [0x30])
    if isMoment then
      let (moment, rest) := Text.cutAt (!isMomentByte ·) s
      accept? Toml.isMoment (trimEnd moment) rest
    else afterDecimal? s

/-- What follows a fixed word. -/
def afterWord? (word s : Text) : Option Text :=
  if word.isPrefixOf s then some (s.drop word.length) else none

/-- What follows a scalar. -/
def afterScalar? (s : Text) : Option Text :=
  match s with
  | [] => none
  | b :: rest =>
    if Text.isDigit b then afterDigit? s
    else if isSign b then
      match rest with
      | 0x69 :: _ => afterWord? (text "inf") rest
      | 0x6e :: _ => afterWord? (text "nan") rest
      | 0x30 :: base :: _ =>
        if base = 0x62 || base = 0x6f || base = 0x78 then none else afterDecimal? s
      | _ => afterDecimal? s
    else
      [text "inf", text "nan", text "true", text "false"].findSome? (afterWord? · s)

mutual

/-- A value and what follows it. -/
def value? : Nat → Text → Option (Raw × Text)
  | 0, _ => none
  | fuel + 1, s =>
    match skipBlanks s with
    | 0x5b :: rest => (items? fuel rest).map fun found => (.array found.1, found.2)
    | 0x7b :: rest =>
      match skipBlanks rest with
      | 0x7d :: rest => some (.table [], rest)
      | rest => (entries? fuel rest).map fun found => (.table found.1, found.2)
    | 0x22 :: rest => (quotation? 0x22 rest).map fun found => (.string found.1, found.2)
    | 0x27 :: rest => (quotation? 0x27 rest).map fun found => (.string found.1, found.2)
    | rest => (afterScalar? rest).map fun rest => (.scalar, rest)

/-- The items of an array up to its bracket. A comma may follow the last one. -/
def items? : Nat → Text → Option (List Raw × Text)
  | 0, _ => none
  | fuel + 1, s =>
    match skipGap s.length s with
    | 0x5d :: rest => some ([], rest)
    | start => do
      let (first, rest) ← value? fuel start
      match skipGap rest.length rest with
      | 0x2c :: rest =>
        let (more, rest) ← items? fuel rest
        some (first :: more, rest)
      | 0x5d :: rest => some ([first], rest)
      | _ => none

/-- One or more entries of a table on one line, up to its brace. -/
def entries? : Nat → Text → Option (List (Key × Raw) × Text)
  | 0, _ => none
  | fuel + 1, s => do
    let (key, rest) ← key? 0x3d (s.length + 1) s
    let (first, rest) ← value? fuel rest
    match skipBlanks rest with
    | 0x2c :: rest =>
      let (more, rest) ← entries? fuel rest
      some ((key, first) :: more, rest)
    | 0x7d :: rest => some ([(key, first)], rest)
    | _ => none

end

/-- What follows the end of a line: a comment, a line break or the end of the text. -/
def afterLine? (s : Text) : Option Text :=
  match skipBlanks s with
  | [] => some []
  | 0x23 :: rest => some (skipComment rest)
  | b :: rest => if isLineBreak b then some rest else none

/-- One line, and what follows it. -/
def line? (s : Text) : Option (Line × Text) :=
  match s with
  | 0x5b :: 0x5b :: rest => do
    let (key, rest) ← key? 0x5d (rest.length + 1) rest
    let rest ← after? 0x5d rest
    some (.element key, rest)
  | 0x5b :: rest => do
    let (key, rest) ← key? 0x5d (rest.length + 1) rest
    some (.header key, rest)
  | _ => do
    let (key, rest) ← key? 0x3d (s.length + 1) s
    let (value, rest) ← value? (rest.length + 1) rest
    some (.entry key value, rest)

/-- The lines of a text. -/
def lines? : Nat → Text → Option (List Line)
  | 0, _ => none
  | fuel + 1, s =>
    match skipGap s.length s with
    | [] => some []
    | start => do
      let (first, rest) ← line? start
      let rest ← afterLine? rest
      let more ← lines? fuel rest
      some (first :: more)

/-- A text without a mark of its byte order. -/
def dropByteOrderMark : Text → Text
  | 0xff :: 0xfe :: rest => rest
  | 0xfe :: 0xff :: rest => rest
  | 0xef :: 0xbb :: 0xbf :: rest => rest
  | s => s

/-- Whether a text has only bytes that a document may hold: no control characters but tabs and line
breaks, and a carriage return only before a line feed. -/
def hasPlainBytes : Text → Bool
  | [] => true
  | 0x0d :: rest => rest.head? = some 0x0a && hasPlainBytes rest
  | b :: rest => (b = 0x09 || b = 0x0a || (0x20 ≤ b && b != 0x7f)) && hasPlainBytes rest

/-- The lines of a document. -/
def read? (source : Text) : Option (List Line) :=
  let s := dropByteOrderMark source
  if hasPlainBytes s && Utf8.isWellFormed s then lines? (s.length + 1) s else none

end Bhasha.Toml
