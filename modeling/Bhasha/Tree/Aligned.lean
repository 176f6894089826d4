import Bhasha.Decimal.Layout
import Bhasha.Tree.Outline

/-!
# The aligned layout

An outline on indented lines, with the values of neighbouring fields in one column.  Adjacent fields
share a column as long as their values fit on one line; a value of several lines closes the run it
stands in.  A record with nothing but blank values is written as its name and empty braces.
Sequences are not named, and below the tenth nested sequence a remark takes the place of each
element.

Source: benglang, package `main`: the style `pretty` of `dump`, as its library prints it.
-/

namespace Bhasha

/-- The blank values: nothing, false, zero of either sign, and the empty text. -/
def Literal.isBlank : Literal → Bool
  | .nothing => true
  | .truth value => !value
  | .number value => value.isZero
  | .string value => value.isEmpty
  | .whole value => value = 0

/-- A value of any type names its type, unless a quotation mark does. -/
def Literal.aligned : Literal → Text
  | .nothing => text "nil"
  | .truth value => if value then text "bool(true)" else text "bool(false)"
  | .number value => text "float64(" ++ value.compact ++ text ")"
  | .string value => Quoted.quote value
  | .whole value => text "int(" ++ Text.ofInt value ++ text ")"

namespace Outline

mutual

/-- A record is blank if all its values are; a sequence never is. -/
def isBlank : Outline → Bool
  | .record _ _ values => allBlank values
  | .sequence _ _ => false
  | .plain value => value = 0
  | .boxed value => value.isBlank

def allBlank : List Outline → Bool
  | [] => true
  | first :: rest => first.isBlank && allBlank rest

end

/-- The lines of a value with a comma after the last. -/
def closeWithComma : List Text → List Text
  | [] => []
  | [last] => [last ++ text ","]
  | first :: next :: rest => first :: closeWithComma (next :: rest)

def indentBy (indentation : Text) (lines : List Text) : List Text := lines.map (indentation ++ ·)

/-- A label and the lines of its value. -/
structure Field where
  label : Text
  lines : List Text

/-- The width of the label column of the run that begins with these fields. -/
def runWidth : List Field → Nat
  | [] => 0
  | f :: rest =>
    if 1 < f.lines.length then f.label.length else max f.label.length (runWidth rest)

/-- A label with its colon, padded to the column, before the first line of its value. -/
def labelled (width : Nat) (f : Field) : List Text :=
  match f.lines with
  | [] => []
  | first :: rest =>
    (f.label ++ text ":" ++ List.replicate (width - f.label.length + 1) 0x20 ++ first) :: rest

/-- Fields in columns, where `width` belongs to the run already begun. -/
def alignFields (width? : Option Nat) : List Field → List Text
  | [] => []
  | f :: rest =>
    let width := width?.getD (runWidth (f :: rest))
    let next? := if 1 < f.lines.length then none else some width
    labelled width f ++ alignFields next? rest

/-- The deepest nesting of sequences whose elements are written. -/
def deepest : Nat := 10

mutual

/-- The lines of an outline inside `depth` sequences. -/
def alignedLines (depth : Nat) : Outline → List Text
  | .record name labels values =>
    if allBlank values then [name ++ text "\x7b\x7d"]
    else
      let fields := (labels.zip (alignedValues depth values)).map fun f => Field.mk f.1 f.2
      [name ++ text "\x7b"] ++ indentBy (text "    ") (alignFields none fields) ++ [text "\x7d"]
  | .sequence _ items =>
    [text "\x7b"] ++ indentBy (text "    ") (alignedItems (depth + 1) items) ++ [text "\x7d"]
  | .plain value => [Text.ofInt value]
  | .boxed value => [value.aligned]

/-- The lines of each value of a record. -/
def alignedValues (depth : Nat) : List Outline → List (List Text)
  | [] => []
  | first :: rest => closeWithComma (first.alignedLines depth) :: alignedValues depth rest

/-- The lines of the elements of a sequence. -/
def alignedItems (depth : Nat) : List Outline → List Text
  | [] => []
  | first :: rest =>
    let lines :=
      if deepest < depth then [text "!%v(DEPTH EXCEEDED)"] else first.alignedLines depth
    closeWithComma lines ++ alignedItems depth rest

end

/-- The aligned layout of an outline. -/
def aligned (o : Outline) : Text := Text.joinLines (o.alignedLines 0) ++ [Text.lineFeed]

end Outline

end Bhasha
