import Bhasha.Decimal.Layout
import Bhasha.Tree.Outline

/-!
# The marked layout

An outline on indented lines, every record in full and every sequence with the type of its elements.
All empty sequences of one type count as one and the same.  If there are several, the first is
marked with a label and the others are written as that label; labels are numbered in the order in
which they are first written.

Source: benglang, package `main`: the style `litter` of `dump`, as its library prints it.
-/

namespace Bhasha

/-- A value without its type. -/
def Literal.marked : Literal → Text
  | .nothing => text "nil"
  | .truth value => if value then text "true" else text "false"
  | .number value => value.pointed
  | .string value => Quoted.quote value
  | .whole value => Text.ofInt value

namespace Outline

mutual

/-- The types of the empty sequences, in the order in which they are written. -/
def empties : Outline → List Text
  | .record _ _ values => emptiesOf values
  | .sequence element [] => [element]
  | .sequence _ (first :: rest) => first.empties ++ emptiesOf rest
  | .plain _ => []
  | .boxed _ => []

def emptiesOf : List Outline → List Text
  | [] => []
  | first :: rest => first.empties ++ emptiesOf rest

end

/-- The types that get a label, in the order of their labels. -/
def sharedTypes (o : Outline) : List Text :=
  let all := o.empties
  all.eraseDups.filter fun element => 1 < all.count element

/-- The label of a type that has one. -/
def label? (shared : List Text) (element : Text) : Option Text :=
  (shared.idxOf? element).map fun n => text "p" ++ Text.ofNat n

/-- Lines so far, and the types whose first empty sequence has been written. -/
structure Marked where
  lines : List Text
  /-- A remark after the comma that follows the last line. -/
  remark : Text
  seen : List Text

/-- The lines of a value with a comma and the remark after the last. -/
def Marked.closed (m : Marked) : List Text :=
  match m.lines.reverse with
  | [] => []
  | last :: before => before.reverse ++ [last ++ text "," ++ m.remark]

/-- The name of a sequence type. -/
def sequenceName (element : Text) : Text := text "[]" ++ element

/-- An empty sequence: in full the first time, then its label. -/
def markEmpty (shared seen : List Text) (element : Text) : Marked :=
  let full := sequenceName element ++ text "\x7b\x7d"
  match label? shared element with
  | none => ⟨[full], [], seen⟩
  | some label =>
    if seen.contains element then ⟨[label], [], seen⟩
    else ⟨[full], text " // " ++ label, element :: seen⟩

/-- Lines between a head and a closing brace. -/
def enclose (head : Text) (lines : List Text) : List Text :=
  [head ++ text "\x7b"] ++ lines.map (text "  " ++ ·) ++ [text "\x7d"]

mutual

/-- The lines of an outline. -/
def markedLines (shared seen : List Text) : Outline → Marked
  | .record name labels values =>
    let (lines, seen) := markedFields shared seen labels values
    ⟨enclose name lines, [], seen⟩
  | .sequence element [] => markEmpty shared seen element
  | .sequence element (first :: rest) =>
    let (lines, seen) := markedItems shared seen (first :: rest)
    ⟨enclose (sequenceName element) lines, [], seen⟩
  | .plain value => ⟨[Text.ofInt value], [], seen⟩
  | .boxed value => ⟨[value.marked], [], seen⟩

/-- The lines of labelled values. -/
def markedFields (shared seen : List Text) (labels : List Text) :
    List Outline → List Text × List Text
  | [] => ([], seen)
  | first :: rest =>
    let here := markedLines shared seen first
    let (lines, seen) := markedFields shared here.seen labels.tail rest
    let head := labels.headD [] ++ text ": "
    match here.closed with
    | [] => (lines, seen)
    | line :: more => ((head ++ line) :: more ++ lines, seen)

/-- The lines of the elements of a sequence. -/
def markedItems (shared seen : List Text) : List Outline → List Text × List Text
  | [] => ([], seen)
  | first :: rest =>
    let here := markedLines shared seen first
    let (lines, seen) := markedItems shared here.seen rest
    (here.closed ++ lines, seen)

end

/-- The marked layout of an outline. -/
def marked (o : Outline) : Text :=
  Text.joinLines (markedLines o.sharedTypes [] o).lines ++ [Text.lineFeed]

end Outline

end Bhasha
