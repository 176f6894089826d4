import Bhasha.Text.LetterCase

/-!
# Suggestions for a mistyped command

A command is suggested for a word if a few edits turn one into the other, or if the word is the
beginning of its name.  The case of letters does not count.

Source: the suggestions of the command library of benglang (`SuggestionsFor`).
-/

namespace Bhasha.Suggestion

/-- The next row of the table of distances. The row holds the distances of one text to the
beginnings of the other, the shortest first; `corner` is the entry above and to the left. -/
def nextRow (b : UInt8) (other : Text) (left corner : Nat) (above : List Nat) : List Nat :=
  match other, above with
  | c :: other, up :: above =>
    let here := if b = c then corner else 1 + min corner (min left up)
    here :: nextRow b other here up above
  | _, _ => []

/-- The last row of the table, from a given row on. -/
def lastRow (other : Text) : Text → List Nat → List Nat
  | b :: rest, corner :: above =>
    lastRow other rest ((corner + 1) :: nextRow b other (corner + 1) corner above)
  | _, row => row

/-- The least number of insertions, removals and changes of bytes between two texts. -/
def distance (a b : Text) : Nat :=
  (lastRow b a (List.range (b.length + 1))).getLastD 0

/-- The most edits that still make a suggestion. -/
def reach : Nat := 2

def isClose (word name : Text) : Bool :=
  let word := LetterCase.toSmall word
  distance word name ≤ reach || word.isPrefixOf name

/-- The commands that can be suggested, in this order. -/
def candidates : List Text :=
  [text "tokens", text "parse", text "fmt", text "check", text "completion"]

/-- What is added to the message about an unknown word. -/
def hint (word : Text) : Text :=
  match candidates.filter (isClose word) with
  | [] => []
  | close =>
    text "\n\nDid you mean this?\n" ++
      close.flatMap fun name => text "\t" ++ name ++ text "\n"

end Bhasha.Suggestion
