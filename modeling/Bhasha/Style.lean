import Bhasha.Tree.Aligned
import Bhasha.Tree.Marked
import Bhasha.Tree.Source

/-!
# Styles

The three ways in which a program can be printed, and their names.

Source: benglang, package `config`: `StylePretty`, `StyleLitter` and `StyleSource`; package `main`:
`dump`.
-/

namespace Bhasha

inductive Style where
  | pretty
  | litter
  | source
deriving DecidableEq, Repr

namespace Style

def name : Style → Text
  | .pretty => text "pretty"
  | .litter => text "litter"
  | .source => text "source"

/-- The style with a given name. -/
def ofName? (name : Text) : Option Style := [pretty, litter, source].find? (·.name == name)

/-- Statements in a style. A program that was given no statement list differs from an empty one in
the field by field layouts only. -/
def print (style : Style) (statements : Option (List Stmt)) : Text :=
  match style with
  | .pretty => (Program.outline statements).aligned
  | .litter => (Program.outline statements).marked
  | .source => (Program.mk (statements.getD [])).source

/-- The message for a name that no style has. -/
def unsupported (name : Text) : Text := text "unsupported dump style " ++ Quoted.quote name

end Style

end Bhasha
