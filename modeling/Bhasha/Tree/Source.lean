import Bhasha.Decimal.Layout
import Bhasha.Tree.Basic

/-!
# Canonical source text

A tree written back as source: one statement a line, blocks indented by tabs, one blank around
binary operators and none after unary ones.  The indentation is an argument of the printer, so the
text of a statement depends on nothing but the statement and the number of blocks around it.  A
string literal is written as it is, whatever line breaks it holds.

Source: benglang, package `ast`: `Dump` of programs, statements and expressions, with `printer`,
`newline` and `format`.
-/

namespace Bhasha

/-- A literal as source text. -/
def Literal.source : Literal → Text
  | .nothing => Kind.nil.spelling
  | .truth true => Kind.true_.spelling
  | .truth false => Kind.false_.spelling
  | .number value => value.positional
  | .string value => 0x22 :: value ++ [0x22]
  | .whole value => Text.ofInt value

namespace Expr

mutual

/-- An expression as source text. -/
def source : Expr → Text
  | .literal value => value.source
  | .identifier name => name.lexeme
  | .assign name value => name.lexeme ++ text " = " ++ value.source
  | .logical left operator right =>
    left.source ++ text " " ++ operator.lexeme ++ text " " ++ right.source
  | .binary left operator right =>
    left.source ++ text " " ++ operator.lexeme ++ text " " ++ right.source
  | .unary operator right => operator.lexeme ++ right.source
  | .call callee _ arguments => callee.source ++ text "(" ++ sources arguments ++ text ")"
  | .bareCall callee _ => callee.source ++ text "()"
  | .grouping inner => text "(" ++ inner.source ++ text ")"

/-- Expressions between commas. -/
def sources : List Expr → Text
  | [] => []
  | [last] => last.source
  | first :: next :: rest => first.source ++ text ", " ++ sources (next :: rest)

end

end Expr

namespace Stmt

/-- A line break and the indentation of a line inside `depth` blocks. -/
def newline (depth : Nat) : Text := Text.lineFeed :: List.replicate depth 0x09

/-- A condition after the word that introduces it, and the blank before what follows. -/
def conditionSource (word : Kind) (condition : Expr) : Text :=
  word.spelling ++ text " (" ++ condition.source ++ text ") "

mutual

/-- A statement that stands inside `depth` blocks as source text. -/
def sourceAt (depth : Nat) : Stmt → Text
  | .expression value => value.source ++ text ";"
  | .print value => Kind.print.spelling ++ text " " ++ value.source ++ text ";"
  | .declare name none => Kind.var.spelling ++ text " " ++ name.lexeme ++ text ";"
  | .declare name (some value) =>
    Kind.var.spelling ++ text " " ++ name.lexeme ++ text " = " ++ value.source ++ text ";"
  | .block [] => text "\x7b\x7d"
  | .block (first :: rest) =>
    text "\x7b" ++ linesAt (depth + 1) (first :: rest) ++ newline depth ++ text "\x7d"
  | .bareBlock => text "\x7b\x7d"
  | .branch condition consequent none =>
    conditionSource .if_ condition ++ consequent.sourceAt depth
  | .branch condition consequent (some alternative) =>
    conditionSource .if_ condition ++ consequent.sourceAt depth ++ text " " ++
      Kind.else_.spelling ++ text " " ++ alternative.sourceAt depth
  | .loop condition body => conditionSource .while_ condition ++ body.sourceAt depth

/-- Statements on lines of their own, each after its line break. -/
def linesAt (depth : Nat) : List Stmt → Text
  | [] => []
  | first :: rest => newline depth ++ first.sourceAt depth ++ linesAt depth rest

end

/-- A statement as source text. -/
def source (s : Stmt) : Text := s.sourceAt 0

end Stmt

/-- A program as source text: each statement with the line break that ends it. -/
def Program.source (p : Program) : Text :=
  p.statements.flatMap fun s => s.source ++ [Text.lineFeed]

end Bhasha
