import Bhasha.Token.Basic

/-!
# Syntax trees

Expressions and statements as the grammar builds them.  A tree keeps the tokens that later stages
need for their messages: names, operators and the closing parenthesis of a call.  Counting loops
have no node of their own, they are spelled out with `Stmt.loop`.

Two nodes exist for trees that are built by hand only: a call and a block that were given no list at
all, which is told apart from an empty list when a tree is laid out field by field.

Source: benglang, package `ast`: `Expr`, `Stmt`, `Program` and their nodes.
-/

namespace Bhasha

inductive Expr where
  | literal (value : Literal)
  | identifier (name : Token)
  | assign (name : Token) (value : Expr)
  /-- A short-circuiting `and` or `or`. -/
  | logical (left : Expr) (operator : Token) (right : Expr)
  | binary (left : Expr) (operator : Token) (right : Expr)
  | unary (operator : Token) (right : Expr)
  /-- A call keeps its closing parenthesis. -/
  | call (callee : Expr) (paren : Token) (arguments : List Expr)
  /-- A call without an argument list. -/
  | bareCall (callee : Expr) (paren : Token)
  | grouping (inner : Expr)
deriving Repr, Inhabited

inductive Stmt where
  | expression (value : Expr)
  | print (value : Expr)
  | declare (name : Token) (initializer : Option Expr)
  | block (statements : List Stmt)
  /-- A block without a statement list. -/
  | bareBlock
  | branch (condition : Expr) (consequent : Stmt) (alternative : Option Stmt)
  | loop (condition : Expr) (body : Stmt)
deriving Repr, Inhabited

/-- A source unit is the sequence of its statements. -/
structure Program where
  statements : List Stmt
deriving Repr

end Bhasha
