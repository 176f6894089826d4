import Bhasha.Tree.Basic

/-!
# Outlines

An outline shows a tree as data: named records with labelled values, sequences and single values.
It is the common ground of the two layouts that print a tree field by field.

Source: benglang, package `ast`: the nodes as `dump` of package `main` shows them field by field.
-/

namespace Bhasha

inductive Outline where
  /-- A record with its labels and, in the same order, its values. -/
  | record (name : Text) (labels : List Text) (values : List Outline)
  /-- A sequence of elements of a named type. -/
  | sequence (element : Text) (items : List Outline)
  /-- A number whose type goes without saying. -/
  | plain (value : Int)
  /-- A value of any type. -/
  | boxed (value : Literal)
deriving Repr, Inhabited

namespace Outline

/-- Nothing, where a value or a sequence could stand. -/
def absent : Outline := .boxed .nothing

end Outline

/-- The four fields of a token. -/
def Token.outline (t : Token) : Outline :=
  .record (text "lexer.Token")
    [text "Type", text "Value", text "Literal", text "Line"]
    [.plain t.kind.code, .boxed (.string t.lexeme), .boxed t.literal, .plain t.line]

namespace Expr

def elementName : Text := text "ast.Expr"

/-- The record of an operator between two operands. -/
def operatorRecord (name : Text) (left operator right : Outline) : Outline :=
  .record name [text "Left", text "Operator", text "Right"] [left, operator, right]

/-- The record of a call. -/
def callRecord (callee paren arguments : Outline) : Outline :=
  .record (text "ast.CallExpr") [text "Callee", text "Paren", text "Arguments"]
    [callee, paren, arguments]

mutual

def outline : Expr → Outline
  | .literal value => .record (text "ast.LiteralExpr") [text "Value"] [.boxed value]
  | .identifier name => .record (text "ast.VariableExpr") [text "Name"] [name.outline]
  | .assign name value =>
    .record (text "ast.AssignExpr") [text "Name", text "Value"] [name.outline, value.outline]
  | .logical left operator right =>
    operatorRecord (text "ast.LogicalExpr") left.outline operator.outline right.outline
  | .binary left operator right =>
    operatorRecord (text "ast.BinaryExpr") left.outline operator.outline right.outline
  | .unary operator right =>
    .record (text "ast.UnaryExpr") [text "Operator", text "Right"]
      [operator.outline, right.outline]
  | .call callee paren arguments =>
    callRecord callee.outline paren.outline (.sequence elementName (outlines arguments))
  | .bareCall callee paren => callRecord callee.outline paren.outline .absent
  | .grouping inner => .record (text "ast.GroupingExpr") [text "Expression"] [inner.outline]

def outlines : List Expr → List Outline
  | [] => []
  | first :: rest => first.outline :: outlines rest

end

end Expr

namespace Stmt

def elementName : Text := text "ast.Stmt"

/-- The record of a branch. -/
def branchRecord (condition consequent alternative : Outline) : Outline :=
  .record (text "ast.IfStmt") [text "Condition", text "Then", text "Else"]
    [condition, consequent, alternative]

mutual

def outline : Stmt → Outline
  | .expression value => .record (text "ast.ExpressionStmt") [text "Expression"] [value.outline]
  | .print value => .record (text "ast.PrintStmt") [text "Expression"] [value.outline]
  | .declare name initializer =>
    .record (text "ast.VarStmt") [text "Name", text "Initializer"]
      [name.outline, (initializer.map Expr.outline).getD .absent]
  | .block inner =>
    .record (text "ast.BlockStmt") [text "Stmts"] [.sequence elementName (outlines inner)]
  | .bareBlock => .record (text "ast.BlockStmt") [text "Stmts"] [.absent]
  | .branch condition consequent none =>
    branchRecord condition.outline consequent.outline .absent
  | .branch condition consequent (some alternative) =>
    branchRecord condition.outline consequent.outline alternative.outline
  | .loop condition body =>
    .record (text "ast.WhileStmt") [text "Condition", text "Body"]
      [condition.outline, body.outline]

def outlines : List Stmt → List Outline
  | [] => []
  | first :: rest => first.outline :: outlines rest

end

end Stmt

/-- The outline of a program, which may have been given no statement list at all. -/
def Program.outline (statements : Option (List Stmt)) : Outline :=
  let listed := match statements with
    | none => Outline.absent
    | some inner => .sequence Stmt.elementName (Stmt.outlines inner)
  .record (text "ast.Program") [text "Stmts"] [listed]

end Bhasha
