import Bhasha.Parse.Basic

/-!
# The grammar of expressions

From loosest to tightest: assignment, which groups to the right; the six levels of binary operators,
which group to the left; the unary operators; calls; and the primary expressions.  Only a bare
identifier can be assigned to.  Another target is reported where the equals sign stands, and the
expression goes on without its right side.

The functions share one supply of fuel, and each call spends one unit of it.  Fewer than twenty
calls follow each other without reading a token, so `expr` gives them twenty units for each token.

Source: benglang, package `parser`: `expression`, `assignment`, `or`, `and`, `binary`, `equality`,
`comparison`, `term`, `factor`, `unary`, `call`, `finishCall` and `primary`, with the operators of
each level and `MaxArguments`.
-/

namespace Bhasha.Parse

/-- The largest number of arguments that a call may have. -/
def maxArguments : Nat := 255

/-- The levels of binary operators. -/
inductive Level where
  | or | and | equality | comparison | term | factor
deriving DecidableEq, Repr

namespace Level

/-- The operators of a level. -/
def owns (level : Level) (kind : Kind) : Bool :=
  match level, kind with
  | .or, .or => true
  | .and, .and => true
  | .equality, .bangEqual | .equality, .equalEqual => true
  | .comparison, .greater | .comparison, .greaterEqual => true
  | .comparison, .less | .comparison, .lessEqual => true
  | .term, .minus | .term, .plus => true
  | .factor, .slash | .factor, .star => true
  | _, _ => false

/-- The next tighter level; the operands of the tightest one are unary. -/
def tighter? : Level → Option Level
  | .or => some .and
  | .and => some .equality
  | .equality => some .comparison
  | .comparison => some .term
  | .term => some .factor
  | .factor => none

/-- The node that joins two operands. -/
def join (level : Level) (left : Expr) (operator : Token) (right : Expr) : Expr :=
  match level with
  | .or | .and => .logical left operator right
  | _ => .binary left operator right

end Level

def isUnaryOperator (kind : Kind) : Bool := kind == .bang || kind == .minus

/-- The kinds that begin a primary expression. -/
def beginsPrimary (kind : Kind) : Bool :=
  match kind with
  | .false_ | .true_ | .nil | .number | .string | .identifier | .leftParen => true
  | _ => false

variable {m : Type → Type} [Monad m]

mutual

/-- An assignment, or an expression of the loosest binary level. -/
def expression (tell : Listener m) : Nat → Parser m Expr
  | 0 => spent
  | n + 1 => do
    let left ← binary tell n .or
    let place ← ahead
    match ← accept (· == .equal) with
    | none => pure left
    | some _ =>
      let value ← expression tell n
      match left with
      | .identifier name => pure (.assign name value)
      | _ =>
        reportAt tell place .invalidTarget
        pure left

/-- Operands of one level with the operators between them. -/
def binary (tell : Listener m) : Nat → Level → Parser m Expr
  | 0, _ => spent
  | n + 1, level => do
    let left ← operand tell n level
    climb tell n level left

/-- An operand of a level. -/
def operand (tell : Listener m) : Nat → Level → Parser m Expr
  | 0, _ => spent
  | n + 1, level =>
    match level.tighter? with
    | some tighter => binary tell n tighter
    | none => unary tell n

/-- The operators of a level that follow `left`, each joined with its right operand. -/
def climb (tell : Listener m) : Nat → Level → Expr → Parser m Expr
  | 0, _, _ => spent
  | n + 1, level, left => do
    match ← accept level.owns with
    | none => pure left
    | some operator =>
      let right ← operand tell n level
      climb tell n level (level.join left operator right)

/-- Unary operators before a call. -/
def unary (tell : Listener m) : Nat → Parser m Expr
  | 0 => spent
  | n + 1 => do
    match ← accept isUnaryOperator with
    | some operator =>
      let right ← unary tell n
      pure (.unary operator right)
    | none =>
      let callee ← primary tell n
      calls tell n callee

/-- The argument lists that follow `callee`. -/
def calls (tell : Listener m) : Nat → Expr → Parser m Expr
  | 0, _ => spent
  | n + 1, callee => do
    match ← accept (· == .leftParen) with
    | none => pure callee
    | some _ =>
      let empty ← nextIs .rightParen
      let given ← if empty then pure [] else arguments tell n 0
      let paren ← expect tell .rightParen .argumentsNeedClosing
      calls tell n (.call callee paren given)

/-- One or more arguments after the first `count`. Each one past the largest number is reported. -/
def arguments (tell : Listener m) : Nat → Nat → Parser m (List Expr)
  | 0, _ => spent
  | n + 1, count => do
    let place ← ahead
    if maxArguments ≤ count then reportAt tell place .tooManyArguments
    let first ← expression tell n
    match ← accept (· == .comma) with
    | none => pure [first]
    | some _ =>
      let rest ← arguments tell n (count + 1)
      pure (first :: rest)

/-- A literal, an identifier or an expression in parentheses. -/
def primary (tell : Listener m) : Nat → Parser m Expr
  | 0 => spent
  | n + 1 => do
    match ← accept beginsPrimary with
    | none => fail tell .needsExpression
    | some t =>
      match t.kind with
      | .false_ => pure (.literal (.truth false))
      | .true_ => pure (.literal (.truth true))
      | .nil => pure (.literal .nothing)
      | .number | .string => pure (.literal t.literal)
      | .identifier => pure (.identifier t)
      | _ =>
        let inner ← expression tell n
        let _ ← expect tell .rightParen .groupingNeedsClosing
        pure (.grouping inner)

end

/-- An expression at the front of a token list. -/
def expr (tell : Listener m) : Parser m Expr := fun ts =>
  expression tell (20 * (ts.length + 1)) ts

end Bhasha.Parse
