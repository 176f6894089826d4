import Bhasha.Parse.Expression

/-!
# The grammar of statements

Declarations, counting loops, branches, printing, loops, blocks and expressions.  A counting loop is
spelled out while it is read: its initializer goes before a loop, its increment after the body.  An
`else` belongs to the nearest branch before it.

Every declaration is a place of recovery: when a fault ends it, the declaration is left out, and
reading goes on where `resume` says.  A declaration always reads at least one token, so the list of
declarations comes to its end.

Source: benglang, package `parser`: `declaration`, `statement`, `forStatement`, `whileStatement`,
`ifStatement`, `printStatement`, `varDeclaration`, `expressionStatement` and `block`.
-/

namespace Bhasha.Parse

/-- The kinds that begin a statement other than an expression. -/
def beginsStatement (kind : Kind) : Bool :=
  match kind with
  | .for_ | .if_ | .print | .while_ | .leftBrace => true
  | _ => false

variable {m : Type → Type} [Monad m]

/-- A declaration after its first word. -/
def declarationTail (tell : Listener m) : Parser m Stmt := do
  let name ← expect tell .identifier .declarationNeedsName
  let initializer ← do
    match ← accept (· == .equal) with
    | none => pure none
    | some _ => some <$> expr tell
  let _ ← expect tell .semicolon .declarationNeedsSemicolon
  pure (.declare name initializer)

/-- An expression and the semicolon after it. -/
def expressionStatement (tell : Listener m) : Parser m Stmt := do
  let value ← expr tell
  let _ ← expect tell .semicolon .expressionNeedsSemicolon
  pure (.expression value)

/-- The value of a print statement. -/
def printTail (tell : Listener m) : Parser m Stmt := do
  let value ← expr tell
  let _ ← expect tell .semicolon .printNeedsSemicolon
  pure (.print value)

/-- The first clause of a counting loop, up to its semicolon. -/
def initializerClause (tell : Listener m) : Parser m (Option Stmt) := do
  match ← accept (fun kind => kind == .semicolon || kind == .var) with
  | none => some <$> expressionStatement tell
  | some t => if t.kind = .semicolon then pure none else some <$> declarationTail tell

/-- An expression unless the clause ends here. -/
def clause (tell : Listener m) (closing : Kind) : Parser m (Option Expr) := do
  let empty ← nextIs closing
  if empty then pure none else some <$> expr tell

/-- A counting loop spelled out. -/
def countingLoop (initializer : Option Stmt) (condition increment : Option Expr) (body : Stmt) :
    Stmt :=
  let round := match increment with
    | none => body
    | some step => .block [body, .expression step]
  let loop := Stmt.loop (condition.getD (.literal (.truth true))) round
  match initializer with
  | none => loop
  | some first => .block [first, loop]

/-- A counting loop after its first word. -/
def forTail (tell : Listener m) (body : Parser m Stmt) : Parser m Stmt := do
  let _ ← expect tell .leftParen .forNeedsParen
  let initializer ← initializerClause tell
  let condition ← clause tell .semicolon
  let _ ← expect tell .semicolon .forNeedsSemicolon
  let increment ← clause tell .rightParen
  let _ ← expect tell .rightParen .forNeedsClosing
  let body ← body
  pure (countingLoop initializer condition increment body)

/-- A branch after its first word. -/
def ifTail (tell : Listener m) (body : Parser m Stmt) : Parser m Stmt := do
  let _ ← expect tell .leftParen .ifNeedsParen
  let condition ← expr tell
  let _ ← expect tell .rightParen .ifNeedsClosing
  let consequent ← body
  match ← accept (· == .else_) with
  | none => pure (.branch condition consequent none)
  | some _ =>
    let alternative ← body
    pure (.branch condition consequent (some alternative))

/-- A loop after its first word. -/
def whileTail (tell : Listener m) (body : Parser m Stmt) : Parser m Stmt := do
  let _ ← expect tell .leftParen .whileNeedsParen
  let condition ← expr tell
  let _ ← expect tell .rightParen .whileNeedsClosing
  let body ← body
  pure (.loop condition body)

/-- Whether a list of declarations ends here: at a closing brace inside a block, and at the end of
the input anywhere. -/
def endsDeclarations (inBlock : Bool) : List Token → Bool
  | [] => true
  | t :: _ => inBlock && t.kind == .rightBrace

mutual

def statement (tell : Listener m) : Nat → Parser m Stmt
  | 0 => spent
  | n + 1 => do
    match ← accept beginsStatement with
    | none => expressionStatement tell
    | some t =>
      match t.kind with
      | .for_ => forTail tell (statement tell n)
      | .if_ => ifTail tell (statement tell n)
      | .print => printTail tell
      | .while_ => whileTail tell (statement tell n)
      | _ =>
        let inner ← declarations tell n true
        let _ ← expect tell .rightBrace .blockNeedsBrace
        pure (.block inner)

def declaration (tell : Listener m) : Nat → Parser m Stmt
  | 0 => spent
  | n + 1 => do
    match ← accept (· == .var) with
    | some _ => declarationTail tell
    | none => statement tell n

/-- Declarations up to the end of the block or of the input; failed ones are left out. -/
def declarations (tell : Listener m) : Nat → Bool → Parser m (List Stmt)
  | 0, _ => spent
  | n + 1, inBlock => do
    if endsDeclarations inBlock (← ahead) then pure []
    else
      let first ← recover (declaration tell n)
      let rest ← declarations tell n inBlock
      pure (first.toList ++ rest)

end

/-- All declarations of a token list. No more than three calls follow each other without reading a
token. -/
def program (tell : Listener m) : Parser m (List Stmt) := fun ts =>
  declarations tell (4 * (ts.length + 1)) false ts

end Bhasha.Parse
