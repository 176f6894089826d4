import Bhasha.Parse.Program

/-!
# Parsing with panics

The grammar once more, as it is read by a parser that leaves a broken declaration by a panic.  There
is one way of panicking, and the parser shares it with the reporter that it calls: its own panics
carry a bailout, those of the reporter a foreign value.  What was read and reported before a panic
stays so.

A declaration is the place of recovery.  It catches every panic there is, looks at the value, and
panics with the value again unless it is a bailout.  Nothing but that test lets the panic of a
reporter pass through the declarations around it.

Source: benglang, package `parser`: `Reporter`, `bailout`, `errorAt`, `expect`, `synchronize`,
`declaration` with its deferred function, `Parse`, and the functions for statements and expressions.
-/

namespace Bhasha.Parse.Panicking

/-- What a panic carries: the parser's own sentinel, which nobody else can make, or a value from
elsewhere. -/
inductive Panic (ε : Type) where
  | bailout
  | foreign (value : ε)
deriving DecidableEq, Repr

def Panic.isBailout {ε : Type} : Panic ε → Bool
  | .bailout => true
  | .foreign _ => false

/-- The tokens not read yet, and what the reporter keeps for itself. -/
structure State (σ : Type) where
  ahead : List Token
  kept : σ

/-- A part of a parse, which is done or ends in a panic. -/
abbrev Run (σ ε : Type) : Type → Type := ExceptT (Panic ε) (StateM (State σ))

/-- Hears of faults, keeps something of them, and may panic with a value of its own. -/
abbrev Reporter (σ ε : Type) : Type := SyntaxFault → ExceptT ε (StateM σ) Unit

/-- A reporter that only takes down what it hears. -/
def recording {σ ε : Type} (take : σ → SyntaxFault → σ) : Reporter σ ε := fun f =>
  modify fun kept => take kept f

/-- A parser on its way: the end of the input, which is the next token where no other is left, and
the reporter, if there is one. -/
structure Reader (σ ε : Type) where
  finish : Token
  reporter? : Option (Reporter σ ε)

section

variable {σ ε α : Type}

/-- Calls a function of the reporter. Its panic is a panic of the caller. -/
def call (action : ExceptT ε (StateM σ) α) : Run σ ε α := fun s =>
  match action.run.run s.kept with
  | (.ok a, kept) => (.ok a, { s with kept })
  | (.error value, kept) => (.error (.foreign value), { s with kept })

/-- The outcome when no fuel is left. -/
def spent : Run σ ε α := throw .bailout

def nextIs (kind : Kind) : Run σ ε Bool := do
  let s ← get
  pure (s.ahead.head?.any (·.kind == kind))

/-- Reads the next token if its kind is wanted. -/
def accept (wanted : Kind → Bool) : Run σ ε (Option Token) := do
  let s ← get
  match s.ahead with
  | [] => pure none
  | t :: rest =>
    if wanted t.kind then
      set { s with ahead := rest }
      pure (some t)
    else pure none

/-- Discards tokens up to a likely boundary of statements. -/
def synchronize : Run σ ε Unit := modify fun s => { s with ahead := resume s.ahead }

/-- Runs a part of a parse and recovers from its panic. Every panic is caught; one that is no
bailout is raised again with its value. -/
def recovering (p : Run σ ε α) : Run σ ε (Option α) :=
  tryCatch (some <$> p) fun panic => do
    if !panic.isBailout then throw panic
    synchronize
    pure none

end

namespace Reader

variable {σ ε : Type} (p : Reader σ ε)

def peek : Run σ ε Token := do
  let s ← get
  pure (s.ahead.headD p.finish)

/-- Tells the reporter of a fault, if there is one. -/
def report : Reporter σ ε :=
  match p.reporter? with
  | none => fun _ => pure ()
  | some report => report

/-- Reports a fault and gives the value to bail out with. -/
def errorAt (t : Token) (fault : Fault) : Run σ ε (Panic ε) := do
  call (p.report ⟨t, fault⟩)
  pure .bailout

/-- Blames the next token and bails out. -/
def fail {α : Type} (fault : Fault) : Run σ ε α := do
  let t ← p.peek
  throw (← p.errorAt t fault)

/-- Reads a token of the given kind, or fails. -/
def expect (kind : Kind) (fault : Fault) : Run σ ε Token := do
  match ← accept (· == kind) with
  | some t => pure t
  | none => p.fail fault

mutual

def expression : Nat → Run σ ε Expr
  | 0 => spent
  | n + 1 => do
    let left ← binary n .or
    match ← accept (· == .equal) with
    | none => pure left
    | some equal =>
      let value ← expression n
      match left with
      | .identifier name => pure (.assign name value)
      | _ =>
        let _ ← p.errorAt equal .invalidTarget
        pure left

def binary : Nat → Level → Run σ ε Expr
  | 0, _ => spent
  | n + 1, level => do
    let left ← operand n level
    climb n level left

def operand : Nat → Level → Run σ ε Expr
  | 0, _ => spent
  | n + 1, level =>
    match level.tighter? with
    | some tighter => binary n tighter
    | none => unary n

def climb : Nat → Level → Expr → Run σ ε Expr
  | 0, _, _ => spent
  | n + 1, level, left => do
    match ← accept level.owns with
    | none => pure left
    | some operator =>
      let right ← operand n level
      climb n level (level.join left operator right)

def unary : Nat → Run σ ε Expr
  | 0 => spent
  | n + 1 => do
    match ← accept isUnaryOperator with
    | some operator =>
      let right ← unary n
      pure (.unary operator right)
    | none =>
      let callee ← primary n
      calls n callee

def calls : Nat → Expr → Run σ ε Expr
  | 0, _ => spent
  | n + 1, callee => do
    match ← accept (· == .leftParen) with
    | none => pure callee
    | some _ =>
      let empty ← nextIs .rightParen
      let given ← if empty then pure [] else arguments n 0
      let paren ← p.expect .rightParen .argumentsNeedClosing
      calls n (.call callee paren given)

def arguments : Nat → Nat → Run σ ε (List Expr)
  | 0, _ => spent
  | n + 1, count => do
    if maxArguments ≤ count then
      let _ ← p.errorAt (← p.peek) .tooManyArguments
    let first ← expression n
    match ← accept (· == .comma) with
    | none => pure [first]
    | some _ =>
      let rest ← arguments n (count + 1)
      pure (first :: rest)

def primary : Nat → Run σ ε Expr
  | 0 => spent
  | n + 1 => do
    match ← accept beginsPrimary with
    | none => p.fail .needsExpression
    | some t =>
      match t.kind with
      | .false_ => pure (.literal (.truth false))
      | .true_ => pure (.literal (.truth true))
      | .nil => pure (.literal .nothing)
      | .number | .string => pure (.literal t.literal)
      | .identifier => pure (.identifier t)
      | _ =>
        let inner ← expression n
        let _ ← p.expect .rightParen .groupingNeedsClosing
        pure (.grouping inner)

end

/-- An expression, with as much fuel as the tokens ahead may need. -/
def expr : Run σ ε Expr := do
  let s ← get
  p.expression (20 * (s.ahead.length + 1))

def declarationTail : Run σ ε Stmt := do
  let name ← p.expect .identifier .declarationNeedsName
  let initializer ← do
    match ← accept (· == .equal) with
    | none => pure none
    | some _ => some <$> p.expr
  let _ ← p.expect .semicolon .declarationNeedsSemicolon
  pure (.declare name initializer)

def expressionStatement : Run σ ε Stmt := do
  let value ← p.expr
  let _ ← p.expect .semicolon .expressionNeedsSemicolon
  pure (.expression value)

def printTail : Run σ ε Stmt := do
  let value ← p.expr
  let _ ← p.expect .semicolon .printNeedsSemicolon
  pure (.print value)

def initializerClause : Run σ ε (Option Stmt) := do
  match ← accept (fun kind => kind == .semicolon || kind == .var) with
  | none => some <$> p.expressionStatement
  | some t => if t.kind = .semicolon then pure none else some <$> p.declarationTail

def clause (closing : Kind) : Run σ ε (Option Expr) := do
  let empty ← nextIs closing
  if empty then pure none else some <$> p.expr

def forTail (body : Run σ ε Stmt) : Run σ ε Stmt := do
  let _ ← p.expect .leftParen .forNeedsParen
  let initializer ← p.initializerClause
  let condition ← p.clause .semicolon
  let _ ← p.expect .semicolon .forNeedsSemicolon
  let increment ← p.clause .rightParen
  let _ ← p.expect .rightParen .forNeedsClosing
  let body ← body
  pure (countingLoop initializer condition increment body)

def ifTail (body : Run σ ε Stmt) : Run σ ε Stmt := do
  let _ ← p.expect .leftParen .ifNeedsParen
  let condition ← p.expr
  let _ ← p.expect .rightParen .ifNeedsClosing
  let consequent ← body
  match ← accept (· == .else_) with
  | none => pure (.branch condition consequent none)
  | some _ =>
    let alternative ← body
    pure (.branch condition consequent (some alternative))

def whileTail (body : Run σ ε Stmt) : Run σ ε Stmt := do
  let _ ← p.expect .leftParen .whileNeedsParen
  let condition ← p.expr
  let _ ← p.expect .rightParen .whileNeedsClosing
  let body ← body
  pure (.loop condition body)

mutual

def statement : Nat → Run σ ε Stmt
  | 0 => spent
  | n + 1 => do
    match ← accept beginsStatement with
    | none => p.expressionStatement
    | some t =>
      match t.kind with
      | .for_ => p.forTail (statement n)
      | .if_ => p.ifTail (statement n)
      | .print => p.printTail
      | .while_ => p.whileTail (statement n)
      | _ =>
        let inner ← declarations n true
        let _ ← p.expect .rightBrace .blockNeedsBrace
        pure (.block inner)

/-- A declaration, or none if it was given up. -/
def declaration : Nat → Run σ ε (Option Stmt)
  | 0 => recovering spent
  | n + 1 => recovering do
    match ← accept (· == .var) with
    | some _ => p.declarationTail
    | none => statement n

def declarations : Nat → Bool → Run σ ε (List Stmt)
  | 0, _ => spent
  | n + 1, inBlock => do
    let s ← get
    if endsDeclarations inBlock s.ahead then pure []
    else
      let first ← declaration n
      let rest ← declarations n inBlock
      pure (first.toList ++ rest)

end

end Reader

/-- The statements of a list of tokens, with every fault told to the reporter, if there is one. -/
def parse {σ ε : Type} (reporter? : Option (Reporter σ ε)) (ts : List Token) :
    ExceptT (Panic ε) (StateM σ) (List Stmt) := fun kept =>
  let reader : Reader σ ε := ⟨endToken ts, reporter?⟩
  let fuel := 4 * ((body ts).length + 1)
  let (result, s) := (reader.declarations fuel false).run.run ⟨body ts, kept⟩
  (result, s.kept)

end Bhasha.Parse.Panicking
