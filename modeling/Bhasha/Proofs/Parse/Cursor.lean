import Bhasha.Parse.Program

/-!
# Parsing with a cursor

The grammar once more, as it is read by a cursor that moves over an array of tokens.  The cursor
asks for the token at its position and for the one before it, and for nothing else.  Nothing but the
way in which the grammar moves the cursor keeps these positions inside the array: a run that asks
for a token elsewhere ends at once, and the place it asked for is its result.  A run ends at once as
well when its fuel is spent; every call and every round of a loop spends a unit of it.

Two loops ask for declarations, one in a program and one in a block.  Each time one of them does so,
the positions of the cursor before and after the declaration are noted down.

Source: benglang, package `parser`: `parser` with its `tokens` and `current`, `peek`, `previous`,
`isAtEnd`, `advance`, `check`, `match`, `expect`, `synchronize`, and the grammar on top of them.
-/

namespace Bhasha.Parse.Cursor

/-- Where the cursor stood before and after a declaration. -/
structure Visit where
  start : Int
  stop : Int
deriving DecidableEq, Repr

/-- The position of the cursor, the faults told and the declarations visited so far. -/
structure State where
  current : Int
  faults : List SyntaxFault
  visits : List Visit

/-- How a run ends. -/
inductive Ending (α : Type) where
  | done (value : α) (s : State)
  | bail (s : State)
  /-- A token was asked for at a place outside the array. -/
  | outside (place : Int)
  | spent

def Machine (α : Type) : Type := State → Ending α

instance : Monad Machine where
  pure value := fun s => .done value s
  bind p f := fun s =>
    match p s with
    | .done value s' => f value s'
    | .bail s' => .bail s'
    | .outside place => .outside place
    | .spent => .spent

/-- The token at a place of an array; places below zero and behind the last token have none. -/
def tokenAt? (tokens : Array Token) (place : Int) : Option Token :=
  if 0 ≤ place then tokens[place.toNat]? else none

section

variable {α : Type} (tokens : Array Token)

def readAt (place : Int) : Machine Token := fun s =>
  match tokenAt? tokens place with
  | some t => .done t s
  | none => .outside place

def peek : Machine Token := fun s => readAt tokens s.current s

def previous : Machine Token := fun s => readAt tokens (s.current - 1) s

def State.next (s : State) : State := { s with current := s.current + 1 }

def move : Machine Unit := fun s => .done () s.next

def spent : Machine α := fun _ => .spent

def bail : Machine α := fun s => .bail s

def report (t : Token) (fault : Fault) : Machine Unit := fun s =>
  .done () { s with faults := s.faults ++ [⟨t, fault⟩] }

def atEnd : Machine Bool := do
  let t ← peek tokens
  pure (t.kind == .eof)

/-- Moves on unless the input is at its end, and gives the token before the cursor. -/
def advance : Machine Token := do
  if ← atEnd tokens then pure () else move
  previous tokens

def check (kind : Kind) : Machine Bool := do
  if ← atEnd tokens then pure false
  else
    let t ← peek tokens
    pure (t.kind == kind)

/-- Moves over the next token if its kind is wanted. -/
def accepts (wanted : Kind → Bool) : Machine Bool := do
  if ← atEnd tokens then pure false
  else
    let t ← peek tokens
    if wanted t.kind then
      let _ ← advance tokens
      pure true
    else pure false

/-- Blames the next token and bails out. -/
def fail (fault : Fault) : Machine α := do
  let t ← peek tokens
  report t fault
  bail

def expect (kind : Kind) (fault : Fault) : Machine Token := do
  if ← check tokens kind then advance tokens else fail tokens fault

/-- Moves on until the token before the cursor is a semicolon or the next one is an anchor. -/
def skip : Nat → Machine Unit
  | 0 => spent
  | n + 1 => do
    if ← atEnd tokens then pure ()
    else
      let last ← previous tokens
      if last.kind == .semicolon then pure ()
      else
        let t ← peek tokens
        if isAnchor t.kind then pure ()
        else
          let _ ← advance tokens
          skip n

/-- Moves on at least once if possible, and then to the next place where a statement may begin. -/
def synchronize (n : Nat) : Machine Unit := do
  let _ ← advance tokens
  skip tokens n

/-- Runs a machine and recovers from its failure. -/
def recovering (n : Nat) (p : Machine α) : Machine (Option α) := fun s =>
  match p s with
  | .done value s' => .done (some value) s'
  | .bail s' => (synchronize tokens n >>= fun _ => pure none) s'
  | .outside place => .outside place
  | .spent => .spent

/-- Notes down where a machine began and where it was done. -/
def visit (p : Machine α) : Machine α := fun s =>
  match p s with
  | .done value s' => .done value { s' with visits := s'.visits ++ [⟨s.current, s'.current⟩] }
  | other => other

mutual

def expression : Nat → Machine Expr
  | 0 => spent
  | n + 1 => do
    let left ← binary n .or
    if ← accepts tokens (· == .equal) then
      let equal ← previous tokens
      let value ← expression n
      match left with
      | .identifier name => pure (.assign name value)
      | _ =>
        report equal .invalidTarget
        pure left
    else pure left

def binary : Nat → Level → Machine Expr
  | 0, _ => spent
  | n + 1, level => do
    let left ← operand n level
    climb n level left

def operand : Nat → Level → Machine Expr
  | 0, _ => spent
  | n + 1, level =>
    match level.tighter? with
    | some tighter => binary n tighter
    | none => unary n

def climb : Nat → Level → Expr → Machine Expr
  | 0, _, _ => spent
  | n + 1, level, left => do
    if ← accepts tokens level.owns then
      let operator ← previous tokens
      let right ← operand n level
      climb n level (level.join left operator right)
    else pure left

def unary : Nat → Machine Expr
  | 0 => spent
  | n + 1 => do
    if ← accepts tokens isUnaryOperator then
      let operator ← previous tokens
      let right ← unary n
      pure (.unary operator right)
    else
      let callee ← primary n
      calls n callee

def calls : Nat → Expr → Machine Expr
  | 0, _ => spent
  | n + 1, callee => do
    if ← accepts tokens (· == .leftParen) then
      let empty ← check tokens .rightParen
      let given ← if empty then pure [] else arguments n 0
      let paren ← expect tokens .rightParen .argumentsNeedClosing
      calls n (.call callee paren given)
    else pure callee

def arguments : Nat → Nat → Machine (List Expr)
  | 0, _ => spent
  | n + 1, count => do
    if maxArguments ≤ count then
      let t ← peek tokens
      report t .tooManyArguments
    let first ← expression n
    if ← accepts tokens (· == .comma) then
      let rest ← arguments n (count + 1)
      pure (first :: rest)
    else pure [first]

def primary : Nat → Machine Expr
  | 0 => spent
  | n + 1 => do
    if ← accepts tokens (· == .false_) then pure (.literal (.truth false))
    else if ← accepts tokens (· == .true_) then pure (.literal (.truth true))
    else if ← accepts tokens (· == .nil) then pure (.literal .nothing)
    else if ← accepts tokens (fun kind => kind == .number || kind == .string) then
      let t ← previous tokens
      pure (.literal t.literal)
    else if ← accepts tokens (· == .identifier) then
      let name ← previous tokens
      pure (.identifier name)
    else if ← accepts tokens (· == .leftParen) then
      let inner ← expression n
      let _ ← expect tokens .rightParen .groupingNeedsClosing
      pure (.grouping inner)
    else fail tokens .needsExpression

end

def declarationTail (n : Nat) : Machine Stmt := do
  let name ← expect tokens .identifier .declarationNeedsName
  let valued ← accepts tokens (· == .equal)
  let initializer ← if valued then some <$> expression tokens n else pure none
  let _ ← expect tokens .semicolon .declarationNeedsSemicolon
  pure (.declare name initializer)

def expressionStatement (n : Nat) : Machine Stmt := do
  let value ← expression tokens n
  let _ ← expect tokens .semicolon .expressionNeedsSemicolon
  pure (.expression value)

def printTail (n : Nat) : Machine Stmt := do
  let value ← expression tokens n
  let _ ← expect tokens .semicolon .printNeedsSemicolon
  pure (.print value)

def initializerClause (n : Nat) : Machine (Option Stmt) := do
  if ← accepts tokens (· == .semicolon) then pure none
  else if ← accepts tokens (· == .var) then some <$> declarationTail tokens n
  else some <$> expressionStatement tokens n

def clause (n : Nat) (closing : Kind) : Machine (Option Expr) := do
  if ← check tokens closing then pure none else some <$> expression tokens n

def forTail (n : Nat) (body : Machine Stmt) : Machine Stmt := do
  let _ ← expect tokens .leftParen .forNeedsParen
  let initializer ← initializerClause tokens n
  let condition ← clause tokens n .semicolon
  let _ ← expect tokens .semicolon .forNeedsSemicolon
  let increment ← clause tokens n .rightParen
  let _ ← expect tokens .rightParen .forNeedsClosing
  let body ← body
  pure (countingLoop initializer condition increment body)

def whileTail (n : Nat) (body : Machine Stmt) : Machine Stmt := do
  let _ ← expect tokens .leftParen .whileNeedsParen
  let condition ← expression tokens n
  let _ ← expect tokens .rightParen .whileNeedsClosing
  let body ← body
  pure (.loop condition body)

def ifTail (n : Nat) (body : Machine Stmt) : Machine Stmt := do
  let _ ← expect tokens .leftParen .ifNeedsParen
  let condition ← expression tokens n
  let _ ← expect tokens .rightParen .ifNeedsClosing
  let consequent ← body
  if ← accepts tokens (· == .else_) then
    let alternative ← body
    pure (.branch condition consequent (some alternative))
  else pure (.branch condition consequent none)

/-- Whether a list of declarations ends here. -/
def ends (inBlock : Bool) : Machine Bool := do
  let closed ← if inBlock then check tokens .rightBrace else pure false
  if closed then pure true else atEnd tokens

mutual

def statement : Nat → Machine Stmt
  | 0 => spent
  | n + 1 => do
    if ← accepts tokens (· == .for_) then forTail tokens n (statement n)
    else if ← accepts tokens (· == .if_) then ifTail tokens n (statement n)
    else if ← accepts tokens (· == .print) then printTail tokens n
    else if ← accepts tokens (· == .while_) then whileTail tokens n (statement n)
    else if ← accepts tokens (· == .leftBrace) then
      let inner ← declarations n true
      let _ ← expect tokens .rightBrace .blockNeedsBrace
      pure (.block inner)
    else expressionStatement tokens n

def declaration : Nat → Machine (Option Stmt)
  | 0 => spent
  | n + 1 => recovering tokens n do
    if ← accepts tokens (· == .var) then declarationTail tokens n else statement n

def declarations : Nat → Bool → Machine (List Stmt)
  | 0, _ => spent
  | n + 1, inBlock => do
    if ← ends tokens inBlock then pure []
    else
      let first ← visit (declaration n)
      let rest ← declarations n inBlock
      pure (first.toList ++ rest)

end

end

/-- The tokens with an end of the input behind them, if the last one is none. -/
def closed (ts : List Token) : List Token :=
  if ts.getLast?.any (·.kind == .eof) then ts
  else ts ++ [.endOfInput ((ts.getLast?.map (·.line)).getD 1)]

/-- The run of a cursor over a list of tokens, from its first token on. -/
def run (n : Nat) (ts : List Token) : Ending (List Stmt) :=
  declarations (closed ts).toArray n false ⟨0, [], []⟩

end Bhasha.Parse.Cursor
