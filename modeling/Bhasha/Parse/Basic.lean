import Bhasha.Tree.Basic

/-!
# Parsers that report

A parser reads a list of tokens that stops before the end of the input.  It either is done, with a
value and the tokens it left, or bails out, with the tokens from the blamed one on.  On its way it
makes reports.  A report is an action of a monad that the parser knows nothing about, so the same
parser runs in silence, with a record, or with a listener that puts an end to it.

Bailing out is an outcome here, not an effect of that monad, so `recover` sees nothing but bailouts.
In `Bhasha.Proofs.Parse.Panicking` both are panics of one kind that recovery has to tell apart, and
`parse_eq_statementsM` says that this comes to the same.

Source: benglang, package `parser`: `match`, `check`, `expect`, `errorAt`, `synchronize` with
`syncAnchors`, `bailout`, and the recovery in `declaration`.
-/

namespace Bhasha.Parse

/-- What a report is about. -/
inductive Fault where
  | forNeedsParen
  | forNeedsSemicolon
  | forNeedsClosing
  | whileNeedsParen
  | whileNeedsClosing
  | ifNeedsParen
  | ifNeedsClosing
  | printNeedsSemicolon
  | declarationNeedsName
  | declarationNeedsSemicolon
  | expressionNeedsSemicolon
  | blockNeedsBrace
  | argumentsNeedClosing
  | groupingNeedsClosing
  | needsExpression
  | invalidTarget
  | tooManyArguments
deriving DecidableEq, Repr

namespace Fault

def message : Fault → Text
  | .forNeedsParen => text "Expect '(' after 'jokhon'."
  | .forNeedsSemicolon => text "Expect ';' after loop condition."
  | .forNeedsClosing => text "Expect ')' after for clauses."
  | .whileNeedsParen => text "Expect '(' after 'jotokhon'."
  | .whileNeedsClosing => text "Expect ')' after condition."
  | .ifNeedsParen => text "Expect '(' after 'jodi'."
  | .ifNeedsClosing => text "Expect ')' after if condition."
  | .printNeedsSemicolon => text "Expect ';' after value."
  | .declarationNeedsName => text "Expect variable name."
  | .declarationNeedsSemicolon => text "Expect ';' after variable declaration."
  | .expressionNeedsSemicolon => text "Expect ';' after expression."
  | .blockNeedsBrace => text "Expect '\x7d' after block."
  | .argumentsNeedClosing => text "Expect ')' after arguments."
  | .groupingNeedsClosing => text "Expect ')' after expression."
  | .needsExpression => text "Expect expression."
  | .invalidTarget => text "Invalid assignment target."
  | .tooManyArguments => text "Can't have more than 255 arguments."

/-- A fatal fault ends the statement in which it stands; after the others parsing goes on. -/
def isFatal : Fault → Bool
  | .invalidTarget | .tooManyArguments => false
  | _ => true

end Fault

/-- A fault, and the tokens from the blamed one on. No tokens are left when the end of the input is
to blame. -/
structure Report where
  ahead : List Token
  fault : Fault
deriving DecidableEq, Repr

/-- How a parser ends. -/
inductive Outcome (α : Type) where
  | done (value : α) (rest : List Token)
  | bail (rest : List Token)
deriving Repr

/-- A parser whose reports are actions of `m`. -/
def Parser (m : Type → Type) (α : Type) : Type := List Token → m (Outcome α)

/-- Who hears the reports. -/
abbrev Listener (m : Type → Type) : Type := Report → m Unit

variable {m : Type → Type} [Monad m] {α : Type}

instance : Monad (Parser m) where
  pure a := fun ts => pure (.done a ts)
  bind p f := fun ts => do
    match ← p ts with
    | .done a rest => f a rest
    | .bail rest => pure (.bail rest)

/-- The tokens not read yet. -/
def ahead : Parser m (List Token) := fun ts => pure (.done ts ts)

/-- Whether the next token is of the given kind. -/
def nextIs (kind : Kind) : Parser m Bool := fun ts =>
  pure (.done (ts.head?.any (·.kind == kind)) ts)

/-- Reads the next token if its kind is wanted. -/
def accept (wanted : Kind → Bool) : Parser m (Option Token)
  | [] => pure (.done none [])
  | t :: rest => if wanted t.kind then pure (.done (some t) rest) else pure (.done none (t :: rest))

/-- Reports a fault at a place read before, and goes on. -/
def reportAt (tell : Listener m) (place : List Token) (fault : Fault) : Parser m Unit :=
  fun ts => do
    tell ⟨place, fault⟩
    pure (.done () ts)

/-- Reports a fault at the next token and bails out. -/
def fail (tell : Listener m) (fault : Fault) : Parser m α := fun ts => do
  tell ⟨ts, fault⟩
  pure (.bail ts)

/-- Reads a token of the given kind, or fails. -/
def expect (tell : Listener m) (kind : Kind) (fault : Fault) : Parser m Token
  | [] => fail tell fault []
  | t :: rest => if t.kind = kind then pure (.done t rest) else fail tell fault (t :: rest)

/-- The outcome when no fuel is left. The fuel that the grammar is run with never runs out. -/
def spent : Parser m α := fun ts => pure (.bail ts)

/-- The kinds that begin a statement. Recovery stops in front of them. -/
def isAnchor (kind : Kind) : Bool :=
  match kind with
  | .class_ | .fun_ | .var | .for_ | .if_ | .while_ | .print | .return_ => true
  | _ => false

/-- Where parsing goes on after a failure: past the blamed token, and then after the next semicolon
or in front of the next anchor, whichever comes first. -/
def resume : List Token → List Token
  | [] => []
  | t :: rest =>
    if t.kind = .semicolon || rest.head?.any (isAnchor ·.kind) then rest else resume rest

/-- Runs a parser and recovers from its failure. What else may end a run is an effect of `m` and
passes by. -/
def recover (p : Parser m α) : Parser m (Option α) := fun ts => do
  match ← p ts with
  | .done a rest => pure (.done (some a) rest)
  | .bail rest => pure (.done none (resume rest))

end Bhasha.Parse
