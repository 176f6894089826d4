import Bhasha.Proofs.Grammar.Expression
import Bhasha.Proofs.Token.Meaning
import Bhasha.Tree.Source

/-!
# The tokens of a tree

A tree spelled out as the tokens that its source text consists of.  The tokens stand on no line, and
so does the tree that they are compared with: `unlined` forgets the lines of all tokens of a tree
and leaves everything else in place.  The source text of a tree does not depend on the lines.
-/

namespace Bhasha

open Parse Grammar

/-- The token that a literal is written as. -/
def Literal.token (value : Literal) : Token :=
  match value with
  | .nothing => Kind.nil.token
  | .truth true => Kind.true_.token
  | .truth false => Kind.false_.token
  | .string _ => ⟨.string, value.source, value, 0⟩
  | .number _ | .whole _ => ⟨.number, value.source, value, 0⟩

theorem literalOf?_token (value : Literal) : literalOf? value.token = some value := by
  cases value with
  | truth b => cases b <;> rfl
  | _ => rfl

namespace Expr

mutual

/-- An expression without the lines of its tokens. -/
def unlined : Expr → Expr
  | .literal value => .literal value
  | .identifier name => .identifier name.unlined
  | .assign name value => .assign name.unlined value.unlined
  | .logical left operator right => .logical left.unlined operator.unlined right.unlined
  | .binary left operator right => .binary left.unlined operator.unlined right.unlined
  | .unary operator right => .unary operator.unlined right.unlined
  | .call callee paren given => .call callee.unlined paren.unlined (unlinedAll given)
  | .bareCall callee paren => .bareCall callee.unlined paren.unlined
  | .grouping inner => .grouping inner.unlined

def unlinedAll : List Expr → List Expr
  | [] => []
  | first :: rest => first.unlined :: unlinedAll rest

end

mutual

/-- The tokens of an expression. -/
def tokens : Expr → List Token
  | .literal value => [value.token]
  | .identifier name => [name.unlined]
  | .assign name value => name.unlined :: Kind.equal.token :: value.tokens
  | .logical left operator right => left.tokens ++ operator.unlined :: right.tokens
  | .binary left operator right => left.tokens ++ operator.unlined :: right.tokens
  | .unary operator right => operator.unlined :: right.tokens
  | .call callee paren given =>
    callee.tokens ++ Kind.leftParen.token :: (tokensBetween given ++ [paren.unlined])
  | .bareCall callee paren => callee.tokens ++ [Kind.leftParen.token, paren.unlined]
  | .grouping inner => Kind.leftParen.token :: (inner.tokens ++ [Kind.rightParen.token])

/-- The tokens of expressions between commas. -/
def tokensBetween : List Expr → List Token
  | [] => []
  | [last] => last.tokens
  | first :: next :: rest => first.tokens ++ Kind.comma.token :: tokensBetween (next :: rest)

end

mutual

/-- One fault for every argument of a call past the largest number, at its first token. -/
def excess : Expr → List SyntaxFault
  | .literal _ | .identifier _ => []
  | .assign _ value => value.excess
  | .logical left _ right => left.excess ++ right.excess
  | .binary left _ right => left.excess ++ right.excess
  | .unary _ right => right.excess
  | .call callee _ given => callee.excess ++ excessAfter 0 given
  | .bareCall callee _ => callee.excess
  | .grouping inner => inner.excess

/-- The faults of the arguments that follow `count` others. -/
def excessAfter (count : Nat) : List Expr → List SyntaxFault
  | [] => []
  | first :: rest => limitFault count first.tokens ++ (first.excess ++ excessAfter (count + 1) rest)

end

end Expr

namespace Stmt

mutual

/-- A statement without the lines of its tokens. -/
def unlined : Stmt → Stmt
  | .expression value => .expression value.unlined
  | .print value => .print value.unlined
  | .declare name initializer => .declare name.unlined (initializer.map Expr.unlined)
  | .block inner => .block (unlinedAll inner)
  | .bareBlock => .bareBlock
  | .branch condition consequent none => .branch condition.unlined consequent.unlined none
  | .branch condition consequent (some alternative) =>
    .branch condition.unlined consequent.unlined (some alternative.unlined)
  | .loop condition body => .loop condition.unlined body.unlined

def unlinedAll : List Stmt → List Stmt
  | [] => []
  | first :: rest => first.unlined :: unlinedAll rest

end

/-- The tokens of a condition after the word that introduces it. -/
def conditionTokens (word : Kind) (condition : Expr) : List Token :=
  word.token :: Kind.leftParen.token :: (condition.tokens ++ [Kind.rightParen.token])

mutual

/-- The tokens of a statement. -/
def tokens : Stmt → List Token
  | .expression value => value.tokens ++ [Kind.semicolon.token]
  | .print value => Kind.print.token :: (value.tokens ++ [Kind.semicolon.token])
  | .declare name none => [Kind.var.token, name.unlined, Kind.semicolon.token]
  | .declare name (some value) =>
    Kind.var.token :: name.unlined :: Kind.equal.token :: (value.tokens ++ [Kind.semicolon.token])
  | .block inner => Kind.leftBrace.token :: (tokensAll inner ++ [Kind.rightBrace.token])
  | .bareBlock => [Kind.leftBrace.token, Kind.rightBrace.token]
  | .branch condition consequent none => conditionTokens .if_ condition ++ consequent.tokens
  | .branch condition consequent (some alternative) =>
    conditionTokens .if_ condition ++
      (consequent.tokens ++ Kind.else_.token :: alternative.tokens)
  | .loop condition body => conditionTokens .while_ condition ++ body.tokens

def tokensAll : List Stmt → List Token
  | [] => []
  | first :: rest => first.tokens ++ tokensAll rest

end

mutual

/-- The faults of the expressions of a statement. -/
def excess : Stmt → List SyntaxFault
  | .expression value => value.excess
  | .print value => value.excess
  | .declare _ none => []
  | .declare _ (some value) => value.excess
  | .block inner => excessAll inner
  | .bareBlock => []
  | .branch condition consequent none => condition.excess ++ consequent.excess
  | .branch condition consequent (some alternative) =>
    condition.excess ++ (consequent.excess ++ alternative.excess)
  | .loop condition body => condition.excess ++ body.excess

def excessAll : List Stmt → List SyntaxFault
  | [] => []
  | first :: rest => first.excess ++ excessAll rest

end

end Stmt

namespace Program

/-- A program without the lines of its tokens. -/
def unlined (p : Program) : Program := ⟨Stmt.unlinedAll p.statements⟩

def tokens (p : Program) : List Token := Stmt.tokensAll p.statements

/-- One fault for every argument past the largest number of any call of the program. -/
def excess (p : Program) : List SyntaxFault := Stmt.excessAll p.statements

end Program

mutual

theorem Expr.unlined_unlined : ∀ e : Expr, e.unlined.unlined = e.unlined
  | .literal _ => rfl
  | .identifier _ => rfl
  | .assign name value => by
    simp only [Expr.unlined, value.unlined_unlined]
    rfl
  | .logical left operator right => by
    simp only [Expr.unlined, left.unlined_unlined, right.unlined_unlined]
    rfl
  | .binary left operator right => by
    simp only [Expr.unlined, left.unlined_unlined, right.unlined_unlined]
    rfl
  | .unary operator right => by
    simp only [Expr.unlined, right.unlined_unlined]
    rfl
  | .call callee paren given => by
    simp only [Expr.unlined, callee.unlined_unlined, Expr.unlinedAll_unlinedAll given]
    rfl
  | .bareCall callee paren => by
    simp only [Expr.unlined, callee.unlined_unlined]
    rfl
  | .grouping inner => by
    simp only [Expr.unlined, inner.unlined_unlined]

theorem Expr.unlinedAll_unlinedAll :
    ∀ es : List Expr, Expr.unlinedAll (Expr.unlinedAll es) = Expr.unlinedAll es
  | [] => rfl
  | first :: rest => by
    simp only [Expr.unlinedAll, first.unlined_unlined, Expr.unlinedAll_unlinedAll rest]

end

mutual

theorem Stmt.unlined_unlined : ∀ s : Stmt, s.unlined.unlined = s.unlined
  | .expression value => by
    simp only [Stmt.unlined, value.unlined_unlined]
  | .print value => by
    simp only [Stmt.unlined, value.unlined_unlined]
  | .declare name none => rfl
  | .declare name (some value) => by
    simp only [Stmt.unlined, Option.map_some, value.unlined_unlined]
    rfl
  | .block inner => by
    simp only [Stmt.unlined, Stmt.unlinedAll_unlinedAll inner]
  | .bareBlock => rfl
  | .branch condition consequent none => by
    simp only [Stmt.unlined, condition.unlined_unlined, consequent.unlined_unlined]
  | .branch condition consequent (some alternative) => by
    simp only [Stmt.unlined, condition.unlined_unlined, consequent.unlined_unlined,
      alternative.unlined_unlined]
  | .loop condition body => by
    simp only [Stmt.unlined, condition.unlined_unlined, body.unlined_unlined]

/-- The lines can be forgotten only once. -/
theorem Stmt.unlinedAll_unlinedAll :
    ∀ ss : List Stmt, Stmt.unlinedAll (Stmt.unlinedAll ss) = Stmt.unlinedAll ss
  | [] => rfl
  | first :: rest => by
    simp only [Stmt.unlinedAll, first.unlined_unlined, Stmt.unlinedAll_unlinedAll rest]

end

mutual

/-- The source text of an expression does not depend on the lines. -/
theorem Expr.source_unlined : ∀ e : Expr, e.unlined.source = e.source
  | .literal _ => rfl
  | .identifier _ => rfl
  | .assign name value => by
    simp only [Expr.unlined, Expr.source, value.source_unlined]
    rfl
  | .logical left operator right => by
    simp only [Expr.unlined, Expr.source, left.source_unlined, right.source_unlined]
    rfl
  | .binary left operator right => by
    simp only [Expr.unlined, Expr.source, left.source_unlined, right.source_unlined]
    rfl
  | .unary operator right => by
    simp only [Expr.unlined, Expr.source, right.source_unlined]
    rfl
  | .call callee paren given => by
    simp only [Expr.unlined, Expr.source, callee.source_unlined, Expr.sources_unlinedAll given]
  | .bareCall callee paren => by
    simp only [Expr.unlined, Expr.source, callee.source_unlined]
  | .grouping inner => by
    simp only [Expr.unlined, Expr.source, inner.source_unlined]

theorem Expr.sources_unlinedAll :
    ∀ es : List Expr, Expr.sources (Expr.unlinedAll es) = Expr.sources es
  | [] => rfl
  | [last] => by
    simp only [Expr.unlinedAll, Expr.sources, last.source_unlined]
  | first :: next :: rest => by
    have others := Expr.sources_unlinedAll (next :: rest)
    simp only [Expr.unlinedAll] at others
    simp only [Expr.unlinedAll, Expr.sources, first.source_unlined, others]

end

mutual

theorem Stmt.sourceAt_unlined :
    ∀ (depth : Nat) (s : Stmt), s.unlined.sourceAt depth = s.sourceAt depth
  | _, .expression value => by
    simp only [Stmt.unlined, Stmt.sourceAt, value.source_unlined]
  | _, .print value => by
    simp only [Stmt.unlined, Stmt.sourceAt, value.source_unlined]
  | _, .declare name none => rfl
  | _, .declare name (some value) => by
    simp only [Stmt.unlined, Option.map_some, Stmt.sourceAt, value.source_unlined]
    rfl
  | _, .block [] => rfl
  | depth, .block (first :: rest) => by
    have inner := Stmt.linesAt_unlinedAll (depth + 1) (first :: rest)
    simp only [Stmt.unlinedAll] at inner
    simp only [Stmt.unlined, Stmt.unlinedAll, Stmt.sourceAt, inner]
  | _, .bareBlock => rfl
  | depth, .branch condition consequent none => by
    simp only [Stmt.unlined, Stmt.sourceAt, Stmt.conditionSource, condition.source_unlined,
      Stmt.sourceAt_unlined depth consequent]
  | depth, .branch condition consequent (some alternative) => by
    simp only [Stmt.unlined, Stmt.sourceAt, Stmt.conditionSource, condition.source_unlined,
      Stmt.sourceAt_unlined depth consequent, Stmt.sourceAt_unlined depth alternative]
  | depth, .loop condition body => by
    simp only [Stmt.unlined, Stmt.sourceAt, Stmt.conditionSource, condition.source_unlined,
      Stmt.sourceAt_unlined depth body]

theorem Stmt.linesAt_unlinedAll :
    ∀ (depth : Nat) (ss : List Stmt),
      Stmt.linesAt depth (Stmt.unlinedAll ss) = Stmt.linesAt depth ss
  | _, [] => rfl
  | depth, first :: rest => by
    simp only [Stmt.unlinedAll, Stmt.linesAt, Stmt.sourceAt_unlined depth first,
      Stmt.linesAt_unlinedAll depth rest]

end

/-- The source text of a program does not depend on the lines. -/
theorem Program.source_unlined (p : Program) : p.unlined.source = p.source := by
  obtain ⟨statements⟩ := p
  simp only [Program.unlined, Program.source]
  induction statements with
  | nil => rfl
  | cons first rest ih =>
    have same : first.unlined.source = first.source := Stmt.sourceAt_unlined 0 first
    rw [Stmt.unlinedAll, List.flatMap_cons, List.flatMap_cons, ih, same]

end Bhasha
