import Bhasha.Parse.Program
import Bhasha.Proofs.Tree.Yield
import Mathlib.Data.List.Forall2

/-!
# Trees that differ in their tokens only

Two trees are alike with respect to a relation between tokens when they have the same shape, related
tokens at corresponding places, and literals that come from related tokens.  Trees whose tokens
differ in nothing but the line become equal when the lines are forgotten.
-/

namespace Bhasha

open Parse

variable (R : Token → Token → Prop)

mutual

inductive Expr.Alike : Expr → Expr → Prop
  | constant {value : Literal} (fixed : value = .nothing ∨ ∃ b, value = .truth b) :
      Expr.Alike (.literal value) (.literal value)
  | literal {t t' : Token} (valued : t.kind = .number ∨ t.kind = .string) (same : R t t') :
      Expr.Alike (.literal t.literal) (.literal t'.literal)
  | identifier {t t' : Token} (same : R t t') : Expr.Alike (.identifier t) (.identifier t')
  | assign {t t' : Token} {e e' : Expr} (same : R t t') (value : Expr.Alike e e') :
      Expr.Alike (.assign t e) (.assign t' e')
  | logical {t t' : Token} {l l' r r' : Expr} (left : Expr.Alike l l') (same : R t t')
      (right : Expr.Alike r r') : Expr.Alike (.logical l t r) (.logical l' t' r')
  | binary {t t' : Token} {l l' r r' : Expr} (left : Expr.Alike l l') (same : R t t')
      (right : Expr.Alike r r') : Expr.Alike (.binary l t r) (.binary l' t' r')
  | unary {t t' : Token} {r r' : Expr} (same : R t t') (right : Expr.Alike r r') :
      Expr.Alike (.unary t r) (.unary t' r')
  | call {t t' : Token} {c c' : Expr} {es es' : List Expr} (callee : Expr.Alike c c')
      (same : R t t') (given : Expr.AllAlike es es') : Expr.Alike (.call c t es) (.call c' t' es')
  | grouping {e e' : Expr} (inner : Expr.Alike e e') : Expr.Alike (.grouping e) (.grouping e')

inductive Expr.AllAlike : List Expr → List Expr → Prop
  | nil : Expr.AllAlike [] []
  | cons {e e' : Expr} {es es' : List Expr} (first : Expr.Alike e e')
      (rest : Expr.AllAlike es es') : Expr.AllAlike (e :: es) (e' :: es')

end

mutual

inductive Stmt.Alike : Stmt → Stmt → Prop
  | expression {e e' : Expr} (value : Expr.Alike R e e') :
      Stmt.Alike (.expression e) (.expression e')
  | print {e e' : Expr} (value : Expr.Alike R e e') : Stmt.Alike (.print e) (.print e')
  | declare {t t' : Token} {e e' : Option Expr} (same : R t t')
      (initializer : Option.Rel (Expr.Alike R) e e') : Stmt.Alike (.declare t e) (.declare t' e')
  | block {ss ss' : List Stmt} (inner : Stmt.AllAlike ss ss') : Stmt.Alike (.block ss) (.block ss')
  | branch {e e' : Expr} {s s' : Stmt} (condition : Expr.Alike R e e')
      (consequent : Stmt.Alike s s') : Stmt.Alike (.branch e s none) (.branch e' s' none)
  | branchElse {e e' : Expr} {s s' a a' : Stmt} (condition : Expr.Alike R e e')
      (consequent : Stmt.Alike s s') (alternative : Stmt.Alike a a') :
      Stmt.Alike (.branch e s (some a)) (.branch e' s' (some a'))
  | loop {e e' : Expr} {s s' : Stmt} (condition : Expr.Alike R e e') (body : Stmt.Alike s s') :
      Stmt.Alike (.loop e s) (.loop e' s')

inductive Stmt.AllAlike : List Stmt → List Stmt → Prop
  | nil : Stmt.AllAlike [] []
  | cons {s s' : Stmt} {ss ss' : List Stmt} (first : Stmt.Alike s s')
      (rest : Stmt.AllAlike ss ss') : Stmt.AllAlike (s :: ss) (s' :: ss')

end

/-- Two tokens that differ at most in the line. -/
def SameButLine (t t' : Token) : Prop := t.unlined = t'.unlined

theorem SameButLine.literal {t t' : Token} (same : SameButLine t t') : t.literal = t'.literal := by
  have whole : t.unlined.literal = t'.unlined.literal := by rw [same]
  exact whole

theorem SameButLine.kind {t t' : Token} (same : SameButLine t t') : t.kind = t'.kind := by
  have whole : t.unlined.kind = t'.unlined.kind := by rw [same]
  exact whole

mutual

theorem Expr.Alike.unlined {e e' : Expr} : Expr.Alike SameButLine e e' → e.unlined = e'.unlined
  | .constant _ => rfl
  | .literal _ same => congrArg Expr.literal same.literal
  | .identifier same => congrArg Expr.identifier same
  | .assign same value => by
    rw [Expr.unlined, Expr.unlined, same, value.unlined]
  | .logical left same right => by
    rw [Expr.unlined, Expr.unlined, left.unlined, same, right.unlined]
  | .binary left same right => by
    rw [Expr.unlined, Expr.unlined, left.unlined, same, right.unlined]
  | .unary same right => by
    rw [Expr.unlined, Expr.unlined, same, right.unlined]
  | .call callee same given => by
    rw [Expr.unlined, Expr.unlined, callee.unlined, same, given.unlinedAll]
  | .grouping inner => by
    rw [Expr.unlined, Expr.unlined, inner.unlined]

theorem Expr.AllAlike.unlinedAll {es es' : List Expr} :
    Expr.AllAlike SameButLine es es' → Expr.unlinedAll es = Expr.unlinedAll es'
  | .nil => rfl
  | .cons first rest => by
    rw [Expr.unlinedAll, Expr.unlinedAll, first.unlined, rest.unlinedAll]

end

mutual

theorem Stmt.Alike.unlined {s s' : Stmt} : Stmt.Alike SameButLine s s' → s.unlined = s'.unlined
  | .expression value => congrArg Stmt.expression value.unlined
  | .print value => congrArg Stmt.print value.unlined
  | .declare same initializer => by
    rw [Stmt.unlined, Stmt.unlined, same]
    cases initializer with
    | none => rfl
    | some value => rw [Option.map_some, Option.map_some, value.unlined]
  | .block inner => congrArg Stmt.block inner.unlinedAll
  | .branch condition consequent => by
    rw [Stmt.unlined, Stmt.unlined, condition.unlined, consequent.unlined]
  | .branchElse condition consequent alternative => by
    rw [Stmt.unlined, Stmt.unlined, condition.unlined, consequent.unlined, alternative.unlined]
  | .loop condition body => by
    rw [Stmt.unlined, Stmt.unlined, condition.unlined, body.unlined]

theorem Stmt.AllAlike.unlinedAll {ss ss' : List Stmt} :
    Stmt.AllAlike SameButLine ss ss' → Stmt.unlinedAll ss = Stmt.unlinedAll ss'
  | .nil => rfl
  | .cons first rest => by
    rw [Stmt.unlinedAll, Stmt.unlinedAll, first.unlined, rest.unlinedAll]

end

end Bhasha
