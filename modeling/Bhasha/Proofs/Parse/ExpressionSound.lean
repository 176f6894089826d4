import Bhasha.Proofs.Grammar.Expression
import Bhasha.Proofs.Parse.Contract

/-!
# Expressions that are read have derivations

Every parser of the expression grammar, given enough fuel, either is done with a sentence of its
nonterminal, whose tree it returns and whose faults it told, or bails out with a fatal fault at the
first token it left.  The fuel that is enough is twenty units for each token ahead and a reserve for
the calls that follow each other before a token is read.
-/

namespace Bhasha.Parse

open Grammar

/-- The fuel that reading an operand of a level takes before its first token. -/
def operandReserve : Level → Nat
  | .or => 13
  | .and => 11
  | .equality => 9
  | .comparison => 7
  | .term => 5
  | .factor => 3

theorem operandReserve_bounds (level : Level) :
    3 ≤ operandReserve level ∧ operandReserve level ≤ 13 := by
  cases level <;> simp [operandReserve]

/-- A sentence of a nonterminal was read. -/
abbrev reading (symbol : Symbol) : Contract Expr :=
  fun taken _ e told => Derives symbol taken e told

/-- All parsers of expressions with `n` units of fuel keep their contracts on the token lists for
which that is enough. -/
structure ExpressionsMeet (finish : Token) (n : Nat) : Prop where
  expression : ∀ ts, 20 * ts.length + 15 ≤ n →
    Meets finish (reading .expression) ts (expression (hear finish) n ts)
  binary : ∀ level ts, 20 * ts.length + (operandReserve level + 1) ≤ n →
    Meets finish (reading (.binary level)) ts (binary (hear finish) n level ts)
  operand : ∀ level ts, 20 * ts.length + operandReserve level ≤ n →
    Meets finish (reading (operandOf level)) ts (operand (hear finish) n level ts)
  climb : ∀ level left ts, 20 * ts.length + 1 ≤ n →
    Meets finish (reading (.climb level left)) ts (climb (hear finish) n level left ts)
  unary : ∀ ts, 20 * ts.length + 2 ≤ n →
    Meets finish (reading .unary) ts (unary (hear finish) n ts)
  calls : ∀ callee ts, 20 * ts.length + 1 ≤ n →
    Meets finish (reading (.calls callee)) ts (calls (hear finish) n callee ts)
  arguments : ∀ count ts, 20 * ts.length + 16 ≤ n →
    Meets finish (fun taken _ given told => ArgumentList count taken given told) ts
      (arguments (hear finish) n count ts)
  primary : ∀ ts, 20 * ts.length + 1 ≤ n →
    Meets finish (reading .primary) ts (primary (hear finish) n ts)

variable {finish : Token} {n : Nat}

private theorem expression_step (ih : ExpressionsMeet finish n) (ts : List Token)
    (fuel : 20 * ts.length + 15 ≤ n + 1) :
    Meets finish (reading .expression) ts (expression (hear finish) (n + 1) ts) := by
  rw [expression]
  refine (ih.binary .or ts (by simp only [operandReserve]; omega)).bind ?_
  intro u rest left told split target
  refine ahead_meets ?_
  refine (accept_meets _).bind ?_
  rintro taken after _ _ split' ⟨rfl, ⟨equal, rfl, rfl, sign⟩ | ⟨rfl, rfl, -⟩⟩
  · have shorter : after.length < ts.length := by simp [split, split']; omega
    refine (ih.expression after (by omega)).bind ?_
    intro v final value more _ right
    have sign : equal.kind = .equal := by simpa using sign
    split
    next name => exact meets_pure (by simpa using Derives.assign target sign right)
    next invalid =>
      refine (reportAt_meets _ _).bind ?_
      rintro _ _ _ _ _ ⟨rfl, rfl⟩
      refine meets_pure ?_
      simpa [split'] using Derives.misassign target (fun name same => invalid name same) sign right
  · exact meets_pure (by simpa using Derives.loosest target)

private theorem binary_step (ih : ExpressionsMeet finish n) (level : Level) (ts : List Token)
    (fuel : 20 * ts.length + (operandReserve level + 1) ≤ n + 1) :
    Meets finish (reading (.binary level)) ts (binary (hear finish) (n + 1) level ts) := by
  rw [binary]
  refine (ih.operand level ts (by omega)).bind ?_
  intro u rest left told split first
  have reserve := operandReserve_bounds level
  have shorter : rest.length ≤ ts.length := by simp [split]
  refine (ih.climb level left rest (by omega)).weaken ?_
  intro v final e more _ others
  exact Derives.chain first others

private theorem operand_step (ih : ExpressionsMeet finish n) (level : Level) (ts : List Token)
    (fuel : 20 * ts.length + operandReserve level ≤ n + 1) :
    Meets finish (reading (operandOf level)) ts (operand (hear finish) (n + 1) level ts) := by
  rw [operand]
  cases level with
  | or => exact ih.binary .and ts (by simp only [operandReserve] at fuel ⊢; omega)
  | and => exact ih.binary .equality ts (by simp only [operandReserve] at fuel ⊢; omega)
  | equality => exact ih.binary .comparison ts (by simp only [operandReserve] at fuel ⊢; omega)
  | comparison => exact ih.binary .term ts (by simp only [operandReserve] at fuel ⊢; omega)
  | term => exact ih.binary .factor ts (by simp only [operandReserve] at fuel ⊢; omega)
  | factor => exact ih.unary ts (by simp only [operandReserve] at fuel; omega)

private theorem climb_step (ih : ExpressionsMeet finish n) (level : Level) (left : Expr)
    (ts : List Token) (fuel : 20 * ts.length + 1 ≤ n + 1) :
    Meets finish (reading (.climb level left)) ts (climb (hear finish) (n + 1) level left ts) := by
  rw [climb]
  refine (accept_meets _).bind ?_
  rintro taken after _ _ split ⟨rfl, ⟨operator, rfl, rfl, owned⟩ | ⟨rfl, rfl, -⟩⟩
  · have shorter : after.length + 1 = ts.length := by simp [split]
    have reserve := operandReserve_bounds level
    refine (ih.operand level after (by omega)).bind ?_
    intro u rest right told split' operand
    have shorter' : rest.length ≤ after.length := by simp [split']
    refine (ih.climb level _ rest (by omega)).weaken ?_
    intro v final e more _ others
    rw [← node_eq_join] at others
    simpa using Derives.climb (mem_operators_iff.mpr owned) operand others
  · exact meets_pure Derives.climbed

private theorem unary_step (ih : ExpressionsMeet finish n) (ts : List Token)
    (fuel : 20 * ts.length + 2 ≤ n + 1) :
    Meets finish (reading .unary) ts (unary (hear finish) (n + 1) ts) := by
  rw [unary]
  refine (accept_meets _).bind ?_
  rintro taken after _ _ split ⟨rfl, ⟨operator, rfl, rfl, sign⟩ | ⟨rfl, rfl, -⟩⟩
  · have shorter : after.length + 1 = ts.length := by simp [split]
    refine (ih.unary after (by omega)).bind ?_
    intro u rest right told _ operand
    exact meets_pure (by simpa using Derives.unary (mem_signs_iff.mpr sign) operand)
  · refine (ih.primary after (by simp [split] at fuel; omega)).bind ?_
    intro u rest callee told split' first
    refine (ih.calls callee rest (by simp [split, split'] at fuel; omega)).weaken ?_
    intro v final e more _ others
    simpa using Derives.call first others

private theorem calls_step (ih : ExpressionsMeet finish n) (callee : Expr) (ts : List Token)
    (fuel : 20 * ts.length + 1 ≤ n + 1) :
    Meets finish (reading (.calls callee)) ts (calls (hear finish) (n + 1) callee ts) := by
  rw [calls]
  refine (accept_meets _).bind ?_
  rintro taken after _ _ split ⟨rfl, ⟨opening, rfl, rfl, sign⟩ | ⟨rfl, rfl, -⟩⟩
  · have sign : opening.kind = .leftParen := by simpa using sign
    have shorter : after.length + 1 = ts.length := by simp [split]
    refine nextIs_meets ?_
    split
    · refine pure_meets ?_
      refine (expect_meets rfl).bind ?_
      rintro _ final paren _ split' ⟨rfl, closing, rfl⟩
      have shorter' : final.length ≤ after.length := by simp [split']
      refine (ih.calls _ final (by omega)).weaken ?_
      intro v left e more _ others
      simpa using Derives.callEmpty sign closing others
    · refine (ih.arguments 0 after (by omega)).bind ?_
      intro u rest given told split' inside
      refine (expect_meets rfl).bind ?_
      rintro _ final paren _ split'' ⟨rfl, closing, rfl⟩
      have shorter' : final.length ≤ after.length := by simp [split', split'']; omega
      refine (ih.calls _ final (by omega)).weaken ?_
      intro v left e more _ others
      simpa using Derives.callGiven sign inside closing others
  · exact meets_pure Derives.called

/-- The report on an argument past the limit comes before the argument is read; `reported` is what
was told by then. -/
private theorem argument_step (ih : ExpressionsMeet finish n) (count : Nat) (ts : List Token)
    (fuel : 20 * ts.length + 15 ≤ n) {reported : List SyntaxFault}
    (limit : ∀ t rest, ts = t :: rest → reported = limitFault count [t]) :
    Meets finish (fun taken _ given told => ArgumentList count taken given (reported ++ told)) ts
      ((do
        let first ← expression (hear finish) n
        match ← accept (· == .comma) with
        | none => pure [first]
        | some _ =>
          let rest ← arguments (hear finish) n (count + 1)
          pure (first :: rest) : Parser (Recorded SyntaxFault) (List Expr)) ts) := by
  refine (ih.expression ts fuel).bind ?_
  intro u rest e told split argument
  obtain ⟨t, v, rfl, -⟩ := argument.head rfl
  obtain rfl : reported = limitFault count (t :: v) := limit t (v ++ rest) split
  refine (accept_meets _).bind ?_
  rintro taken after _ _ split' ⟨rfl, ⟨comma, rfl, rfl, sign⟩ | ⟨rfl, rfl, -⟩⟩
  · have sign : comma.kind = .comma := by simpa using sign
    have shorter : after.length + 2 ≤ ts.length := by simp [split, split']
    refine (ih.arguments (count + 1) after (by omega)).bind ?_
    intro w final given more _ tail
    exact meets_pure (by simpa using ArgumentList.more argument sign tail)
  · exact meets_pure (by simpa using ArgumentList.last argument)

private theorem arguments_step (ih : ExpressionsMeet finish n) (count : Nat) (ts : List Token)
    (fuel : 20 * ts.length + 16 ≤ n + 1) :
    Meets finish (fun taken _ given told => ArgumentList count taken given told) ts
      (arguments (hear finish) (n + 1) count ts) := by
  rw [arguments]
  refine ahead_meets ?_
  split
  next exceeds =>
    refine (reportAt_meets _ _).bind ?_
    rintro _ rest _ _ rfl ⟨rfl, rfl⟩
    refine argument_step ih count rest (by simpa using fuel) ?_
    rintro t after rfl
    simp [limitFault_eq, exceeds]
  next under =>
    refine @argument_step _ _ ih count ts (by omega) [] ?_
    rintro t after rfl
    simp [limitFault_eq, under]

/-- A literal token is read by itself, whatever the other tokens would lead to. -/
theorem primary_literal {t : Token} {value : Literal} (constant : literalOf? t = some value)
    (named grouped : Parser (Recorded SyntaxFault) Expr) :
    (match t.kind with
      | .false_ => pure (.literal (.truth false))
      | .true_ => pure (.literal (.truth true))
      | .nil => pure (.literal .nothing)
      | .number | .string => pure (.literal t.literal)
      | .identifier => named
      | _ => grouped) = (pure (.literal value) : Parser (Recorded SyntaxFault) Expr) := by
  unfold literalOf? at constant
  split at constant <;> simp_all

private theorem primary_step (ih : ExpressionsMeet finish n) (ts : List Token)
    (fuel : 20 * ts.length + 1 ≤ n + 1) :
    Meets finish (reading .primary) ts (primary (hear finish) (n + 1) ts) := by
  rw [primary]
  refine (accept_meets _).bind ?_
  rintro taken after _ _ split ⟨rfl, ⟨t, rfl, rfl, begins⟩ | ⟨rfl, rfl, -⟩⟩
  · have shorter : after.length + 1 = ts.length := by simp [split]
    dsimp only
    rcases beginsPrimary_cases begins with ⟨value, constant⟩ | name | opening
    · refine Meets.congr (primary_literal constant _ _) ?_
      exact meets_pure (Derives.literal constant)
    · rw [name]
      exact meets_pure (Derives.identifier name)
    · rw [opening]
      refine (ih.expression after (by omega)).bind ?_
      intro u rest e told _ inner
      refine (expect_meets rfl).bind ?_
      rintro _ final closing _ _ ⟨rfl, right, rfl⟩
      exact meets_pure (by simpa using Derives.grouping opening inner right)
  · exact fail_meets rfl

theorem expressions_meet (finish : Token) (n : Nat) : ExpressionsMeet finish n := by
  induction n with
  | zero =>
    constructor
    case operand =>
      intro level ts fuel
      have reserve := operandReserve_bounds level
      omega
    all_goals intros; omega
  | succ n ih =>
    exact ⟨expression_step ih, binary_step ih, operand_step ih, climb_step ih, unary_step ih,
      calls_step ih, arguments_step ih, primary_step ih⟩

/-- What is read as an expression is a sentence of the grammar, and reading never runs dry. -/
theorem expr_meets (finish : Token) (ts : List Token) :
    Meets finish (reading .expression) ts (expr (hear finish) ts) :=
  (expressions_meet finish _).expression ts (by omega)

end Bhasha.Parse
