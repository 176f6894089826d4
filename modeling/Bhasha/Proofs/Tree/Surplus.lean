import Bhasha.Proofs.Parse.StatementComplete
import Bhasha.Proofs.Tree.Yield

/-!
# Arguments past the largest number

A call with more arguments than allowed is kept in the tree as it was written, and the tokens of the
tree are faulted again for it.  The surplus of a tree is the number of its arguments past the
largest number, taken over all its calls.  It is the number of the faults of the tree, and a
derivation tells at least as many: those of parts that are not kept in the tree come on top.
-/

namespace Bhasha

open Parse Grammar

namespace Expr

mutual

/-- The number of arguments past the largest number, over all calls of an expression. -/
def surplus : Expr → Nat
  | .literal _ | .identifier _ => 0
  | .assign _ value => value.surplus
  | .logical left _ right => left.surplus + right.surplus
  | .binary left _ right => left.surplus + right.surplus
  | .unary _ right => right.surplus
  | .call callee _ given => callee.surplus + ((given.length - maxArguments) + surplusAll given)
  | .bareCall callee _ => callee.surplus
  | .grouping inner => inner.surplus

def surplusAll : List Expr → Nat
  | [] => 0
  | first :: rest => first.surplus + surplusAll rest

end

theorem tokens_ne_nil (e : Expr) : e.tokens ≠ [] := by
  cases e <;> simp [tokens]

end Expr

namespace Stmt

mutual

/-- The surplus of the expressions of a statement. -/
def surplus : Stmt → Nat
  | .expression value => value.surplus
  | .print value => value.surplus
  | .declare _ none => 0
  | .declare _ (some value) => value.surplus
  | .block inner => surplusAll inner
  | .bareBlock => 0
  | .branch condition consequent none => condition.surplus + consequent.surplus
  | .branch condition consequent (some alternative) =>
    condition.surplus + (consequent.surplus + alternative.surplus)
  | .loop condition body => condition.surplus + body.surplus

def surplusAll : List Stmt → Nat
  | [] => 0
  | first :: rest => first.surplus + surplusAll rest

end

end Stmt

/-- The number of arguments past the largest number, over all calls of a program. -/
def Program.surplus (p : Program) : Nat := Stmt.surplusAll p.statements

/-- The arguments after `count` others that exceed the limit. -/
theorem limitFault_faults (count : Nat) {u : List Token} (some_token : u ≠ []) :
    (limitFault count u).map (·.fault) =
      List.replicate (if maxArguments ≤ count then 1 else 0) Fault.tooManyArguments := by
  rw [limitFault_eq]
  split
  · cases u with
    | nil => exact absurd rfl some_token
    | cons t rest => rfl
  · rfl

mutual

/-- The faults of an expression are as many as its surplus, and they are all of one sort. -/
theorem Expr.excess_faults :
    ∀ e : Expr, e.excess.map (·.fault) = List.replicate e.surplus .tooManyArguments
  | .literal _ => rfl
  | .identifier _ => rfl
  | .assign _ value => value.excess_faults
  | .logical left _ right => by
    rw [Expr.excess, Expr.surplus, List.map_append, left.excess_faults, right.excess_faults,
      List.replicate_append_replicate]
  | .binary left _ right => by
    rw [Expr.excess, Expr.surplus, List.map_append, left.excess_faults, right.excess_faults,
      List.replicate_append_replicate]
  | .unary _ right => right.excess_faults
  | .call callee _ given => by
    rw [Expr.excess, Expr.surplus, List.map_append, callee.excess_faults,
      Expr.excessAfter_faults 0 given, List.replicate_append_replicate, Nat.sub_zero]
  | .bareCall callee _ => callee.excess_faults
  | .grouping inner => inner.excess_faults

theorem Expr.excessAfter_faults : ∀ (count : Nat) (given : List Expr),
    (Expr.excessAfter count given).map (·.fault) =
      List.replicate ((given.length - (maxArguments - count)) + Expr.surplusAll given)
        .tooManyArguments
  | count, [] => by simp [Expr.excessAfter, Expr.surplusAll]
  | count, first :: rest => by
    rw [Expr.excessAfter, Expr.surplusAll, List.map_append, List.map_append,
      limitFault_faults count first.tokens_ne_nil, first.excess_faults,
      Expr.excessAfter_faults (count + 1) rest, List.replicate_append_replicate,
      List.replicate_append_replicate, List.length_cons]
    congr 1
    split <;> omega

end

mutual

theorem Stmt.excess_faults :
    ∀ s : Stmt, s.excess.map (·.fault) = List.replicate s.surplus .tooManyArguments
  | .expression value => value.excess_faults
  | .print value => value.excess_faults
  | .declare _ none => rfl
  | .declare _ (some value) => value.excess_faults
  | .block inner => Stmt.excessAll_faults inner
  | .bareBlock => rfl
  | .branch condition consequent none => by
    rw [Stmt.excess, Stmt.surplus, List.map_append, condition.excess_faults,
      consequent.excess_faults, List.replicate_append_replicate]
  | .branch condition consequent (some alternative) => by
    rw [Stmt.excess, Stmt.surplus, List.map_append, List.map_append, condition.excess_faults,
      consequent.excess_faults, alternative.excess_faults, List.replicate_append_replicate,
      List.replicate_append_replicate]
  | .loop condition body => by
    rw [Stmt.excess, Stmt.surplus, List.map_append, condition.excess_faults, body.excess_faults,
      List.replicate_append_replicate]

theorem Stmt.excessAll_faults : ∀ ss : List Stmt,
    (Stmt.excessAll ss).map (·.fault) = List.replicate (Stmt.surplusAll ss) .tooManyArguments
  | [] => rfl
  | first :: rest => by
    rw [Stmt.excessAll, Stmt.surplusAll, List.map_append, first.excess_faults,
      Stmt.excessAll_faults rest, List.replicate_append_replicate]

end

/-- None of the faults of a program is fatal. -/
theorem Stmt.excessAll_lenient (ss : List Stmt) : Lenient (Stmt.excessAll ss) := by
  intro f member
  have sort : f.fault ∈ (Stmt.excessAll ss).map (·.fault) := List.mem_map_of_mem member
  rw [Stmt.excessAll_faults] at sort
  rw [List.eq_of_mem_replicate sort]
  rfl

namespace Grammar

/-- The number of faults that are told of surplus arguments. -/
def limits (told : List SyntaxFault) : Nat := told.countP (·.fault == .tooManyArguments)

@[simp] theorem limits_nil : limits [] = 0 := rfl

@[simp] theorem limits_append (told more : List SyntaxFault) :
    limits (told ++ more) = limits told + limits more := List.countP_append

theorem limits_limitFault (count : Nat) {u : List Token} (some_token : u ≠ []) :
    limits (limitFault count u) = if maxArguments ≤ count then 1 else 0 := by
  have sorts := limitFault_faults count some_token
  have counted : limits (limitFault count u) =
      ((limitFault count u).map (·.fault)).countP (· == .tooManyArguments) := by
    rw [List.countP_map]
    rfl
  rw [counted, sorts, List.countP_replicate]
  exact if_pos rfl

/-- The surplus of the part that a phrase goes on from. -/
def Symbol.surplus : Symbol → Nat
  | .climb _ left => left.surplus
  | .calls callee => callee.surplus
  | _ => 0

@[simp] theorem operandOf_surplus (level : Level) : (operandOf level).surplus = 0 := by
  cases level <;> rfl

@[simp] theorem surplus_node (level : Level) (left right : Expr) (operator : Token) :
    (node level left operator right).surplus = left.surplus + right.surplus := by
  cases level <;> rfl

mutual

/-- Every surplus argument of a tree is told in its derivation. -/
theorem Derives.surplus_le {symbol : Symbol} {u : List Token} {e : Expr}
    {told : List SyntaxFault} :
    Derives symbol u e told → e.surplus ≤ symbol.surplus + limits told
  | .loosest inner => inner.surplus_le
  | .assign target _ right => by
    have value := right.surplus_le
    simp only [Symbol.surplus, Expr.surplus, limits_append] at *
    omega
  | .misassign target _ _ _ => by
    have left := target.surplus_le
    simp only [Symbol.surplus, limits_append] at *
    omega
  | .chain first others => by
    have left := first.surplus_le
    have whole := others.surplus_le
    rw [operandOf_surplus] at left
    simp only [Symbol.surplus, limits_append] at *
    omega
  | .climbed => Nat.le_refl _
  | .climb _ operand others => by
    have right := operand.surplus_le
    have whole := others.surplus_le
    rw [operandOf_surplus] at right
    simp only [Symbol.surplus, surplus_node, limits_append] at *
    omega
  | .unary _ operand => operand.surplus_le
  | .call first others => by
    have callee := first.surplus_le
    have whole := others.surplus_le
    simp only [Symbol.surplus, limits_append] at *
    omega
  | .called => Nat.le_refl _
  | .callEmpty _ _ others => others.surplus_le
  | .callGiven _ inside _ others => by
    have given := inside.surplus_le
    have whole := others.surplus_le
    simp only [Symbol.surplus, Expr.surplus, limits_append, Nat.sub_zero] at *
    omega
  | .literal _ => Nat.le_refl _
  | .identifier _ => Nat.le_refl _
  | .grouping _ inner _ => inner.surplus_le

theorem ArgumentList.surplus_le {count : Nat} {u : List Token} {given : List Expr}
    {told : List SyntaxFault} : ArgumentList count u given told →
      (given.length - (maxArguments - count)) + Expr.surplusAll given ≤ limits told
  | .last argument => by
    have value := argument.surplus_le
    obtain ⟨t, v, rfl, -⟩ := argument.head rfl
    rw [limits_append, limits_limitFault count (by simp)]
    simp only [Symbol.surplus, Expr.surplusAll, List.length_cons, List.length_nil] at *
    split <;> omega
  | .more argument _ tail => by
    have value := argument.surplus_le
    have others := tail.surplus_le
    obtain ⟨t, v, rfl, -⟩ := argument.head rfl
    rw [limits_append, limits_limitFault count (by simp)]
    simp only [Symbol.surplus, Expr.surplusAll, List.length_cons, limits_append] at *
    split <;> omega

end

theorem Derives.expression_surplus_le {u : List Token} {e : Expr} {told : List SyntaxFault}
    (h : Derives .expression u e told) : e.surplus ≤ limits told := by
  simpa [Symbol.surplus] using h.surplus_le

theorem Declared.surplus_le {u : List Token} {s : Stmt} {told : List SyntaxFault}
    (h : Declared u s told) : s.surplus ≤ limits told := by
  cases h with
  | bare _ _ => exact Nat.le_refl _
  | valued _ _ value _ => exact value.expression_surplus_le

theorem Initializer.surplus_le {u : List Token} {start : Option Stmt} {told : List SyntaxFault}
    (h : Initializer u start told) : (start.elim 0 Stmt.surplus) ≤ limits told := by
  cases h with
  | empty _ => exact Nat.le_refl _
  | declared _ tail => exact tail.surplus_le
  | expression value _ => exact value.expression_surplus_le

theorem Clause.surplus_le {u : List Token} {value : Option Expr} {told : List SyntaxFault}
    (h : Clause u value told) : (value.elim 0 Expr.surplus) ≤ limits told := by
  cases h with
  | empty => exact Nat.le_refl _
  | given value => exact value.expression_surplus_le

theorem Header.surplus_le {word : Kind} {u : List Token} {e : Expr} {told : List SyntaxFault}
    (h : Header word u e told) : e.surplus ≤ limits told := by
  cases h with
  | mk _ _ condition _ => exact condition.expression_surplus_le

/-- Spelling a counting loop out repeats none of its parts. -/
theorem surplus_spelledOut (start : Option Stmt) (condition increment : Option Expr) (s : Stmt) :
    (spelledOut start condition increment s).surplus =
      start.elim 0 Stmt.surplus + (condition.elim 0 Expr.surplus +
        (increment.elim 0 Expr.surplus + s.surplus)) := by
  cases start <;> cases condition <;> cases increment <;>
    simp [spelledOut, Stmt.surplus, Stmt.surplusAll, Expr.surplus] <;> omega

theorem Clauses.surplus_le {u : List Token} {start : Option Stmt}
    {condition increment : Option Expr} {told : List SyntaxFault}
    (h : Clauses u start condition increment told) :
    start.elim 0 Stmt.surplus + (condition.elim 0 Expr.surplus + increment.elim 0 Expr.surplus) ≤
      limits told := by
  cases h with
  | mk _ _ initializer test _ step _ =>
    have first := initializer.surplus_le
    have second := test.surplus_le
    have third := step.surplus_le
    simp only [limits_append]
    omega

mutual

theorem Statement.surplus_le {dangles : Bool} {u : List Token} {s : Stmt}
    {told : List SyntaxFault} : Statement dangles u s told → s.surplus ≤ limits told
  | .expression value _ => value.expression_surplus_le
  | .print _ value _ => value.expression_surplus_le
  | .loop header body => by
    have first := header.surplus_le
    have second := body.surplus_le
    simp only [Stmt.surplus, limits_append]
    omega
  | .counting clauses body => by
    have first := clauses.surplus_le
    have second := body.surplus_le
    rw [surplus_spelledOut, limits_append]
    omega
  | .branch header consequent => by
    have first := header.surplus_le
    have second := consequent.surplus_le
    simp only [Stmt.surplus, limits_append]
    omega
  | .branchElse header consequent _ alternative => by
    have first := header.surplus_le
    have second := consequent.surplus_le
    have third := alternative.surplus_le
    simp only [Stmt.surplus, limits_append]
    omega
  | .block _ inside _ => inside.surplus_le

theorem Declaration.surplus_le {dangles : Bool} {u : List Token} {s : Stmt}
    {told : List SyntaxFault} : Declaration dangles u s told → s.surplus ≤ limits told
  | .declare _ tail => tail.surplus_le
  | .statement inner => inner.surplus_le

/-- Every surplus argument of the statements is told, with or without gaps between them. -/
theorem Declarations.surplus_le {u : List Token} {inner : List Stmt} {told : List SyntaxFault} :
    Declarations u inner told → Stmt.surplusAll inner ≤ limits told
  | .nil => Nat.le_refl _
  | .cons first rest => by
    have head := first.surplus_le
    have tail := rest.surplus_le
    simp only [Stmt.surplusAll, limits_append]
    omega
  | .gap _ rest => by
    have tail := rest.surplus_le
    rw [limits_append]
    omega

end

end Grammar

end Bhasha
