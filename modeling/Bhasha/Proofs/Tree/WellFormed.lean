import Bhasha.Proofs.Grammar.Kinds
import Bhasha.Proofs.Tree.Yield

/-!
# Well-formed trees

The trees that can be written back without parentheses of their own.  Every expression has a rank,
from assignments up to the primary expressions, and an operand is never ranked below its place: the
left operand of a binary operator has the rank of the operator at least, the right one more than
that.  A declaration stands only directly in a program or a block, and no branch with an alternative
has a consequent that ends in an open branch.

Every derivation gives well-formed trees, also one with faults and gaps.  The tokens that are kept
in a tree are among those of the derivation, so what holds of all tokens holds of those in the tree.
-/

namespace Bhasha

open Parse Grammar

namespace Parse.Level

/-- The place of a level among the ranks of expressions. -/
def rank : Level → Nat
  | .or => 1
  | .and => 2
  | .equality => 3
  | .comparison => 4
  | .term => 5
  | .factor => 6

/-- The level of an operator. -/
def of? : Kind → Option Level
  | .or => some .or
  | .and => some .and
  | .bangEqual | .equalEqual => some .equality
  | .greater | .greaterEqual | .less | .lessEqual => some .comparison
  | .minus | .plus => some .term
  | .slash | .star => some .factor
  | _ => none

theorem of?_of_owns {level : Level} {kind : Kind} (owned : level.owns kind = true) :
    of? kind = some level := by
  unfold owns at owned
  split at owned
  all_goals first | rfl | cases owned

/-- The levels whose operators are short-circuiting. -/
def isLogical : Level → Bool
  | .or | .and => true
  | _ => false

end Parse.Level

/-- A literal that a program can hold: a constant, or the value of a number or string token. -/
def Literal.Sourced (P : Token → Prop) (value : Literal) : Prop :=
  value = .nothing ∨ (∃ b, value = .truth b) ∨
    ∃ t, P t ∧ (t.kind = .number ∨ t.kind = .string) ∧ value = t.literal

namespace Expr

/-- How tightly an expression holds together. -/
def rank : Expr → Nat
  | .assign _ _ => 0
  | .logical _ operator _ | .binary _ operator _ =>
    ((Level.of? operator.kind).map Level.rank).getD 0
  | .unary _ _ => 7
  | .call _ _ _ | .bareCall _ _ => 8
  | .literal _ | .identifier _ | .grouping _ => 9

/-- The two operands of an operator of a level stand at their places. -/
def Fits (P : Token → Prop) (level : Level) (left : Expr) (operator : Token) (right : Expr) :
    Prop :=
  level.owns operator.kind = true ∧ P operator ∧ level.rank ≤ left.rank ∧ level.rank < right.rank

mutual

/-- The well-formed expressions whose tokens satisfy `P`. -/
def WellFormed (P : Token → Prop) : Expr → Prop
  | .literal value => value.Sourced P
  | .identifier name => name.kind = .identifier ∧ P name
  | .assign name value => name.kind = .identifier ∧ P name ∧ value.WellFormed P
  | .logical left operator right =>
    (∃ level, level.isLogical = true ∧ Fits P level left operator right) ∧
      left.WellFormed P ∧ right.WellFormed P
  | .binary left operator right =>
    (∃ level, level.isLogical = false ∧ Fits P level left operator right) ∧
      left.WellFormed P ∧ right.WellFormed P
  | .unary operator right =>
    isUnaryOperator operator.kind = true ∧ P operator ∧ 7 ≤ right.rank ∧ right.WellFormed P
  | .call callee paren given =>
    paren.kind = .rightParen ∧ P paren ∧ 8 ≤ callee.rank ∧ callee.WellFormed P ∧
      AllWellFormed P given
  | .bareCall _ _ => False
  | .grouping inner => inner.WellFormed P

def AllWellFormed (P : Token → Prop) : List Expr → Prop
  | [] => True
  | first :: rest => first.WellFormed P ∧ AllWellFormed P rest

end

end Expr

namespace Stmt

/-- A statement that ends in an open branch, seen through loops and alternatives. -/
def dangles : Stmt → Bool
  | .branch _ _ none => true
  | .branch _ _ (some alternative) => alternative.dangles
  | .loop _ body => body.dangles
  | _ => false

def isDeclaration : Stmt → Bool
  | .declare _ _ => true
  | _ => false

mutual

/-- The well-formed statements whose tokens satisfy `P`. -/
def WellFormed (P : Token → Prop) : Stmt → Prop
  | .expression value => value.WellFormed P
  | .print value => value.WellFormed P
  | .declare name none => name.kind = .identifier ∧ P name
  | .declare name (some value) => name.kind = .identifier ∧ P name ∧ value.WellFormed P
  | .block inner => AllWellFormed P inner
  | .bareBlock => False
  | .branch condition consequent none =>
    condition.WellFormed P ∧ consequent.WellFormed P ∧ consequent.isDeclaration = false
  | .branch condition consequent (some alternative) =>
    condition.WellFormed P ∧ consequent.WellFormed P ∧ consequent.isDeclaration = false ∧
      consequent.dangles = false ∧ alternative.WellFormed P ∧ alternative.isDeclaration = false
  | .loop condition body =>
    condition.WellFormed P ∧ body.WellFormed P ∧ body.isDeclaration = false

def AllWellFormed (P : Token → Prop) : List Stmt → Prop
  | [] => True
  | first :: rest => first.WellFormed P ∧ AllWellFormed P rest

end

end Stmt

namespace Grammar

variable {P : Token → Prop}

/-- The least rank of what a nonterminal derives. -/
def Symbol.rank : Symbol → Nat
  | .expression => 0
  | .binary level | .climb level _ => level.rank
  | .unary => 7
  | .calls _ => 8
  | .primary => 9

@[simp] theorem operandOf_rank (level : Level) : (operandOf level).rank = level.rank + 1 := by
  cases level <;> rfl

/-- What a nonterminal asks of the expression that it continues. -/
def Symbol.StartsWell (P : Token → Prop) : Symbol → Prop
  | .climb level left => left.WellFormed P ∧ level.rank ≤ left.rank
  | .calls callee => callee.WellFormed P ∧ 8 ≤ callee.rank
  | _ => True

theorem operandOf_startsWell (level : Level) : (operandOf level).StartsWell P := by
  cases level <;> trivial

theorem wellFormed_node {level : Level} {left right : Expr} {operator : Token}
    (fits : Expr.Fits P level left operator right) (first : left.WellFormed P)
    (second : right.WellFormed P) :
    (node level left operator right).WellFormed P ∧
      (node level left operator right).rank = level.rank := by
  have rank : ((Level.of? operator.kind).map Level.rank).getD 0 = level.rank := by
    rw [Level.of?_of_owns fits.1]
    rfl
  cases level <;> exact ⟨⟨⟨_, rfl, fits⟩, first, second⟩, rank⟩

theorem sourced_of_literalOf? {t : Token} {value : Literal} (constant : literalOf? t = some value)
    (holds : P t) : value.Sourced P := by
  unfold literalOf? at constant
  split at constant
  · cases constant
    exact .inr (.inl ⟨false, rfl⟩)
  · cases constant
    exact .inr (.inl ⟨true, rfl⟩)
  · cases constant
    exact .inl rfl
  · rename_i kind
    cases constant
    exact .inr (.inr ⟨t, holds, .inl kind, rfl⟩)
  · rename_i kind
    cases constant
    exact .inr (.inr ⟨t, holds, .inr kind, rfl⟩)
  · cases constant

mutual

/-- The tree of a derivation is well formed, and ranked as its nonterminal asks. -/
theorem Derives.wellFormed {symbol : Symbol} {u : List Token} {e : Expr}
    {told : List SyntaxFault} :
    Derives symbol u e told → (∀ t ∈ u, P t) → symbol.StartsWell P →
      e.WellFormed P ∧ symbol.rank ≤ e.rank
  | .loosest inner, all, _ => ⟨(inner.wellFormed all trivial).1, Nat.zero_le _⟩
  | .assign target _ right, all, _ => by
    simp only [List.forall_mem_append, List.forall_mem_cons] at all
    have name := (target.wellFormed all.1 trivial).1
    exact ⟨⟨name.1, name.2, (right.wellFormed all.2.2 trivial).1⟩, Nat.zero_le _⟩
  | .misassign target _ _ _, all, _ =>
    ⟨(target.wellFormed (fun t member => all t (List.mem_append_left _ member)) trivial).1,
      Nat.zero_le _⟩
  | .chain first others, all, _ => by
    rw [List.forall_mem_append] at all
    have left := first.wellFormed all.1 (operandOf_startsWell _)
    rw [operandOf_rank] at left
    exact others.wellFormed all.2 ⟨left.1, Nat.le_of_succ_le left.2⟩
  | .climbed, _, start => start
  | .climb owned operand others, all, start => by
    simp only [List.forall_mem_append, List.forall_mem_cons] at all
    have right := operand.wellFormed all.2.1 (operandOf_startsWell _)
    rw [operandOf_rank] at right
    have joined := wellFormed_node ⟨mem_operators_iff.mp owned, all.1, start.2, right.2⟩
      start.1 right.1
    exact others.wellFormed all.2.2 ⟨joined.1, Nat.le_of_eq joined.2.symm⟩
  | .unary sign operand, all, _ => by
    rw [List.forall_mem_cons] at all
    have right := operand.wellFormed all.2 trivial
    exact ⟨⟨mem_signs_iff.mp sign, all.1, right.2, right.1⟩, Nat.le_refl _⟩
  | .call first others, all, _ => by
    rw [List.forall_mem_append] at all
    have callee := first.wellFormed all.1 trivial
    have whole := others.wellFormed all.2 ⟨callee.1, Nat.le_of_succ_le callee.2⟩
    exact ⟨whole.1, Nat.le_of_succ_le whole.2⟩
  | .called, _, start => start
  | .callEmpty _ right others, all, start => by
    simp only [List.forall_mem_cons] at all
    exact others.wellFormed all.2.2 ⟨⟨right, all.2.1, start.2, start.1, trivial⟩, Nat.le_refl _⟩
  | .callGiven _ inside right others, all, start => by
    simp only [List.forall_mem_append, List.forall_mem_cons] at all
    have given := inside.wellFormed all.2.1
    exact others.wellFormed all.2.2.2
      ⟨⟨right, all.2.2.1, start.2, start.1, given⟩, Nat.le_refl _⟩
  | .literal constant, all, _ =>
    ⟨sourced_of_literalOf? constant (all _ (.head _)), Nat.le_refl _⟩
  | .identifier name, all, _ => ⟨⟨name, all _ (.head _)⟩, Nat.le_refl _⟩
  | .grouping _ inner _, all, _ => by
    simp only [List.forall_mem_append, List.forall_mem_cons] at all
    exact ⟨(inner.wellFormed all.2.1 trivial).1, Nat.le_refl _⟩

theorem ArgumentList.wellFormed {count : Nat} {u : List Token} {given : List Expr}
    {told : List SyntaxFault} :
    ArgumentList count u given told → (∀ t ∈ u, P t) → Expr.AllWellFormed P given
  | .last argument, all => ⟨(argument.wellFormed all trivial).1, trivial⟩
  | .more argument _ tail, all => by
    simp only [List.forall_mem_append, List.forall_mem_cons] at all
    exact ⟨(argument.wellFormed all.1 trivial).1, tail.wellFormed all.2.2⟩

end

theorem Declared.wellFormed {u : List Token} {s : Stmt} {told : List SyntaxFault}
    (h : Declared u s told) (all : ∀ t ∈ u, P t) : s.WellFormed P := by
  cases h with
  | bare named stop => exact ⟨named, all _ (.head _)⟩
  | valued named sign value stop =>
    simp only [List.forall_mem_append, List.forall_mem_cons] at all
    exact ⟨named, all.1, (value.wellFormed all.2.2.1 trivial).1⟩

theorem Initializer.wellFormed {u : List Token} {start : Option Stmt} {told : List SyntaxFault}
    (h : Initializer u start told) (all : ∀ t ∈ u, P t) : ∀ s ∈ start, s.WellFormed P := by
  cases h with
  | empty stop => simp
  | declared first tail =>
    rintro s ⟨rfl⟩
    exact tail.wellFormed fun t member => all t (.tail _ member)
  | expression value stop =>
    rintro s ⟨rfl⟩
    exact (value.wellFormed (fun t member => all t (List.mem_append_left _ member)) trivial).1

theorem Clause.wellFormed {u : List Token} {value : Option Expr} {told : List SyntaxFault}
    (h : Clause u value told) (all : ∀ t ∈ u, P t) : ∀ e ∈ value, e.WellFormed P := by
  cases h with
  | empty => simp
  | given value =>
    rintro e ⟨rfl⟩
    exact (value.wellFormed all trivial).1

theorem Header.wellFormed {word : Kind} {u : List Token} {e : Expr} {told : List SyntaxFault}
    (h : Header word u e told) (all : ∀ t ∈ u, P t) : e.WellFormed P := by
  cases h with
  | mk start left condition right =>
    simp only [List.forall_mem_append, List.forall_mem_cons] at all
    exact (condition.wellFormed all.2.2.1 trivial).1

theorem Clauses.wellFormed {u : List Token} {start : Option Stmt}
    {condition increment : Option Expr} {told : List SyntaxFault}
    (h : Clauses u start condition increment told)
    (all : ∀ t ∈ u, P t) :
    (∀ s ∈ start, s.WellFormed P) ∧ (∀ e ∈ condition, e.WellFormed P) ∧
      ∀ e ∈ increment, e.WellFormed P := by
  cases h with
  | mk word left initializer test stop step right =>
    simp only [List.forall_mem_append, List.forall_mem_cons] at all
    exact ⟨initializer.wellFormed all.2.2.1, test.wellFormed all.2.2.2.1,
      step.wellFormed all.2.2.2.2.2.1⟩

/-- A counting loop spelled out is well formed and never a declaration; it ends open only where its
body does. -/
theorem wellFormed_spelledOut {start : Option Stmt} {condition increment : Option Expr}
    {body : Stmt} (first : ∀ s ∈ start, s.WellFormed P) (test : ∀ e ∈ condition, e.WellFormed P)
    (step : ∀ e ∈ increment, e.WellFormed P) (inner : body.WellFormed P)
    (proper : body.isDeclaration = false) :
    (spelledOut start condition increment body).WellFormed P ∧
      (spelledOut start condition increment body).isDeclaration = false ∧
      ((spelledOut start condition increment body).dangles = true → body.dangles = true) := by
  have tested : (condition.getD (.literal (.truth true))).WellFormed P := by
    cases condition with
    | none => exact .inr (.inl ⟨true, rfl⟩)
    | some e => exact test e rfl
  cases increment with
  | none =>
    cases start with
    | none => exact ⟨⟨tested, inner, proper⟩, rfl, id⟩
    | some s => exact ⟨⟨first s rfl, ⟨tested, inner, proper⟩, trivial⟩, rfl, nofun⟩
  | some e =>
    have round : (Stmt.block [body, .expression e]).WellFormed P := ⟨inner, step e rfl, trivial⟩
    cases start with
    | none => exact ⟨⟨tested, round, rfl⟩, rfl, nofun⟩
    | some s => exact ⟨⟨first s rfl, ⟨tested, round, rfl⟩, trivial⟩, rfl, nofun⟩

mutual

/-- A derived statement is well formed, and ends open only where its derivation says so. -/
theorem Statement.wellFormed {dangles : Bool} {u : List Token} {s : Stmt}
    {told : List SyntaxFault} :
    Statement dangles u s told → (∀ t ∈ u, P t) →
      s.WellFormed P ∧ s.isDeclaration = false ∧ (s.dangles = true → dangles = true)
  | .expression value _, all =>
    ⟨(value.wellFormed (fun t member => all t (List.mem_append_left _ member)) trivial).1, rfl,
      nofun⟩
  | .print _ value _, all => by
    simp only [List.forall_mem_append, List.forall_mem_cons] at all
    exact ⟨(value.wellFormed all.2.1 trivial).1, rfl, nofun⟩
  | .loop header body, all => by
    rw [List.forall_mem_append] at all
    have inner := body.wellFormed all.2
    exact ⟨⟨header.wellFormed all.1, inner.1, inner.2.1⟩, rfl, inner.2.2⟩
  | .counting clauses body, all => by
    rw [List.forall_mem_append] at all
    have inner := body.wellFormed all.2
    obtain ⟨first, test, step⟩ := clauses.wellFormed all.1
    have loop := wellFormed_spelledOut first test step inner.1 inner.2.1
    exact ⟨loop.1, loop.2.1, fun dangling => inner.2.2 (loop.2.2 dangling)⟩
  | .branch header consequent, all => by
    rw [List.forall_mem_append] at all
    have inner := consequent.wellFormed all.2
    exact ⟨⟨header.wellFormed all.1, inner.1, inner.2.1⟩, rfl, fun _ => rfl⟩
  | .branchElse header consequent _ alternative, all => by
    simp only [List.forall_mem_append, List.forall_mem_cons] at all
    have inner := consequent.wellFormed all.2.1
    have other := alternative.wellFormed all.2.2.2
    have shut := Bool.eq_false_iff.mpr fun dangling => Bool.noConfusion (inner.2.2 dangling)
    exact ⟨⟨header.wellFormed all.1, inner.1, inner.2.1, shut, other.1, other.2.1⟩, rfl,
      other.2.2⟩
  | .block _ inside _, all => by
    simp only [List.forall_mem_append, List.forall_mem_cons] at all
    exact ⟨inside.wellFormed all.2.1, rfl, nofun⟩

theorem Declaration.wellFormed {dangles : Bool} {u : List Token} {s : Stmt}
    {told : List SyntaxFault} :
    Declaration dangles u s told → (∀ t ∈ u, P t) → s.WellFormed P
  | .declare _ tail, all => tail.wellFormed fun t member => all t (.tail _ member)
  | .statement inner, all => (inner.wellFormed all).1

theorem Declarations.wellFormed {u : List Token} {inner : List Stmt} {told : List SyntaxFault} :
    Declarations u inner told → (∀ t ∈ u, P t) → Stmt.AllWellFormed P inner
  | .nil, _ => trivial
  | .cons first rest, all => by
    rw [List.forall_mem_append] at all
    exact ⟨first.wellFormed all.1, rest.wellFormed all.2⟩
  | .gap _ rest, all => rest.wellFormed fun t member => all t (List.mem_append_right _ member)

end

end Grammar

end Bhasha
