import Bhasha.Parse.Program

/-!
# Derivations of expressions

The grammar of expressions as a relation between the tokens of a sentence, the tree it stands for
and the faults that are told of it.  The grammar is the lenient one: any expression of the loosest
binary level may stand before an equals sign, and a call may have any number of arguments.  What is
wrong with such a sentence is told, so the sentences of the strict grammar are those of which
nothing is told.

A binary level is an operand followed by operators with their right operands, and the operators are
joined from the left; `Symbol.climb` is what may follow the operand `left`.  In the same way
`Symbol.calls` is what may follow a callee.

The levels with their operators, operands and nodes, the unary operators and the limit of arguments
are written down here once more and not taken from the parser, so the grammar says on its own what
the parser has to do.
-/

namespace Bhasha.Grammar

open Parse

/-- The nonterminals that stand for one expression. -/
inductive Symbol where
  | expression
  | binary (level : Level)
  | climb (level : Level) (left : Expr)
  | unary
  | calls (callee : Expr)
  | primary

/-- The operands of a level are the next tighter level, those of the tightest level are unary. -/
def operandOf : Level → Symbol
  | .or => .binary .and
  | .and => .binary .equality
  | .equality => .binary .comparison
  | .comparison => .binary .term
  | .term => .binary .factor
  | .factor => .unary

/-- The operators of a level. -/
def operators : Level → List Kind
  | .or => [.or]
  | .and => [.and]
  | .equality => [.bangEqual, .equalEqual]
  | .comparison => [.greater, .greaterEqual, .less, .lessEqual]
  | .term => [.minus, .plus]
  | .factor => [.slash, .star]

/-- The unary operators. -/
def signs : List Kind := [.bang, .minus]

/-- The tree of two operands and the operator of a level between them. -/
def node (level : Level) (left : Expr) (operator : Token) (right : Expr) : Expr :=
  match level with
  | .or => .logical left operator right
  | .and => .logical left operator right
  | .equality => .binary left operator right
  | .comparison => .binary left operator right
  | .term => .binary left operator right
  | .factor => .binary left operator right

/-- The value of a token that is a literal by itself. -/
def literalOf? (t : Token) : Option Literal :=
  match t.kind with
  | .false_ => some (.truth false)
  | .true_ => some (.truth true)
  | .nil => some .nothing
  | .number | .string => some t.literal
  | _ => none

/-- The largest number of arguments of a call of which nothing is told. -/
def argumentLimit : Nat := 255

/-- What is told of an argument that follows `count` others: its first token is blamed when it
exceeds the limit. -/
def limitFault (count : Nat) (argument : List Token) : List SyntaxFault :=
  if argumentLimit ≤ count then (argument.take 1).map (⟨·, .tooManyArguments⟩) else []

mutual

/-- The sentences of a nonterminal with their trees and faults. -/
inductive Derives : Symbol → List Token → Expr → List SyntaxFault → Prop
  | loosest {u : List Token} {e : Expr} {told : List SyntaxFault}
      (inner : Derives (.binary .or) u e told) : Derives .expression u e told
  | assign {u v : List Token} {name equal : Token} {value : Expr} {told more : List SyntaxFault}
      (target : Derives (.binary .or) u (.identifier name) told) (sign : equal.kind = .equal)
      (right : Derives .expression v value more) :
      Derives .expression (u ++ equal :: v) (.assign name value) (told ++ more)
  | misassign {u v : List Token} {equal : Token} {left value : Expr} {told more : List SyntaxFault}
      (target : Derives (.binary .or) u left told) (invalid : ∀ name, left ≠ .identifier name)
      (sign : equal.kind = .equal) (right : Derives .expression v value more) :
      Derives .expression (u ++ equal :: v) left (told ++ (more ++ [⟨equal, .invalidTarget⟩]))
  | chain {level : Level} {u v : List Token} {left e : Expr} {told more : List SyntaxFault}
      (first : Derives (operandOf level) u left told)
      (others : Derives (.climb level left) v e more) :
      Derives (.binary level) (u ++ v) e (told ++ more)
  | climbed {level : Level} {left : Expr} : Derives (.climb level left) [] left []
  | climb {level : Level} {operator : Token} {u v : List Token} {left right e : Expr}
      {told more : List SyntaxFault} (owned : operator.kind ∈ operators level)
      (operand : Derives (operandOf level) u right told)
      (others : Derives (.climb level (node level left operator right)) v e more) :
      Derives (.climb level left) (operator :: (u ++ v)) e (told ++ more)
  | unary {operator : Token} {u : List Token} {right : Expr} {told : List SyntaxFault}
      (sign : operator.kind ∈ signs) (operand : Derives .unary u right told) :
      Derives .unary (operator :: u) (.unary operator right) told
  | call {u v : List Token} {callee e : Expr} {told more : List SyntaxFault}
      (first : Derives .primary u callee told) (others : Derives (.calls callee) v e more) :
      Derives .unary (u ++ v) e (told ++ more)
  | called {callee : Expr} : Derives (.calls callee) [] callee []
  | callEmpty {opening paren : Token} {v : List Token} {callee e : Expr} {more : List SyntaxFault}
      (left : opening.kind = .leftParen) (right : paren.kind = .rightParen)
      (others : Derives (.calls (.call callee paren [])) v e more) :
      Derives (.calls callee) (opening :: paren :: v) e more
  | callGiven {opening paren : Token} {u v : List Token} {given : List Expr} {callee e : Expr}
      {told more : List SyntaxFault}
      (left : opening.kind = .leftParen) (inside : ArgumentList 0 u given told)
      (right : paren.kind = .rightParen)
      (others : Derives (.calls (.call callee paren given)) v e more) :
      Derives (.calls callee) (opening :: (u ++ paren :: v)) e (told ++ more)
  | literal {t : Token} {value : Literal} (constant : literalOf? t = some value) :
      Derives .primary [t] (.literal value) []
  | identifier {t : Token} (name : t.kind = .identifier) : Derives .primary [t] (.identifier t) []
  | grouping {opening closing : Token} {u : List Token} {e : Expr} {told : List SyntaxFault}
      (left : opening.kind = .leftParen) (inner : Derives .expression u e told)
      (right : closing.kind = .rightParen) :
      Derives .primary (opening :: (u ++ [closing])) (.grouping e) told

/-- One or more arguments between commas, after `count` others. -/
inductive ArgumentList : Nat → List Token → List Expr → List SyntaxFault → Prop
  | last {count : Nat} {u : List Token} {e : Expr} {told : List SyntaxFault}
      (argument : Derives .expression u e told) :
      ArgumentList count u [e] (limitFault count u ++ told)
  | more {count : Nat} {comma : Token} {u v : List Token} {e : Expr} {others : List Expr}
      {told rest : List SyntaxFault}
      (argument : Derives .expression u e told) (sign : comma.kind = .comma)
      (tail : ArgumentList (count + 1) v others rest) :
      ArgumentList count (u ++ comma :: v) (e :: others) (limitFault count u ++ (told ++ rest))

end

/-! What the tables of the grammar say, the parser knows as well. -/

theorem mem_operators_iff {level : Level} {kind : Kind} :
    kind ∈ operators level ↔ level.owns kind = true := by
  constructor
  · intro member
    cases level
    all_goals
      simp only [operators, List.mem_cons, List.not_mem_nil, or_false] at member
      rcases member with rfl | rfl | rfl | rfl
    all_goals rfl
  · intro owned
    unfold Level.owns at owned
    split at owned
    all_goals simp_all [operators]

theorem mem_signs_iff {kind : Kind} : kind ∈ signs ↔ isUnaryOperator kind = true := by
  simp [signs, isUnaryOperator]

theorem node_eq_join (level : Level) (left right : Expr) (operator : Token) :
    node level left operator right = level.join left operator right := by
  cases level <;> rfl

theorem limitFault_eq (count : Nat) (argument : List Token) :
    limitFault count argument =
      if maxArguments ≤ count then (argument.take 1).map (⟨·, .tooManyArguments⟩) else [] := rfl

/-- The nonterminals that continue a phrase; these may derive nothing at all. -/
def Symbol.isTail : Symbol → Bool
  | .climb _ _ | .calls _ => true
  | _ => false

@[simp] theorem operandOf_isTail (level : Level) : (operandOf level).isTail = false := by
  cases level <;> rfl

/-- The kinds with which an expression can begin. -/
def beginsExpression (kind : Kind) : Bool := isUnaryOperator kind || beginsPrimary kind

theorem beginsPrimary_of_literal {t : Token} {value : Literal} (h : literalOf? t = some value) :
    beginsPrimary t.kind = true := by
  unfold literalOf? at h
  split at h
  all_goals simp_all [beginsPrimary]

/-- A token that begins a primary expression is a literal, a name or an opening parenthesis. -/
theorem beginsPrimary_cases {t : Token} (h : beginsPrimary t.kind = true) :
    (∃ value, literalOf? t = some value) ∨ t.kind = .identifier ∨ t.kind = .leftParen := by
  unfold beginsPrimary at h
  split at h
  all_goals simp_all [literalOf?]

/-- A primary expression begins with a token of its own set. -/
theorem Derives.primary_head {u : List Token} {e : Expr} {told : List SyntaxFault}
    (h : Derives .primary u e told) : ∃ t v, u = t :: v ∧ beginsPrimary t.kind = true := by
  cases h with
  | literal constant => exact ⟨_, _, rfl, beginsPrimary_of_literal constant⟩
  | identifier name => exact ⟨_, _, rfl, by simp [name, beginsPrimary]⟩
  | grouping left inner right => exact ⟨_, _, rfl, by simp [left, beginsPrimary]⟩

/-- Every phrase has a first token, and that token can begin an expression. -/
theorem Derives.head {symbol : Symbol} {u : List Token} {e : Expr} {told : List SyntaxFault} :
    Derives symbol u e told → symbol.isTail = false →
      ∃ t v, u = t :: v ∧ beginsExpression t.kind = true
  | .loosest inner, _ => inner.head rfl
  | .assign target _ _, _ => by
    obtain ⟨t, v, rfl, begins⟩ := target.head rfl
    exact ⟨t, _, rfl, begins⟩
  | .misassign target _ _ _, _ => by
    obtain ⟨t, v, rfl, begins⟩ := target.head rfl
    exact ⟨t, _, rfl, begins⟩
  | .chain first _, _ => by
    obtain ⟨t, v, rfl, begins⟩ := first.head (operandOf_isTail _)
    exact ⟨t, _, rfl, begins⟩
  | .climbed, tail => by cases tail
  | .climb _ _ _, tail => by cases tail
  | .called, tail => by cases tail
  | .callEmpty _ _ _, tail => by cases tail
  | .callGiven _ _ _ _, tail => by cases tail
  | .unary sign _, _ => ⟨_, _, rfl, by simp [beginsExpression, mem_signs_iff.mp sign]⟩
  | .call first _, _ => by
    obtain ⟨t, v, rfl, begins⟩ := first.primary_head
    exact ⟨t, _, rfl, by simp [beginsExpression, begins]⟩
  | .literal constant, _ =>
    ⟨_, _, rfl, by simp [beginsExpression, beginsPrimary_of_literal constant]⟩
  | .identifier name, _ => ⟨_, _, rfl, by simp [beginsExpression, name, beginsPrimary]⟩
  | .grouping left _ _, _ => ⟨_, _, rfl, by simp [beginsExpression, left, beginsPrimary]⟩

theorem ArgumentList.head {count : Nat} {u : List Token} {given : List Expr}
    {told : List SyntaxFault} (h : ArgumentList count u given told) :
    ∃ t v, u = t :: v ∧ beginsExpression t.kind = true := by
  cases h with
  | last argument => exact argument.head rfl
  | more argument sign tail =>
    obtain ⟨t, v, rfl, begins⟩ := argument.head rfl
    exact ⟨t, _, rfl, begins⟩

end Bhasha.Grammar
