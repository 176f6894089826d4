import Bhasha.Proofs.Grammar.Expression

/-!
# Derivations of statements

The grammar of statements as a relation between tokens, tree and faults, with every counting loop
spelled out in the tree.  A statement dangles when it ends in a branch without alternative, seen
through the bodies of loops and through alternatives: an `else` after it would belong to that
branch.  A branch with an alternative therefore asks for a consequent that does not dangle, and this
is what binds every `else` to the nearest branch that is still open.

A list of declarations may have gaps, stretches of tokens that stand for no statement.  Each gap
comes with a fatal fault, so a list of which no fatal fault is told has no gaps.
-/

namespace Bhasha.Grammar

open Parse

/-- A declaration after its first word. -/
inductive Declared : List Token → Stmt → List SyntaxFault → Prop
  | bare {name semicolon : Token} (named : name.kind = .identifier)
      (stop : semicolon.kind = .semicolon) : Declared [name, semicolon] (.declare name none) []
  | valued {name equal semicolon : Token} {u : List Token} {e : Expr} {told : List SyntaxFault}
      (named : name.kind = .identifier) (sign : equal.kind = .equal)
      (value : Derives .expression u e told) (stop : semicolon.kind = .semicolon) :
      Declared (name :: equal :: (u ++ [semicolon])) (.declare name (some e)) told

/-- The first clause of a counting loop with its semicolon. -/
inductive Initializer : List Token → Option Stmt → List SyntaxFault → Prop
  | empty {semicolon : Token} (stop : semicolon.kind = .semicolon) :
      Initializer [semicolon] none []
  | declared {word : Token} {u : List Token} {s : Stmt} {told : List SyntaxFault}
      (first : word.kind = .var) (tail : Declared u s told) : Initializer (word :: u) (some s) told
  | expression {semicolon : Token} {u : List Token} {e : Expr} {told : List SyntaxFault}
      (value : Derives .expression u e told) (stop : semicolon.kind = .semicolon) :
      Initializer (u ++ [semicolon]) (some (.expression e)) told

/-- A clause that may be left out. -/
inductive Clause : List Token → Option Expr → List SyntaxFault → Prop
  | empty : Clause [] none []
  | given {u : List Token} {e : Expr} {told : List SyntaxFault}
      (value : Derives .expression u e told) : Clause u (some e) told

/-- A word, and a condition between parentheses. -/
inductive Header (word : Kind) : List Token → Expr → List SyntaxFault → Prop
  | mk {first opening closing : Token} {u : List Token} {e : Expr} {told : List SyntaxFault}
      (start : first.kind = word) (left : opening.kind = .leftParen)
      (condition : Derives .expression u e told) (right : closing.kind = .rightParen) :
      Header word (first :: opening :: (u ++ [closing])) e told

/-- A counting loop up to its body. -/
inductive Clauses : List Token → Option Stmt → Option Expr → Option Expr → List SyntaxFault → Prop
  | mk {first opening semicolon closing : Token} {u v w : List Token} {start : Option Stmt}
      {condition increment : Option Expr} {told more most : List SyntaxFault}
      (word : first.kind = .for_) (left : opening.kind = .leftParen)
      (initializer : Initializer u start told) (test : Clause v condition more)
      (stop : semicolon.kind = .semicolon) (step : Clause w increment most)
      (right : closing.kind = .rightParen) :
      Clauses (first :: opening :: (u ++ (v ++ semicolon :: (w ++ [closing])))) start condition
        increment (told ++ (more ++ most))

/-- A counting loop in terms of the other statements.  The increment ends every round, and the
initializer comes before the first one; a loop without a condition has the condition `true`. -/
def spelledOut (start : Option Stmt) (condition increment : Option Expr) (body : Stmt) : Stmt :=
  let test := condition.getD (.literal (.truth true))
  match start, increment with
  | none, none => .loop test body
  | none, some step => .loop test (.block [body, .expression step])
  | some first, none => .block [first, .loop test body]
  | some first, some step => .block [first, .loop test (.block [body, .expression step])]

/-- The parser puts the same statement together clause by clause. -/
theorem spelledOut_eq (start : Option Stmt) (condition increment : Option Expr) (body : Stmt) :
    spelledOut start condition increment body = countingLoop start condition increment body := by
  cases start <;> cases increment <;> rfl

mutual

/-- The statements; the truth value says whether the statement dangles. -/
inductive Statement : Bool → List Token → Stmt → List SyntaxFault → Prop
  | expression {semicolon : Token} {u : List Token} {e : Expr} {told : List SyntaxFault}
      (value : Derives .expression u e told) (stop : semicolon.kind = .semicolon) :
      Statement false (u ++ [semicolon]) (.expression e) told
  | print {first semicolon : Token} {u : List Token} {e : Expr} {told : List SyntaxFault}
      (word : first.kind = .print) (value : Derives .expression u e told)
      (stop : semicolon.kind = .semicolon) :
      Statement false (first :: (u ++ [semicolon])) (.print e) told
  | loop {dangles : Bool} {u v : List Token} {e : Expr} {s : Stmt} {told more : List SyntaxFault}
      (header : Header .while_ u e told) (body : Statement dangles v s more) :
      Statement dangles (u ++ v) (.loop e s) (told ++ more)
  | counting {dangles : Bool} {u v : List Token} {start : Option Stmt}
      {condition increment : Option Expr} {s : Stmt} {told more : List SyntaxFault}
      (clauses : Clauses u start condition increment told) (body : Statement dangles v s more) :
      Statement dangles (u ++ v) (spelledOut start condition increment s) (told ++ more)
  | branch {dangles : Bool} {u v : List Token} {e : Expr} {s : Stmt}
      {told more : List SyntaxFault}
      (header : Header .if_ u e told) (consequent : Statement dangles v s more) :
      Statement true (u ++ v) (.branch e s none) (told ++ more)
  | branchElse {dangles : Bool} {word : Token} {u v w : List Token} {e : Expr} {s a : Stmt}
      {told more most : List SyntaxFault}
      (header : Header .if_ u e told) (consequent : Statement false v s more)
      (other : word.kind = .else_) (alternative : Statement dangles w a most) :
      Statement dangles (u ++ (v ++ word :: w)) (.branch e s (some a)) (told ++ (more ++ most))
  | block {opening closing : Token} {u : List Token} {inner : List Stmt} {told : List SyntaxFault}
      (left : opening.kind = .leftBrace) (inside : Declarations u inner told)
      (right : closing.kind = .rightBrace) :
      Statement false (opening :: (u ++ [closing])) (.block inner) told

inductive Declaration : Bool → List Token → Stmt → List SyntaxFault → Prop
  | declare {first : Token} {u : List Token} {s : Stmt} {told : List SyntaxFault}
      (word : first.kind = .var) (tail : Declared u s told) : Declaration false (first :: u) s told
  | statement {dangles : Bool} {u : List Token} {s : Stmt} {told : List SyntaxFault}
      (inner : Statement dangles u s told) : Declaration dangles u s told

/-- Lists of declarations, with gaps where a fatal fault spoiled one. -/
inductive Declarations : List Token → List Stmt → List SyntaxFault → Prop
  | nil : Declarations [] [] []
  | cons {dangles : Bool} {u v : List Token} {s : Stmt} {others : List Stmt}
      {told more : List SyntaxFault} (first : Declaration dangles u s told)
      (rest : Declarations v others more) : Declarations (u ++ v) (s :: others) (told ++ more)
  | gap {u v : List Token} {others : List Stmt} {told more : List SyntaxFault}
      (fatal : ∃ f ∈ told, f.fault.isFatal = true) (rest : Declarations v others more) :
      Declarations (u ++ v) others (told ++ more)

end

/-- The kinds with which a declaration can begin. -/
def beginsDeclaration (kind : Kind) : Bool :=
  kind == .var || beginsStatement kind || beginsExpression kind

/-- A statement has a first token, which begins one of the compound forms or an expression. -/
theorem Statement.head {dangles : Bool} {u : List Token} {s : Stmt} {told : List SyntaxFault}
    (h : Statement dangles u s told) :
    ∃ t v, u = t :: v ∧ (beginsStatement t.kind || beginsExpression t.kind) = true := by
  cases h with
  | expression value stop =>
    obtain ⟨t, v, rfl, begins⟩ := value.head rfl
    exact ⟨t, _, rfl, by simp [begins]⟩
  | print word value stop => exact ⟨_, _, rfl, by simp [word, beginsStatement]⟩
  | loop header body =>
    cases header with
    | mk start left condition right => exact ⟨_, _, rfl, by simp [start, beginsStatement]⟩
  | counting clauses body =>
    cases clauses with
    | mk word left initializer test stop step right =>
      exact ⟨_, _, rfl, by simp [word, beginsStatement]⟩
  | branch header consequent =>
    cases header with
    | mk start left condition right => exact ⟨_, _, rfl, by simp [start, beginsStatement]⟩
  | branchElse header consequent other alternative =>
    cases header with
    | mk start left condition right => exact ⟨_, _, rfl, by simp [start, beginsStatement]⟩
  | block left inside right => exact ⟨_, _, rfl, by simp [left, beginsStatement]⟩

theorem Declaration.head {dangles : Bool} {u : List Token} {s : Stmt} {told : List SyntaxFault}
    (h : Declaration dangles u s told) :
    ∃ t v, u = t :: v ∧ beginsDeclaration t.kind = true := by
  cases h with
  | declare word tail => exact ⟨_, _, rfl, by simp [word, beginsDeclaration]⟩
  | statement inner =>
    obtain ⟨t, v, rfl, begins⟩ := inner.head
    exact ⟨t, v, rfl, by simp only [beginsDeclaration, Bool.or_assoc, begins, Bool.or_true]⟩

theorem beginsStatement_cases {kind : Kind} (h : beginsStatement kind = true) :
    kind = .for_ ∨ kind = .if_ ∨ kind = .print ∨ kind = .while_ ∨ kind = .leftBrace := by
  unfold beginsStatement at h
  split at h
  all_goals simp_all

end Bhasha.Grammar
