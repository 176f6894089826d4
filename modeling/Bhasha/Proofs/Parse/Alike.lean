import Bhasha.Proofs.Parse.StatementSound
import Bhasha.Proofs.Tree.Alike

/-!
# Parsing looks at kinds only

Two lists of tokens that are related place by place, where related tokens are of one kind, are
parsed alike: the trees have the same shape with related tokens in it, and the faults are the same
at related tokens.  A parser never compares lexemes, literals or lines, it only hands them on.

Parsers that agree in this sense compose along `>>=`, as their contracts do.
-/

namespace Bhasha.Parse

open Grammar

/-- The same fault at related tokens. -/
def FaultAlike (R : Token → Token → Prop) (f f' : SyntaxFault) : Prop :=
  R f.token f'.token ∧ f.fault = f'.fault

/-- Outcomes with related values that leave related tokens. -/
inductive OutcomeAlike {α β : Type} (R : Token → Token → Prop) (V : α → β → Prop) :
    Outcome α → Outcome β → Prop
  | done {a : α} {b : β} {ts us : List Token} (value : V a b) (rest : List.Forall₂ R ts us) :
      OutcomeAlike R V (.done a ts) (.done b us)
  | bail {ts us : List Token} (rest : List.Forall₂ R ts us) :
      OutcomeAlike R V (.bail ts) (.bail us)

/-- Runs with related outcomes and the same faults at related tokens. -/
structure RunAlike {α β : Type} (R : Token → Token → Prop) (V : α → β → Prop)
    (r : Recorded SyntaxFault (Outcome α)) (r' : Recorded SyntaxFault (Outcome β)) : Prop where
  outcome : OutcomeAlike R V r.value r'.value
  faults : List.Forall₂ (FaultAlike R) r.records r'.records

/-- Two parsers that run alike on related lists of tokens. -/
def Agree {α β : Type} (R : Token → Token → Prop) (V : α → β → Prop)
    (p : Parser (Recorded SyntaxFault) α) (q : Parser (Recorded SyntaxFault) β) : Prop :=
  ∀ ts us, List.Forall₂ R ts us → RunAlike R V (p ts) (q us)

section

variable {α β γ δ : Type} {R : Token → Token → Prop} {V : α → β → Prop} {W : γ → δ → Prop}
  {finish finish' : Token}

theorem Agree.bind {p : Parser (Recorded SyntaxFault) α} {q : Parser (Recorded SyntaxFault) β}
    {f : α → Parser (Recorded SyntaxFault) γ} {g : β → Parser (Recorded SyntaxFault) δ}
    (first : Agree R V p q) (next : ∀ a b, V a b → Agree R W (f a) (g b)) :
    Agree R W (p >>= f) (q >>= g) := by
  intro ts us related
  have run := first ts us related
  rcases left : p ts with ⟨outcome, told⟩
  rcases right : q us with ⟨outcome', told'⟩
  rw [left, right] at run
  obtain ⟨ends, faults⟩ := run
  cases ends with
  | bail rest =>
    rw [bind_of_bail left, bind_of_bail right]
    exact ⟨.bail rest, faults⟩
  | done value rest =>
    obtain ⟨outcome, more⟩ := next _ _ value _ _ rest
    rw [bind_of_done left, bind_of_done right]
    exact ⟨outcome, List.rel_append faults more⟩

theorem agree_pure {a : α} {b : β} (value : V a b) :
    Agree R V (pure a : Parser (Recorded SyntaxFault) α) (pure b) :=
  fun _ _ related => ⟨.done value related, .nil⟩

theorem Agree.map {f : α → γ} {g : β → δ} {p : Parser (Recorded SyntaxFault) α}
    {q : Parser (Recorded SyntaxFault) β} (first : Agree R V p q)
    (mapped : ∀ a b, V a b → W (f a) (g b)) : Agree R W (f <$> p) (g <$> q) :=
  Agree.bind first fun a b value => agree_pure (mapped a b value)

theorem agree_ahead :
    Agree R (List.Forall₂ R) (ahead : Parser (Recorded SyntaxFault) (List Token)) ahead :=
  fun _ _ related => ⟨.done related related, .nil⟩

theorem agree_spent : Agree R V (spent : Parser (Recorded SyntaxFault) α) spent :=
  fun _ _ related => ⟨.bail related, .nil⟩

/-- A report that is made on a condition, before both parsers go on. -/
theorem agree_reportIf {c : Prop} [Decidable c]
    {report report' : Parser (Recorded SyntaxFault) Unit}
    {p : Parser (Recorded SyntaxFault) α} {q : Parser (Recorded SyntaxFault) β}
    (reports : Agree R (· = ·) report report') (next : Agree R V p q) :
    Agree R V (if c then report >>= fun _ => p else p)
      (if c then report' >>= fun _ => q else q) := by
  split
  · exact reports.bind fun _ _ _ => next
  · exact next

theorem headD_related {ts us : List Token} (related : List.Forall₂ R ts us)
    (ends : R finish finish') : R (ts.headD finish) (us.headD finish') := by
  cases related with
  | nil => exact ends
  | cons here _ => exact here

theorem agree_reportAt (ends : R finish finish') {place place' : List Token}
    (places : List.Forall₂ R place place') (fault : Fault) :
    Agree R (· = ·) (reportAt (hear finish) place fault) (reportAt (hear finish') place' fault) :=
  fun _ _ related => ⟨.done rfl related, .cons ⟨headD_related places ends, rfl⟩ .nil⟩

theorem agree_fail (ends : R finish finish') (fault : Fault) :
    Agree R V (fail (hear finish) fault) (fail (hear finish') fault) :=
  fun _ _ related => ⟨.bail related, .cons ⟨headD_related related ends, rfl⟩ .nil⟩

/-- Related tokens are of one kind. -/
def KeepsKind (R : Token → Token → Prop) : Prop := ∀ t t', R t t' → t.kind = t'.kind

theorem agree_nextIs (keeps : KeepsKind R) (kind : Kind) :
    Agree R (· = ·) (nextIs kind : Parser (Recorded SyntaxFault) Bool) (nextIs kind) := by
  intro ts us related
  cases related with
  | nil => exact ⟨.done rfl .nil, .nil⟩
  | cons here rest =>
    refine ⟨.done ?_ (.cons here rest), .nil⟩
    simp [keeps _ _ here]

theorem agree_accept (keeps : KeepsKind R) (wanted : Kind → Bool) :
    Agree R (Option.Rel fun t t' => R t t' ∧ wanted t.kind = true)
      (accept wanted : Parser (Recorded SyntaxFault) (Option Token)) (accept wanted) := by
  intro ts us related
  cases related with
  | nil => exact ⟨.done .none .nil, .nil⟩
  | cons here rest =>
    rw [accept_cons, accept_cons, ← keeps _ _ here]
    split
    · rename_i wants
      exact ⟨.done (.some ⟨here, wants⟩) rest, .nil⟩
    · exact ⟨.done .none (.cons here rest), .nil⟩

theorem agree_expect (keeps : KeepsKind R) (ends : R finish finish') (kind : Kind) (fault : Fault) :
    Agree R R (expect (hear finish) kind fault) (expect (hear finish') kind fault) := by
  intro ts us related
  cases related with
  | nil => exact agree_fail ends fault [] [] .nil
  | cons here rest =>
    rw [expect_cons, expect_cons, ← keeps _ _ here]
    split
    · exact ⟨.done here rest, .nil⟩
    · exact agree_fail ends fault _ _ (.cons here rest)

end

variable {R : Token → Token → Prop} {finish finish' : Token} {n : Nat}

/-- All parsers of expressions with `n` units of fuel run alike. -/
structure ExpressionsAgree (R : Token → Token → Prop) (finish finish' : Token) (n : Nat) :
    Prop where
  expression : Agree R (Expr.Alike R) (expression (hear finish) n) (expression (hear finish') n)
  binary : ∀ level,
    Agree R (Expr.Alike R) (binary (hear finish) n level) (binary (hear finish') n level)
  operand : ∀ level,
    Agree R (Expr.Alike R) (operand (hear finish) n level) (operand (hear finish') n level)
  climb : ∀ level left left', Expr.Alike R left left' →
    Agree R (Expr.Alike R) (climb (hear finish) n level left) (climb (hear finish') n level left')
  unary : Agree R (Expr.Alike R) (unary (hear finish) n) (unary (hear finish') n)
  calls : ∀ callee callee', Expr.Alike R callee callee' →
    Agree R (Expr.Alike R) (calls (hear finish) n callee) (calls (hear finish') n callee')
  arguments : ∀ count,
    Agree R (Expr.AllAlike R) (arguments (hear finish) n count) (arguments (hear finish') n count)
  primary : Agree R (Expr.Alike R) (primary (hear finish) n) (primary (hear finish') n)

private theorem expression_alike (keeps : KeepsKind R) (ends : R finish finish')
    (ih : ExpressionsAgree R finish finish' n) :
    Agree R (Expr.Alike R) (expression (hear finish) (n + 1))
      (expression (hear finish') (n + 1)) := by
  rw [expression, expression]
  refine (ih.binary .or).bind ?_
  intro left left' target
  refine agree_ahead.bind ?_
  intro place place' places
  refine (agree_accept keeps _).bind ?_
  intro sign sign' accepted
  cases accepted with
  | none => exact agree_pure target
  | some _ =>
    refine ih.expression.bind ?_
    intro value value' right
    have kept := target
    cases target with
    | identifier same => exact agree_pure (.assign same right)
    | _ => exact (agree_reportAt ends places _).bind fun _ _ _ => agree_pure kept

private theorem binary_alike (ih : ExpressionsAgree R finish finish' n) (level : Level) :
    Agree R (Expr.Alike R) (binary (hear finish) (n + 1) level)
      (binary (hear finish') (n + 1) level) := by
  rw [binary, binary]
  exact (ih.operand level).bind fun left left' same => ih.climb level left left' same

private theorem operand_alike (ih : ExpressionsAgree R finish finish' n) (level : Level) :
    Agree R (Expr.Alike R) (operand (hear finish) (n + 1) level)
      (operand (hear finish') (n + 1) level) := by
  rw [operand, operand]
  cases level with
  | factor => exact ih.unary
  | or => exact ih.binary .and
  | and => exact ih.binary .equality
  | equality => exact ih.binary .comparison
  | comparison => exact ih.binary .term
  | term => exact ih.binary .factor

theorem join_alike (level : Level) {l l' r r' : Expr} {t t' : Token} (left : Expr.Alike R l l')
    (same : R t t') (right : Expr.Alike R r r') :
    Expr.Alike R (level.join l t r) (level.join l' t' r') := by
  cases level with
  | or => exact .logical left same right
  | and => exact .logical left same right
  | _ => exact .binary left same right

private theorem climb_alike (keeps : KeepsKind R) (ih : ExpressionsAgree R finish finish' n)
    (level : Level) (left left' : Expr) (first : Expr.Alike R left left') :
    Agree R (Expr.Alike R) (climb (hear finish) (n + 1) level left)
      (climb (hear finish') (n + 1) level left') := by
  rw [climb, climb]
  refine (agree_accept keeps _).bind ?_
  intro operator operator' accepted
  cases accepted with
  | none => exact agree_pure first
  | some owned =>
    refine (ih.operand level).bind ?_
    intro right right' second
    exact ih.climb level _ _ (join_alike level first owned.1 second)

private theorem unary_alike (keeps : KeepsKind R) (ih : ExpressionsAgree R finish finish' n) :
    Agree R (Expr.Alike R) (unary (hear finish) (n + 1)) (unary (hear finish') (n + 1)) := by
  rw [unary, unary]
  refine (agree_accept keeps _).bind ?_
  intro operator operator' accepted
  cases accepted with
  | none => exact ih.primary.bind fun callee callee' first => ih.calls callee callee' first
  | some sign => exact ih.unary.bind fun right right' operand => agree_pure (.unary sign.1 operand)

private theorem calls_alike (keeps : KeepsKind R) (ends : R finish finish')
    (ih : ExpressionsAgree R finish finish' n) (callee callee' : Expr)
    (first : Expr.Alike R callee callee') :
    Agree R (Expr.Alike R) (calls (hear finish) (n + 1) callee)
      (calls (hear finish') (n + 1) callee') := by
  rw [calls, calls]
  refine (agree_accept keeps _).bind ?_
  intro opening opening' accepted
  cases accepted with
  | none => exact agree_pure first
  | some _ =>
    have close : ∀ es es', Expr.AllAlike R es es' → Agree R (Expr.Alike R)
        (expect (hear finish) .rightParen .argumentsNeedClosing >>= fun paren =>
          calls (hear finish) n (.call callee paren es))
        (expect (hear finish') .rightParen .argumentsNeedClosing >>= fun paren =>
          calls (hear finish') n (.call callee' paren es')) := by
      intro es es' inside
      refine (agree_expect keeps ends _ _).bind ?_
      intro paren paren' same
      exact ih.calls _ _ (.call first same inside)
    refine (agree_nextIs keeps _).bind ?_
    intro empty empty' same
    subst same
    cases empty with
    | true => exact (agree_pure Expr.AllAlike.nil).bind close
    | false => exact (ih.arguments 0).bind close

private theorem arguments_alike (keeps : KeepsKind R) (ends : R finish finish')
    (ih : ExpressionsAgree R finish finish' n) (count : Nat) :
    Agree R (Expr.AllAlike R) (arguments (hear finish) (n + 1) count)
      (arguments (hear finish') (n + 1) count) := by
  rw [arguments, arguments]
  refine agree_ahead.bind ?_
  intro place place' places
  refine agree_reportIf (agree_reportAt ends places _) ?_
  refine ih.expression.bind ?_
  intro first first' head
  refine (agree_accept keeps _).bind ?_
  intro comma comma' accepted
  cases accepted with
  | none => exact agree_pure (.cons head .nil)
  | some _ =>
    exact (ih.arguments (count + 1)).bind fun rest rest' tail => agree_pure (.cons head tail)

private theorem primary_alike (keeps : KeepsKind R) (ends : R finish finish')
    (ih : ExpressionsAgree R finish finish' n) :
    Agree R (Expr.Alike R) (primary (hear finish) (n + 1)) (primary (hear finish') (n + 1)) := by
  rw [primary, primary]
  refine (agree_accept keeps _).bind ?_
  intro t t' accepted
  cases accepted with
  | none => exact agree_fail ends _
  | some begins =>
    have same := begins.1
    dsimp only
    rw [← keeps _ _ same]
    split
    · exact agree_pure (.constant (.inr ⟨false, rfl⟩))
    · exact agree_pure (.constant (.inr ⟨true, rfl⟩))
    · exact agree_pure (.constant (.inl rfl))
    · rename_i number
      exact agree_pure (.literal (.inl number) same)
    · rename_i string
      exact agree_pure (.literal (.inr string) same)
    · exact agree_pure (.identifier same)
    · refine ih.expression.bind ?_
      intro inner inner' inside
      exact (agree_expect keeps ends _ _).bind fun _ _ _ => agree_pure (.grouping inside)

/-- Parsers of expressions run alike, whatever fuel they have. -/
theorem expressions_agree (keeps : KeepsKind R) (ends : R finish finish') (n : Nat) :
    ExpressionsAgree R finish finish' n := by
  induction n with
  | zero =>
    constructor <;> intros <;> exact agree_spent
  | succ n ih =>
    exact {
      expression := expression_alike keeps ends ih
      binary := binary_alike ih
      operand := operand_alike ih
      climb := climb_alike keeps ih
      unary := unary_alike keeps ih
      calls := calls_alike keeps ends ih
      arguments := arguments_alike keeps ends ih
      primary := primary_alike keeps ends ih }

theorem agree_expr (keeps : KeepsKind R) (ends : R finish finish') :
    Agree R (Expr.Alike R) (expr (hear finish)) (expr (hear finish')) := by
  intro ts us related
  rw [expr, expr, ← related.length_eq]
  exact (expressions_agree keeps ends _).expression ts us related

section

variable (keeps : KeepsKind R) (ends : R finish finish')
include keeps ends

theorem agree_declarationTail :
    Agree R (Stmt.Alike R) (declarationTail (hear finish)) (declarationTail (hear finish')) := by
  rw [declarationTail, declarationTail]
  refine (agree_expect keeps ends _ _).bind ?_
  intro name name' same
  have close : ∀ e e', Option.Rel (Expr.Alike R) e e' → Agree R (Stmt.Alike R)
      (expect (hear finish) .semicolon .declarationNeedsSemicolon >>= fun _ =>
        pure (.declare name e))
      (expect (hear finish') .semicolon .declarationNeedsSemicolon >>= fun _ =>
        pure (.declare name' e')) := by
    intro e e' initializer
    exact (agree_expect keeps ends _ _).bind fun _ _ _ => agree_pure (.declare same initializer)
  refine (agree_accept keeps _).bind ?_
  intro sign sign' accepted
  cases accepted with
  | none => exact (agree_pure Option.Rel.none).bind close
  | some _ => exact ((agree_expr keeps ends).map fun _ _ => Option.Rel.some).bind close

theorem agree_expressionStatement :
    Agree R (Stmt.Alike R) (expressionStatement (hear finish))
      (expressionStatement (hear finish')) := by
  rw [expressionStatement, expressionStatement]
  refine (agree_expr keeps ends).bind ?_
  intro e e' value
  exact (agree_expect keeps ends _ _).bind fun _ _ _ => agree_pure (.expression value)

theorem agree_printTail :
    Agree R (Stmt.Alike R) (printTail (hear finish)) (printTail (hear finish')) := by
  rw [printTail, printTail]
  refine (agree_expr keeps ends).bind ?_
  intro e e' value
  exact (agree_expect keeps ends _ _).bind fun _ _ _ => agree_pure (.print value)

theorem agree_initializerClause :
    Agree R (Option.Rel (Stmt.Alike R)) (initializerClause (hear finish))
      (initializerClause (hear finish')) := by
  rw [initializerClause, initializerClause]
  refine (agree_accept keeps _).bind ?_
  intro word word' accepted
  cases accepted with
  | none => exact (agree_expressionStatement keeps ends).map fun _ _ => Option.Rel.some
  | some begins =>
    dsimp only
    rw [← keeps _ _ begins.1]
    split
    · exact agree_pure .none
    · exact (agree_declarationTail keeps ends).map fun _ _ => Option.Rel.some

theorem agree_clause (closing : Kind) :
    Agree R (Option.Rel (Expr.Alike R)) (clause (hear finish) closing)
      (clause (hear finish') closing) := by
  rw [clause, clause]
  refine (agree_nextIs keeps _).bind ?_
  intro empty empty' same
  subst same
  cases empty with
  | true => exact agree_pure .none
  | false => exact (agree_expr keeps ends).map fun _ _ => Option.Rel.some

omit keeps ends in
theorem countingLoop_alike {i i' : Option Stmt} {c c' s s' : Option Expr} {b b' : Stmt}
    (initializer : Option.Rel (Stmt.Alike R) i i') (condition : Option.Rel (Expr.Alike R) c c')
    (increment : Option.Rel (Expr.Alike R) s s') (body : Stmt.Alike R b b') :
    Stmt.Alike R (countingLoop i c s b) (countingLoop i' c' s' b') := by
  have test :
      Expr.Alike R (c.getD (.literal (.truth true))) (c'.getD (.literal (.truth true))) := by
    cases condition with
    | none => exact .constant (.inr ⟨true, rfl⟩)
    | some value => exact value
  cases increment with
  | none =>
    cases initializer with
    | none => exact .loop test body
    | some first => exact .block (.cons first (.cons (.loop test body) .nil))
  | some step =>
    have round := Stmt.Alike.block (.cons body (.cons (.expression step) .nil))
    cases initializer with
    | none => exact .loop test round
    | some first => exact .block (.cons first (.cons (.loop test round) .nil))

variable {p q : Parser (Recorded SyntaxFault) Stmt}

theorem agree_forTail (bodies : Agree R (Stmt.Alike R) p q) :
    Agree R (Stmt.Alike R) (forTail (hear finish) p) (forTail (hear finish') q) := by
  rw [forTail, forTail]
  refine (agree_expect keeps ends _ _).bind fun _ _ _ => ?_
  refine (agree_initializerClause keeps ends).bind ?_
  intro i i' initializer
  refine (agree_clause keeps ends _).bind ?_
  intro c c' condition
  refine (agree_expect keeps ends _ _).bind fun _ _ _ => ?_
  refine (agree_clause keeps ends _).bind ?_
  intro s s' increment
  refine (agree_expect keeps ends _ _).bind fun _ _ _ => ?_
  refine bodies.bind ?_
  intro b b' body
  exact agree_pure (countingLoop_alike initializer condition increment body)

theorem agree_ifTail (bodies : Agree R (Stmt.Alike R) p q) :
    Agree R (Stmt.Alike R) (ifTail (hear finish) p) (ifTail (hear finish') q) := by
  rw [ifTail, ifTail]
  refine (agree_expect keeps ends _ _).bind fun _ _ _ => ?_
  refine (agree_expr keeps ends).bind ?_
  intro e e' condition
  refine (agree_expect keeps ends _ _).bind fun _ _ _ => ?_
  refine bodies.bind ?_
  intro s s' consequent
  refine (agree_accept keeps _).bind ?_
  intro word word' accepted
  cases accepted with
  | none => exact agree_pure (.branch condition consequent)
  | some _ =>
    exact bodies.bind fun a a' alternative =>
      agree_pure (.branchElse condition consequent alternative)

theorem agree_whileTail (bodies : Agree R (Stmt.Alike R) p q) :
    Agree R (Stmt.Alike R) (whileTail (hear finish) p) (whileTail (hear finish') q) := by
  rw [whileTail, whileTail]
  refine (agree_expect keeps ends _ _).bind fun _ _ _ => ?_
  refine (agree_expr keeps ends).bind ?_
  intro e e' condition
  refine (agree_expect keeps ends _ _).bind fun _ _ _ => ?_
  exact bodies.bind fun s s' body => agree_pure (.loop condition body)

end

theorem resume_related (keeps : KeepsKind R) {ts us : List Token} (related : List.Forall₂ R ts us) :
    List.Forall₂ R (resume ts) (resume us) := by
  induction related with
  | nil => exact .nil
  | @cons t t' rest rest' here after ih =>
    have anchors : rest.head?.any (isAnchor ·.kind) = rest'.head?.any (isAnchor ·.kind) := by
      cases after with
      | nil => rfl
      | cons next _ => simp [keeps _ _ next]
    rw [resume, resume, ← keeps _ _ here, ← anchors]
    split
    · exact after
    · exact ih

theorem agree_recover {α β : Type} {V : α → β → Prop} (keeps : KeepsKind R)
    {p : Parser (Recorded SyntaxFault) α} {q : Parser (Recorded SyntaxFault) β}
    (same : Agree R V p q) : Agree R (Option.Rel V) (recover p) (recover q) := by
  intro ts us related
  have run := same ts us related
  rcases left : p ts with ⟨outcome, told⟩
  rcases right : q us with ⟨outcome', told'⟩
  rw [left, right] at run
  obtain ⟨ending, faults⟩ := run
  cases ending with
  | done value rest =>
    rw [recover_of_done left, recover_of_done right]
    exact ⟨.done (.some value) rest, faults⟩
  | bail rest =>
    rw [recover_of_bail left, recover_of_bail right]
    exact ⟨.done .none (resume_related keeps rest), faults⟩

theorem endsDeclarations_related (keeps : KeepsKind R) (inBlock : Bool) {ts us : List Token}
    (related : List.Forall₂ R ts us) :
    endsDeclarations inBlock ts = endsDeclarations inBlock us := by
  cases related with
  | nil => rfl
  | cons here _ => simp [endsDeclarations, keeps _ _ here]

/-- All parsers of statements with `n` units of fuel run alike. -/
structure StatementsAgree (R : Token → Token → Prop) (finish finish' : Token) (n : Nat) :
    Prop where
  statement : Agree R (Stmt.Alike R) (statement (hear finish) n) (statement (hear finish') n)
  declaration : Agree R (Stmt.Alike R) (declaration (hear finish) n) (declaration (hear finish') n)
  declarations : ∀ inBlock, Agree R (Stmt.AllAlike R) (declarations (hear finish) n inBlock)
    (declarations (hear finish') n inBlock)

private theorem statement_alike (keeps : KeepsKind R) (ends : R finish finish')
    (ih : StatementsAgree R finish finish' n) :
    Agree R (Stmt.Alike R) (statement (hear finish) (n + 1))
      (statement (hear finish') (n + 1)) := by
  rw [statement, statement]
  refine (agree_accept keeps _).bind ?_
  intro word word' accepted
  cases accepted with
  | none => exact agree_expressionStatement keeps ends
  | some begins =>
    dsimp only
    rw [← keeps _ _ begins.1]
    split
    · exact agree_forTail keeps ends ih.statement
    · exact agree_ifTail keeps ends ih.statement
    · exact agree_printTail keeps ends
    · exact agree_whileTail keeps ends ih.statement
    · refine (ih.declarations true).bind ?_
      intro ss ss' inner
      exact (agree_expect keeps ends _ _).bind fun _ _ _ => agree_pure (.block inner)

private theorem declaration_alike (keeps : KeepsKind R) (ends : R finish finish')
    (ih : StatementsAgree R finish finish' n) :
    Agree R (Stmt.Alike R) (declaration (hear finish) (n + 1))
      (declaration (hear finish') (n + 1)) := by
  rw [declaration, declaration]
  refine (agree_accept keeps _).bind ?_
  intro word word' accepted
  cases accepted with
  | none => exact ih.statement
  | some _ => exact agree_declarationTail keeps ends

private theorem declarations_alike (keeps : KeepsKind R) (ih : StatementsAgree R finish finish' n)
    (inBlock : Bool) :
    Agree R (Stmt.AllAlike R) (declarations (hear finish) (n + 1) inBlock)
      (declarations (hear finish') (n + 1) inBlock) := by
  rw [declarations, declarations]
  refine agree_ahead.bind ?_
  intro left left' related
  rw [← endsDeclarations_related keeps inBlock related]
  split
  · exact agree_pure .nil
  · refine (agree_recover keeps ih.declaration).bind ?_
    intro first first' recovered
    refine (ih.declarations inBlock).bind ?_
    intro rest rest' others
    cases recovered with
    | none => exact agree_pure others
    | some head => exact agree_pure (.cons head others)

/-- Parsers of statements run alike, whatever fuel they have. -/
theorem statements_agree (keeps : KeepsKind R) (ends : R finish finish') (n : Nat) :
    StatementsAgree R finish finish' n := by
  induction n with
  | zero =>
    constructor <;> intros <;> exact agree_spent
  | succ n ih =>
    exact {
      statement := statement_alike keeps ends ih
      declaration := declaration_alike keeps ends ih
      declarations := declarations_alike keeps ih }

theorem agree_program (keeps : KeepsKind R) (ends : R finish finish') :
    Agree R (Stmt.AllAlike R) (program (hear finish)) (program (hear finish')) := by
  intro ts us related
  rw [program, program, ← related.length_eq]
  exact (statements_agree keeps ends _).declarations false ts us related

/-- Related tokens give trees that are alike, and the same faults at related tokens. -/
theorem recorded_alike (keeps : KeepsKind R) {ts us : List Token}
    (related : List.Forall₂ R (body ts) (body us)) (ends : R (endToken ts) (endToken us)) :
    Stmt.AllAlike R (recorded ts).value (recorded us).value ∧
      List.Forall₂ (FaultAlike R) (recorded ts).records (recorded us).records := by
  have run := agree_program keeps ends _ _ related
  obtain ⟨inner, told, left, -⟩ := program_reads (endToken ts) (body ts)
  obtain ⟨inner', told', right, -⟩ := program_reads (endToken us) (body us)
  rw [left, right] at run
  obtain ⟨ending, faults⟩ := run
  cases ending with
  | done value _ =>
    rw [recorded_of_done left, recorded_of_done right]
    exact ⟨value, faults⟩

end Bhasha.Parse
