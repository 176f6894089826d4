import Bhasha.Proofs.Parse.StatementSound

/-!
# Programs are read as their derivations say

A program without gaps is read exactly as its derivation says: the parser returns the trees of the
derivation and tells its faults.  A statement that dangles has to be followed by something other
than `else`; inside a list of declarations this is always so, because no declaration begins with
`else`.
-/

namespace Bhasha.Parse

open Grammar

variable {finish : Token} {n : Nat}

theorem stops_of_kind {p : Kind → Bool} {t : Token} {rest : List Token} {kind : Kind}
    (same : t.kind = kind) (h : p kind = false) : Stops p (t :: rest) :=
  stops_cons (by rw [same]; exact h)

theorem map_run {α β : Type} {p : Parser (Recorded SyntaxFault) α} {f : α → β}
    {ts rest : List Token} {value : α} {told : List SyntaxFault}
    (hp : p ts = ⟨.done value rest, told⟩) :
    (f <$> p) ts = ⟨.done (f value) rest, told⟩ := by
  rw [← List.append_nil told]
  exact bind_run hp rfl

theorem declarationTail_reads {u rest : List Token} {s : Stmt} {told : List SyntaxFault}
    (derived : Declared u s told) :
    declarationTail (hear finish) (u ++ rest) = ⟨.done s rest, told⟩ := by
  unfold declarationTail
  cases derived with
  | bare named stop =>
    refine (expect_bind named).trans ?_
    refine (accept_bind_none (stops_of_kind stop rfl)).trans ?_
    exact expect_bind stop
  | @valued name equal semicolon u e told named sign value stop =>
    rw [List.cons_append, List.cons_append, List.append_assoc, ← List.append_nil told]
    refine (expect_bind named).trans ?_
    refine (accept_bind_some (by simp [sign])).trans ?_
    exact bind_run (map_run (expr_reads value (stops_of_kind stop rfl))) (expect_bind stop)

theorem expressionStatement_reads {u rest : List Token} {e : Expr} {semicolon : Token}
    {told : List SyntaxFault} (value : Derives .expression u e told)
    (stop : semicolon.kind = .semicolon) :
    expressionStatement (hear finish) (u ++ semicolon :: rest) =
      ⟨.done (.expression e) rest, told⟩ := by
  unfold expressionStatement
  rw [← List.append_nil told]
  exact bind_run (expr_reads value (stops_of_kind stop rfl)) (expect_bind stop)

theorem printTail_reads {u rest : List Token} {e : Expr} {semicolon : Token}
    {told : List SyntaxFault} (value : Derives .expression u e told)
    (stop : semicolon.kind = .semicolon) :
    printTail (hear finish) (u ++ semicolon :: rest) = ⟨.done (.print e) rest, told⟩ := by
  unfold printTail
  rw [← List.append_nil told]
  exact bind_run (expr_reads value (stops_of_kind stop rfl)) (expect_bind stop)

theorem initializerClause_reads {u rest : List Token} {start : Option Stmt}
    {told : List SyntaxFault} (derived : Initializer u start told) :
    initializerClause (hear finish) (u ++ rest) = ⟨.done start rest, told⟩ := by
  unfold initializerClause
  cases derived with
  | empty stop =>
    refine (accept_bind_some (by simp [stop])).trans ?_
    dsimp only
    rw [if_pos stop]
    rfl
  | declared first tail =>
    refine (accept_bind_some (by simp [first])).trans ?_
    dsimp only
    rw [if_neg (by simp [first])]
    exact map_run (declarationTail_reads tail)
  | expression value stop =>
    obtain ⟨t, v, rfl, begins⟩ := value.head rfl
    have other : (t.kind == .semicolon || t.kind == .var) = false := by
      cases hk : t.kind <;> simp_all [beginsExpression, isUnaryOperator, beginsPrimary]
    rw [List.append_assoc]
    refine (accept_bind_none (by simpa using other)).trans ?_
    exact map_run (expressionStatement_reads value stop)

theorem clause_reads {closing : Token} {kind : Kind} {u rest : List Token} {value : Option Expr}
    {told : List SyntaxFault} (derived : Clause u value told) (closes : closing.kind = kind)
    (closer : kind = .semicolon ∨ kind = .rightParen) :
    clause (hear finish) kind (u ++ closing :: rest) = ⟨.done value (closing :: rest), told⟩ := by
  unfold clause
  cases derived with
  | empty => exact nextIs_bind_true closes
  | given value =>
    obtain ⟨t, v, rfl, begins⟩ := value.head rfl
    have other : (t.kind == kind) = false := by
      rcases closer with rfl | rfl <;>
        cases hk : t.kind <;> simp_all [beginsExpression, isUnaryOperator, beginsPrimary]
    refine (nextIs_bind_false (by simpa using other)).trans ?_
    refine map_run (expr_reads value (stops_of_kind closes ?_))
    rcases closer with rfl | rfl <;> rfl

/-- No fatal fault is told. -/
def Lenient (told : List SyntaxFault) : Prop := ∀ f ∈ told, f.fault.isFatal = false

theorem lenient_append {told more : List SyntaxFault} :
    Lenient (told ++ more) ↔ Lenient told ∧ Lenient more := by
  simp only [Lenient, List.mem_append]
  exact ⟨fun h => ⟨fun f hf => h f (Or.inl hf), fun f hf => h f (Or.inr hf)⟩,
    fun h f hf => hf.elim (h.1 f) (h.2 f)⟩

theorem lenient_nil : Lenient [] := List.forall_mem_nil _

theorem Lenient.append {told more : List SyntaxFault} (h : Lenient told) (h' : Lenient more) :
    Lenient (told ++ more) := lenient_append.mpr ⟨h, h'⟩

/-- A statement is read to its end when nothing that belongs to it follows. -/
def StatementReads (finish : Token) (dangles : Bool) (u : List Token) (s : Stmt)
    (told : List SyntaxFault) : Prop :=
  ∀ n rest, 4 * (u ++ rest).length + 1 ≤ n → (dangles = true → Stops (· == .else_) rest) →
    statement (hear finish) n (u ++ rest) = ⟨.done s rest, told⟩

def DeclarationReads (finish : Token) (dangles : Bool) (u : List Token) (s : Stmt)
    (told : List SyntaxFault) : Prop :=
  ∀ n rest, 4 * (u ++ rest).length + 2 ≤ n → (dangles = true → Stops (· == .else_) rest) →
    declaration (hear finish) n (u ++ rest) = ⟨.done s rest, told⟩

def DeclarationsRead (finish : Token) (u : List Token) (inner : List Stmt)
    (told : List SyntaxFault) : Prop :=
  ∀ inBlock n rest, 4 * (u ++ rest).length + 3 ≤ n → endsDeclarations inBlock rest = true →
    declarations (hear finish) n inBlock (u ++ rest) = ⟨.done inner rest, told⟩

private theorem StatementReads.expression {u : List Token} {e : Expr} {semicolon : Token}
    {told : List SyntaxFault} (value : Derives .expression u e told)
    (stop : semicolon.kind = .semicolon) :
    StatementReads finish false (u ++ [semicolon]) (.expression e) told := by
  intro n rest fuel _
  obtain ⟨n, rfl⟩ : ∃ m, n = m + 1 := ⟨n - 1, by omega⟩
  obtain ⟨t, v, rfl, begins⟩ := value.head rfl
  have other : beginsStatement t.kind = false := by
    cases hk : t.kind <;>
      simp_all [beginsExpression, isUnaryOperator, beginsPrimary, beginsStatement]
  rw [statement, List.append_assoc]
  refine (accept_bind_none (by simpa using other)).trans ?_
  exact expressionStatement_reads value stop

private theorem StatementReads.print {first semicolon : Token} {u : List Token} {e : Expr}
    {told : List SyntaxFault} (word : first.kind = .print) (value : Derives .expression u e told)
    (stop : semicolon.kind = .semicolon) :
    StatementReads finish false (first :: (u ++ [semicolon])) (.print e) told := by
  intro n rest fuel _
  obtain ⟨n, rfl⟩ : ∃ m, n = m + 1 := ⟨n - 1, by omega⟩
  rw [statement, List.cons_append, List.append_assoc]
  refine (accept_bind_some (by simp [word, beginsStatement])).trans ?_
  dsimp only
  rw [word]
  exact printTail_reads value stop

private theorem StatementReads.loop {dangles : Bool} {u v : List Token} {e : Expr} {s : Stmt}
    {told more : List SyntaxFault} (header : Header .while_ u e told)
    (body : StatementReads finish dangles v s more) :
    StatementReads finish dangles (u ++ v) (.loop e s) (told ++ more) := by
  intro n rest fuel follows
  obtain ⟨n, rfl⟩ : ∃ m, n = m + 1 := ⟨n - 1, by omega⟩
  cases header with
  | @mk first opening closing u _ _ start left condition right =>
  have read := body n rest (by simp at fuel ⊢; omega) follows
  rw [statement]
  simp only [List.cons_append, List.append_assoc, List.nil_append]
  refine (accept_bind_some (by simp [start, beginsStatement])).trans ?_
  dsimp only
  rw [start]
  refine (expect_bind left).trans ?_
  refine bind_run (expr_reads condition (stops_of_kind right rfl)) ?_
  refine (expect_bind right).trans ?_
  rw [← List.append_nil more]
  exact bind_run read rfl

private theorem StatementReads.counting {dangles : Bool} {u v : List Token} {start : Option Stmt}
    {condition increment : Option Expr} {s : Stmt} {told more : List SyntaxFault}
    (clauses : Clauses u start condition increment told)
    (body : StatementReads finish dangles v s more) :
    StatementReads finish dangles (u ++ v) (spelledOut start condition increment s)
      (told ++ more) := by
  rw [spelledOut_eq]
  intro n rest fuel follows
  obtain ⟨n, rfl⟩ : ∃ m, n = m + 1 := ⟨n - 1, by omega⟩
  cases clauses with
  | mk word left initializer test stop step right =>
  have read := body n rest (by simp at fuel ⊢; omega) follows
  rw [statement]
  simp only [List.cons_append, List.append_assoc, List.nil_append]
  refine (accept_bind_some (by simp [word, beginsStatement])).trans ?_
  dsimp only
  rw [word]
  refine (expect_bind left).trans ?_
  refine bind_run (initializerClause_reads initializer) ?_
  refine bind_run (clause_reads test stop (Or.inl rfl)) ?_
  refine (expect_bind stop).trans ?_
  refine bind_run (clause_reads step right (Or.inr rfl)) ?_
  refine (expect_bind right).trans ?_
  rw [← List.append_nil more]
  exact bind_run read rfl

private theorem StatementReads.branch {dangles : Bool} {u v : List Token} {e : Expr} {s : Stmt}
    {told more : List SyntaxFault} (header : Header .if_ u e told)
    (consequent : StatementReads finish dangles v s more) :
    StatementReads finish true (u ++ v) (.branch e s none) (told ++ more) := by
  intro n rest fuel follows
  obtain ⟨n, rfl⟩ : ∃ m, n = m + 1 := ⟨n - 1, by omega⟩
  cases header with
  | mk start left condition right =>
  have read := consequent n rest (by simp at fuel ⊢; omega) (fun _ => follows rfl)
  rw [statement]
  simp only [List.cons_append, List.append_assoc, List.nil_append]
  refine (accept_bind_some (by simp [start, beginsStatement])).trans ?_
  dsimp only
  rw [start]
  refine (expect_bind left).trans ?_
  refine bind_run (expr_reads condition (stops_of_kind right rfl)) ?_
  refine (expect_bind right).trans ?_
  rw [← List.append_nil more]
  exact bind_run read (accept_bind_none (follows rfl))

private theorem StatementReads.branchElse {dangles : Bool} {word : Token} {u v w : List Token}
    {e : Expr} {s a : Stmt} {told more most : List SyntaxFault} (header : Header .if_ u e told)
    (consequent : StatementReads finish false v s more) (other : word.kind = .else_)
    (alternative : StatementReads finish dangles w a most) :
    StatementReads finish dangles (u ++ (v ++ word :: w)) (.branch e s (some a))
      (told ++ (more ++ most)) := by
  intro n rest fuel follows
  obtain ⟨n, rfl⟩ : ∃ m, n = m + 1 := ⟨n - 1, by omega⟩
  cases header with
  | mk start left condition right =>
  have read := consequent n (word :: (w ++ rest)) (by simp at fuel ⊢; omega) (by simp)
  have read' := alternative n rest (by simp at fuel ⊢; omega) follows
  rw [statement]
  simp only [List.cons_append, List.append_assoc, List.nil_append]
  refine (accept_bind_some (by simp [start, beginsStatement])).trans ?_
  dsimp only
  rw [start]
  refine (expect_bind left).trans ?_
  refine bind_run (expr_reads condition (stops_of_kind right rfl)) ?_
  refine (expect_bind right).trans ?_
  refine bind_run read ?_
  refine (accept_bind_some (by simp [other])).trans ?_
  rw [← List.append_nil most]
  exact bind_run read' rfl

private theorem StatementReads.block {opening closing : Token} {u : List Token}
    {inner : List Stmt} {told : List SyntaxFault} (left : opening.kind = .leftBrace)
    (inside : DeclarationsRead finish u inner told) (right : closing.kind = .rightBrace) :
    StatementReads finish false (opening :: (u ++ [closing])) (.block inner) told := by
  intro n rest fuel _
  obtain ⟨n, rfl⟩ : ∃ m, n = m + 1 := ⟨n - 1, by omega⟩
  have read := inside true n (closing :: rest) (by simp at fuel ⊢; omega)
    (by simp [endsDeclarations, right])
  rw [statement]
  simp only [List.cons_append, List.append_assoc, List.nil_append]
  refine (accept_bind_some (by simp [left, beginsStatement])).trans ?_
  dsimp only
  rw [left, ← List.append_nil told]
  exact bind_run read (expect_bind right)

private theorem DeclarationReads.declare {first : Token} {u : List Token} {s : Stmt}
    {told : List SyntaxFault} (word : first.kind = .var) (tail : Declared u s told) :
    DeclarationReads finish false (first :: u) s told := by
  intro n rest fuel _
  obtain ⟨n, rfl⟩ : ∃ m, n = m + 1 := ⟨n - 1, by omega⟩
  rw [declaration]
  refine (accept_bind_some (by simp [word])).trans ?_
  exact declarationTail_reads tail

private theorem DeclarationReads.statement {dangles : Bool} {u : List Token} {s : Stmt}
    {told : List SyntaxFault} (derived : Statement dangles u s told)
    (inner : StatementReads finish dangles u s told) :
    DeclarationReads finish dangles u s told := by
  intro n rest fuel follows
  obtain ⟨n, rfl⟩ : ∃ m, n = m + 1 := ⟨n - 1, by omega⟩
  have read := inner n rest (by omega) follows
  obtain ⟨t, v, rfl, begins⟩ := derived.head
  have other : (t.kind == .var) = false := by
    cases hk : t.kind <;>
      simp_all [beginsStatement, beginsExpression, isUnaryOperator, beginsPrimary]
  rw [declaration]
  exact (accept_bind_none (by simpa using other)).trans read

/-- What follows a declaration in a list does not begin with `else`. -/
theorem stops_else {u rest : List Token} {inner : List Stmt} {told : List SyntaxFault}
    {inBlock : Bool} (derived : Declarations u inner told) (lenient : Lenient told)
    (ends : endsDeclarations inBlock rest = true) : Stops (· == .else_) (u ++ rest) := by
  cases derived with
  | nil =>
    cases rest with
    | nil => rfl
    | cons t rest =>
      have closing : t.kind = .rightBrace := by
        simp only [endsDeclarations, Bool.and_eq_true, beq_iff_eq] at ends
        exact ends.2
      exact stops_of_kind closing rfl
  | cons first rest =>
    obtain ⟨t, v, rfl, begins⟩ := first.head
    refine stops_cons ?_
    cases hk : t.kind <;>
      simp_all [beginsDeclaration, beginsStatement, beginsExpression, isUnaryOperator,
        beginsPrimary]
  | gap fatal rest =>
    obtain ⟨f, member, fatal⟩ := fatal
    have mild := (lenient_append.mp lenient).1 f member
    rw [fatal] at mild
    cases mild

private theorem DeclarationsRead.nil : DeclarationsRead finish [] [] [] := by
  intro inBlock n rest fuel ends
  obtain ⟨n, rfl⟩ : ∃ m, n = m + 1 := ⟨n - 1, by omega⟩
  exact declarations_at_end ends

private theorem DeclarationsRead.cons {dangles : Bool} {u v : List Token} {s : Stmt}
    {others : List Stmt} {told more : List SyntaxFault} (derived : Declaration dangles u s told)
    (first : DeclarationReads finish dangles u s told) (tail : Declarations v others more)
    (lenient : Lenient more) (rest : DeclarationsRead finish v others more) :
    DeclarationsRead finish (u ++ v) (s :: others) (told ++ more) := by
  intro inBlock n final fuel ends
  obtain ⟨n, rfl⟩ : ∃ m, n = m + 1 := ⟨n - 1, by omega⟩
  have read := first n (v ++ final) (by simp at fuel ⊢; omega)
    (fun _ => stops_else tail lenient ends)
  obtain ⟨t, w, rfl, begins⟩ := derived.head
  have read' := rest inBlock n final (by simp at fuel ⊢; omega) ends
  have goesOn : endsDeclarations inBlock (t :: w ++ v ++ final) = false := by
    cases hk : t.kind <;>
      simp_all [endsDeclarations, beginsDeclaration, beginsStatement, beginsExpression,
        isUnaryOperator, beginsPrimary]
  rw [declarations_before_end goesOn, List.append_assoc, ← List.append_nil more]
  exact bind_run (recover_of_done read) (bind_run read' rfl)

mutual

theorem statement_reads {dangles : Bool} {u : List Token} {s : Stmt} {told : List SyntaxFault} :
    Statement dangles u s told → Lenient told → StatementReads finish dangles u s told
  | .expression value stop, _ => .expression value stop
  | .print word value stop, _ => .print word value stop
  | .loop header body, lenient =>
    .loop header (statement_reads body (lenient_append.mp lenient).2)
  | .counting clauses body, lenient =>
    .counting clauses (statement_reads body (lenient_append.mp lenient).2)
  | .branch header consequent, lenient =>
    .branch header (statement_reads consequent (lenient_append.mp lenient).2)
  | .branchElse header consequent other alternative, lenient =>
    have both := lenient_append.mp (lenient_append.mp lenient).2
    .branchElse header (statement_reads consequent both.1) other
      (statement_reads alternative both.2)
  | .block left inside right, lenient => .block left (declarations_read inside lenient) right

theorem declaration_reads {dangles : Bool} {u : List Token} {s : Stmt} {told : List SyntaxFault} :
    Declaration dangles u s told → Lenient told → DeclarationReads finish dangles u s told
  | .declare word tail, _ => .declare word tail
  | .statement inner, lenient => .statement inner (statement_reads inner lenient)

/-- A list of declarations without fatal faults is read as its derivation says. -/
theorem declarations_read {u : List Token} {inner : List Stmt} {told : List SyntaxFault} :
    Declarations u inner told → Lenient told → DeclarationsRead finish u inner told
  | .nil, _ => .nil
  | .cons first rest, lenient =>
    have both := lenient_append.mp lenient
    .cons first (declaration_reads first both.1) rest both.2 (declarations_read rest both.2)
  | .gap fatal _, lenient => by
    obtain ⟨f, member, fatal⟩ := fatal
    have mild := (lenient_append.mp lenient).1 f member
    rw [fatal] at mild
    cases mild

end

/-- A program of which no fatal fault is told is read as its derivation says. -/
theorem program_of_derivation {ts : List Token} {inner : List Stmt} {told : List SyntaxFault}
    (derived : Declarations ts inner told) (lenient : Lenient told) :
    program (hear finish) ts = ⟨.done inner [], told⟩ := by
  have reads : DeclarationsRead finish ts inner told := declarations_read derived lenient
  have read := reads false (4 * (ts.length + 1)) [] (by simp; omega) rfl
  rw [List.append_nil] at read
  exact read

end Bhasha.Parse
