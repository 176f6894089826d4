import Mathlib.Data.List.Basic
import Bhasha.Proofs.Parse.Listener
import Bhasha.Proofs.Parse.Panicking

/-!
# Reporters do not steer

A parse with panics ends as one in which the listener throws.  A bailout is the panic of a failed
parse, and the foreign value of any other panic is what the listener threw.  This is shown function
by function along the grammar.  The step that is not plain is the recovery: it catches the panic of
a reporter like any other, and the other parser never had it in its hands.

A listener that throws hears the record of the run up to that fault and nothing else, so this is
also all that the reporter of a parse with panics can bring about.
-/

namespace Bhasha.Parse.Panicking

variable {σ ε α β : Type}

/-- The listener that stands for the reporter of a parser. -/
def Reader.tell (p : Reader σ ε) : Listener (ExceptT ε (StateM σ)) :=
  fun r => p.report (r.attach p.finish)

/-- A parse with panics ends as one does that bails out: a bailout is the panic of a failure, and
a foreign value is what the listener threw. -/
inductive Ends : Except ε (Outcome α) × σ → Except (Panic ε) α × State σ → Prop
  | done (value : α) (rest : List Token) (kept : σ) :
      Ends (.ok (.done value rest), kept) (.ok value, ⟨rest, kept⟩)
  | bail (rest : List Token) (kept : σ) :
      Ends (.ok (.bail rest), kept) (.error .bailout, ⟨rest, kept⟩)
  | stop (value : ε) (rest : List Token) (kept : σ) :
      Ends (.error value, kept) (.error (.foreign value), ⟨rest, kept⟩)

/-- The two parsers end alike from any place and in any state of the reporter. -/
def Matches (p : Parser (ExceptT ε (StateM σ)) α) (q : Run σ ε α) : Prop :=
  ∀ ts kept, Ends ((p ts).run.run kept) (q.run.run ⟨ts, kept⟩)

section

variable {p : Parser (ExceptT ε (StateM σ)) α} {q : Run σ ε α}

theorem Matches.bind {f : α → Parser (ExceptT ε (StateM σ)) β} {g : α → Run σ ε β}
    (first : Matches p q) (next : ∀ a, Matches (f a) (g a)) : Matches (p >>= f) (q >>= g) := by
  intro ts kept
  have ends := first ts kept
  change Ends ((p ts >>= fun outcome : Outcome α => _).run.run kept) _
  rw [ExceptT.run_bind, ExceptT.run_bind, StateT.run_bind, StateT.run_bind]
  revert ends
  generalize (p ts).run.run kept = x
  generalize q.run.run ⟨ts, kept⟩ = y
  intro ends
  cases ends with
  | done value rest kept => exact next value rest kept
  | bail rest kept => exact .bail rest kept
  | stop value rest kept => exact .stop value rest kept

theorem matches_pure (a : α) : Matches (pure a) (pure a : Run σ ε α) :=
  fun ts kept => .done a ts kept

theorem Matches.map (f : α → β) (h : Matches p q) : Matches (f <$> p) (f <$> q) := by
  rw [← bind_pure_comp (m := Run σ ε)]
  exact h.bind fun a => matches_pure (f a)

theorem matches_spent : Matches (Parse.spent : Parser _ α) (spent : Run σ ε α) :=
  fun ts kept => .bail ts kept

/-- What recovery makes of the end of a run. -/
theorem run_recovering (q : Run σ ε α) (s : State σ) :
    (recovering q).run.run s =
      match q.run.run s with
      | (.ok value, s') => (.ok (some value), s')
      | (.error .bailout, s') => (.ok none, { s' with ahead := resume s'.ahead })
      | (.error (.foreign value), s') => (.error (.foreign value), s') := by
  rw [recovering, ExceptT.run_tryCatch, StateT.run_bind, ExceptT.run_map, StateT.run_map]
  obtain ⟨result, s'⟩ := q.run.run s
  cases result with
  | ok value => rfl
  | error panic => cases panic <;> rfl

/-- Every panic is caught, and all but a bailout are raised again. -/
theorem Matches.recovering (h : Matches p q) : Matches (recover p) (recovering q) := by
  intro ts kept
  have ends := h ts kept
  change Ends ((p ts >>= fun outcome : Outcome α => _).run.run kept)
    ((Panicking.recovering q).run.run ⟨ts, kept⟩)
  rw [ExceptT.run_bind, StateT.run_bind, run_recovering]
  revert ends
  generalize (p ts).run.run kept = x
  generalize q.run.run ⟨ts, kept⟩ = y
  intro ends
  cases ends with
  | done value rest kept => exact .done (some value) rest kept
  | bail rest kept => exact .done none (resume rest) kept
  | stop value rest kept => exact .stop value rest kept

theorem matches_nextIs (kind : Kind) : Matches (Parse.nextIs kind) (nextIs kind : Run σ ε Bool) :=
  fun ts kept => .done _ ts kept

theorem matches_accept (wanted : Kind → Bool) :
    Matches (Parse.accept wanted) (accept wanted : Run σ ε (Option Token)) := by
  intro ts kept
  cases ts with
  | nil => exact .done none [] kept
  | cons t rest =>
    change Ends ((if wanted t.kind then pure (.done (some t) rest) else
        pure (.done none (t :: rest)) : ExceptT ε (StateM σ) (Outcome (Option Token))).run.run kept)
      ((if wanted t.kind then _ else _ : Run σ ε (Option Token)).run.run ⟨t :: rest, kept⟩)
    split
    · exact .done (some t) rest kept
    · exact .done none (t :: rest) kept

end

section

variable (p : Reader σ ε)

/-- What a call of the reporter comes to in the parser. -/
theorem run_call (action : ExceptT ε (StateM σ) α) (s : State σ) :
    (call action).run.run s =
      match action.run.run s.kept with
      | (.ok a, kept) => (.ok a, { s with kept })
      | (.error value, kept) => (.error (.foreign value), { s with kept }) := rfl

/-- A fault is told, and after it both runs end. -/
theorem ends_report {outcome : Outcome α} {q : Run σ ε α} {ts : List Token} (f : SyntaxFault)
    (after : ∀ kept, Ends (.ok outcome, kept) (q.run.run ⟨ts, kept⟩)) (kept : σ) :
    Ends ((p.report f >>= fun _ => pure outcome : ExceptT ε (StateM σ) _).run.run kept)
      ((call (p.report f) >>= fun _ => q).run.run ⟨ts, kept⟩) := by
  rw [ExceptT.run_bind, ExceptT.run_bind, StateT.run_bind, StateT.run_bind, run_call]
  dsimp only
  generalize (p.report f).run.run kept = heard
  obtain ⟨result, kept⟩ := heard
  cases result with
  | ok _ => exact after kept
  | error value => exact .stop value ts kept

theorem errorAt_bind (t : Token) (fault : Fault) (g : Panic ε → Run σ ε α) :
    (p.errorAt t fault >>= g) = call (p.report ⟨t, fault⟩) >>= fun _ => g .bailout := by
  rw [Reader.errorAt, bind_assoc]
  rfl

theorem matches_reportAt (place : List Token) (fault : Fault) :
    Matches (reportAt p.tell place fault) (call (p.report ⟨place.headD p.finish, fault⟩)) := by
  intro ts kept
  rw [← bind_pure (call _)]
  exact ends_report p _ (fun kept => .done () ts kept) kept

/-- A fault that is reported before both parsers go on. -/
theorem Matches.errorAt {f : Parser (ExceptT ε (StateM σ)) α} {g : Run σ ε α} {place : List Token}
    {t : Token} (blamed : place.headD p.finish = t) (fault : Fault) (next : Matches f g) :
    Matches (reportAt p.tell place fault >>= fun _ => f) (p.errorAt t fault >>= fun _ => g) := by
  rw [errorAt_bind, ← blamed]
  exact (matches_reportAt p place fault).bind fun _ => next

/-- Both parsers know the tokens ahead. -/
theorem matches_ahead {f : List Token → Parser (ExceptT ε (StateM σ)) α} {g : State σ → Run σ ε α}
    (next : ∀ ts kept, Matches (f ts) (g ⟨ts, kept⟩)) : Matches (ahead >>= f) (get >>= g) :=
  fun ts kept => next ts kept ts kept

theorem matches_get {f : Parser (ExceptT ε (StateM σ)) α} {g : State σ → Run σ ε α}
    (next : ∀ ts kept, Ends ((f ts).run.run kept) ((g ⟨ts, kept⟩).run.run ⟨ts, kept⟩)) :
    Matches f (get >>= g) :=
  next

/-- The parser without panics has the tokens from here on where the other one has the first. -/
theorem matches_peek {f : List Token → Parser (ExceptT ε (StateM σ)) α} {g : Token → Run σ ε α}
    (next : ∀ place, Matches (f place) (g (place.headD p.finish))) :
    Matches (ahead >>= f) (p.peek >>= g) :=
  fun ts kept => next ts ts kept

theorem matches_fail (fault : Fault) :
    Matches (Parse.fail p.tell fault : Parser _ α) (p.fail fault) := by
  intro ts kept
  change Ends _ ((p.errorAt (ts.headD p.finish) fault >>= fun value => throw value).run.run
    ⟨ts, kept⟩)
  rw [errorAt_bind]
  exact ends_report p _ (fun kept => .bail ts kept) kept

theorem expect_eq (tell : Listener (ExceptT ε (StateM σ))) (kind : Kind) (fault : Fault) :
    Parse.expect tell kind fault = Parse.accept (· == kind) >>= fun found =>
      match found with
      | some t => pure t
      | none => Parse.fail tell fault := by
  funext ts
  cases ts with
  | nil => rfl
  | cons t rest =>
    change (if t.kind = kind then _ else _ : ExceptT ε (StateM σ) (Outcome Token)) =
      ((if t.kind == kind then _ else _ : ExceptT ε (StateM σ) (Outcome (Option Token))) >>= _)
    by_cases same : t.kind = kind
    · rw [if_pos same, if_pos (beq_iff_eq.mpr same)]
      rfl
    · rw [if_neg same, if_neg (fun h => same (beq_iff_eq.mp h))]
      rfl

theorem matches_expect (kind : Kind) (fault : Fault) :
    Matches (Parse.expect p.tell kind fault) (p.expect kind fault) := by
  rw [expect_eq, Reader.expect]
  apply (matches_accept _).bind
  intro found
  cases found with
  | some t => exact matches_pure t
  | none => exact matches_fail p fault

/-- A report that is made on a condition, at the next token. -/
theorem matches_reportIf {c : Prop} [Decidable c] {fault : Fault}
    {f : Parser (ExceptT ε (StateM σ)) α} {g : Run σ ε α} (next : Matches f g) :
    Matches
      (ahead >>= fun place => if c then reportAt p.tell place fault >>= fun _ => f else f)
      (if c then p.peek >>= fun t => p.errorAt t fault >>= fun _ => g else g) := by
  split
  · exact matches_peek p fun place => Matches.errorAt p rfl fault next
  · exact fun ts kept => next ts kept

/-- A token that is read is the first of those that were ahead. -/
theorem matches_acceptAt (wanted : Kind → Bool)
    {f : List Token → Option Token → Parser (ExceptT ε (StateM σ)) α}
    {g : Option Token → Run σ ε α} (refused : ∀ place, Matches (f place none) (g none))
    (read : ∀ t rest, Matches (f (t :: rest) (some t)) (g (some t))) :
    Matches (ahead >>= fun place => Parse.accept wanted >>= f place) (accept wanted >>= g) := by
  intro ts kept
  cases ts with
  | nil => exact refused [] [] kept
  | cons t rest =>
    change Ends (((if wanted t.kind then pure (.done (some t) rest) else
        pure (.done none (t :: rest)) : ExceptT ε (StateM σ) (Outcome (Option Token))) >>=
          fun outcome => _).run.run kept)
      (((if wanted t.kind then _ else _ : Run σ ε (Option Token)) >>= g).run.run ⟨t :: rest, kept⟩)
    split
    · exact read t rest rest kept
    · exact refused (t :: rest) (t :: rest) kept

end

variable {p : Reader σ ε} {n : Nat}

/-- With `n` units of fuel all parts of an expression end alike. -/
structure ExpressionsMatch (p : Reader σ ε) (n : Nat) : Prop where
  expression : Matches (Parse.expression p.tell n) (p.expression n)
  binary : ∀ level, Matches (Parse.binary p.tell n level) (p.binary n level)
  operand : ∀ level, Matches (Parse.operand p.tell n level) (p.operand n level)
  climb : ∀ level left, Matches (Parse.climb p.tell n level left) (p.climb n level left)
  unary : Matches (Parse.unary p.tell n) (p.unary n)
  calls : ∀ callee, Matches (Parse.calls p.tell n callee) (p.calls n callee)
  arguments : ∀ count, Matches (Parse.arguments p.tell n count) (p.arguments n count)
  primary : Matches (Parse.primary p.tell n) (p.primary n)

private theorem expression_matches (ih : ExpressionsMatch p n) :
    Matches (Parse.expression p.tell (n + 1)) (p.expression (n + 1)) := by
  rw [Parse.expression, Reader.expression]
  apply (ih.binary .or).bind
  intro left
  apply matches_acceptAt
  · exact fun _ => matches_pure left
  · intro equal rest
    apply ih.expression.bind
    intro value
    cases left with
    | identifier name => exact matches_pure _
    | _ => exact Matches.errorAt p rfl _ (matches_pure _)

private theorem operand_matches (ih : ExpressionsMatch p n) (level : Level) :
    Matches (Parse.operand p.tell (n + 1) level) (p.operand (n + 1) level) := by
  rw [Parse.operand, Reader.operand]
  cases level with
  | factor => exact ih.unary
  | _ => exact ih.binary _

private theorem binary_matches (ih : ExpressionsMatch p n) (level : Level) :
    Matches (Parse.binary p.tell (n + 1) level) (p.binary (n + 1) level) := by
  rw [Parse.binary, Reader.binary]
  exact (ih.operand level).bind fun left => ih.climb level left

private theorem climb_matches (ih : ExpressionsMatch p n) (level : Level) (left : Expr) :
    Matches (Parse.climb p.tell (n + 1) level left) (p.climb (n + 1) level left) := by
  rw [Parse.climb, Reader.climb]
  apply (matches_accept _).bind
  intro operator
  cases operator with
  | none => exact matches_pure left
  | some operator => exact (ih.operand level).bind fun right => ih.climb level _

private theorem unary_matches (ih : ExpressionsMatch p n) :
    Matches (Parse.unary p.tell (n + 1)) (p.unary (n + 1)) := by
  rw [Parse.unary, Reader.unary]
  apply (matches_accept _).bind
  intro operator
  cases operator with
  | none => exact ih.primary.bind fun callee => ih.calls callee
  | some operator => exact ih.unary.bind fun right => matches_pure _

private theorem calls_match (ih : ExpressionsMatch p n) (callee : Expr) :
    Matches (Parse.calls p.tell (n + 1) callee) (p.calls (n + 1) callee) := by
  rw [Parse.calls, Reader.calls]
  apply (matches_accept _).bind
  intro opening
  cases opening with
  | none => exact matches_pure callee
  | some _ =>
    have close : ∀ given, Matches
        (Parse.expect p.tell .rightParen .argumentsNeedClosing >>= fun paren =>
          Parse.calls p.tell n (.call callee paren given))
        (p.expect .rightParen .argumentsNeedClosing >>= fun paren =>
          p.calls n (.call callee paren given)) :=
      fun given => (matches_expect p _ _).bind fun paren => ih.calls _
    apply (matches_nextIs _).bind
    intro empty
    cases empty with
    | true => exact (matches_pure []).bind close
    | false => exact (ih.arguments 0).bind close

private theorem arguments_match (ih : ExpressionsMatch p n) (count : Nat) :
    Matches (Parse.arguments p.tell (n + 1) count) (p.arguments (n + 1) count) := by
  rw [Parse.arguments, Reader.arguments]
  apply matches_reportIf
  apply ih.expression.bind
  intro first
  apply (matches_accept _).bind
  intro comma
  cases comma with
  | none => exact matches_pure [first]
  | some _ => exact (ih.arguments (count + 1)).bind fun rest => matches_pure (first :: rest)

private theorem primary_matches (ih : ExpressionsMatch p n) :
    Matches (Parse.primary p.tell (n + 1)) (p.primary (n + 1)) := by
  rw [Parse.primary, Reader.primary]
  apply (matches_accept _).bind
  intro first
  cases first with
  | none => exact matches_fail p _
  | some t =>
    have grouping := ih.expression.bind fun inner =>
      (matches_expect p .rightParen .groupingNeedsClosing).bind fun _ =>
        matches_pure (Expr.grouping inner)
    dsimp only
    cases t.kind with
    | false_ | true_ | nil | number | string | identifier => exact matches_pure _
    | _ => exact grouping

theorem expressions_match (p : Reader σ ε) (n : Nat) : ExpressionsMatch p n := by
  induction n with
  | zero =>
    constructor <;> intros <;> exact matches_spent
  | succ n ih =>
    exact {
      expression := expression_matches ih
      binary := binary_matches ih
      operand := operand_matches ih
      climb := climb_matches ih
      unary := unary_matches ih
      calls := calls_match ih
      arguments := arguments_match ih
      primary := primary_matches ih }

theorem matches_expr (p : Reader σ ε) : Matches (Parse.expr p.tell) p.expr := by
  unfold Parse.expr Reader.expr
  apply matches_get
  exact fun ts kept => (expressions_match p _).expression ts kept

theorem matches_declarationTail (p : Reader σ ε) :
    Matches (Parse.declarationTail p.tell) p.declarationTail := by
  rw [Parse.declarationTail, Reader.declarationTail]
  apply (matches_expect p _ _).bind
  intro name
  have close : ∀ initializer, Matches
      (Parse.expect p.tell .semicolon .declarationNeedsSemicolon >>= fun _ =>
        pure (Stmt.declare name initializer))
      (p.expect .semicolon .declarationNeedsSemicolon >>= fun _ =>
        pure (Stmt.declare name initializer)) :=
    fun initializer => (matches_expect p _ _).bind fun _ => matches_pure _
  apply (matches_accept _).bind
  intro sign
  cases sign with
  | none => exact (matches_pure none).bind close
  | some _ => exact ((matches_expr p).map some).bind close

theorem matches_expressionStatement (p : Reader σ ε) :
    Matches (Parse.expressionStatement p.tell) p.expressionStatement := by
  rw [Parse.expressionStatement, Reader.expressionStatement]
  exact (matches_expr p).bind fun value => (matches_expect p _ _).bind fun _ => matches_pure _

theorem matches_printTail (p : Reader σ ε) : Matches (Parse.printTail p.tell) p.printTail := by
  rw [Parse.printTail, Reader.printTail]
  exact (matches_expr p).bind fun value => (matches_expect p _ _).bind fun _ => matches_pure _

theorem matches_initializerClause (p : Reader σ ε) :
    Matches (Parse.initializerClause p.tell) p.initializerClause := by
  rw [Parse.initializerClause, Reader.initializerClause]
  apply (matches_accept _).bind
  intro word
  cases word with
  | none => exact (matches_expressionStatement p).map some
  | some t =>
    dsimp only
    split
    · exact matches_pure none
    · exact (matches_declarationTail p).map some

theorem matches_clause (p : Reader σ ε) (closing : Kind) :
    Matches (Parse.clause p.tell closing) (p.clause closing) := by
  rw [Parse.clause, Reader.clause]
  apply (matches_nextIs closing).bind
  intro empty
  cases empty with
  | true => exact matches_pure none
  | false => exact (matches_expr p).map some

section

variable {body : Parser (ExceptT ε (StateM σ)) Stmt} {body' : Run σ ε Stmt}

theorem matches_forTail (bodies : Matches body body') :
    Matches (Parse.forTail p.tell body) (p.forTail body') := by
  rw [Parse.forTail, Reader.forTail]
  apply (matches_expect p _ _).bind
  intro opening
  apply (matches_initializerClause p).bind
  intro initializer
  apply (matches_clause p _).bind
  intro condition
  apply (matches_expect p _ _).bind
  intro semicolon
  apply (matches_clause p _).bind
  intro increment
  apply (matches_expect p _ _).bind
  intro closing
  exact bodies.bind fun body => matches_pure _

theorem matches_ifTail (bodies : Matches body body') :
    Matches (Parse.ifTail p.tell body) (p.ifTail body') := by
  rw [Parse.ifTail, Reader.ifTail]
  apply (matches_expect p _ _).bind
  intro opening
  apply (matches_expr p).bind
  intro condition
  apply (matches_expect p _ _).bind
  intro closing
  apply bodies.bind
  intro consequent
  apply (matches_accept _).bind
  intro word
  cases word with
  | none => exact matches_pure _
  | some _ => exact bodies.bind fun alternative => matches_pure _

theorem matches_whileTail (bodies : Matches body body') :
    Matches (Parse.whileTail p.tell body) (p.whileTail body') := by
  rw [Parse.whileTail, Reader.whileTail]
  apply (matches_expect p _ _).bind
  intro opening
  apply (matches_expr p).bind
  intro condition
  apply (matches_expect p _ _).bind
  intro closing
  exact bodies.bind fun body => matches_pure _

end

/-- With `n` units of fuel all parts of a program end alike. -/
structure StatementsMatch (p : Reader σ ε) (n : Nat) : Prop where
  statement : Matches (Parse.statement p.tell n) (p.statement n)
  declaration : Matches (recover (Parse.declaration p.tell n)) (p.declaration n)
  declarations : ∀ inBlock,
    Matches (Parse.declarations p.tell n inBlock) (p.declarations n inBlock)

private theorem statement_matches (ih : StatementsMatch p n) :
    Matches (Parse.statement p.tell (n + 1)) (p.statement (n + 1)) := by
  rw [Parse.statement, Reader.statement]
  apply (matches_accept _).bind
  intro word
  cases word with
  | none => exact matches_expressionStatement p
  | some t =>
    have block := (ih.declarations true).bind fun inner =>
      (matches_expect p .rightBrace .blockNeedsBrace).bind fun _ => matches_pure (Stmt.block inner)
    dsimp only
    cases t.kind with
    | for_ => exact matches_forTail ih.statement
    | if_ => exact matches_ifTail ih.statement
    | print => exact matches_printTail p
    | while_ => exact matches_whileTail ih.statement
    | _ => exact block

private theorem declaration_matches (ih : StatementsMatch p n) :
    Matches (recover (Parse.declaration p.tell (n + 1))) (p.declaration (n + 1)) := by
  rw [Parse.declaration, Reader.declaration]
  apply Matches.recovering
  apply (matches_accept _).bind
  intro word
  cases word with
  | none => exact ih.statement
  | some _ => exact matches_declarationTail p

private theorem declarations_match (ih : StatementsMatch p n) (inBlock : Bool) :
    Matches (Parse.declarations p.tell (n + 1) inBlock) (p.declarations (n + 1) inBlock) := by
  rw [Parse.declarations, Reader.declarations]
  apply matches_ahead
  intro ts kept
  dsimp only
  split
  · exact matches_pure []
  · apply Matches.bind ih.declaration
    intro first
    exact (ih.declarations inBlock).bind fun rest => matches_pure _

theorem statements_match (p : Reader σ ε) (n : Nat) : StatementsMatch p n := by
  induction n with
  | zero =>
    exact ⟨matches_spent, matches_spent.recovering, fun _ => matches_spent⟩
  | succ n ih => exact ⟨statement_matches ih, declaration_matches ih, declarations_match ih⟩

/-- What the record of a run comes to when it is told to a reporter. -/
theorem run_replay (report : Reporter σ ε) (r : Recorded SyntaxFault α) (kept : σ) :
    (replay report r).run.run kept =
      match (forM r.records report).run.run kept with
      | (.ok (), kept') => (.ok r.value, kept')
      | (.error value, kept') => (.error value, kept') := by
  rw [replay, ExceptT.run_bind, StateT.run_bind]
  obtain ⟨result, kept'⟩ := (forM r.records report).run.run kept
  cases result <;> rfl

theorem hears_tell (p : Reader σ ε) : (replaying p.report).Hears p.tell (hear p.finish) :=
  hears_replayed p.report (Report.attach p.finish)

/-- The end of a parse that would be done, if nobody stopped it. -/
theorem Ends.of_replay {report : Reporter σ ε} {value : α} {rest : List Token}
    {told : List SyntaxFault} {kept : σ} {ended : Except (Panic ε) α × State σ}
    (ends : Ends ((replay report ⟨.done value rest, told⟩).run.run kept) ended) :
    ended.map id State.kept =
      ((replay report ⟨value, told⟩).run.run kept).map (Except.mapError .foreign) id := by
  rw [run_replay] at ends ⊢
  revert ends
  generalize (forM told report : ExceptT ε (StateM σ) Unit).run.run kept = heard
  intro ends
  obtain ⟨result, kept'⟩ := heard
  cases result <;> cases ends <;> rfl

theorem run_adapt {ε' : Type} (f : ε → ε') (action : ExceptT ε (StateM σ) α) (kept : σ) :
    (action.adapt f).run.run kept = (action.run.run kept).map (Except.mapError f) id := rfl

theorem run_parse (reporter? : Option (Reporter σ ε)) (ts : List Token) (kept : σ) :
    (parse reporter? ts).run.run kept =
      ((Reader.declarations ⟨endToken ts, reporter?⟩ (4 * ((body ts).length + 1)) false).run.run
        ⟨body ts, kept⟩).map id State.kept := rfl

/-- A parse with panics is the parse of a listener that throws, with foreign values in the place of
what it threw.  No bailout is left at the end. -/
theorem parse_eq_statementsM (reporter? : Option (Reporter σ ε)) (ts : List Token) :
    parse reporter? ts =
      ExceptT.adapt .foreign (statementsM (Reader.mk (endToken ts) reporter?).report ts) := by
  let p : Reader σ ε := ⟨endToken ts, reporter?⟩
  obtain ⟨inner, told, read, -⟩ := program_reads (endToken ts) (body ts)
  have run : program p.tell (body ts) = replay p.report ⟨.done inner [], told⟩ :=
    (Correspondence.follows_program (hears_tell p) (body ts)).trans (congrArg _ read)
  apply ExceptT.ext
  apply StateT.ext
  intro kept
  have ends : Ends ((program p.tell (body ts)).run.run kept)
      ((p.declarations (4 * ((body ts).length + 1)) false).run.run ⟨body ts, kept⟩) :=
    (statements_match p _).declarations false (body ts) kept
  rw [run] at ends
  rw [statementsM_eq_replay, recorded_of_done read, run_parse, run_adapt]
  exact ends.of_replay

section

variable {limit : Nat} {word : ε} {f : SyntaxFault} {heard : List SyntaxFault}
  (next : Unit → ExceptT ε (StateM (List SyntaxFault)) α)

theorem stopAt_bind_at (last : heard.length + 1 = limit) :
    (stopAt limit word f >>= next).run.run heard = (.error word, heard) := by
  change ((if heard.length + 1 = limit then throw word else set (heard ++ [f])) >>=
    next).run.run heard = _
  rw [if_pos last]
  rfl

theorem stopAt_bind_before (early : heard.length + 1 ≠ limit) :
    (stopAt limit word f >>= next).run.run heard = (next ()).run.run (heard ++ [f]) := by
  change ((if heard.length + 1 = limit then throw word else set (heard ++ [f])) >>=
    next).run.run heard = _
  rw [if_neg early]
  rfl

end

/-- A listener that stops takes down what comes before its limit.  The induction is over the faults
that are still to be told. -/
theorem stopAt_run {limit : Nat} (word : ε) (faults heard : List SyntaxFault)
    (under : heard.length < limit) :
    (forM faults (stopAt limit word)).run.run heard =
      if limit ≤ heard.length + faults.length then
        (.error word, (heard ++ faults).take (limit - 1))
      else (.ok (), heard ++ faults) := by
  induction faults generalizing heard with
  | nil =>
    rw [List.length_nil, if_neg (by omega), List.append_nil]
    rfl
  | cons f faults ih =>
    rw [List.forM_cons, List.length_cons]
    by_cases last : heard.length + 1 = limit
    · have kept : (heard ++ f :: faults).take (limit - 1) = heard := by
        rw [← last, Nat.add_sub_cancel, List.take_left]
      rw [stopAt_bind_at _ last, if_pos (by omega), kept]
    · have more := ih (heard ++ [f]) (by rw [List.length_append, List.length_singleton]; omega)
      rw [List.length_append, List.length_singleton, List.append_assoc, List.singleton_append]
        at more
      rw [stopAt_bind_before _ last, more, Nat.add_right_comm, Nat.add_assoc]

/-- The record told to a listener that stops. -/
theorem replay_stopAt {limit : Nat} (word : ε) (r : Recorded SyntaxFault α)
    (positive : 1 ≤ limit) :
    (replay (stopAt limit word) r).run.run [] =
      if limit ≤ r.records.length then (.error word, r.records.take (limit - 1))
      else (.ok r.value, r.records) := by
  have told := stopAt_run word r.records [] positive
  rw [List.length_nil, Nat.zero_add, List.nil_append] at told
  rw [replay, ExceptT.run_bind, StateT.run_bind, told]
  split <;> rfl

/-- A reporter that only takes faults down hears all of them. -/
theorem recording_run (take : σ → SyntaxFault → σ) (faults : List SyntaxFault) (kept : σ) :
    (forM faults (recording take : Reporter σ ε)).run.run kept =
      (.ok (), faults.foldl take kept) := by
  induction faults generalizing kept with
  | nil => rfl
  | cons f faults ih =>
    rw [List.forM_cons]
    exact ih (take kept f)

/-- A parse ends as its record does when that is told to the reporter. -/
theorem run_parse_replay (reporter? : Option (Reporter σ ε)) (ts : List Token) (kept : σ) :
    (parse reporter? ts).run.run kept =
      ((replay (Reader.mk (endToken ts) reporter?).report (recorded ts)).run.run kept).map
        (Except.mapError .foreign) id := by
  rw [parse_eq_statementsM, run_adapt, statementsM_eq_replay]

/-- The listener that stops is a reporter that panics. -/
theorem parse_stopAt (limit : Nat) (word : Text) (ts : List Token) :
    (parse (some (stopAt limit word)) ts).run.run [] =
      (untilFault limit word ts).map (Except.mapError .foreign) id := by
  rw [parse_eq_statementsM, run_adapt]
  rfl

/-- A declaration at any depth, in the parser with panics and in its record. -/
theorem declaration_ends (p : Reader σ ε) (n : Nat) (place : List Token) (kept : σ) :
    Ends ((replay p.report (recover (Parse.declaration (hear p.finish) n) place)).run.run kept)
      ((p.declaration n).run.run ⟨place, kept⟩) := by
  have run : recover (Parse.declaration p.tell n) place =
      replay p.report (recover (Parse.declaration (hear p.finish) n) place) :=
    (Correspondence.statements_follow (hears_tell p) n).declaration.recover place
  rw [← run]
  exact (statements_match p n).declaration place kept

/-- What a declaration tells a reporter that takes it down. -/
theorem records_of_declaration {finish : Token} {n : Nat} {place rest : List Token}
    {take : σ → SyntaxFault → σ} {kept kept' : σ} {result : Except (Panic ε) (Option Stmt)}
    (run : (Reader.declaration ⟨finish, some (recording take)⟩ n).run.run ⟨place, kept⟩ =
      (result, ⟨rest, kept'⟩)) :
    kept' = (recover (Parse.declaration (hear finish) n) place).records.foldl take kept := by
  have ends := declaration_ends ⟨finish, some (recording take : Reporter σ ε)⟩ n place kept
  rw [run, run_replay, Reader.report, recording_run] at ends
  generalize recover (Parse.declaration (hear finish) n) place = r at ends ⊢
  obtain ⟨value, records⟩ := r
  cases ends <;> rfl

theorem foldl_taking (faults : List SyntaxFault) :
    faults.foldl (fun heard f => heard ++ [f]) [] = faults := by
  rw [List.foldl_append_eq_append, List.nil_append, ← List.flatMap_def, List.flatMap_singleton']

/-- What a reporter can do to a parse. Without one, and with one that only takes faults down, the
statements are the same.  One that panics at its `limit`-th call ends the parse with its value, if
there are so many calls, and has heard the same faults before.  Whatever the reporter, a parse ends
as the telling of its record does.  At any depth, with any declarations around it, a declaration
passes the panic of a reporter on. -/
theorem reporters_never_steer {ε : Type} (ts : List Token) :
    (∀ {σ : Type} (kept : σ),
      (parse (none : Option (Reporter σ ε)) ts).run.run kept = (.ok (recorded ts).value, kept)) ∧
    (∀ {σ : Type} (take : σ → SyntaxFault → σ) (kept : σ),
      (parse (some (recording take : Reporter σ ε)) ts).run.run kept =
        (.ok (recorded ts).value, (recorded ts).records.foldl take kept)) ∧
    (∀ (limit : Nat) (value : ε), 1 ≤ limit →
      (parse (some (stopAt limit value)) ts).run.run [] =
        if limit ≤ (recorded ts).records.length then
          (.error (.foreign value), (recorded ts).records.take (limit - 1))
        else (.ok (recorded ts).value, (recorded ts).records)) ∧
    (∀ {σ : Type} (report : Reporter σ ε) (kept : σ),
      (parse (some report) ts).run.run kept =
        match (forM (recorded ts).records report).run.run kept with
        | (.ok (), kept') => (.ok (recorded ts).value, kept')
        | (.error value, kept') => (.error (.foreign value), kept')) ∧
    ∀ (finish : Token) (n : Nat) (place rest : List Token) (told : List SyntaxFault)
      (result : Except (Panic ε) (Option Stmt)),
      (Reader.declaration ⟨finish, some (recording fun heard f => heard ++ [f])⟩ n).run.run
        ⟨place, []⟩ = (result, ⟨rest, told⟩) →
      ∀ {σ : Type} (report : Reporter σ ε) (kept kept' : σ) (value : ε),
        (forM told report).run.run kept = (.error value, kept') →
        ∃ rest', (Reader.declaration ⟨finish, some report⟩ n).run.run ⟨place, kept⟩ =
          (.error (.foreign value), ⟨rest', kept'⟩) := by
  have heard : ∀ {σ : Type} (report : Reporter σ ε) (kept : σ),
      (parse (some report) ts).run.run kept =
        match (forM (recorded ts).records report).run.run kept with
        | (.ok (), kept') => (.ok (recorded ts).value, kept')
        | (.error value, kept') => (.error (.foreign value), kept') := by
    intro σ report kept
    rw [run_parse_replay, Reader.report, run_replay]
    obtain ⟨result, kept'⟩ := (forM (recorded ts).records report).run.run kept
    cases result <;> rfl
  refine ⟨?nobody, ?recorder, ?stopper, heard, ?depth⟩
  case nobody =>
    intro σ kept
    have silent : (Reader.mk (endToken ts) none : Reader σ ε).report =
      recording fun kept _ => kept := rfl
    rw [run_parse_replay, silent, run_replay, recording_run, List.foldl_fixed]
    rfl
  case recorder =>
    intro σ take kept
    rw [heard, recording_run]
  case stopper =>
    intro limit value positive
    rw [run_parse_replay, Reader.report, replay_stopAt value _ positive]
    split <;> rfl
  case depth =>
    intro finish n place rest told result run σ report kept kept' value panics
    have all := records_of_declaration run
    rw [foldl_taking] at all
    have ends := declaration_ends ⟨finish, some report⟩ n place kept
    rw [run_replay, Reader.report, ← all, panics] at ends
    revert ends
    generalize (Reader.declaration ⟨finish, some report⟩ n).run.run ⟨place, kept⟩ = ended
    intro ends
    cases ends with
    | stop value rest' kept' => exact ⟨rest', rfl⟩

/-- A block in a block, with a wrong target and a statement without its value inside, and a good
statement behind. -/
def slipsInside : List Token :=
  [.leftBrace, .leftBrace, .number, .equal, .number, .semicolon, .print, .semicolon, .rightBrace,
    .print, .number, .semicolon, .rightBrace].map (⟨·, [], .nothing, 1⟩)

/-- The second of the two panics leaves both blocks. -/
theorem slips_inside_stop_the_parse :
    let enough : Reporter (List SyntaxFault) Text := stopAt 2 (text "enough")
    let target : SyntaxFault := ⟨⟨.equal, [], .nothing, 1⟩, .invalidTarget⟩
    let value : SyntaxFault := ⟨⟨.semicolon, [], .nothing, 1⟩, .needsExpression⟩
    1 ≤ 2 ∧
    (parse (some enough) slipsInside).run.run [] = (.error (.foreign (text "enough")), [target]) ∧
    (∃ inner rest, (Reader.declaration ⟨endToken slipsInside,
        some (recording fun heard f => heard ++ [f])⟩ 40).run.run ⟨slipsInside.drop 1, []⟩ =
          ((.ok (some (.block [inner])) : Except (Panic Text) _), ⟨rest, [target, value]⟩)) ∧
    ∃ rest, (Reader.declaration ⟨endToken slipsInside, some enough⟩ 40).run.run
      ⟨slipsInside.drop 1, []⟩ = (.error (.foreign (text "enough")), ⟨rest, [target]⟩) := by
  intro enough target value
  obtain ⟨-, -, stops, -, passes⟩ := reporters_never_steer (ε := Text) slipsInside
  refine ⟨by decide, stops 2 (text "enough") (by decide), ⟨_, _, rfl⟩, ?_⟩
  exact passes _ 40 (slipsInside.drop 1) _ [target, value] _ rfl enough [] _ _ rfl

end Bhasha.Parse.Panicking
