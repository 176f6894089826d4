import Bhasha.Proofs.Parse.StatementSound

/-!
# What a listener hears

The parsers are written for any monad that a listener may act in.  Two monads correspond when there
is a relation between their actions that holds of pure values and is kept by sequencing.  Parsers
that run in corresponding monads, with listeners that correspond, run in correspondence from any
list of tokens, because they never look at what a listener did.

The correspondence that matters is replaying.  A record of reports is replayed to a listener by
telling it the reports in their order and giving the value of the record.  Every run of a parser
with a listener is the replay of the run that only takes the reports down.
-/

namespace Bhasha.Parse

/-- A relation between the actions of two monads. -/
structure Correspondence (m m' : Type → Type) [Monad m] [Monad m'] where
  Rel : {α : Type} → m α → m' α → Prop
  ofPure : ∀ {α : Type} (a : α), Rel (pure a : m α) (pure a : m' α)
  ofBind : ∀ {α β : Type} {x : m α} {y : m' α} {f : α → m β} {g : α → m' β},
    Rel x y → (∀ a, Rel (f a) (g a)) → Rel (x >>= f) (y >>= g)

namespace Correspondence

section

variable {m m' : Type → Type} [Monad m] [Monad m'] {α β : Type}

/-- Two parsers that run in correspondence from any list of tokens. -/
def Follows (C : Correspondence m m') (p : Parser m α) (q : Parser m' α) : Prop :=
  ∀ ts, C.Rel (p ts) (q ts)

/-- Two listeners that do corresponding things with every report. -/
def Hears (C : Correspondence m m') (tell : Listener m) (tell' : Listener m') : Prop :=
  ∀ r, C.Rel (tell r) (tell' r)

variable {C : Correspondence m m'} {tell : Listener m} {tell' : Listener m'}

theorem Follows.bind {p : Parser m α} {q : Parser m' α} {f : α → Parser m β}
    {g : α → Parser m' β} (first : C.Follows p q) (next : ∀ a, C.Follows (f a) (g a)) :
    C.Follows (p >>= f) (q >>= g) := by
  intro ts
  apply C.ofBind (first ts)
  intro outcome
  cases outcome with
  | done a rest => exact next a rest
  | bail rest => exact C.ofPure _

theorem follows_pure (a : α) : C.Follows (pure a : Parser m α) (pure a) :=
  fun _ => C.ofPure _

theorem Follows.map {p : Parser m α} {q : Parser m' α} (f : α → β) (h : C.Follows p q) :
    C.Follows (f <$> p) (f <$> q) :=
  Follows.bind h fun a => follows_pure (f a)

theorem follows_spent : C.Follows (spent : Parser m α) spent := fun _ => C.ofPure _

theorem follows_ahead : C.Follows (ahead : Parser m (List Token)) ahead := fun _ => C.ofPure _

theorem follows_nextIs (kind : Kind) : C.Follows (nextIs kind : Parser m Bool) (nextIs kind) :=
  fun _ => C.ofPure _

theorem follows_accept (wanted : Kind → Bool) :
    C.Follows (accept wanted : Parser m (Option Token)) (accept wanted) := by
  intro ts
  cases ts with
  | nil => exact C.ofPure _
  | cons t rest =>
    change C.Rel (if wanted t.kind then _ else _) (if wanted t.kind then _ else _)
    split <;> exact C.ofPure _

theorem follows_reportAt (hears : C.Hears tell tell') (place : List Token) (fault : Fault) :
    C.Follows (reportAt tell place fault) (reportAt tell' place fault) :=
  fun _ => C.ofBind (hears _) fun _ => C.ofPure _

theorem follows_fail (hears : C.Hears tell tell') (fault : Fault) :
    C.Follows (fail tell fault : Parser m α) (fail tell' fault) :=
  fun _ => C.ofBind (hears _) fun _ => C.ofPure _

theorem follows_expect (hears : C.Hears tell tell') (kind : Kind) (fault : Fault) :
    C.Follows (expect tell kind fault) (expect tell' kind fault) := by
  intro ts
  cases ts with
  | nil => exact follows_fail hears fault []
  | cons t rest =>
    change C.Rel (if t.kind = kind then _ else _) (if t.kind = kind then _ else _)
    split
    · exact C.ofPure _
    · exact follows_fail hears fault (t :: rest)

/-- A report that is made on a condition, before both parsers go on. -/
theorem follows_reportIf {c : Prop} [Decidable c] {report : Parser m Unit}
    {report' : Parser m' Unit} {p : Parser m α} {q : Parser m' α}
    (reports : C.Follows report report') (next : C.Follows p q) :
    C.Follows (if c then report >>= fun _ => p else p)
      (if c then report' >>= fun _ => q else q) := by
  split
  · exact reports.bind fun _ => next
  · exact next

theorem Follows.recover {p : Parser m α} {q : Parser m' α} (h : C.Follows p q) :
    C.Follows (Parse.recover p) (Parse.recover q) := by
  intro ts
  apply C.ofBind (h ts)
  intro outcome
  cases outcome with
  | done a rest => exact C.ofPure _
  | bail rest => exact C.ofPure _

end

variable {m m' : Type → Type} [Monad m] [Monad m'] {C : Correspondence m m'}
  {tell : Listener m} {tell' : Listener m'} {n : Nat}

/-- All parsers of expressions with `n` units of fuel run in correspondence. -/
structure ExpressionsFollow (C : Correspondence m m') (tell : Listener m) (tell' : Listener m')
    (n : Nat) : Prop where
  expression : C.Follows (expression tell n) (expression tell' n)
  binary : ∀ level, C.Follows (binary tell n level) (binary tell' n level)
  operand : ∀ level, C.Follows (operand tell n level) (operand tell' n level)
  climb : ∀ level left, C.Follows (climb tell n level left) (climb tell' n level left)
  unary : C.Follows (unary tell n) (unary tell' n)
  calls : ∀ callee, C.Follows (calls tell n callee) (calls tell' n callee)
  arguments : ∀ count, C.Follows (arguments tell n count) (arguments tell' n count)
  primary : C.Follows (primary tell n) (primary tell' n)

private theorem expression_follows (hears : C.Hears tell tell')
    (ih : ExpressionsFollow C tell tell' n) :
    C.Follows (expression tell (n + 1)) (expression tell' (n + 1)) := by
  rw [expression, expression]
  apply (ih.binary .or).bind
  intro left
  apply follows_ahead.bind
  intro place
  apply (follows_accept _).bind
  intro sign
  cases sign with
  | none => exact follows_pure left
  | some _ =>
    apply ih.expression.bind
    intro value
    cases left with
    | identifier name => exact follows_pure _
    | _ => exact (follows_reportAt hears place _).bind fun _ => follows_pure _

private theorem operand_follows (ih : ExpressionsFollow C tell tell' n) (level : Level) :
    C.Follows (operand tell (n + 1) level) (operand tell' (n + 1) level) := by
  rw [operand, operand]
  cases level with
  | factor => exact ih.unary
  | _ => exact ih.binary _

private theorem binary_follows (ih : ExpressionsFollow C tell tell' n) (level : Level) :
    C.Follows (binary tell (n + 1) level) (binary tell' (n + 1) level) := by
  rw [binary, binary]
  exact (ih.operand level).bind fun left => ih.climb level left

private theorem climb_follows (ih : ExpressionsFollow C tell tell' n) (level : Level)
    (left : Expr) : C.Follows (climb tell (n + 1) level left) (climb tell' (n + 1) level left) := by
  rw [climb, climb]
  apply (follows_accept _).bind
  intro operator
  cases operator with
  | none => exact follows_pure left
  | some operator => exact (ih.operand level).bind fun right => ih.climb level _

private theorem unary_follows (ih : ExpressionsFollow C tell tell' n) :
    C.Follows (unary tell (n + 1)) (unary tell' (n + 1)) := by
  rw [unary, unary]
  apply (follows_accept _).bind
  intro operator
  cases operator with
  | none => exact ih.primary.bind fun callee => ih.calls callee
  | some operator => exact ih.unary.bind fun right => follows_pure _

private theorem calls_follow (hears : C.Hears tell tell') (ih : ExpressionsFollow C tell tell' n)
    (callee : Expr) : C.Follows (calls tell (n + 1) callee) (calls tell' (n + 1) callee) := by
  rw [calls, calls]
  apply (follows_accept _).bind
  intro opening
  cases opening with
  | none => exact follows_pure callee
  | some _ =>
    have close : ∀ given, C.Follows
        (expect tell .rightParen .argumentsNeedClosing >>= fun paren =>
          calls tell n (.call callee paren given))
        (expect tell' .rightParen .argumentsNeedClosing >>= fun paren =>
          calls tell' n (.call callee paren given)) :=
      fun given => (follows_expect hears _ _).bind fun paren => ih.calls _
    apply (follows_nextIs _).bind
    intro empty
    cases empty with
    | true => exact (follows_pure []).bind close
    | false => exact (ih.arguments 0).bind close

private theorem arguments_follow (hears : C.Hears tell tell')
    (ih : ExpressionsFollow C tell tell' n) (count : Nat) :
    C.Follows (arguments tell (n + 1) count) (arguments tell' (n + 1) count) := by
  rw [arguments, arguments]
  apply follows_ahead.bind
  intro place
  apply follows_reportIf (follows_reportAt hears place _)
  apply ih.expression.bind
  intro first
  apply (follows_accept _).bind
  intro comma
  cases comma with
  | none => exact follows_pure [first]
  | some _ => exact (ih.arguments (count + 1)).bind fun rest => follows_pure (first :: rest)

private theorem primary_follows (hears : C.Hears tell tell')
    (ih : ExpressionsFollow C tell tell' n) :
    C.Follows (primary tell (n + 1)) (primary tell' (n + 1)) := by
  rw [primary, primary]
  apply (follows_accept _).bind
  intro first
  cases first with
  | none => exact follows_fail hears _
  | some t =>
    dsimp only
    split
    case h_7 =>
      apply ih.expression.bind
      intro inner
      exact (follows_expect hears _ _).bind fun _ => follows_pure _
    all_goals exact follows_pure _

theorem expressions_follow (hears : C.Hears tell tell') (n : Nat) :
    ExpressionsFollow C tell tell' n := by
  induction n with
  | zero =>
    constructor <;> intros <;> exact follows_spent
  | succ n ih =>
    exact {
      expression := expression_follows hears ih
      binary := binary_follows ih
      operand := operand_follows ih
      climb := climb_follows ih
      unary := unary_follows ih
      calls := calls_follow hears ih
      arguments := arguments_follow hears ih
      primary := primary_follows hears ih }

section

variable (hears : C.Hears tell tell')
include hears

theorem follows_expr : C.Follows (expr tell) (expr tell') :=
  fun ts => (expressions_follow hears _).expression ts

theorem follows_declarationTail : C.Follows (declarationTail tell) (declarationTail tell') := by
  rw [declarationTail, declarationTail]
  apply (follows_expect hears _ _).bind
  intro name
  have close : ∀ initializer, C.Follows
      (expect tell .semicolon .declarationNeedsSemicolon >>= fun _ =>
        pure (Stmt.declare name initializer))
      (expect tell' .semicolon .declarationNeedsSemicolon >>= fun _ =>
        pure (Stmt.declare name initializer)) :=
    fun initializer => (follows_expect hears _ _).bind fun _ => follows_pure _
  apply (follows_accept _).bind
  intro sign
  cases sign with
  | none => exact (follows_pure none).bind close
  | some _ => exact ((follows_expr hears).map some).bind close

theorem follows_expressionStatement :
    C.Follows (expressionStatement tell) (expressionStatement tell') := by
  rw [expressionStatement, expressionStatement]
  exact (follows_expr hears).bind fun value =>
    (follows_expect hears _ _).bind fun _ => follows_pure _

theorem follows_printTail : C.Follows (printTail tell) (printTail tell') := by
  rw [printTail, printTail]
  exact (follows_expr hears).bind fun value =>
    (follows_expect hears _ _).bind fun _ => follows_pure _

theorem follows_initializerClause :
    C.Follows (initializerClause tell) (initializerClause tell') := by
  rw [initializerClause, initializerClause]
  apply (follows_accept _).bind
  intro word
  cases word with
  | none => exact (follows_expressionStatement hears).map some
  | some t =>
    dsimp only
    split
    · exact follows_pure none
    · exact (follows_declarationTail hears).map some

theorem follows_clause (closing : Kind) :
    C.Follows (clause tell closing) (clause tell' closing) := by
  rw [clause, clause]
  apply (follows_nextIs closing).bind
  intro empty
  cases empty with
  | true => exact follows_pure none
  | false => exact (follows_expr hears).map some

variable {p : Parser m Stmt} {q : Parser m' Stmt}

theorem follows_forTail (bodies : C.Follows p q) :
    C.Follows (forTail tell p) (forTail tell' q) := by
  rw [forTail, forTail]
  apply (follows_expect hears _ _).bind
  intro opening
  apply (follows_initializerClause hears).bind
  intro initializer
  apply (follows_clause hears _).bind
  intro condition
  apply (follows_expect hears _ _).bind
  intro semicolon
  apply (follows_clause hears _).bind
  intro increment
  apply (follows_expect hears _ _).bind
  intro closing
  exact bodies.bind fun body => follows_pure _

theorem follows_ifTail (bodies : C.Follows p q) : C.Follows (ifTail tell p) (ifTail tell' q) := by
  rw [ifTail, ifTail]
  apply (follows_expect hears _ _).bind
  intro opening
  apply (follows_expr hears).bind
  intro condition
  apply (follows_expect hears _ _).bind
  intro closing
  apply bodies.bind
  intro consequent
  apply (follows_accept _).bind
  intro word
  cases word with
  | none => exact follows_pure _
  | some _ => exact bodies.bind fun alternative => follows_pure _

theorem follows_whileTail (bodies : C.Follows p q) :
    C.Follows (whileTail tell p) (whileTail tell' q) := by
  rw [whileTail, whileTail]
  apply (follows_expect hears _ _).bind
  intro opening
  apply (follows_expr hears).bind
  intro condition
  apply (follows_expect hears _ _).bind
  intro closing
  exact bodies.bind fun body => follows_pure _

end

/-- All parsers of statements with `n` units of fuel run in correspondence. -/
structure StatementsFollow (C : Correspondence m m') (tell : Listener m) (tell' : Listener m')
    (n : Nat) : Prop where
  statement : C.Follows (statement tell n) (statement tell' n)
  declaration : C.Follows (declaration tell n) (declaration tell' n)
  declarations : ∀ inBlock, C.Follows (declarations tell n inBlock) (declarations tell' n inBlock)

private theorem statement_follows (hears : C.Hears tell tell')
    (ih : StatementsFollow C tell tell' n) :
    C.Follows (statement tell (n + 1)) (statement tell' (n + 1)) := by
  rw [statement, statement]
  apply (follows_accept _).bind
  intro word
  cases word with
  | none => exact follows_expressionStatement hears
  | some t =>
    dsimp only
    split
    · exact follows_forTail hears ih.statement
    · exact follows_ifTail hears ih.statement
    · exact follows_printTail hears
    · exact follows_whileTail hears ih.statement
    · apply (ih.declarations true).bind
      intro inner
      exact (follows_expect hears _ _).bind fun _ => follows_pure _

private theorem declaration_follows (hears : C.Hears tell tell')
    (ih : StatementsFollow C tell tell' n) :
    C.Follows (declaration tell (n + 1)) (declaration tell' (n + 1)) := by
  rw [declaration, declaration]
  apply (follows_accept _).bind
  intro word
  cases word with
  | none => exact ih.statement
  | some _ => exact follows_declarationTail hears

private theorem declarations_follow (ih : StatementsFollow C tell tell' n) (inBlock : Bool) :
    C.Follows (declarations tell (n + 1) inBlock) (declarations tell' (n + 1) inBlock) := by
  rw [declarations, declarations]
  apply follows_ahead.bind
  intro left
  split
  · exact follows_pure []
  · apply ih.declaration.recover.bind
    intro first
    exact (ih.declarations inBlock).bind fun rest => follows_pure _

theorem statements_follow (hears : C.Hears tell tell') (n : Nat) :
    StatementsFollow C tell tell' n := by
  induction n with
  | zero =>
    constructor <;> intros <;> exact follows_spent
  | succ n ih =>
    exact ⟨statement_follows hears ih, declaration_follows hears ih, declarations_follow ih⟩

theorem follows_program (hears : C.Hears tell tell') :
    C.Follows (program tell) (program tell') :=
  fun ts => (statements_follow hears _).declarations false ts

end Correspondence

section

variable {m : Type → Type} [Monad m] {ρ α : Type}

/-- Tells a record to a listener, note by note, and gives its value. -/
def replay (tell : ρ → m Unit) (r : Recorded ρ α) : m α := do
  forM r.records tell
  pure r.value

theorem replay_note [LawfulMonad m] (tell : ρ → m Unit) (note : ρ) :
    replay tell (Recorded.note note) = tell note := by
  simp [replay, Recorded.note]

theorem replay_bind [LawfulMonad m] {β : Type} (tell : ρ → m Unit) (r : Recorded ρ α)
    (f : α → Recorded ρ β) :
    replay tell (r >>= f) = replay tell r >>= fun a => replay tell (f a) := by
  simp [replay, bind, List.forM_append]

/-- An action corresponds to a record when it is the replay of the record. -/
def replaying [LawfulMonad m] (tell : ρ → m Unit) : Correspondence m (Recorded ρ) where
  Rel x r := x = replay tell r
  ofPure a := by simp [replay, pure]
  ofBind first next := by
    rw [first, replay_bind]
    exact bind_congr next

instance : LawfulMonad (Recorded ρ) := LawfulMonad.mk' (Recorded ρ)
  (fun x => congrArg (Recorded.mk x.value) (List.append_nil x.records))
  (fun _ _ => rfl)
  (fun x f g => congrArg (Recorded.mk _) (List.append_assoc x.records _ _))

/-- A record that is replayed into another one is changed note by note. -/
theorem replay_into {σ : Type} (change : ρ → σ) (r : Recorded ρ α) :
    replay (fun note => Recorded.note (change note)) r = ⟨r.value, r.records.map change⟩ := by
  obtain ⟨value, records⟩ := r
  induction records with
  | nil => rfl
  | cons note records ih =>
    change replay _ (Recorded.note note >>= fun _ => ⟨value, records⟩) = _
    rw [replay_bind, replay_note, ih]
    rfl

theorem hears_replaying [LawfulMonad m] (tell : Listener m) :
    (replaying tell).Hears tell Recorded.note :=
  fun r => (replay_note tell r).symm

theorem hears_replayed [LawfulMonad m] (tell : ρ → m Unit) (place : Report → ρ) :
    (replaying tell).Hears (fun r => tell (place r)) (fun r => Recorded.note (place r)) :=
  fun r => (replay_note tell (place r)).symm

end

/-- What is told of a list of tokens is the record of it, whoever listens. -/
theorem statementsM_eq_replay {m : Type → Type} [Monad m] [LawfulMonad m]
    (tell : SyntaxFault → m Unit) (ts : List Token) :
    statementsM tell ts = replay tell (recorded ts) := by
  have run := Correspondence.follows_program
    (hears_replayed tell (Report.attach (endToken ts))) (body ts)
  apply (replaying tell).ofBind run
  intro outcome
  cases outcome with
  | done statements rest => exact (replaying tell).ofPure statements
  | bail rest => exact (replaying tell).ofPure []

end Bhasha.Parse
