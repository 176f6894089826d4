import Bhasha.Proofs.Parse.Chronicle
import Bhasha.Proofs.Parse.Lookahead

/-!
# What a run can go through

The chronicle of a run has a simple build.  A stretch that goes well reads tokens, tells faults that
are not fatal, and passes through blocks.  A loop over declarations either stops, or goes on behind
a declaration that went well, or gives a declaration up and goes on where recovery resumes.  A
declaration breaks down with a fatal fault at the next token, in the middle of a stretch or at the
end of a block that is not closed.

Everything that is to be said about chronicles follows from this build by induction; the parsers
themselves are looked at in this module only.
-/

namespace Bhasha.Parse

open Correspondence

/-- There is a declaration at `start`, and the parser of declarations, with fuel enough, bails out
of it at `blamed`. -/
structure GivesUp (start blamed : List Token) : Prop where
  begins : start ≠ []
  bails : ∃ n reports, 4 * start.length + 2 ≤ n ∧
    declaration Recorded.note n start = ⟨.bail blamed, reports⟩

mutual

/-- A stretch of a run that goes well, from `ts` to `rest`, inside a number of open blocks. -/
inductive Passage : Nat → List Token → List Event → List Token → Prop
  | stay {blocks : Nat} {ts : List Token} : Passage blocks ts [] ts
  | read {blocks : Nat} {t : Token} {ts rest : List Token} {log : List Event}
      (next : Passage blocks ts log rest) : Passage blocks (t :: ts) log rest
  | told {blocks : Nat} {ts rest : List Token} {log : List Event} {report : Report}
      (mild : report.fault.isFatal = false) (next : Passage blocks ts log rest) :
      Passage blocks ts (.told blocks report :: log) rest
  | block {blocks : Nat} {closing : Token} {ts mid rest : List Token} {inner log : List Event}
      (inside : Rounds (blocks + 1) ts inner (closing :: mid))
      (next : Passage blocks mid log rest) : Passage blocks ts (inner ++ log) rest

/-- The rounds of a loop over declarations, up to the place where it stops. -/
inductive Rounds : Nat → List Token → List Event → List Token → Prop
  | stop {blocks : Nat} {ts : List Token} : Rounds blocks ts [] ts
  | kept {blocks : Nat} {ts mid rest : List Token} {log later : List Event} {s : Stmt}
      (first : Passage blocks ts log mid) (next : Rounds blocks mid later rest) :
      Rounds blocks ts (log ++ .returned (some s) mid :: later) rest
  | given {blocks : Nat} {ts mid rest : List Token} {log later : List Event} (call : GivesUp ts mid)
      (first : Breakdown blocks ts log mid) (next : Rounds blocks (resume mid) later rest) :
      Rounds blocks ts (log ++ .gaveUp ts mid :: .returned none (resume mid) :: later) rest

/-- A declaration that breaks down at `rest`. -/
inductive Breakdown : Nat → List Token → List Event → List Token → Prop
  | here {blocks : Nat} {ts rest : List Token} {log : List Event} {fault : Fault}
      (before : Passage blocks ts log rest) (fatal : fault.isFatal = true) :
      Breakdown blocks ts (log ++ [.told blocks ⟨rest, fault⟩]) rest
  /-- The block that is entered at `mid` is not closed. -/
  | unclosed {blocks : Nat} {ts mid rest : List Token} {log inner : List Event} {fault : Fault}
      (before : Passage blocks ts log mid) (inside : Rounds (blocks + 1) mid inner rest)
      (fatal : fault.isFatal = true) :
      Breakdown blocks ts (log ++ (inner ++ [.told (blocks + 1) ⟨rest, fault⟩])) rest

end

theorem Passage.append {blocks : Nat} {ts mid rest : List Token} {log later : List Event} :
    Passage blocks ts log mid → Passage blocks mid later rest →
      Passage blocks ts (log ++ later) rest
  | .stay, after => after
  | .read next, after => .read (next.append after)
  | .told mild next, after => .told mild (next.append after)
  | .block inside next, after => by
    rw [List.append_assoc]
    exact .block inside (next.append after)

section

variable {blocks : Nat} {ts mid rest : List Token} {log later : List Event}

theorem Passage.breakdown (first : Passage blocks ts log mid)
    (after : Breakdown blocks mid later rest) : Breakdown blocks ts (log ++ later) rest := by
  cases after with
  | here before fatal =>
    rw [← List.append_assoc]
    exact .here (first.append before) fatal
  | unclosed before inside fatal =>
    rw [← List.append_assoc]
    exact .unclosed (first.append before) inside fatal

/-- Reading on to a later place. -/
theorem Passage.of_suffix (further : rest <:+ ts) : Passage blocks ts [] rest := by
  obtain ⟨read, rfl⟩ := further
  induction read with
  | nil => exact .stay
  | cons t read ih => exact .read ih

/-- Faults that are not fatal may be told on the way to a later place. -/
theorem Passage.of_mild {reports : List Report}
    (mild : ∀ r ∈ reports, r.fault.isFatal = false) (further : rest <:+ ts) :
    Passage blocks ts (reports.map (.told blocks)) rest := by
  induction reports with
  | nil => exact .of_suffix further
  | cons r reports ih =>
    rw [List.forall_mem_cons] at mild
    exact .told mild.1 (ih mild.2)

theorem resume_isSuffix (ts : List Token) : resume ts <:+ ts := by
  obtain ⟨skipped, split⟩ := resume_suffix ts
  exact ⟨skipped, split.symm⟩

end

mutual

theorem Passage.suffix {blocks : Nat} {ts rest : List Token} {log : List Event} :
    Passage blocks ts log rest → rest <:+ ts
  | .stay => List.suffix_refl _
  | .read next => next.suffix.trans (List.suffix_cons _ _)
  | .told _ next => next.suffix
  | .block inside next => (next.suffix.trans (List.suffix_cons _ _)).trans inside.suffix

theorem Rounds.suffix {blocks : Nat} {ts rest : List Token} {log : List Event} :
    Rounds blocks ts log rest → rest <:+ ts
  | .stop => List.suffix_refl _
  | .kept first next => next.suffix.trans first.suffix
  | .given _ first next => (next.suffix.trans (resume_isSuffix _)).trans first.suffix

theorem Breakdown.suffix {blocks : Nat} {ts rest : List Token} {log : List Event} :
    Breakdown blocks ts log rest → rest <:+ ts
  | .here before _ => before.suffix
  | .unclosed before inside _ => inside.suffix.trans before.suffix

end

/-- No fault among the reports is fatal. -/
abbrev AllMild (reports : List Report) : Prop := ∀ r ∈ reports, r.fault.isFatal = false

/-- A run without blocks, as it is seen before it is known that its fuel lasts: it may bail out in
silence. -/
inductive Straight {α : Type} (ts : List Token) : Recorded Report (Outcome α) → Prop
  | done {value : α} {rest : List Token} {reports : List Report} (further : rest <:+ ts)
      (mild : AllMild reports) : Straight ts ⟨.done value rest, reports⟩
  | silent {rest : List Token} {reports : List Report} (further : rest <:+ ts)
      (mild : AllMild reports) : Straight ts ⟨.bail rest, reports⟩
  | failed {rest : List Token} {reports : List Report} {fault : Fault} (further : rest <:+ ts)
      (mild : AllMild reports) : Straight ts ⟨.bail rest, reports ++ [⟨rest, fault⟩]⟩

/-- A parser that runs straight from any list of tokens. -/
def Straightforward {α : Type} (p : Parser (Recorded Report) α) : Prop := ∀ ts, Straight ts (p ts)

section

variable {α β : Type}

theorem Straight.after {ts rest : List Token} {reports : List Report}
    {r : Recorded Report (Outcome α)} (h : Straight rest r) (further : rest <:+ ts)
    (mild : AllMild reports) : Straight ts ⟨r.value, reports ++ r.records⟩ := by
  cases h with
  | done further' mild' =>
    exact .done (further'.trans further) (List.forall_mem_append.mpr ⟨mild, mild'⟩)
  | silent further' mild' =>
    exact .silent (further'.trans further) (List.forall_mem_append.mpr ⟨mild, mild'⟩)
  | failed further' mild' =>
    rw [← List.append_assoc]
    exact .failed (further'.trans further) (List.forall_mem_append.mpr ⟨mild, mild'⟩)

theorem Straightforward.bind {p : Parser (Recorded Report) α}
    {f : α → Parser (Recorded Report) β} (first : Straightforward p)
    (next : ∀ a, Straightforward (f a)) : Straightforward (p >>= f) := by
  intro ts
  have run := first ts
  generalize left : p ts = r at run
  cases run with
  | done further mild =>
    rw [bind_of_done left]
    exact (next _ _).after further mild
  | silent further mild =>
    rw [bind_of_bail left]
    exact .silent further mild
  | failed further mild =>
    rw [bind_of_bail left]
    exact .failed further mild

theorem straight_pure (a : α) : Straightforward (pure a : Parser (Recorded Report) α) :=
  fun ts => .done (List.suffix_refl ts) (List.forall_mem_nil _)

theorem straight_ahead : Straightforward (ahead : Parser (Recorded Report) (List Token)) :=
  fun ts => .done (List.suffix_refl ts) (List.forall_mem_nil _)

theorem straight_nextIs (kind : Kind) :
    Straightforward (nextIs kind : Parser (Recorded Report) Bool) :=
  fun ts => .done (List.suffix_refl ts) (List.forall_mem_nil _)

theorem straight_spent : Straightforward (spent : Parser (Recorded Report) α) :=
  fun ts => .silent (List.suffix_refl ts) (List.forall_mem_nil _)

theorem straight_accept (wanted : Kind → Bool) :
    Straightforward (accept wanted : Parser (Recorded Report) (Option Token)) := by
  intro ts
  cases ts with
  | nil => exact straight_pure none []
  | cons t rest =>
    rw [accept_cons]
    split
    · exact .done (List.suffix_cons t rest) (List.forall_mem_nil _)
    · exact straight_pure none (t :: rest)

theorem straight_reportAt {fault : Fault} (mild : fault.isFatal = false) (place : List Token) :
    Straightforward (reportAt Recorded.note place fault) :=
  fun ts => .done (List.suffix_refl ts) (List.forall_mem_singleton.mpr mild)

/-- A report that is made on a condition, before the parser goes on. -/
theorem straight_reportIf {c : Prop} [Decidable c] {report : Parser (Recorded Report) Unit}
    {p : Parser (Recorded Report) α} (reports : Straightforward report) (next : Straightforward p) :
    Straightforward (if c then report >>= fun _ => p else p) := by
  split
  · exact reports.bind fun _ => next
  · exact next

theorem straight_fail (fault : Fault) :
    Straightforward (fail Recorded.note fault : Parser (Recorded Report) α) :=
  fun ts => .failed (List.suffix_refl ts) (List.forall_mem_nil _)

theorem straight_expect (kind : Kind) (fault : Fault) :
    Straightforward (expect Recorded.note kind fault) := by
  intro ts
  cases ts with
  | nil => exact straight_fail fault []
  | cons t rest =>
    change Straight _ (if t.kind = kind then _ else _)
    split
    · exact .done (List.suffix_cons t rest) (List.forall_mem_nil _)
    · exact straight_fail fault (t :: rest)

end

/-- All parsers of expressions with `n` units of fuel run straight. -/
structure ExpressionsStraight (n : Nat) : Prop where
  expression : Straightforward (expression Recorded.note n)
  binary : ∀ level, Straightforward (binary Recorded.note n level)
  operand : ∀ level, Straightforward (operand Recorded.note n level)
  climb : ∀ level left, Straightforward (climb Recorded.note n level left)
  unary : Straightforward (unary Recorded.note n)
  calls : ∀ callee, Straightforward (calls Recorded.note n callee)
  arguments : ∀ count, Straightforward (arguments Recorded.note n count)
  primary : Straightforward (primary Recorded.note n)

variable {n : Nat}

private theorem expression_straight (ih : ExpressionsStraight n) :
    Straightforward (expression Recorded.note (n + 1)) := by
  rw [expression]
  apply (ih.binary .or).bind
  intro left
  apply straight_ahead.bind
  intro place
  apply (straight_accept _).bind
  intro sign
  cases sign with
  | none => exact straight_pure left
  | some _ =>
    apply ih.expression.bind
    intro value
    cases left with
    | identifier name => exact straight_pure _
    | _ => exact (straight_reportAt rfl place).bind fun _ => straight_pure _

private theorem operand_straight (ih : ExpressionsStraight n) (level : Level) :
    Straightforward (operand Recorded.note (n + 1) level) := by
  rw [operand]
  cases level with
  | factor => exact ih.unary
  | _ => exact ih.binary _

private theorem climb_straight (ih : ExpressionsStraight n) (level : Level) (left : Expr) :
    Straightforward (climb Recorded.note (n + 1) level left) := by
  rw [climb]
  apply (straight_accept _).bind
  intro operator
  cases operator with
  | none => exact straight_pure left
  | some operator => exact (ih.operand level).bind fun right => ih.climb level _

private theorem unary_straight (ih : ExpressionsStraight n) :
    Straightforward (unary Recorded.note (n + 1)) := by
  rw [unary]
  apply (straight_accept _).bind
  intro operator
  cases operator with
  | none => exact ih.primary.bind fun callee => ih.calls callee
  | some operator => exact ih.unary.bind fun right => straight_pure _

private theorem calls_straight (ih : ExpressionsStraight n) (callee : Expr) :
    Straightforward (calls Recorded.note (n + 1) callee) := by
  rw [calls]
  apply (straight_accept _).bind
  intro opening
  cases opening with
  | none => exact straight_pure callee
  | some _ =>
    have close : ∀ given, Straightforward
        (expect Recorded.note .rightParen .argumentsNeedClosing >>= fun paren =>
          calls Recorded.note n (.call callee paren given)) :=
      fun given => (straight_expect _ _).bind fun paren => ih.calls _
    apply (straight_nextIs _).bind
    intro empty
    cases empty with
    | true => exact (straight_pure []).bind close
    | false => exact (ih.arguments 0).bind close

private theorem arguments_straight (ih : ExpressionsStraight n) (count : Nat) :
    Straightforward (arguments Recorded.note (n + 1) count) := by
  rw [arguments]
  apply straight_ahead.bind
  intro place
  apply straight_reportIf (straight_reportAt rfl place)
  apply ih.expression.bind
  intro first
  apply (straight_accept _).bind
  intro comma
  cases comma with
  | none => exact straight_pure [first]
  | some _ => exact (ih.arguments (count + 1)).bind fun rest => straight_pure (first :: rest)

private theorem primary_straight (ih : ExpressionsStraight n) :
    Straightforward (primary Recorded.note (n + 1)) := by
  rw [primary]
  apply (straight_accept _).bind
  intro first
  cases first with
  | none => exact straight_fail _
  | some t =>
    dsimp only
    split
    case h_7 =>
      apply ih.expression.bind
      intro inner
      exact (straight_expect _ _).bind fun _ => straight_pure _
    all_goals exact straight_pure _

theorem expressions_straight (n : Nat) : ExpressionsStraight n := by
  induction n with
  | zero =>
    constructor <;> intros <;> exact straight_spent
  | succ n ih =>
    exact {
      expression := expression_straight ih
      binary := fun level => (ih.operand level).bind fun left => ih.climb level left
      operand := operand_straight ih
      climb := climb_straight ih
      unary := unary_straight ih
      calls := calls_straight ih
      arguments := arguments_straight ih
      primary := primary_straight ih }

/-- A run inside a number of open blocks goes well or breaks down. -/
inductive Runs {α : Type} (blocks : Nat) (ts : List Token) : Recorded Event (Outcome α) → Prop
  | done {value : α} {rest : List Token} {log : List Event}
      (passage : Passage blocks ts log rest) : Runs blocks ts ⟨.done value rest, log⟩
  | bail {rest : List Token} {log : List Event} (breakdown : Breakdown blocks ts log rest) :
      Runs blocks ts ⟨.bail rest, log⟩

section

variable {α β : Type} {blocks : Nat} {ts : List Token}

theorem Runs.after {rest : List Token} {log : List Event} {r : Recorded Event (Outcome α)}
    (h : Runs blocks rest r) (first : Passage blocks ts log rest) :
    Runs blocks ts ⟨r.value, log ++ r.records⟩ := by
  cases h with
  | done passage => exact .done (first.append passage)
  | bail breakdown => exact .bail (first.breakdown breakdown)

theorem Runs.bind {p : Parser (Recorded Event) α} {f : α → Parser (Recorded Event) β}
    (first : Runs blocks ts (p ts))
    (next : ∀ value rest, rest.length ≤ ts.length → Runs blocks rest (f value rest)) :
    Runs blocks ts ((p >>= f) ts) := by
  generalize left : p ts = r at first
  cases first with
  | done passage =>
    rw [bind_of_done left]
    exact (next _ _ passage.suffix.length_le).after passage
  | bail breakdown =>
    rw [bind_of_bail left]
    exact .bail breakdown

theorem runs_pure (a : α) : Runs blocks ts ((pure a : Parser (Recorded Event) α) ts) :=
  .done .stay

theorem Runs.map {p : Parser (Recorded Event) α} (f : α → β) (h : Runs blocks ts (p ts)) :
    Runs blocks ts ((f <$> p) ts) :=
  h.bind fun a _ _ => runs_pure (f a)

theorem runs_nextIs (kind : Kind) :
    Runs blocks ts ((nextIs kind : Parser (Recorded Event) Bool) ts) := .done .stay

theorem runs_accept {wanted : Kind → Bool} {f : Option Token → Parser (Recorded Event) β}
    (refused : Runs blocks ts (f none ts))
    (read : ∀ t rest, ts = t :: rest → Runs blocks rest (f (some t) rest)) :
    Runs blocks ts ((accept wanted >>= f) ts) := by
  cases ts with
  | nil => exact refused
  | cons t rest =>
    have run := accept_cons (ρ := Event) wanted t rest
    split at run
    · rw [bind_of_done run]
      exact (read t rest rfl).after (.read .stay)
    · rw [bind_of_done run]
      exact refused

theorem runs_fail {fault : Fault} (fatal : fault.isFatal = true) :
    Runs blocks ts ((fail (noteIn blocks) fault : Parser (Recorded Event) α) ts) :=
  .bail (.here .stay fatal)

theorem runs_expect (kind : Kind) {fault : Fault} (fatal : fault.isFatal = true) :
    Runs blocks ts (expect (noteIn blocks) kind fault ts) := by
  cases ts with
  | nil => exact runs_fail fatal
  | cons t rest =>
    change Runs _ _ (if t.kind = kind then _ else _)
    split
    · exact .done (.read .stay)
    · exact runs_fail fatal

/-- The parser of expressions has fuel enough, so it never bails out in silence. -/
theorem expr_runs (blocks : Nat) (ts : List Token) :
    Runs blocks ts (expr (noteIn blocks) ts) := by
  have noted := (follows_expr (hears_replaying (noteIn blocks)) ts).trans (replay_into _ _)
  have heard := hear_eq (follows_expr (hears_replaying (hear (.endOfInput 1)))) ts
  have straight : Straight ts (expr Recorded.note ts) := (expressions_straight _).expression ts
  have meets := expr_meets (.endOfInput 1) ts
  rw [heard] at meets
  rw [noted]
  generalize expr Recorded.note ts = r at straight meets
  cases straight with
  | done further mild => exact .done (.of_mild mild further)
  | @silent rest reports further mild =>
    -- only without fuel; the contract of the parser has a fatal fault at the end of every failure
    obtain ⟨taken, -, fatally⟩ := meets
    obtain ⟨f, told, fatal⟩ := fatally.exists_fatal
    have told : f ∈ reports.map (Report.attach (.endOfInput 1)) := told
    obtain ⟨r, member, rfl⟩ := List.mem_map.mp told
    exact absurd ((mild r member).symm.trans fatal) Bool.false_ne_true
  | @failed rest reports fault further mild =>
    obtain ⟨taken, -, before, fault', same, fatal⟩ := meets
    rw [List.map_append] at same
    have last := (List.append_inj' same rfl).2
    obtain rfl : fault = fault' := by simpa [Report.attach] using last
    rw [List.map_append]
    exact .bail (.here (.of_mild mild further) fatal)

theorem declarationTail_runs (blocks : Nat) (ts : List Token) :
    Runs blocks ts (declarationTail (noteIn blocks) ts) := by
  rw [declarationTail]
  apply (runs_expect _ rfl).bind
  intro name rest _
  have close : ∀ initializer after, Runs blocks after
      ((expect (noteIn blocks) .semicolon .declarationNeedsSemicolon >>= fun _ =>
        pure (Stmt.declare name initializer)) after) :=
    fun initializer after => (runs_expect _ rfl).bind fun _ _ _ => runs_pure _
  apply runs_accept
  · exact close none rest
  · intro equal after _
    exact ((expr_runs blocks after).map some).bind fun value final _ => close value final

theorem expressionStatement_runs (blocks : Nat) (ts : List Token) :
    Runs blocks ts (expressionStatement (noteIn blocks) ts) := by
  rw [expressionStatement]
  exact (expr_runs blocks ts).bind fun value rest _ =>
    (runs_expect _ rfl).bind fun _ _ _ => runs_pure _

theorem printTail_runs (blocks : Nat) (ts : List Token) :
    Runs blocks ts (printTail (noteIn blocks) ts) := by
  rw [printTail]
  exact (expr_runs blocks ts).bind fun value rest _ =>
    (runs_expect _ rfl).bind fun _ _ _ => runs_pure _

theorem initializerClause_runs (blocks : Nat) (ts : List Token) :
    Runs blocks ts (initializerClause (noteIn blocks) ts) := by
  rw [initializerClause]
  apply runs_accept
  · exact (expressionStatement_runs blocks ts).map some
  · intro t rest _
    dsimp only
    split
    · exact runs_pure none
    · exact (declarationTail_runs blocks rest).map some

theorem clause_runs (blocks : Nat) (closing : Kind) (ts : List Token) :
    Runs blocks ts (clause (noteIn blocks) closing ts) := by
  rw [clause]
  apply (runs_nextIs closing).bind
  intro empty rest _
  cases empty with
  | true => exact runs_pure none
  | false => exact (expr_runs blocks rest).map some

variable {inner : Parser (Recorded Event) Stmt}

theorem forTail_runs
    (bodies : ∀ after, after.length ≤ ts.length → Runs blocks after (inner after)) :
    Runs blocks ts (forTail (noteIn blocks) inner ts) := by
  rw [forTail]
  apply (runs_expect _ rfl).bind
  intro _ afterOpening le₁
  apply (initializerClause_runs blocks afterOpening).bind
  intro initializer afterInitializer le₂
  apply (clause_runs blocks _ afterInitializer).bind
  intro condition afterCondition le₃
  apply (runs_expect _ rfl).bind
  intro _ afterSemicolon le₄
  apply (clause_runs blocks _ afterSemicolon).bind
  intro increment afterIncrement le₅
  apply (runs_expect _ rfl).bind
  intro _ afterClosing le₆
  exact (bodies afterClosing (by omega)).bind fun _ _ _ => runs_pure _

theorem ifTail_runs (bodies : ∀ after, after.length ≤ ts.length → Runs blocks after (inner after)) :
    Runs blocks ts (ifTail (noteIn blocks) inner ts) := by
  rw [ifTail]
  apply (runs_expect _ rfl).bind
  intro _ afterOpening le₁
  apply (expr_runs blocks afterOpening).bind
  intro condition afterCondition le₂
  apply (runs_expect _ rfl).bind
  intro _ afterClosing le₃
  apply (bodies afterClosing (by omega)).bind
  intro consequent afterConsequent le₄
  apply runs_accept
  · exact runs_pure _
  · intro _ afterElse split
    have shorter : afterElse.length + 1 = afterConsequent.length := by rw [split]; rfl
    exact (bodies afterElse (by omega)).bind fun _ _ _ => runs_pure _

theorem whileTail_runs
    (bodies : ∀ after, after.length ≤ ts.length → Runs blocks after (inner after)) :
    Runs blocks ts (whileTail (noteIn blocks) inner ts) := by
  rw [whileTail]
  apply (runs_expect _ rfl).bind
  intro _ afterOpening le₁
  apply (expr_runs blocks afterOpening).bind
  intro condition afterCondition le₂
  apply (runs_expect _ rfl).bind
  intro _ afterClosing le₃
  exact (bodies afterClosing (by omega)).bind fun _ _ _ => runs_pure _

/-- A block is passed through when it is closed, and a declaration breaks down at its end when it is
not. -/
theorem block_runs {rest : List Token} {statements : List Stmt} {log : List Event}
    {p : Parser (Recorded Event) (List Stmt)} (run : p ts = ⟨.done statements rest, log⟩)
    (inside : Rounds (blocks + 1) ts log rest) :
    Runs blocks ts ((p >>= fun inner =>
      expect (noteIn (blocks + 1)) .rightBrace .blockNeedsBrace >>= fun _ =>
        pure (Stmt.block inner)) ts) := by
  rw [bind_of_done run]
  have unclosed : Runs (α := Stmt) blocks ts
      ⟨.bail rest, log ++ [.told (blocks + 1) ⟨rest, .blockNeedsBrace⟩]⟩ :=
    .bail (.unclosed .stay inside rfl)
  cases rest with
  | nil => exact unclosed
  | cons t rest =>
    by_cases closes : t.kind = .rightBrace
    · have closed : expect (noteIn (blocks + 1)) .rightBrace .blockNeedsBrace (t :: rest) =
          ⟨.done t rest, []⟩ := if_pos closes
      rw [bind_of_done closed]
      exact .done (.block inside .stay)
    · have open_ : expect (noteIn (blocks + 1)) .rightBrace .blockNeedsBrace (t :: rest) =
          ⟨.bail (t :: rest), [.told (blocks + 1) ⟨t :: rest, .blockNeedsBrace⟩]⟩ := if_neg closes
      rw [bind_of_bail open_]
      exact unclosed

end

section

variable {α : Type} {ts rest : List Token} {log : List Event} {p : Parser (Recorded Event) α}

theorem givingUp_of_done {value : α} (run : p ts = ⟨.done value rest, log⟩) :
    givingUp p ts = ⟨.done (some value) rest, log⟩ := by
  simp [givingUp, bind, pure, run]

theorem givingUp_of_bail (run : p ts = ⟨.bail rest, log⟩) :
    givingUp p ts = ⟨.done none (resume rest), log ++ [.gaveUp ts rest]⟩ := by
  simp [givingUp, bind, pure, Recorded.note, run]

end

section

variable {blocks : Nat} {inBlock : Bool} {ts : List Token}

theorem declarationsIn_at_end (ends : endsDeclarations inBlock ts = true) :
    declarationsIn (n + 1) blocks inBlock ts = ⟨.done [] ts, []⟩ := by
  rw [declarationsIn]
  show (ite (endsDeclarations inBlock ts = true) _ _ : Parser (Recorded Event) _) ts = _
  rw [if_pos ends]
  rfl

theorem declarationsIn_before_end {first : Option Stmt} {mid rest : List Token}
    {others : List Stmt} {log later : List Event} (goesOn : endsDeclarations inBlock ts = false)
    (run : givingUp (declarationIn n blocks) ts = ⟨.done first mid, log⟩)
    (after : declarationsIn n blocks inBlock mid = ⟨.done others rest, later⟩) :
    declarationsIn (n + 1) blocks inBlock ts =
      ⟨.done (first.toList ++ others) rest, log ++ .returned first mid :: later⟩ := by
  rw [declarationsIn]
  show (ite (endsDeclarations inBlock ts = true) _ _ : Parser (Recorded Event) _) ts = _
  have handed : returned first mid = ⟨.done () mid, [.returned first mid]⟩ := rfl
  rw [if_neg (by simp [goesOn]), bind_of_done run, bind_of_done handed, bind_of_done after]
  exact congrArg (Recorded.mk _) (by simp [pure])

/-- A recovered declaration leaves fewer tokens than it was given, also when it keeps a log. -/
theorem givingUp_shorter {first : Option Stmt} {rest : List Token} {log : List Event}
    (someAhead : ts ≠ []) (enough : 4 * ts.length + 2 ≤ n)
    (run : givingUp (declarationIn n blocks) ts = ⟨.done first rest, log⟩) :
    rest.length < ts.length := by
  obtain ⟨value, -⟩ := follows_givingUp ((statements_erase n).declaration blocks) ts
  rw [run] at value
  have hears := hears_replaying (hear (.endOfInput 1))
  have heard := hear_eq (statements_follow hears n).declaration.recover ts
  rw [← value] at heard
  exact recovered_shorter someAhead enough heard

end

/-- With enough fuel, statements and declarations go well or break down, and a loop over
declarations goes through its rounds. -/
structure StatementsRun (n : Nat) : Prop where
  statement : ∀ blocks ts, 4 * ts.length + 1 ≤ n → Runs blocks ts (statementIn n blocks ts)
  declaration : ∀ blocks ts, 4 * ts.length + 2 ≤ n → Runs blocks ts (declarationIn n blocks ts)
  declarations : ∀ blocks inBlock ts, 4 * ts.length + 3 ≤ n → ∃ inner rest log,
    declarationsIn n blocks inBlock ts = ⟨.done inner rest, log⟩ ∧ Rounds blocks ts log rest

private theorem statement_runs (ih : StatementsRun n) (blocks : Nat) (ts : List Token)
    (enough : 4 * ts.length + 1 ≤ n + 1) : Runs blocks ts (statementIn (n + 1) blocks ts) := by
  rw [statementIn]
  apply runs_accept
  · exact expressionStatement_runs blocks ts
  · intro t rest split
    have shorter : rest.length + 1 = ts.length := by rw [split]; rfl
    have bodies : ∀ after, after.length ≤ rest.length →
        Runs blocks after (statementIn n blocks after) :=
      fun after le => ih.statement blocks after (by omega)
    obtain ⟨inner, final, log, run, inside⟩ :=
      ih.declarations (blocks + 1) true rest (by omega)
    have block := block_runs run inside
    dsimp only
    cases t.kind with
    | for_ => exact forTail_runs bodies
    | if_ => exact ifTail_runs bodies
    | print => exact printTail_runs blocks rest
    | while_ => exact whileTail_runs bodies
    | _ => exact block

private theorem declaration_runs (ih : StatementsRun n) (blocks : Nat) (ts : List Token)
    (enough : 4 * ts.length + 2 ≤ n + 1) : Runs blocks ts (declarationIn (n + 1) blocks ts) := by
  rw [declarationIn]
  apply runs_accept
  · exact ih.statement blocks ts (by omega)
  · exact fun _ rest _ => declarationTail_runs blocks rest

private theorem declarations_run (ih : StatementsRun n) (blocks : Nat) (inBlock : Bool)
    (ts : List Token) (enough : 4 * ts.length + 3 ≤ n + 1) :
    ∃ inner rest log, declarationsIn (n + 1) blocks inBlock ts = ⟨.done inner rest, log⟩ ∧
      Rounds blocks ts log rest := by
  cases ends : endsDeclarations inBlock ts with
  | true => exact ⟨[], ts, [], declarationsIn_at_end ends, .stop⟩
  | false =>
    have begins := ne_nil_of_goesOn ends
    have runs := ih.declaration blocks ts (by omega)
    generalize first : declarationIn n blocks ts = r at runs
    cases runs with
    | @done statement mid log passage =>
      -- the rest is shorter, so the fuel of the next round is enough
      have run := givingUp_of_done first
      have shorter := givingUp_shorter begins (by omega) run
      obtain ⟨others, rest, later, after, rounds⟩ := ih.declarations blocks inBlock mid (by omega)
      exact ⟨_, rest, _, declarationsIn_before_end ends run after, .kept passage rounds⟩
    | @bail mid log breakdown =>
      have run := givingUp_of_bail first
      have shorter := givingUp_shorter begins (by omega) run
      obtain ⟨others, rest, later, after, rounds⟩ :=
        ih.declarations blocks inBlock (resume mid) (by omega)
      obtain ⟨value, -⟩ := (statements_erase n).declaration blocks ts
      rw [first] at value
      have call : GivesUp ts mid := ⟨begins, n, _, by omega, congrArg (Recorded.mk · _) value.symm⟩
      refine ⟨_, rest, _, declarationsIn_before_end ends run after, ?_⟩
      rw [List.append_assoc]
      exact .given call breakdown rounds

theorem statements_run (n : Nat) : StatementsRun n := by
  induction n with
  | zero =>
    constructor
    all_goals intros; omega
  | succ n ih => exact ⟨statement_runs ih, declaration_runs ih, declarations_run ih⟩

/-- Every chronicle goes through the rounds of the loop over all declarations. -/
theorem chronicle_rounds (ts : List Token) :
    ∃ rest, Rounds 0 (body ts) (chronicle ts).records rest := by
  obtain ⟨inner, rest, log, run, rounds⟩ :=
    (statements_run (4 * ((body ts).length + 1))).declarations 0 false (body ts) (by omega)
  rw [chronicle_of_done run]
  exact ⟨rest, rounds⟩

end Bhasha.Parse
