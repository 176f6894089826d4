import Bhasha.Proofs.Parse.StatementSound

/-!
# What a parser can see

A parser looks at no token behind the first of those that it leaves.  Where it leaves a token, it
runs in the same way when more tokens are put behind its input, or when another token stands at the
end of the input.  Where it leaves none, this is so when nothing at all is changed behind the input.
In both cases the amount of fuel does not matter as long as there is enough of it.

The statements compare two runs: one on `ts`, with `finish` at the end of the input, and one on
`ts ++ more`, with `finish'` at the end.
-/

namespace Bhasha.Parse

open Grammar

/-- The tokens that an outcome leaves. -/
def Outcome.rest {α : Type} : Outcome α → List Token
  | .done _ rest => rest
  | .bail rest => rest

/-- The same outcome, with more tokens behind those it leaves. -/
def Outcome.extend {α : Type} (more : List Token) : Outcome α → Outcome α
  | .done value rest => .done value (rest ++ more)
  | .bail rest => .bail (rest ++ more)

/-- What stands behind `rest` cannot be told apart: the first token of `rest` is in front of it, or
it is the same in both runs. -/
def Hidden (finish finish' : Token) (more rest : List Token) : Prop :=
  rest ≠ [] ∨ (more = [] ∧ finish = finish')

/-- The second run repeats the first one if the change behind the input stays hidden. -/
structure Repeats {α : Type} (finish finish' : Token) (more ts : List Token)
    (r r' : Recorded SyntaxFault (Outcome α)) : Prop where
  taken : ∃ taken, ts = taken ++ r.value.rest
  same : Hidden finish finish' more r.value.rest → r' = ⟨r.value.extend more, r.records⟩

section

variable {α β : Type} {finish finish' : Token} {more ts : List Token}

theorem Outcome.extend_nil (outcome : Outcome α) : outcome.extend [] = outcome := by
  cases outcome <;> simp [Outcome.extend]

theorem Hidden.append {rest : List Token} (hidden : Hidden finish finish' more rest)
    (taken : List Token) : Hidden finish finish' more (taken ++ rest) := by
  cases hidden with
  | inl left => exact .inl (by simp [left])
  | inr nothing => exact .inr nothing

theorem Repeats.shorter {r r' : Recorded SyntaxFault (Outcome α)}
    (h : Repeats finish finish' more ts r r') : r.value.rest.length ≤ ts.length := by
  obtain ⟨taken, split⟩ := h.taken
  rw [split, List.length_append]
  omega

/-- A run from a later place is part of a run from an earlier one. -/
theorem Repeats.from {r r' : Recorded SyntaxFault (Outcome α)} {rest : List Token}
    (h : Repeats finish finish' more rest r r') (taken : List Token) :
    Repeats finish finish' more (taken ++ rest) r r' := by
  obtain ⟨⟨read, split⟩, same⟩ := h
  refine ⟨⟨taken ++ read, ?_⟩, same⟩
  rw [List.append_assoc, ← split]

theorem Hidden.of_nil (hidden : Hidden finish finish' more []) : more = [] ∧ finish = finish' := by
  rcases hidden with left | nothing
  · exact absurd rfl left
  · exact nothing

/-- What stays hidden at the end of a run was hidden at its beginning. -/
theorem Repeats.of_hidden {r r' : Recorded SyntaxFault (Outcome α)}
    (taken : ∃ taken, ts = taken ++ r.value.rest)
    (h : Hidden finish finish' more ts → Hidden finish finish' more r.value.rest →
      r' = ⟨r.value.extend more, r.records⟩) :
    Repeats finish finish' more ts r r' := by
  refine ⟨taken, fun hidden => h ?_ hidden⟩
  obtain ⟨read, split⟩ := taken
  rw [split]
  exact hidden.append read

/-- A first part that is done hands over to the second part at the same place in both runs. -/
theorem Repeats.bind_of_run {p p' : Parser (Recorded SyntaxFault) α}
    {f f' : α → Parser (Recorded SyntaxFault) β}
    (first : Repeats finish finish' more ts (p ts) (p' (ts ++ more)))
    (next : ∀ value rest told, p ts = ⟨.done value rest, told⟩ →
      Repeats finish finish' more rest (f value rest) (f' value (rest ++ more))) :
    Repeats finish finish' more ts ((p >>= f) ts) ((p' >>= f') (ts ++ more)) := by
  obtain ⟨⟨read, split⟩, same⟩ := first
  rcases run : p ts with ⟨outcome, told⟩
  rw [run] at split same
  cases outcome with
  | bail rest =>
    rw [bind_of_bail run]
    exact ⟨⟨read, split⟩, fun hidden => bind_of_bail (same hidden)⟩
  | done value rest =>
    obtain ⟨⟨later, split'⟩, same'⟩ := next value rest told run
    rw [bind_of_done run]
    refine ⟨⟨read ++ later, ?_⟩, fun hidden => ?_⟩
    · rw [List.append_assoc, ← split', split]
      rfl
    · have before : Hidden finish finish' more rest := by
        rw [split']
        exact hidden.append later
      rw [bind_of_done (same before), same' hidden]

theorem Repeats.bind {p p' : Parser (Recorded SyntaxFault) α}
    {f f' : α → Parser (Recorded SyntaxFault) β}
    (first : Repeats finish finish' more ts (p ts) (p' (ts ++ more)))
    (next : ∀ value rest, rest.length ≤ ts.length →
      Repeats finish finish' more rest (f value rest) (f' value (rest ++ more))) :
    Repeats finish finish' more ts ((p >>= f) ts) ((p' >>= f') (ts ++ more)) := by
  apply first.bind_of_run
  intro value rest told run
  have shorter := first.shorter
  rw [run] at shorter
  exact next value rest shorter

theorem repeats_pure (value : α) :
    Repeats finish finish' more ts ((pure value : Parser (Recorded SyntaxFault) α) ts)
      ((pure value : Parser (Recorded SyntaxFault) α) (ts ++ more)) :=
  ⟨⟨[], rfl⟩, fun _ => rfl⟩

theorem Repeats.map {p p' : Parser (Recorded SyntaxFault) α} (f : α → β)
    (h : Repeats finish finish' more ts (p ts) (p' (ts ++ more))) :
    Repeats finish finish' more ts ((f <$> p) ts) ((f <$> p') (ts ++ more)) :=
  h.bind fun value _ _ => repeats_pure (f value)

theorem repeats_ahead {f f' : List Token → Parser (Recorded SyntaxFault) β}
    (next : Repeats finish finish' more ts (f ts ts) (f' (ts ++ more) (ts ++ more))) :
    Repeats finish finish' more ts
      (((ahead : Parser (Recorded SyntaxFault) (List Token)) >>= f) ts)
      (((ahead : Parser (Recorded SyntaxFault) (List Token)) >>= f') (ts ++ more)) := next

theorem repeats_nextIs {kind : Kind} {f f' : Bool → Parser (Recorded SyntaxFault) β}
    (next : ∀ found, Repeats finish finish' more ts (f found ts) (f' found (ts ++ more))) :
    Repeats finish finish' more ts
      (((nextIs kind : Parser (Recorded SyntaxFault) Bool) >>= f) ts)
      (((nextIs kind : Parser (Recorded SyntaxFault) Bool) >>= f') (ts ++ more)) := by
  have run := next (ts.head?.any (·.kind == kind))
  cases ts with
  | nil =>
    refine .of_hidden run.taken fun hidden final => ?_
    obtain ⟨rfl, rfl⟩ := hidden.of_nil
    exact run.same final
  | cons t rest => exact run

/-- A token that is read is read in both runs. -/
theorem repeats_accept {wanted : Kind → Bool}
    {f f' : Option Token → Parser (Recorded SyntaxFault) β}
    (refused : Repeats finish finish' more ts (f none ts) (f' none (ts ++ more)))
    (read : ∀ t rest, ts = t :: rest → wanted t.kind = true →
      Repeats finish finish' more rest (f (some t) rest) (f' (some t) (rest ++ more))) :
    Repeats finish finish' more ts ((accept wanted >>= f) ts)
      ((accept wanted >>= f') (ts ++ more)) := by
  cases ts with
  | nil =>
    refine .of_hidden refused.taken fun hidden final => ?_
    obtain ⟨rfl, rfl⟩ := hidden.of_nil
    exact refused.same final
  | cons t rest =>
    by_cases wants : wanted t.kind = true
    · rw [List.cons_append, accept_bind_some wants, accept_bind_some wants]
      exact (read t rest rfl wants).from [t]
    · have unwanted : wanted t.kind = false := by simpa using wants
      rw [accept_bind_none (by simpa using unwanted), accept_bind_none (by simpa using unwanted)]
      exact refused

theorem repeats_fail (fault : Fault) :
    Repeats finish finish' more ts ((fail (hear finish) fault : Parser _ α) ts)
      ((fail (hear finish') fault : Parser _ α) (ts ++ more)) := by
  refine ⟨⟨[], rfl⟩, fun hidden => ?_⟩
  cases ts with
  | nil =>
    obtain ⟨rfl, rfl⟩ := hidden.of_nil
    rfl
  | cons t rest => rfl

theorem repeats_expect (kind : Kind) (fault : Fault) :
    Repeats finish finish' more ts (expect (hear finish) kind fault ts)
      (expect (hear finish') kind fault (ts ++ more)) := by
  cases ts with
  | nil =>
    refine .of_hidden ⟨[], rfl⟩ fun hidden _ => ?_
    obtain ⟨rfl, rfl⟩ := hidden.of_nil
    rfl
  | cons t rest =>
    rw [List.cons_append, expect_cons, expect_cons]
    split
    · exact ⟨⟨[t], rfl⟩, fun _ => rfl⟩
    · exact repeats_fail fault

/-- A report at the place where the parser stands. -/
theorem repeats_reportHere (fault : Fault) :
    Repeats finish finish' more ts (reportAt (hear finish) ts fault ts)
      (reportAt (hear finish') (ts ++ more) fault (ts ++ more)) := by
  refine ⟨⟨[], rfl⟩, fun hidden => ?_⟩
  cases ts with
  | nil =>
    obtain ⟨rfl, rfl⟩ := hidden.of_nil
    rfl
  | cons t rest => rfl

/-- A report at a token read before. -/
theorem repeats_reportAt (t : Token) (place : List Token) (fault : Fault) :
    Repeats finish finish' more ts (reportAt (hear finish) (t :: place) fault ts)
      (reportAt (hear finish') (t :: place ++ more) fault (ts ++ more)) :=
  ⟨⟨[], rfl⟩, fun _ => rfl⟩

/-- A report that is made on a condition, before both parsers go on. -/
theorem repeats_reportIf {c : Prop} [Decidable c]
    {report report' : Parser (Recorded SyntaxFault) Unit} {p p' : Parser (Recorded SyntaxFault) α}
    (reports : Repeats finish finish' more ts (report ts) (report' (ts ++ more)))
    (next : ∀ rest, rest.length ≤ ts.length →
      Repeats finish finish' more rest (p rest) (p' (rest ++ more))) :
    Repeats finish finish' more ts ((if c then report >>= fun _ => p else p) ts)
      ((if c then report' >>= fun _ => p' else p') (ts ++ more)) := by
  split
  · exact reports.bind fun _ rest shorter => next rest shorter
  · exact next ts (Nat.le_refl _)

end

theorem Repeats.congr {α : Type} {finish finish' : Token} {more ts : List Token}
    {p p' q q' : Parser (Recorded SyntaxFault) α} (first : p = q) (second : p' = q')
    (h : Repeats finish finish' more ts (q ts) (q' (ts ++ more))) :
    Repeats finish finish' more ts (p ts) (p' (ts ++ more)) := by
  rw [first, second]
  exact h

/-- A parser with `n` units of fuel is repeated by one with `m` units wherever both have enough of
it: `unit` for each token ahead, and a reserve. -/
abbrev RepeatsWith {α : Type} (finish finish' : Token) (more : List Token)
    (unit reserve n m : Nat) (p p' : Parser (Recorded SyntaxFault) α) : Prop :=
  ∀ ts : List Token, unit * ts.length + reserve ≤ n →
    unit * (ts.length + more.length) + reserve ≤ m →
    Repeats finish finish' more ts (p ts) (p' (ts ++ more))

variable {finish finish' : Token} {more ts : List Token} {n m : Nat}

/-- All parsers of expressions with `n` units of fuel are repeated by those with `m` units. -/
structure ExpressionsRepeat (finish finish' : Token) (more : List Token) (n m : Nat) : Prop where
  expression : RepeatsWith finish finish' more 20 15 n m
    (expression (hear finish) n) (expression (hear finish') m)
  binary : ∀ level, RepeatsWith finish finish' more 20 (operandReserve level + 1) n m
    (binary (hear finish) n level) (binary (hear finish') m level)
  operand : ∀ level, RepeatsWith finish finish' more 20 (operandReserve level) n m
    (operand (hear finish) n level) (operand (hear finish') m level)
  climb : ∀ level left, RepeatsWith finish finish' more 20 1 n m
    (climb (hear finish) n level left) (climb (hear finish') m level left)
  unary : RepeatsWith finish finish' more 20 2 n m
    (unary (hear finish) n) (unary (hear finish') m)
  calls : ∀ callee, RepeatsWith finish finish' more 20 1 n m
    (calls (hear finish) n callee) (calls (hear finish') m callee)
  arguments : ∀ count, RepeatsWith finish finish' more 20 16 n m
    (arguments (hear finish) n count) (arguments (hear finish') m count)
  primary : RepeatsWith finish finish' more 20 1 n m
    (primary (hear finish) n) (primary (hear finish') m)

private theorem expression_repeats (ih : ExpressionsRepeat finish finish' more n m) :
    RepeatsWith finish finish' more 20 15 (n + 1) (m + 1)
      (expression (hear finish) (n + 1)) (expression (hear finish') (m + 1)) := by
  intro ts enough enough'
  rw [expression, expression]
  apply (ih.binary .or ts (by simp only [operandReserve]; omega)
    (by simp only [operandReserve]; omega)).bind
  intro left rest shorter
  apply repeats_ahead
  apply repeats_accept
  · exact repeats_pure left
  · rintro equal after rfl -
    rw [List.length_cons] at shorter
    apply (ih.expression after (by omega) (by omega)).bind
    intro value final _
    cases left with
    | identifier name => exact repeats_pure _
    | _ => exact (repeats_reportAt equal after _).bind fun _ _ _ => repeats_pure _

private theorem binary_repeats (ih : ExpressionsRepeat finish finish' more n m) (level : Level) :
    RepeatsWith finish finish' more 20 (operandReserve level + 1) (n + 1) (m + 1)
      (binary (hear finish) (n + 1) level) (binary (hear finish') (m + 1) level) := by
  intro ts enough enough'
  have reserve := operandReserve_bounds level
  rw [binary, binary]
  apply (ih.operand level ts (by omega) (by omega)).bind
  intro left rest shorter
  exact ih.climb level left rest (by omega) (by omega)

private theorem operand_repeats (ih : ExpressionsRepeat finish finish' more n m) (level : Level) :
    RepeatsWith finish finish' more 20 (operandReserve level) (n + 1) (m + 1)
      (operand (hear finish) (n + 1) level) (operand (hear finish') (m + 1) level) := by
  intro ts enough enough'
  have reserve := operandReserve_bounds level
  rw [operand, operand]
  cases level <;> simp only [operandReserve] at enough enough'
  case factor => exact ih.unary ts (by omega) (by omega)
  all_goals
    apply ih.binary <;> simp only [operandReserve] <;> omega

private theorem climb_repeats (ih : ExpressionsRepeat finish finish' more n m) (level : Level)
    (left : Expr) :
    RepeatsWith finish finish' more 20 1 (n + 1) (m + 1)
      (climb (hear finish) (n + 1) level left) (climb (hear finish') (m + 1) level left) := by
  intro ts enough enough'
  have reserve := operandReserve_bounds level
  rw [climb, climb]
  apply repeats_accept
  · exact repeats_pure left
  · rintro operator after rfl -
    rw [List.length_cons] at enough enough'
    apply (ih.operand level after (by omega) (by omega)).bind
    intro right rest shorter
    exact ih.climb level _ rest (by omega) (by omega)

private theorem unary_repeats (ih : ExpressionsRepeat finish finish' more n m) :
    RepeatsWith finish finish' more 20 2 (n + 1) (m + 1)
      (unary (hear finish) (n + 1)) (unary (hear finish') (m + 1)) := by
  intro ts enough enough'
  rw [unary, unary]
  apply repeats_accept
  · apply (ih.primary ts (by omega) (by omega)).bind
    intro callee rest shorter
    exact ih.calls callee rest (by omega) (by omega)
  · rintro operator after rfl -
    rw [List.length_cons] at enough enough'
    exact (ih.unary after (by omega) (by omega)).bind fun _ _ _ => repeats_pure _

private theorem calls_repeats (ih : ExpressionsRepeat finish finish' more n m) (callee : Expr) :
    RepeatsWith finish finish' more 20 1 (n + 1) (m + 1)
      (calls (hear finish) (n + 1) callee) (calls (hear finish') (m + 1) callee) := by
  intro ts enough enough'
  rw [calls, calls]
  apply repeats_accept
  · exact repeats_pure callee
  · rintro opening after rfl -
    rw [List.length_cons] at enough enough'
    have close : ∀ given rest, rest.length ≤ after.length → Repeats finish finish' more rest
        ((expect (hear finish) .rightParen .argumentsNeedClosing >>= fun paren =>
          calls (hear finish) n (.call callee paren given)) rest)
        ((expect (hear finish') .rightParen .argumentsNeedClosing >>= fun paren =>
          calls (hear finish') m (.call callee paren given)) (rest ++ more)) := by
      intro given rest shorter
      apply (repeats_expect _ _).bind
      intro paren final shorter'
      exact ih.calls _ final (by omega) (by omega)
    apply repeats_nextIs
    intro empty
    cases empty with
    | true => exact (repeats_pure []).bind close
    | false => exact (ih.arguments 0 after (by omega) (by omega)).bind close

private theorem arguments_repeats (ih : ExpressionsRepeat finish finish' more n m) (count : Nat) :
    RepeatsWith finish finish' more 20 16 (n + 1) (m + 1)
      (arguments (hear finish) (n + 1) count) (arguments (hear finish') (m + 1) count) := by
  intro ts enough enough'
  rw [arguments, arguments]
  apply repeats_ahead
  apply repeats_reportIf (repeats_reportHere _)
  intro here shorter
  apply (ih.expression here (by omega) (by omega)).bind
  intro first rest shorter'
  apply repeats_accept
  · exact repeats_pure _
  · rintro comma after rfl -
    rw [List.length_cons] at shorter'
    exact (ih.arguments (count + 1) after (by omega) (by omega)).bind fun _ _ _ => repeats_pure _

private theorem primary_repeats (ih : ExpressionsRepeat finish finish' more n m) :
    RepeatsWith finish finish' more 20 1 (n + 1) (m + 1)
      (primary (hear finish) (n + 1)) (primary (hear finish') (m + 1)) := by
  intro ts enough enough'
  rw [primary, primary]
  apply repeats_accept
  · exact repeats_fail _
  · rintro t after rfl begins
    rw [List.length_cons] at enough enough'
    dsimp only
    rcases beginsPrimary_cases begins with ⟨value, constant⟩ | name | opening
    · apply Repeats.congr (primary_literal constant _ _) (primary_literal constant _ _)
      exact repeats_pure _
    · rw [name]
      exact repeats_pure _
    · rw [opening]
      apply (ih.expression after (by omega) (by omega)).bind
      intro inner rest _
      exact (repeats_expect _ _).bind fun _ _ _ => repeats_pure _

/-- Parsers of expressions are repeated wherever the fuel is enough. -/
theorem expressions_repeat (finish finish' : Token) (more : List Token) (n m : Nat) :
    ExpressionsRepeat finish finish' more n m := by
  induction n generalizing m with
  | zero =>
    constructor
    case operand =>
      intro level ts enough
      have reserve := operandReserve_bounds level
      omega
    all_goals intros; omega
  | succ n ih =>
    cases m with
    | zero =>
      constructor
      case operand =>
        intro level ts _ enough'
        have reserve := operandReserve_bounds level
        omega
      all_goals intros; omega
    | succ m =>
      have inner := ih m
      exact {
        expression := expression_repeats inner
        binary := binary_repeats inner
        operand := operand_repeats inner
        climb := climb_repeats inner
        unary := unary_repeats inner
        calls := calls_repeats inner
        arguments := arguments_repeats inner
        primary := primary_repeats inner }

theorem expr_repeats (finish finish' : Token) (more ts : List Token) :
    Repeats finish finish' more ts (expr (hear finish) ts) (expr (hear finish') (ts ++ more)) := by
  unfold expr
  apply (expressions_repeat finish finish' more _ _).expression
  · omega
  · rw [List.length_append]
    omega

theorem declarationTail_repeats :
    Repeats finish finish' more ts (declarationTail (hear finish) ts)
      (declarationTail (hear finish') (ts ++ more)) := by
  unfold declarationTail
  apply (repeats_expect _ _).bind
  intro name rest _
  have close : ∀ initializer rest, Repeats finish finish' more rest
      ((expect (hear finish) .semicolon .declarationNeedsSemicolon >>= fun _ =>
        pure (Stmt.declare name initializer)) rest)
      ((expect (hear finish') .semicolon .declarationNeedsSemicolon >>= fun _ =>
        pure (Stmt.declare name initializer)) (rest ++ more)) := by
    intro initializer rest
    exact (repeats_expect _ _).bind fun _ _ _ => repeats_pure _
  apply repeats_accept
  · exact (repeats_pure none).bind fun value rest _ => close value rest
  · rintro equal after rfl -
    exact ((expr_repeats finish finish' more after).map some).bind fun value rest _ =>
      close value rest

theorem expressionStatement_repeats :
    Repeats finish finish' more ts (expressionStatement (hear finish) ts)
      (expressionStatement (hear finish') (ts ++ more)) := by
  unfold expressionStatement
  apply (expr_repeats finish finish' more ts).bind
  intro value rest _
  exact (repeats_expect _ _).bind fun _ _ _ => repeats_pure _

theorem printTail_repeats :
    Repeats finish finish' more ts (printTail (hear finish) ts)
      (printTail (hear finish') (ts ++ more)) := by
  unfold printTail
  apply (expr_repeats finish finish' more ts).bind
  intro value rest _
  exact (repeats_expect _ _).bind fun _ _ _ => repeats_pure _

theorem initializerClause_repeats :
    Repeats finish finish' more ts (initializerClause (hear finish) ts)
      (initializerClause (hear finish') (ts ++ more)) := by
  unfold initializerClause
  apply repeats_accept
  · exact expressionStatement_repeats.map some
  · rintro word after rfl -
    dsimp only
    split
    · exact repeats_pure none
    · exact declarationTail_repeats.map some

theorem clause_repeats (closing : Kind) :
    Repeats finish finish' more ts (clause (hear finish) closing ts)
      (clause (hear finish') closing (ts ++ more)) := by
  unfold clause
  apply repeats_nextIs
  intro empty
  cases empty with
  | true => exact repeats_pure none
  | false => exact (expr_repeats finish finish' more ts).map some

/-- The body of a compound statement is repeated on all lists that are no longer. -/
abbrev BodyRepeats (finish finish' : Token) (more ts : List Token)
    (body body' : Parser (Recorded SyntaxFault) Stmt) : Prop :=
  ∀ rest : List Token, rest.length ≤ ts.length →
    Repeats finish finish' more rest (body rest) (body' (rest ++ more))

section

variable {body body' : Parser (Recorded SyntaxFault) Stmt}

theorem forTail_repeats (inner : BodyRepeats finish finish' more ts body body') :
    Repeats finish finish' more ts (forTail (hear finish) body ts)
      (forTail (hear finish') body' (ts ++ more)) := by
  unfold forTail
  apply (repeats_expect _ _).bind
  intro opening rest shorter
  apply initializerClause_repeats.bind
  intro initializer rest₁ shorter₁
  apply (clause_repeats _).bind
  intro condition rest₂ shorter₂
  apply (repeats_expect _ _).bind
  intro semicolon rest₃ shorter₃
  apply (clause_repeats _).bind
  intro increment rest₄ shorter₄
  apply (repeats_expect _ _).bind
  intro closing rest₅ shorter₅
  exact (inner rest₅ (by omega)).bind fun _ _ _ => repeats_pure _

theorem ifTail_repeats (inner : BodyRepeats finish finish' more ts body body') :
    Repeats finish finish' more ts (ifTail (hear finish) body ts)
      (ifTail (hear finish') body' (ts ++ more)) := by
  unfold ifTail
  apply (repeats_expect _ _).bind
  intro opening rest shorter
  apply (expr_repeats finish finish' more rest).bind
  intro condition rest₁ shorter₁
  apply (repeats_expect _ _).bind
  intro closing rest₂ shorter₂
  apply (inner rest₂ (by omega)).bind
  intro consequent rest₃ shorter₃
  apply repeats_accept
  · exact repeats_pure _
  · rintro word after rfl -
    rw [List.length_cons] at shorter₃
    exact (inner after (by omega)).bind fun _ _ _ => repeats_pure _

theorem whileTail_repeats (inner : BodyRepeats finish finish' more ts body body') :
    Repeats finish finish' more ts (whileTail (hear finish) body ts)
      (whileTail (hear finish') body' (ts ++ more)) := by
  unfold whileTail
  apply (repeats_expect _ _).bind
  intro opening rest shorter
  apply (expr_repeats finish finish' more rest).bind
  intro condition rest₁ shorter₁
  apply (repeats_expect _ _).bind
  intro closing rest₂ shorter₂
  exact (inner rest₂ (by omega)).bind fun _ _ _ => repeats_pure _

end

theorem resume_suffix (ts : List Token) : ∃ skipped, ts = skipped ++ resume ts := by
  cases ts with
  | nil => exact ⟨[], rfl⟩
  | cons t rest =>
    obtain ⟨skipped, split⟩ := resume_split t rest
    exact ⟨t :: skipped, split⟩

theorem resume_of_stop {t : Token} {rest : List Token}
    (stop : t.kind = .semicolon ∨ rest.head?.any (isAnchor ·.kind) = true) :
    resume (t :: rest) = rest := by
  rw [resume, if_pos (by simpa using stop)]

theorem resume_of_skip {t : Token} {rest : List Token} (other : t.kind ≠ .semicolon)
    (inside : rest.head?.any (isAnchor ·.kind) = false) : resume (t :: rest) = resume rest := by
  rw [resume, if_neg (by simp [other, inside])]

/-- Recovery that stops in front of a token stops there whatever follows. -/
theorem resume_append (hidden : Hidden finish finish' more (resume ts)) :
    resume (ts ++ more) = resume ts ++ more := by
  induction ts with
  | nil =>
    obtain ⟨rfl, -⟩ := hidden.of_nil
    rfl
  | cons t rest ih =>
    cases rest with
    | nil =>
      have stops : resume [t] = [] := by simp [resume]
      rw [stops] at hidden
      obtain ⟨rfl, -⟩ := hidden.of_nil
      simp
    | cons next rest =>
      by_cases stop : t.kind = .semicolon ∨ isAnchor next.kind = true
      · rw [resume_of_stop stop, List.cons_append, List.cons_append, resume_of_stop stop]
      · obtain ⟨other, inside⟩ := not_or.mp stop
        have skip : ∀ after, resume (t :: next :: after) = resume (next :: after) :=
          fun after => resume_of_skip other (by simpa using inside)
        rw [skip] at hidden ⊢
        rw [List.cons_append, List.cons_append, skip]
        exact ih hidden

theorem recover_repeats {α : Type} {p p' : Parser (Recorded SyntaxFault) α}
    (h : Repeats finish finish' more ts (p ts) (p' (ts ++ more))) :
    Repeats finish finish' more ts (recover p ts) (recover p' (ts ++ more)) := by
  obtain ⟨⟨read, split⟩, same⟩ := h
  rcases run : p ts with ⟨outcome, told⟩
  rw [run] at split same
  cases outcome with
  | done value rest =>
    rw [recover_of_done run]
    exact ⟨⟨read, split⟩, fun hidden => recover_of_done (same hidden)⟩
  | bail rest =>
    obtain ⟨skipped, split'⟩ := resume_suffix rest
    rw [recover_of_bail run]
    refine ⟨⟨read ++ skipped, ?_⟩, fun hidden => ?_⟩
    · rw [List.append_assoc]
      exact split.trans (congrArg (read ++ ·) split')
    · have before : Hidden finish finish' more rest := by
        rw [split']
        exact hidden.append skipped
      rw [recover_of_bail (same before), resume_append hidden]
      rfl

/-- The parsers of statements with `n` units of fuel are repeated by those with `m` units. -/
structure StatementsRepeat (finish finish' : Token) (more : List Token) (n m : Nat) : Prop where
  statement : RepeatsWith finish finish' more 4 1 n m
    (statement (hear finish) n) (statement (hear finish') m)
  declaration : RepeatsWith finish finish' more 4 2 n m
    (declaration (hear finish) n) (declaration (hear finish') m)
  declarations : ∀ inBlock, RepeatsWith finish finish' more 4 3 n m
    (declarations (hear finish) n inBlock) (declarations (hear finish') m inBlock)

private theorem statement_repeats (ih : StatementsRepeat finish finish' more n m) :
    RepeatsWith finish finish' more 4 1 (n + 1) (m + 1)
      (statement (hear finish) (n + 1)) (statement (hear finish') (m + 1)) := by
  intro ts enough enough'
  rw [statement, statement]
  apply repeats_accept
  · exact expressionStatement_repeats
  · rintro t after rfl begins
    rw [List.length_cons] at enough enough'
    have inner : BodyRepeats finish finish' more after (statement (hear finish) n)
        (statement (hear finish') m) :=
      fun rest shorter => ih.statement rest (by omega) (by omega)
    dsimp only
    rcases beginsStatement_cases begins with word | word | word | word | word
    · rw [word]
      exact forTail_repeats inner
    · rw [word]
      exact ifTail_repeats inner
    · rw [word]
      exact printTail_repeats
    · rw [word]
      exact whileTail_repeats inner
    · rw [word]
      apply (ih.declarations true after (by omega) (by omega)).bind
      intro inside rest _
      exact (repeats_expect _ _).bind fun _ _ _ => repeats_pure _

private theorem declaration_repeats (ih : StatementsRepeat finish finish' more n m) :
    RepeatsWith finish finish' more 4 2 (n + 1) (m + 1)
      (declaration (hear finish) (n + 1)) (declaration (hear finish') (m + 1)) := by
  intro ts enough enough'
  rw [declaration, declaration]
  apply repeats_accept
  · exact ih.statement ts (by omega) (by omega)
  · rintro word after rfl -
    exact declarationTail_repeats

/-- A recovered declaration leaves fewer tokens than it was given. -/
theorem recovered_shorter {first : Option Stmt} {rest : List Token} {told : List SyntaxFault}
    (someAhead : ts ≠ []) (enough : 4 * ts.length + 2 ≤ n)
    (run : recover (declaration (hear finish) n) ts = ⟨.done first rest, told⟩) :
    rest.length < ts.length := by
  have meets := recover_meets someAhead ((statements_meet finish n).declaration ts enough)
  rw [run] at meets
  obtain ⟨taken, split, kept⟩ := meets
  exact shorter_of_recovered split kept

private theorem declarations_repeats (ih : StatementsRepeat finish finish' more n m)
    (inBlock : Bool) :
    RepeatsWith finish finish' more 4 3 (n + 1) (m + 1)
      (declarations (hear finish) (n + 1) inBlock)
      (declarations (hear finish') (m + 1) inBlock) := by
  intro ts enough enough'
  cases ts with
  | nil =>
    rw [declarations_at_end rfl]
    refine .of_hidden ⟨[], rfl⟩ fun hidden _ => ?_
    obtain ⟨rfl, rfl⟩ := hidden.of_nil
    exact declarations_at_end rfl
  | cons t rest =>
    cases ends : endsDeclarations inBlock (t :: rest) with
    | true =>
      have ends' : endsDeclarations inBlock (t :: rest ++ more) = true := ends
      rw [declarations_at_end ends, declarations_at_end ends']
      exact ⟨⟨[], rfl⟩, fun _ => rfl⟩
    | false =>
      have ends' : endsDeclarations inBlock (t :: rest ++ more) = false := ends
      rw [declarations_before_end ends, declarations_before_end ends']
      apply (recover_repeats (ih.declaration (t :: rest) (by omega) (by omega))).bind_of_run
      intro first after told run
      have shorter := recovered_shorter (List.cons_ne_nil t rest) (by omega) run
      apply (ih.declarations inBlock after (by omega) (by omega)).bind
      intro others final _
      exact repeats_pure _

/-- Parsers of statements are repeated wherever the fuel is enough. -/
theorem statements_repeat (finish finish' : Token) (more : List Token) (n m : Nat) :
    StatementsRepeat finish finish' more n m := by
  induction n generalizing m with
  | zero =>
    constructor
    all_goals intros; omega
  | succ n ih =>
    cases m with
    | zero =>
      constructor
      all_goals intros; omega
    | succ m =>
      have inner := ih m
      exact ⟨statement_repeats inner, declaration_repeats inner, declarations_repeats inner⟩

/-- More fuel than enough has no influence on a list of declarations. -/
theorem declarations_settled {inBlock : Bool} (enough : 4 * ts.length + 3 ≤ n)
    (enough' : 4 * ts.length + 3 ≤ m) :
    declarations (hear finish) m inBlock ts = declarations (hear finish) n inBlock ts := by
  have run := (statements_repeat finish finish [] n m).declarations inBlock ts enough
    (by simpa using enough')
  have same := run.same (.inr ⟨rfl, rfl⟩)
  rwa [List.append_nil, Outcome.extend_nil] at same

/-- A declaration that bails out in front of a token does so whatever follows. -/
theorem declaration_bails_before {rest : List Token} {told : List SyntaxFault} (left : rest ≠ [])
    (enough : 4 * ts.length + 2 ≤ n) (enough' : 4 * (ts ++ more).length + 2 ≤ m)
    (run : declaration (hear finish) n ts = ⟨.bail rest, told⟩) :
    declaration (hear finish') m (ts ++ more) = ⟨.bail (rest ++ more), told⟩ := by
  rw [List.length_append] at enough'
  have again := (statements_repeat finish finish' more n m).declaration ts enough enough'
  rw [run] at again
  exact again.same (.inl left)

end Bhasha.Parse
