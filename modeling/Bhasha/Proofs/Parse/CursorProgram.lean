import Bhasha.Proofs.Parse.Concatenation
import Bhasha.Proofs.Parse.CursorRun

/-!
# A cursor comes to the end of every program

The statements of a program as a cursor reads them, and the program itself.  Recovery is the only
place where the cursor looks back without having just moved on, so it needs a token behind it: a
declaration begins in front of a token, and if it fails at the end of the input, that token is
behind the cursor.

A declaration reads a token whether it is read or given up, so the loops over declarations lead
forward in every round.
-/

namespace Bhasha.Parse.Cursor

open Grammar

variable {α : Type} {tokens : Array Token} {base ts : List Token} {finish t : Token} {s : State}
  {n m : Nat}

theorem expr_mirrors (holds : Holds tokens base finish) (here : At base ts s)
    (enough : 20 * ts.length + 15 ≤ n) :
    Mirrors base ts s (expr (hear finish) ts) (expression tokens n s) := by
  unfold expr
  exact (expressions_mirror holds n _).expression ts s enough (by omega) here

theorem declarationTail_mirrors (holds : Holds tokens base finish) (here : At base ts s)
    (enough : 20 * ts.length + 15 ≤ n) :
    Mirrors base ts s (Parse.declarationTail (hear finish) ts) (declarationTail tokens n s) := by
  unfold Parse.declarationTail declarationTail
  apply (mirrors_expect holds here _ _).bind
  intro name rest s' here shorter
  have close : ∀ initializer final s'', At base final s'' →
      Mirrors base final s''
        ((Parse.expect (hear finish) .semicolon .declarationNeedsSemicolon >>= fun _ =>
          pure (Stmt.declare name initializer)) final)
        ((expect tokens .semicolon .declarationNeedsSemicolon >>= fun _ =>
          pure (Stmt.declare name initializer)) s'') := by
    intro initializer final s'' here
    exact (mirrors_expect holds here _ _).bind fun _ _ _ here _ => mirrors_pure _ here
  apply mirrors_accept holds here
  · apply (mirrors_pure none here).bind
    intro initializer final s'' here _
    exact close initializer final s'' here
  · intro equal after split _ behind
    simp only [split, List.length_cons] at shorter
    apply ((expr_mirrors holds behind.at (by omega)).map some).bind
    intro initializer final s'' here _
    exact close initializer final s'' here

/-- An expression and the semicolon after it, in whatever statement. -/
theorem value_mirrors (holds : Holds tokens base finish) (here : At base ts s)
    (enough : 20 * ts.length + 15 ≤ n) (form : Expr → Stmt) (fault : Fault) :
    Mirrors base ts s
      ((do
        let value ← expr (hear finish)
        let _ ← Parse.expect (hear finish) .semicolon fault
        pure (form value) : Parser (Recorded SyntaxFault) Stmt) ts)
      ((do
        let value ← expression tokens n
        let _ ← expect tokens .semicolon fault
        pure (form value) : Machine Stmt) s) := by
  apply (expr_mirrors holds here enough).bind
  intro value rest s' here _
  exact (mirrors_expect holds here _ _).bind fun _ _ _ here _ => mirrors_pure _ here

theorem initializerClause_mirrors (holds : Holds tokens base finish) (here : At base ts s)
    (enough : 20 * ts.length + 15 ≤ n) :
    Mirrors base ts s (Parse.initializerClause (hear finish) ts)
      (initializerClause tokens n s) := by
  unfold Parse.initializerClause initializerClause
  apply mirrors_choice here
  · intro stops
    rw [accepts_if_refused holds here stops (by simp)]
    rw [accepts_if_refused holds here stops (by simp)]
    exact (value_mirrors holds here enough _ _).map some
  · intro word after split wanted behind
    subst split
    rw [List.length_cons] at enough
    simp only [accepts_if holds here]
    by_cases empty : word.kind = .semicolon
    · simp only [empty, beq_self_eq_true, ↓reduceIte]
      exact mirrors_pure none behind.at
    · have var : word.kind = .var := by simpa [empty] using wanted
      simp only [var, beq_iff_eq, reduceCtorEq, ↓reduceIte]
      exact (declarationTail_mirrors holds behind.at (by omega)).map some

theorem clause_mirrors (holds : Holds tokens base finish) (here : At base ts s)
    (enough : 20 * ts.length + 15 ≤ n) (closing : Kind) :
    Mirrors base ts s (Parse.clause (hear finish) closing ts) (clause tokens n closing s) := by
  unfold Parse.clause clause
  apply mirrors_check holds here
  intro empty
  cases empty with
  | true => exact mirrors_pure none here
  | false => exact (expr_mirrors holds here enough).map some

/-- The body of a compound statement is mirrored wherever no more tokens are ahead. -/
abbrev BodyMirrors (base ts : List Token) (p : Parser (Recorded SyntaxFault) Stmt)
    (q : Machine Stmt) : Prop :=
  ∀ rest s, rest.length ≤ ts.length → At base rest s → Mirrors base rest s (p rest) (q s)

section

variable {p : Parser (Recorded SyntaxFault) Stmt} {q : Machine Stmt}

theorem forTail_mirrors (holds : Holds tokens base finish) (here : At base ts s)
    (enough : 20 * ts.length + 15 ≤ n) (inner : BodyMirrors base ts p q) :
    Mirrors base ts s (Parse.forTail (hear finish) p ts) (forTail tokens n q s) := by
  unfold Parse.forTail forTail
  apply (mirrors_expect holds here _ _).bind
  intro opening rest₁ s₁ here shorter₁
  apply (initializerClause_mirrors holds here (by omega)).bind
  intro initializer rest₂ s₂ here shorter₂
  apply (clause_mirrors holds here (by omega) _).bind
  intro condition rest₃ s₃ here shorter₃
  apply (mirrors_expect holds here _ _).bind
  intro semicolon rest₄ s₄ here shorter₄
  apply (clause_mirrors holds here (by omega) _).bind
  intro increment rest₅ s₅ here shorter₅
  apply (mirrors_expect holds here _ _).bind
  intro closing rest₆ s₆ here shorter₆
  exact (inner rest₆ s₆ (by omega) here).bind fun _ _ _ here _ => mirrors_pure _ here

theorem whileTail_mirrors (holds : Holds tokens base finish) (here : At base ts s)
    (enough : 20 * ts.length + 15 ≤ n) (inner : BodyMirrors base ts p q) :
    Mirrors base ts s (Parse.whileTail (hear finish) p ts) (whileTail tokens n q s) := by
  unfold Parse.whileTail whileTail
  apply (mirrors_expect holds here _ _).bind
  intro opening rest₁ s₁ here shorter₁
  apply (expr_mirrors holds here (by omega)).bind
  intro condition rest₂ s₂ here shorter₂
  apply (mirrors_expect holds here _ _).bind
  intro closing rest₃ s₃ here shorter₃
  exact (inner rest₃ s₃ (by omega) here).bind fun _ _ _ here _ => mirrors_pure _ here

theorem ifTail_mirrors (holds : Holds tokens base finish) (here : At base ts s)
    (enough : 20 * ts.length + 15 ≤ n) (inner : BodyMirrors base ts p q) :
    Mirrors base ts s (Parse.ifTail (hear finish) p ts) (ifTail tokens n q s) := by
  unfold Parse.ifTail ifTail
  apply (mirrors_expect holds here _ _).bind
  intro opening rest₁ s₁ here shorter₁
  apply (expr_mirrors holds here (by omega)).bind
  intro condition rest₂ s₂ here shorter₂
  apply (mirrors_expect holds here _ _).bind
  intro closing rest₃ s₃ here shorter₃
  apply (inner rest₃ s₃ (by omega) here).bind
  intro consequent rest₄ s₄ here shorter₄
  apply mirrors_accept holds here
  · exact mirrors_pure _ here
  · intro word after split _ behind
    simp only [split, List.length_cons] at shorter₄
    exact (inner after s₄.next (by omega) behind.at).bind fun _ _ _ here _ => mirrors_pure _ here

end

theorem skip_at_end (holds : Holds tokens base finish) (here : At base [] s) :
    skip tokens (n + 1) s = .done () s := by
  rw [skip, Machine.bind_of_done (atEnd_eq holds here)]
  rfl

theorem skip_before (holds : Holds tokens base finish) {u : Token}
    (behind : Behind base t (u :: ts) s) :
    skip tokens (n + 1) s =
      if t.kind = .semicolon ∨ isAnchor u.kind then .done () s else skip tokens n s.next := by
  rw [skip, Machine.bind_of_done (atEnd_eq holds behind.at)]
  change (previous tokens >>= _) s = _
  rw [previous_bind holds behind]
  by_cases closed : t.kind = .semicolon
  · simp only [closed, beq_self_eq_true, ↓reduceIte, true_or]
    rfl
  · simp only [closed, beq_iff_eq, ↓reduceIte, false_or]
    rw [Machine.bind_of_done (peek_eq holds behind.at)]
    change (if isAnchor u.kind then _ else _ : Machine Unit) s = _
    split
    · rfl
    · exact Machine.bind_of_done (advance_eq holds behind.at)

/-- Skipping goes where recovery resumes, if the token behind the cursor is the blamed one. -/
theorem skip_eq (holds : Holds tokens base finish) (behind : Behind base t ts s)
    (enough : ts.length < n) :
    ∃ s', skip tokens n s = .done () s' ∧ Reaches base ts s (resume (t :: ts)) [] s' := by
  induction n generalizing t ts s with
  | zero => omega
  | succ n ih =>
    cases ts with
    | nil =>
      have stop : resume [t] = [] := by simp [resume]
      rw [skip_at_end holds behind.at, stop]
      exact ⟨s, rfl, reaches_self behind.at⟩
    | cons u ts =>
      rw [List.length_cons] at enough
      rw [skip_before holds behind]
      by_cases stop : t.kind = .semicolon ∨ isAnchor u.kind
      · rw [if_pos stop, resume_of_stop (by simpa using stop)]
        exact ⟨s, rfl, reaches_self behind.at⟩
      · obtain ⟨other, inside⟩ := not_or.mp stop
        rw [if_neg stop, resume_of_skip other (by simpa using inside)]
        obtain ⟨s', skipped, reaches⟩ := ih behind.at.next (by omega)
        exact ⟨s', skipped, (reaches_next behind.at).trans reaches⟩

/-- The token that lets a cursor look back at the end of the input. -/
theorem At.behind_last (here : At base [] s) (nonempty : base ≠ []) :
    Behind base (base.getLast nonempty) [] s := by
  obtain ⟨read, split, place⟩ := here
  rw [List.append_nil] at split
  subst split
  have positive := List.length_pos_iff.mpr nonempty
  refine ⟨base.dropLast, (List.dropLast_concat_getLast nonempty).symm, ?_⟩
  rw [place, List.length_dropLast]
  omega

theorem synchronize_eq (holds : Holds tokens base finish) (here : At base ts s)
    (nonempty : base ≠ []) (enough : ts.length < n) :
    ∃ s', synchronize tokens n s = .done () s' ∧ Reaches base ts s (resume ts) [] s' := by
  cases ts with
  | nil =>
    -- The cursor does not move at the end of the input, but it still looks back.
    have stays : advance tokens s = .done (base.getLast nonempty) s := by
      rw [advance, Machine.bind_of_done (atEnd_eq holds here)]
      exact previous_eq holds (here.behind_last nonempty)
    obtain ⟨n, rfl⟩ : ∃ k, n = k + 1 := ⟨n - 1, by rw [List.length_nil] at enough; omega⟩
    refine ⟨s, ?_, reaches_self here⟩
    rw [synchronize, Machine.bind_of_done stays, skip_at_end holds here]
  | cons t rest =>
    rw [List.length_cons] at enough
    obtain ⟨s', skipped, reaches⟩ := skip_eq holds here.next (n := n) (by omega)
    refine ⟨s', ?_, (reaches_next here).trans reaches⟩
    rw [synchronize, Machine.bind_of_done (advance_eq holds here), skipped]

theorem Mirrors.recovering {p : Parser (Recorded SyntaxFault) α} {q : Machine α}
    (h : Mirrors base ts s (p ts) (q s)) (holds : Holds tokens base finish) (nonempty : base ≠ [])
    (enough : ts.length < n) :
    Mirrors base ts s (recover p ts) (recovering tokens n q s) := by
  unfold Cursor.recovering
  generalize left : p ts = r at h
  generalize q s = e at h
  cases h with
  | done reaches =>
    rw [recover_of_done left]
    exact .done reaches
  | bail reaches =>
    have fewer := Nat.lt_of_le_of_lt reaches.shorter enough
    obtain ⟨s'', moved, further⟩ := synchronize_eq holds reaches.here nonempty fewer
    have reaches' := reaches.trans further
    rw [List.append_nil] at reaches'
    rw [recover_of_bail left]
    dsimp only
    rw [Machine.bind_of_done moved]
    exact .done reaches'

/-- A visit is noted down as one that leads forward if a token was read. -/
theorem Mirrors.visit {p : Parser (Recorded SyntaxFault) α} {q : Machine α}
    (h : Mirrors base ts s (p ts) (q s)) (here : At base ts s)
    (reads : ∀ value rest told, p ts = ⟨.done value rest, told⟩ → rest.length < ts.length) :
    Mirrors base ts s (p ts) (visit q s) := by
  unfold Cursor.visit
  generalize left : p ts = r at h
  generalize q s = e at h
  cases h with
  | bail reaches => exact .bail reaches
  | @done value rest told s' reaches =>
    have forward : s.current < s'.current := by
      have fewer := reads value rest told left
      obtain ⟨read, split, place⟩ := here
      obtain ⟨read', split', place'⟩ := reaches.here
      have lengths := congrArg List.length (split.symm.trans split')
      rw [List.length_append, List.length_append] at lengths
      omega
    exact .done {
      here := reaches.here
      shorter := reaches.shorter
      faults := reaches.faults
      visits := by
        intro all v noted
        rcases List.mem_append.mp noted with earlier | last
        · exact reaches.visits all v earlier
        · obtain rfl := List.mem_singleton.mp last
          exact forward }

theorem ends_eq (holds : Holds tokens base finish) (here : At base ts s) (inBlock : Bool) :
    ends tokens inBlock s = .done (endsDeclarations inBlock ts) s := by
  have atEnd := atEnd_eq holds here
  unfold ends
  cases inBlock with
  | false => cases ts <;> exact atEnd
  | true =>
    change (check tokens .rightBrace >>= _) s = _
    rw [Machine.bind_of_done (check_eq holds here .rightBrace)]
    cases ts with
    | nil => exact atEnd
    | cons t ts =>
      change (if t.kind == .rightBrace then _ else _ : Machine Bool) s = _
      by_cases closing : t.kind = .rightBrace
      · simp [closing, endsDeclarations, pure]
      · have other : (t.kind == .rightBrace) = false := by simp [closing]
        simpa [other, endsDeclarations] using atEnd

/-- With `n` units of fuel a cursor mirrors the parsers of statements that have `m` units. -/
structure StatementsMirror (tokens : Array Token) (base : List Token) (finish : Token)
    (n m : Nat) : Prop where
  statement : ∀ ts s, 20 * ts.length + 16 ≤ n → 4 * ts.length + 1 ≤ m → At base ts s →
    Mirrors base ts s (Parse.statement (hear finish) m ts) (statement tokens n s)
  declaration : ∀ ts s, ts ≠ [] → 20 * ts.length + 17 ≤ n → 4 * ts.length + 2 ≤ m → At base ts s →
    Mirrors base ts s (recover (Parse.declaration (hear finish) m) ts) (declaration tokens n s)
  declarations : ∀ inBlock ts s, 20 * ts.length + 18 ≤ n → 4 * ts.length + 3 ≤ m → At base ts s →
    Mirrors base ts s (Parse.declarations (hear finish) m inBlock ts)
      (declarations tokens n inBlock s)

private theorem statement_mirrors (holds : Holds tokens base finish)
    (ih : StatementsMirror tokens base finish n m) (here : At base ts s)
    (enough : 20 * ts.length + 16 ≤ n + 1) (enough' : 4 * ts.length + 1 ≤ m + 1) :
    Mirrors base ts s (Parse.statement (hear finish) (m + 1) ts) (statement tokens (n + 1) s) := by
  rw [Parse.statement, statement]
  apply mirrors_choice here
  · intro stops
    iterate 5 rw [accepts_if_refused holds here stops (by simp [beginsStatement])]
    exact value_mirrors holds here (by omega) _ _
  · intro t after split begins behind
    subst split
    rw [List.length_cons] at enough enough'
    have inner : BodyMirrors base after (Parse.statement (hear finish) m) (statement tokens n) :=
      fun rest s shorter here => ih.statement rest s (by omega) (by omega) here
    simp only [accepts_if holds here]
    rcases beginsStatement_cases begins with word | word | word | word | word
    all_goals simp only [word, beq_iff_eq, reduceCtorEq, ↓reduceIte]
    · exact forTail_mirrors holds behind.at (by omega) inner
    · exact ifTail_mirrors holds behind.at (by omega) inner
    · exact value_mirrors holds behind.at (by omega) _ _
    · exact whileTail_mirrors holds behind.at (by omega) inner
    · apply (ih.declarations true after s.next (by omega) (by omega) behind.at).bind
      intro inside rest s' here _
      exact (mirrors_expect holds here _ _).bind fun _ _ _ here _ => mirrors_pure _ here

theorem At.nonempty (here : At base ts s) (someAhead : ts ≠ []) : base ≠ [] := by
  obtain ⟨read, split, -⟩ := here
  simp [split, someAhead]

private theorem declaration_mirrors (holds : Holds tokens base finish)
    (ih : StatementsMirror tokens base finish n m) (here : At base ts s) (someAhead : ts ≠ [])
    (enough : 20 * ts.length + 17 ≤ n + 1) (enough' : 4 * ts.length + 2 ≤ m + 1) :
    Mirrors base ts s (recover (Parse.declaration (hear finish) (m + 1)) ts)
      (declaration tokens (n + 1) s) := by
  rw [Parse.declaration, declaration]
  apply Mirrors.recovering _ holds (here.nonempty someAhead) (by omega)
  apply mirrors_accept holds here
  · exact ih.statement ts s (by omega) (by omega) here
  · intro word after split _ behind
    simp only [split, List.length_cons] at enough
    exact declarationTail_mirrors holds behind.at (by omega)

private theorem declarations_mirror (holds : Holds tokens base finish)
    (ih : StatementsMirror tokens base finish n m) (inBlock : Bool) (here : At base ts s)
    (enough : 20 * ts.length + 18 ≤ n + 1) (enough' : 4 * ts.length + 3 ≤ m + 1) :
    Mirrors base ts s (Parse.declarations (hear finish) (m + 1) inBlock ts)
      (declarations tokens (n + 1) inBlock s) := by
  rw [declarations, Machine.bind_of_done (ends_eq holds here inBlock)]
  cases ends : endsDeclarations inBlock ts with
  | true =>
    rw [declarations_at_end ends]
    exact mirrors_pure [] here
  | false =>
    -- The next round has fewer tokens ahead, so the fuel that is left is enough for it.
    have someAhead := ne_nil_of_goesOn ends
    have shorter : ∀ first rest told,
        recover (Parse.declaration (hear finish) m) ts = ⟨.done first rest, told⟩ →
          rest.length < ts.length :=
      fun first rest told run => recovered_shorter someAhead (by omega) run
    have first := ih.declaration ts s someAhead (by omega) (by omega) here
    rw [declarations_before_end ends]
    apply (first.visit here shorter).bind_of_run
    intro value rest told s' run here _
    have fewer := shorter value rest told run
    apply (ih.declarations inBlock rest s' (by omega) (by omega) here).bind
    intro others final s'' here _
    exact mirrors_pure _ here

/-- The machines of statements mirror their parsers wherever the fuel is enough. -/
theorem statements_mirror (holds : Holds tokens base finish) (n m : Nat) :
    StatementsMirror tokens base finish n m := by
  induction n generalizing m with
  | zero =>
    constructor
    all_goals intros; omega
  | succ n ih =>
    cases m with
    | zero =>
      constructor
      all_goals intros; omega
    | succ m =>
      have inner := ih m
      constructor
      · intro ts s enough enough' here
        exact statement_mirrors holds inner here enough enough'
      · intro ts s someAhead enough enough' here
        exact declaration_mirrors holds inner here someAhead enough enough'
      · intro inBlock ts s enough enough' here
        exact declarations_mirror holds inner inBlock here enough enough'

theorem split_at_end {ts : List Token} (ended : ∃ t ∈ ts, t.kind = .eof) :
    ∃ others, ts = body ts ++ endToken ts :: others := by
  induction ts with
  | nil => simp at ended
  | cons t ts ih =>
    by_cases final : t.kind = .eof
    · exact ⟨ts, by simp [body, endToken, final]⟩
    · have later : ∃ u ∈ ts, u.kind = .eof := by simpa [final] using ended
      have before : ∀ u ∈ [t], u.kind ≠ .eof := by simpa using final
      have filled : ts ≠ [] := by
        obtain ⟨u, member, -⟩ := later
        exact List.ne_nil_of_mem member
      obtain ⟨others, split⟩ := ih later
      refine ⟨others, ?_⟩
      calc
        t :: ts = t :: (body ts ++ endToken ts :: others) := congrArg (t :: ·) split
        _ = body ([t] ++ ts) ++ endToken ([t] ++ ts) :: others := by
          rw [body_append ts before, endToken_append before filled]
          rfl

theorem endToken_kind (ts : List Token) : (endToken ts).kind = .eof := by
  unfold endToken
  cases found : ts.find? (·.kind == .eof) with
  | none => rfl
  | some finish => simpa using List.find?_some found

theorem closed_split (ts : List Token) :
    ∃ others, closed ts = body ts ++ endToken ts :: others := by
  unfold closed
  by_cases ended : ∃ t ∈ ts, t.kind = .eof
  · obtain ⟨others, whole⟩ := split_at_end ended
    split
    · exact ⟨others, whole⟩
    · exact ⟨others ++ [_], by rw [← List.cons_append, ← List.append_assoc, ← whole]⟩
  · have inside : ∀ t ∈ ts, t.kind ≠ .eof := fun t member final => ended ⟨t, member, final⟩
    have unended : ts.getLast?.any (·.kind == .eof) = false := by
      cases last : ts.getLast? with
      | none => rfl
      | some t => simpa using inside t (List.mem_of_getLast? last)
    rw [if_neg (by simp [unended]), body_eq_self inside]
    exact ⟨[], by simp [endToken, find?_end inside]⟩

/-- The array of a run holds the tokens that are parsed, and the end of the input behind them. -/
theorem holds_closed (ts : List Token) : Holds (closed ts).toArray (body ts) (endToken ts) where
  split := closed_split ts
  inside := fun t member => by simpa using List.all_eq_true.mp List.all_takeWhile t member
  final := endToken_kind ts

/-- A cursor reads every list of tokens to the end of the input.  With twenty units of fuel for each
token, or more, it is never out of fuel and never asks for a token outside the array, and it gives
the statements and the faults that the parser gives.  Every declaration that one of the two loops
visits leads it forward, whether it is kept or given up. -/
theorem cursor_stays_inside (ts : List Token) (spare : Nat) :
    ∃ visits, run (20 * (ts.length + 1) + spare) ts =
        .done (recorded ts).value ⟨(body ts).length, (recorded ts).records, visits⟩ ∧
      ∀ v ∈ visits, v.start < v.stop := by
  have fewer : (body ts).length ≤ ts.length := (List.takeWhile_sublist _).length_le
  have start : At (body ts) (body ts) ⟨0, [], []⟩ := ⟨[], rfl, rfl⟩
  obtain ⟨inner, told, read, -⟩ := program_reads (endToken ts) (body ts)
  have mirrors := (statements_mirror (holds_closed ts) (20 * (ts.length + 1) + spare)
    (4 * ((body ts).length + 1))).declarations false (body ts) _ (by omega) (by omega) start
  rw [recorded_of_done read]
  unfold program at read
  rw [read] at mirrors
  unfold run
  generalize declarations _ _ _ _ = e at mirrors ⊢
  cases mirrors with
  | @done _ _ _ final reaches =>
    obtain ⟨before, whole, place⟩ := reaches.here
    rw [List.append_nil] at whole
    subst whole
    refine ⟨final.visits, ?_, reaches.visits (by simp)⟩
    have faults : final.faults = told := reaches.faults
    rw [← place, ← faults]

end Bhasha.Parse.Cursor
