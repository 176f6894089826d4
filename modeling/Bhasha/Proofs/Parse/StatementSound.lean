import Bhasha.Proofs.Grammar.Statement
import Bhasha.Proofs.Parse.ExpressionComplete

/-!
# Statements that are read have derivations

Given enough fuel, the parser of statements either is done with a derivable statement or bails out
with a fatal fault.  A statement that dangles is never left in front of an `else`.  The parser of
declaration lists is always done: where a declaration fails, recovery leaves a gap with the fatal
fault that caused it, and goes on behind at least one token.
-/

namespace Bhasha.Parse

open Grammar

variable {finish : Token} {ts : List Token}

/-- A statement was read, and nothing that would still belong to it follows. -/
abbrev readingStatement : Contract Stmt := fun taken rest s told =>
  ∃ dangles, Statement dangles taken s told ∧ (dangles = true → Stops (· == .else_) rest)

theorem declarationTail_meets :
    Meets finish (fun taken _ s told => Declared taken s told) ts
      (declarationTail (hear finish) ts) := by
  unfold declarationTail
  refine (expect_meets rfl).bind ?_
  rintro _ rest name _ _ ⟨rfl, named, rfl⟩
  refine (accept_meets _).bind ?_
  rintro _ after _ _ _ ⟨rfl, ⟨equal, rfl, rfl, sign⟩ | ⟨rfl, rfl, -⟩⟩
  · have sign : equal.kind = .equal := by simpa using sign
    refine ((expr_meets finish after).map some).bind ?_
    rintro u left _ told _ ⟨e, rfl, value⟩
    refine (expect_meets rfl).bind ?_
    rintro _ final semicolon _ _ ⟨rfl, stop, rfl⟩
    exact meets_pure (by simpa using Declared.valued named sign value stop)
  · refine pure_meets ?_
    refine (expect_meets rfl).bind ?_
    rintro _ final semicolon _ _ ⟨rfl, stop, rfl⟩
    exact meets_pure (by simpa using Declared.bare named stop)

theorem expressionStatement_meets :
    Meets finish (fun taken _ s told => ∃ u semicolon e, taken = u ++ [semicolon] ∧
      s = .expression e ∧ Derives .expression u e told ∧ semicolon.kind = .semicolon) ts
      (expressionStatement (hear finish) ts) := by
  unfold expressionStatement
  refine (expr_meets finish ts).bind ?_
  intro u rest e told _ value
  refine (expect_meets rfl).bind ?_
  rintro _ final semicolon _ _ ⟨rfl, stop, rfl⟩
  exact meets_pure ⟨u, semicolon, e, by simp, rfl, by simpa using value, stop⟩

theorem printTail_meets {first : Token} (word : first.kind = .print) :
    Meets finish (fun taken rest s told => readingStatement (first :: taken) rest s told) ts
      (printTail (hear finish) ts) := by
  unfold printTail
  refine (expr_meets finish ts).bind ?_
  intro u rest e told _ value
  refine (expect_meets rfl).bind ?_
  rintro _ final semicolon _ _ ⟨rfl, stop, rfl⟩
  exact meets_pure ⟨false, by simpa using Statement.print word value stop, by simp⟩

theorem initializerClause_meets :
    Meets finish (fun taken _ start told => Initializer taken start told) ts
      (initializerClause (hear finish) ts) := by
  unfold initializerClause
  refine (accept_meets _).bind ?_
  rintro _ after _ _ _ ⟨rfl, ⟨t, rfl, rfl, kinds⟩ | ⟨rfl, rfl, -⟩⟩
  · dsimp only
    by_cases stop : t.kind = .semicolon
    · rw [if_pos stop]
      exact meets_pure (Initializer.empty stop)
    · rw [if_neg stop]
      have word : t.kind = .var := by simpa [stop] using kinds
      refine (declarationTail_meets.map some).weaken ?_
      rintro u rest _ told _ ⟨s, rfl, tail⟩
      exact Initializer.declared word tail
  · refine (expressionStatement_meets.map some).weaken ?_
    rintro _ rest _ told _ ⟨_, rfl, u, semicolon, e, rfl, rfl, value, stop⟩
    exact Initializer.expression value stop

theorem clause_meets (closing : Kind) :
    Meets finish (fun taken _ value told => Clause taken value told) ts
      (clause (hear finish) closing ts) := by
  unfold clause
  refine nextIs_meets ?_
  cases ts.head?.any (·.kind == closing) with
  | true => exact meets_pure Clause.empty
  | false =>
    refine ((expr_meets finish ts).map some).weaken ?_
    rintro u rest _ told _ ⟨e, rfl, value⟩
    exact Clause.given value

/-- The body of a compound statement keeps its contract on all lists that are no longer. -/
abbrev BodyMeets (finish : Token) (body : Parser (Recorded SyntaxFault) Stmt) (ts : List Token) :
    Prop :=
  ∀ after : List Token, after.length ≤ ts.length → Meets finish readingStatement after (body after)

theorem whileTail_meets {first : Token} {body : Parser (Recorded SyntaxFault) Stmt}
    (word : first.kind = .while_) (hbody : BodyMeets finish body ts) :
    Meets finish (fun taken rest s told => readingStatement (first :: taken) rest s told) ts
      (whileTail (hear finish) body ts) := by
  unfold whileTail
  refine (expect_meets rfl).bind ?_
  rintro _ rest opening _ split ⟨rfl, left, rfl⟩
  refine (expr_meets finish rest).bind ?_
  intro u rest' e told split' condition
  refine (expect_meets rfl).bind ?_
  rintro _ rest'' closing _ split'' ⟨rfl, right, rfl⟩
  refine (hbody rest'' (by simp [split, split', split'']; omega)).bind ?_
  rintro v final s more _ ⟨dangles, inner, follows⟩
  refine meets_pure ⟨dangles, ?_, follows⟩
  simpa using Statement.loop (Header.mk word left condition right) inner

theorem ifTail_meets {first : Token} {body : Parser (Recorded SyntaxFault) Stmt}
    (word : first.kind = .if_) (hbody : BodyMeets finish body ts) :
    Meets finish (fun taken rest s told => readingStatement (first :: taken) rest s told) ts
      (ifTail (hear finish) body ts) := by
  unfold ifTail
  refine (expect_meets rfl).bind ?_
  rintro _ rest opening _ split ⟨rfl, left, rfl⟩
  refine (expr_meets finish rest).bind ?_
  intro u rest' e told split' condition
  refine (expect_meets rfl).bind ?_
  rintro _ rest'' closing _ split'' ⟨rfl, right, rfl⟩
  have header := Header.mk word left condition right
  refine (hbody rest'' (by simp [split, split', split'']; omega)).bind ?_
  rintro v after s more split₃ ⟨dangles, consequent, follows⟩
  refine (accept_meets _).bind ?_
  rintro _ after' _ _ split₄ ⟨rfl, ⟨other, rfl, rfl, sign⟩ | ⟨rfl, rfl, none⟩⟩
  · have closed : dangles = false := by
      cases dangles with
      | false => rfl
      | true => simp [Stops, split₄, sign] at follows
    subst closed
    refine (hbody after' (by simp [split, split', split'', split₃, split₄]; omega)).bind ?_
    rintro w final a most _ ⟨dangles, alternative, follows⟩
    refine meets_pure ⟨dangles, ?_, follows⟩
    simpa using Statement.branchElse header consequent (by simpa using sign) alternative
  · refine meets_pure ⟨true, ?_, fun _ => none⟩
    simpa using Statement.branch header consequent

theorem forTail_meets {first : Token} {body : Parser (Recorded SyntaxFault) Stmt}
    (word : first.kind = .for_) (hbody : BodyMeets finish body ts) :
    Meets finish (fun taken rest s told => readingStatement (first :: taken) rest s told) ts
      (forTail (hear finish) body ts) := by
  unfold forTail
  refine (expect_meets rfl).bind ?_
  rintro _ rest opening _ split ⟨rfl, left, rfl⟩
  refine initializerClause_meets.bind ?_
  intro u rest₁ start told split₁ initializer
  refine (clause_meets _).bind ?_
  intro v rest₂ condition more split₂ test
  refine (expect_meets rfl).bind ?_
  rintro _ rest₃ semicolon _ split₃ ⟨rfl, stop, rfl⟩
  refine (clause_meets _).bind ?_
  intro w rest₄ increment most split₄ step
  refine (expect_meets rfl).bind ?_
  rintro _ rest₅ closing _ split₅ ⟨rfl, right, rfl⟩
  refine (hbody rest₅ (by simp [split, split₁, split₂, split₃, split₄, split₅]; omega)).bind ?_
  rintro x final s last _ ⟨dangles, inner, follows⟩
  refine meets_pure ⟨dangles, ?_, follows⟩
  rw [← spelledOut_eq]
  simpa using Statement.counting (Clauses.mk word left initializer test stop step right) inner

/-- Recovery goes on behind at least one token. -/
theorem resume_split (t : Token) (rest : List Token) :
    ∃ skipped, t :: rest = t :: skipped ++ resume (t :: rest) := by
  induction rest generalizing t with
  | nil => exact ⟨[], by simp [resume]⟩
  | cons next rest ih =>
    rw [resume]
    split
    · exact ⟨[], rfl⟩
    · obtain ⟨skipped, same⟩ := ih next
      exact ⟨next :: skipped, congrArg (t :: ·) same⟩

/-- A recovered parser is done: with its value, or behind a gap that a fatal fault left. -/
theorem recover_meets {α : Type} {contract : Contract α} {p : Parser (Recorded SyntaxFault) α}
    (some_ahead : ts ≠ []) (hp : Meets finish contract ts (p ts)) :
    Meets finish (fun taken rest result told =>
      (∃ value, result = some value ∧ contract taken rest value told) ∨
        (result = none ∧ taken ≠ [] ∧ ∃ f ∈ told, f.fault.isFatal = true)) ts (recover p ts) := by
  rcases hr : p ts with ⟨outcome, told⟩
  rw [hr] at hp
  cases outcome with
  | done value rest =>
    obtain ⟨taken, split, kept⟩ := hp
    rw [recover_of_done hr]
    exact ⟨taken, split, Or.inl ⟨value, rfl, kept⟩⟩
  | bail rest =>
    obtain ⟨taken, split, fatal⟩ := hp
    obtain ⟨skipped, same⟩ : ∃ skipped, rest = skipped ++ resume rest ∧ taken ++ skipped ≠ [] := by
      cases rest with
      | nil => exact ⟨[], rfl, by simpa [← split] using some_ahead⟩
      | cons t rest =>
        obtain ⟨skipped, same⟩ := resume_split t rest
        exact ⟨t :: skipped, same, by simp⟩
    rw [recover_of_bail hr]
    refine ⟨taken ++ skipped, ?_, Or.inr ⟨rfl, same.2, fatal.exists_fatal⟩⟩
    rw [List.append_assoc, ← same.1, split]

/-- A declaration was read, and nothing that would still belong to it follows. -/
abbrev readingDeclaration : Contract Stmt := fun taken rest s told =>
  ∃ dangles, Declaration dangles taken s told ∧ (dangles = true → Stops (· == .else_) rest)

/-- Declarations were read up to the place where their list ends. -/
abbrev readingDeclarations (inBlock : Bool) : Contract (List Stmt) := fun taken rest inner told =>
  Declarations taken inner told ∧ endsDeclarations inBlock rest = true

/-- The parsers of statements with `n` units of fuel keep their contracts on the token lists for
which that is enough. -/
structure StatementsMeet (finish : Token) (n : Nat) : Prop where
  statement : ∀ ts, 4 * ts.length + 1 ≤ n →
    Meets finish readingStatement ts (statement (hear finish) n ts)
  declaration : ∀ ts, 4 * ts.length + 2 ≤ n →
    Meets finish readingDeclaration ts (declaration (hear finish) n ts)
  declarations : ∀ inBlock ts, 4 * ts.length + 3 ≤ n →
    Meets finish (readingDeclarations inBlock) ts (declarations (hear finish) n inBlock ts)

variable {n : Nat}

private theorem statement_step (ih : StatementsMeet finish n) (ts : List Token)
    (fuel : 4 * ts.length + 1 ≤ n + 1) :
    Meets finish readingStatement ts (statement (hear finish) (n + 1) ts) := by
  rw [statement]
  refine (accept_meets _).bind ?_
  rintro _ after _ _ split ⟨rfl, ⟨t, rfl, rfl, begins⟩ | ⟨rfl, rfl, -⟩⟩
  · have shorter : after.length + 1 = ts.length := by simp [split]
    have body : BodyMeets finish (statement (hear finish) n) after :=
      fun rest le => ih.statement rest (by omega)
    dsimp only
    rcases beginsStatement_cases begins with word | word | word | word | word
    · rw [word]
      exact forTail_meets word body
    · rw [word]
      exact ifTail_meets word body
    · rw [word]
      exact printTail_meets word
    · rw [word]
      exact whileTail_meets word body
    · rw [word]
      refine (ih.declarations true after (by omega)).bind ?_
      rintro u rest inner told _ ⟨inside, -⟩
      refine (expect_meets rfl).bind ?_
      rintro _ final closing _ _ ⟨rfl, right, rfl⟩
      exact meets_pure ⟨false, by simpa using Statement.block word inside right, by simp⟩
  · refine expressionStatement_meets.weaken ?_
    rintro _ rest _ told _ ⟨u, semicolon, e, rfl, rfl, value, stop⟩
    exact ⟨false, by simpa using Statement.expression value stop, by simp⟩

private theorem declaration_step (ih : StatementsMeet finish n) (ts : List Token)
    (fuel : 4 * ts.length + 2 ≤ n + 1) :
    Meets finish readingDeclaration ts (declaration (hear finish) (n + 1) ts) := by
  rw [declaration]
  refine (accept_meets _).bind ?_
  rintro _ after _ _ split ⟨rfl, ⟨t, rfl, rfl, word⟩ | ⟨rfl, rfl, -⟩⟩
  · refine declarationTail_meets.weaken ?_
    intro u rest s told _ tail
    exact ⟨false, Declaration.declare (by simpa using word) tail, by simp⟩
  · refine (ih.statement after (by simp [split] at fuel; omega)).weaken ?_
    rintro u rest s told _ ⟨dangles, inner, follows⟩
    exact ⟨dangles, Declaration.statement inner, follows⟩

theorem ne_nil_of_goesOn {inBlock : Bool} (goesOn : endsDeclarations inBlock ts = false) :
    ts ≠ [] := by
  rintro rfl
  simp [endsDeclarations] at goesOn

theorem shorter_of_recovered {u rest : List Token} {result : Option Stmt}
    {told : List SyntaxFault} (split : ts = u ++ rest)
    (kept : (∃ s, result = some s ∧ readingDeclaration u rest s told) ∨
      (result = none ∧ u ≠ [] ∧ ∃ f ∈ told, f.fault.isFatal = true)) :
    rest.length < ts.length := by
  have taken : u ≠ [] := by
    rcases kept with ⟨s, -, dangles, first, -⟩ | ⟨-, taken, -⟩
    · obtain ⟨t, v, rfl, -⟩ := first.head
      simp
    · exact taken
  have positive := List.length_pos_iff.mpr taken
  rw [split, List.length_append]
  omega

private theorem declarations_step (ih : StatementsMeet finish n) (inBlock : Bool) (ts : List Token)
    (fuel : 4 * ts.length + 3 ≤ n + 1) :
    Meets finish (readingDeclarations inBlock) ts
      (declarations (hear finish) (n + 1) inBlock ts) := by
  rw [declarations]
  refine ahead_meets ?_
  cases ends : endsDeclarations inBlock ts with
  | true => exact meets_pure ⟨.nil, ends⟩
  | false =>
    refine (recover_meets (ne_nil_of_goesOn ends) (ih.declaration ts (by omega))).bind ?_
    intro u rest result told split kept
    have shorter := shorter_of_recovered split kept
    refine (ih.declarations inBlock rest (by omega)).bind ?_
    rintro v final others more _ ⟨tail, ends⟩
    rcases kept with ⟨s, rfl, dangles, first, -⟩ | ⟨rfl, -, fatal⟩
    · exact meets_pure ⟨by simpa using Declarations.cons first tail, ends⟩
    · exact meets_pure ⟨by simpa using Declarations.gap fatal tail, ends⟩

theorem statements_meet (finish : Token) (n : Nat) : StatementsMeet finish n := by
  induction n with
  | zero =>
    constructor
    all_goals intros; omega
  | succ n ih => exact ⟨statement_step ih, declaration_step ih, declarations_step ih⟩

theorem recover_done {α : Type} (p : Parser (Recorded SyntaxFault) α) (ts : List Token) :
    ∃ result rest told, recover p ts = ⟨.done result rest, told⟩ := by
  rcases run : p ts with ⟨outcome, told⟩
  cases outcome with
  | done value rest => exact ⟨some value, rest, told, recover_of_done run⟩
  | bail rest => exact ⟨none, resume rest, told, recover_of_bail run⟩

theorem declarations_at_end {inBlock : Bool} (ends : endsDeclarations inBlock ts = true) :
    declarations (hear finish) (n + 1) inBlock ts = ⟨.done [] ts, []⟩ := by
  rw [declarations]
  show (ite (endsDeclarations inBlock ts = true) _ _ : Parser (Recorded SyntaxFault) _) ts = _
  rw [if_pos ends]
  rfl

theorem declarations_before_end {inBlock : Bool} (goesOn : endsDeclarations inBlock ts = false) :
    declarations (hear finish) (n + 1) inBlock ts =
      (recover (declaration (hear finish) n) >>= fun first =>
        declarations (hear finish) n inBlock >>= fun rest => pure (first.toList ++ rest)) ts := by
  rw [declarations]
  show (ite (endsDeclarations inBlock ts = true) _ _ : Parser (Recorded SyntaxFault) _) ts = _
  rw [if_neg (by simp [goesOn])]

/-- A list of declarations never bails out: what fails in it is recovered from. -/
theorem declarations_done (finish : Token) (inBlock : Bool) (n : Nat) (ts : List Token)
    (fuel : 4 * ts.length + 3 ≤ n) :
    ∃ inner rest told, declarations (hear finish) n inBlock ts = ⟨.done inner rest, told⟩ := by
  induction n generalizing ts with
  | zero => omega
  | succ n ih =>
    cases ends : endsDeclarations inBlock ts with
    | true => exact ⟨[], ts, [], declarations_at_end ends⟩
    | false =>
      obtain ⟨first, rest, told, hfirst⟩ := recover_done (declaration (hear finish) n) ts
      have meets := recover_meets (ne_nil_of_goesOn ends)
        ((statements_meet finish n).declaration ts (by omega))
      rw [hfirst] at meets
      obtain ⟨u, split, kept⟩ := meets
      have shorter := shorter_of_recovered split kept
      obtain ⟨others, final, more, hrest⟩ := ih rest (by omega)
      rw [declarations_before_end ends]
      exact ⟨first.toList ++ others, final, told ++ (more ++ []),
        bind_run hfirst (bind_run hrest rfl)⟩

/-- A program is read to the end of its tokens, whatever they are. -/
theorem program_reads (finish : Token) (ts : List Token) :
    ∃ statements told, program (hear finish) ts = ⟨.done statements [], told⟩ ∧
      Declarations ts statements told := by
  have fuel : 4 * ts.length + 3 ≤ 4 * (ts.length + 1) := by omega
  have meets := (statements_meet finish _).declarations false ts fuel
  obtain ⟨inner, rest, told, read⟩ := declarations_done finish false _ ts fuel
  rw [read] at meets
  obtain ⟨taken, rfl, derived, ends⟩ := meets
  cases rest with
  | nil => exact ⟨inner, told, read, by simpa using derived⟩
  | cons t rest => simp [endsDeclarations] at ends

end Bhasha.Parse
