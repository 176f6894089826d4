import Bhasha.Proofs.Parse.Concatenation
import Bhasha.Proofs.Tree.WellFormed

/-!
# Parsing after a failure

The trees of every list of tokens are well formed, also those that are left after failures.

A statement up to its only semicolon, with no block, no counting loop and no anchor inside, is a
simple line.  Expressions never take a semicolon, so a parser that fails on a simple line fails in
front of its semicolon or earlier, and recovery goes on right behind the line.  The line has told
one fatal fault by then, and what follows is read as if the line were not there.
-/

namespace Bhasha.Parse

open Grammar

/-- The statements of any list of tokens are well formed, and hold no token from elsewhere. -/
theorem parsed_trees_are_well_formed (ts : List Token) :
    Stmt.AllWellFormed (· ∈ body ts) (recorded ts).value :=
  (recorded_derives ts).wellFormed fun _ member => member

/-- Tokens of which none opens a block or a counting loop, up to a semicolon, the first one. -/
def Awaits (stop : Token) (ts : List Token) : Prop :=
  ∃ u, ts = u ++ [stop] ∧
    ∀ t ∈ u, t.kind ≠ .semicolon ∧ t.kind ≠ .leftBrace ∧ t.kind ≠ .for_

/-- The number of fatal faults. -/
def fatals (told : List SyntaxFault) : Nat := told.countP (·.fault.isFatal)

/-- A parser that is done tells no fatal fault and keeps `Q` of what it leaves; one that bails out
tells one at most and leaves a token. -/
def Leaves {α : Type} (Q : List Token → Prop) (r : Recorded SyntaxFault (Outcome α)) : Prop :=
  match r.value with
  | .done _ rest => Q rest ∧ fatals r.records = 0
  | .bail rest => rest ≠ [] ∧ fatals r.records ≤ 1

section

variable {α β : Type} {finish stop : Token} {ts : List Token} {Q Q' : List Token → Prop}

theorem Awaits.ne_nil (awaits : Awaits stop ts) : ts ≠ [] := by
  obtain ⟨u, rfl, -⟩ := awaits
  simp

/-- The first token is the awaited semicolon, or something in front of it. -/
theorem Awaits.cases {t : Token} {rest : List Token} (awaits : Awaits stop (t :: rest)) :
    (t = stop ∧ rest = []) ∨
      ((t.kind ≠ .semicolon ∧ t.kind ≠ .leftBrace ∧ t.kind ≠ .for_) ∧ Awaits stop rest) := by
  obtain ⟨u, split, plain⟩ := awaits
  cases u with
  | nil =>
    rw [List.nil_append, List.cons.injEq] at split
    exact .inl split
  | cons t' u =>
    rw [List.cons_append, List.cons.injEq] at split
    obtain ⟨rfl, rfl⟩ := split
    rw [List.forall_mem_cons] at plain
    exact .inr ⟨plain.1, u, rfl, plain.2⟩

theorem Leaves.bind {p : Parser (Recorded SyntaxFault) α} {f : α → Parser (Recorded SyntaxFault) β}
    (first : Leaves Q (p ts)) (next : ∀ value rest, Q rest → Leaves Q' (f value rest)) :
    Leaves Q' ((p >>= f) ts) := by
  rcases run : p ts with ⟨outcome, told⟩
  rw [run] at first
  cases outcome with
  | bail rest =>
    rw [bind_of_bail run]
    exact first
  | done value rest =>
    obtain ⟨holds, mild⟩ := first
    have after := next value rest holds
    have mild : fatals told = 0 := mild
    rw [bind_of_done run]
    rcases run' : f value rest with ⟨outcome', told'⟩
    rw [run'] at after
    cases outcome' with
    | bail final =>
      refine ⟨after.1, ?_⟩
      have bound : fatals told' ≤ 1 := after.2
      simp only [fatals, List.countP_append] at mild bound ⊢
      omega
    | done result final =>
      refine ⟨after.1, ?_⟩
      have none : fatals told' = 0 := after.2
      simp only [fatals, List.countP_append] at mild none ⊢
      omega

theorem leaves_pure {value : α} (holds : Q ts) :
    Leaves Q ((pure value : Parser (Recorded SyntaxFault) α) ts) := ⟨holds, rfl⟩

theorem Leaves.map {p : Parser (Recorded SyntaxFault) α} (f : α → β) (h : Leaves Q (p ts)) :
    Leaves Q ((f <$> p) ts) :=
  h.bind fun _ _ holds => leaves_pure holds

theorem Leaves.congr {p q : Parser (Recorded SyntaxFault) α} (same : p = q)
    (h : Leaves Q (q ts)) : Leaves Q (p ts) := by
  rw [same]
  exact h

theorem leaves_spent (awaits : Awaits stop ts) :
    Leaves Q ((spent : Parser (Recorded SyntaxFault) α) ts) :=
  ⟨awaits.ne_nil, Nat.zero_le 1⟩

theorem leaves_fail (fault : Fault) (awaits : Awaits stop ts) :
    Leaves Q ((fail (hear finish) fault : Parser (Recorded SyntaxFault) α) ts) :=
  ⟨awaits.ne_nil, List.countP_le_length⟩

theorem leaves_reportAt {place : List Token} {fault : Fault} (mild : fault.isFatal = false)
    (holds : Q ts) : Leaves Q (reportAt (hear finish) place fault ts) := by
  refine ⟨holds, ?_⟩
  show fatals [⟨place.headD finish, fault⟩] = 0
  simp [fatals, mild]

/-- A mild report that is made on a condition, before the parser goes on. -/
theorem leaves_reportIf {c : Prop} [Decidable c] {place : List Token} {fault : Fault}
    {p : Parser (Recorded SyntaxFault) α} (mild : fault.isFatal = false) (holds : Q ts)
    (next : ∀ rest, Q rest → Leaves Q' (p rest)) :
    Leaves Q' ((if c then reportAt (hear finish) place fault >>= fun _ => p else p) ts) := by
  split
  · exact (leaves_reportAt mild holds).bind fun _ rest kept => next rest kept
  · exact next ts holds

theorem leaves_ahead {f : List Token → Parser (Recorded SyntaxFault) β}
    (next : Leaves Q (f ts ts)) :
    Leaves Q (((ahead : Parser (Recorded SyntaxFault) (List Token)) >>= f) ts) := next

theorem leaves_nextIs {kind : Kind} {f : Bool → Parser (Recorded SyntaxFault) β}
    (next : ∀ found, Leaves Q (f found ts)) :
    Leaves Q (((nextIs kind : Parser (Recorded SyntaxFault) Bool) >>= f) ts) := next _

/-- A token other than a semicolon may be read without harm. -/
theorem leaves_accept {wanted : Kind → Bool} {f : Option Token → Parser (Recorded SyntaxFault) β}
    (ends : stop.kind = .semicolon) (spares : wanted .semicolon = false) (awaits : Awaits stop ts)
    (refused : Leaves Q (f none ts))
    (read : ∀ t rest, wanted t.kind = true → t.kind ≠ .leftBrace → t.kind ≠ .for_ →
      Awaits stop rest → Leaves Q (f (some t) rest)) :
    Leaves Q ((accept wanted >>= f) ts) := by
  cases ts with
  | nil => exact absurd rfl awaits.ne_nil
  | cons t rest =>
    by_cases wants : wanted t.kind = true
    · rw [accept_bind_some wants]
      rcases awaits.cases with ⟨rfl, -⟩ | ⟨plain, later⟩
      · rw [ends, spares] at wants
        cases wants
      · exact read t rest wants plain.2.1 plain.2.2 later
    · rw [accept_bind_none (by simpa using wants)]
      exact refused

theorem leaves_expect {kind : Kind} (fault : Fault) (ends : stop.kind = .semicolon)
    (spares : kind ≠ .semicolon) (awaits : Awaits stop ts) :
    Leaves (Awaits stop) (expect (hear finish) kind fault ts) := by
  cases ts with
  | nil => exact absurd rfl awaits.ne_nil
  | cons t rest =>
    rw [expect_cons]
    split
    · rename_i same
      rcases awaits.cases with ⟨rfl, -⟩ | ⟨-, later⟩
      · exact absurd (same.symm.trans ends) spares
      · exact ⟨later, rfl⟩
    · exact leaves_fail fault awaits

/-- The awaited semicolon is the last token. -/
theorem leaves_semicolon (fault : Fault) (awaits : Awaits stop ts) :
    Leaves (· = []) (expect (hear finish) .semicolon fault ts) := by
  cases ts with
  | nil => exact absurd rfl awaits.ne_nil
  | cons t rest =>
    rw [expect_cons]
    split
    · rename_i same
      rcases awaits.cases with ⟨-, last⟩ | ⟨plain, -⟩
      · exact ⟨last, rfl⟩
      · exact absurd same plain.1
    · exact leaves_fail fault awaits

end

variable {finish stop : Token} {ts : List Token} {n : Nat}

/-- All parsers of expressions stay in front of the awaited semicolon. -/
structure ExpressionsStay (finish stop : Token) (n : Nat) : Prop where
  expression : ∀ ts, Awaits stop ts → Leaves (Awaits stop) (expression (hear finish) n ts)
  binary : ∀ level ts, Awaits stop ts → Leaves (Awaits stop) (binary (hear finish) n level ts)
  operand : ∀ level ts, Awaits stop ts → Leaves (Awaits stop) (operand (hear finish) n level ts)
  climb : ∀ level left ts, Awaits stop ts →
    Leaves (Awaits stop) (climb (hear finish) n level left ts)
  unary : ∀ ts, Awaits stop ts → Leaves (Awaits stop) (unary (hear finish) n ts)
  calls : ∀ callee ts, Awaits stop ts → Leaves (Awaits stop) (calls (hear finish) n callee ts)
  arguments : ∀ count ts, Awaits stop ts →
    Leaves (Awaits stop) (arguments (hear finish) n count ts)
  primary : ∀ ts, Awaits stop ts → Leaves (Awaits stop) (primary (hear finish) n ts)

private theorem expression_stays (ends : stop.kind = .semicolon)
    (ih : ExpressionsStay finish stop n) (ts : List Token) (awaits : Awaits stop ts) :
    Leaves (Awaits stop) (expression (hear finish) (n + 1) ts) := by
  rw [expression]
  apply (ih.binary .or ts awaits).bind
  intro left rest awaits
  apply leaves_ahead
  apply leaves_accept ends rfl awaits
  · exact leaves_pure awaits
  · intro equal after _ _ _ awaits
    apply (ih.expression after awaits).bind
    intro value final awaits
    cases left with
    | identifier name => exact leaves_pure awaits
    | _ => exact (leaves_reportAt rfl awaits).bind fun _ _ awaits => leaves_pure awaits

private theorem operand_stays (ih : ExpressionsStay finish stop n) (level : Level)
    (ts : List Token) (awaits : Awaits stop ts) :
    Leaves (Awaits stop) (operand (hear finish) (n + 1) level ts) := by
  rw [operand]
  cases level with
  | factor => exact ih.unary ts awaits
  | _ => exact ih.binary _ ts awaits

private theorem climb_stays (ends : stop.kind = .semicolon) (ih : ExpressionsStay finish stop n)
    (level : Level) (left : Expr) (ts : List Token) (awaits : Awaits stop ts) :
    Leaves (Awaits stop) (climb (hear finish) (n + 1) level left ts) := by
  rw [climb]
  have spares : level.owns .semicolon = false := by cases level <;> rfl
  apply leaves_accept ends spares awaits
  · exact leaves_pure awaits
  · intro operator after _ _ _ awaits
    apply (ih.operand level after awaits).bind
    intro right rest awaits
    exact ih.climb level _ rest awaits

private theorem unary_stays (ends : stop.kind = .semicolon) (ih : ExpressionsStay finish stop n)
    (ts : List Token) (awaits : Awaits stop ts) :
    Leaves (Awaits stop) (unary (hear finish) (n + 1) ts) := by
  rw [unary]
  apply leaves_accept ends rfl awaits
  · apply (ih.primary ts awaits).bind
    intro callee rest awaits
    exact ih.calls callee rest awaits
  · intro operator after _ _ _ awaits
    exact (ih.unary after awaits).bind fun _ _ awaits => leaves_pure awaits

private theorem calls_stay (ends : stop.kind = .semicolon) (ih : ExpressionsStay finish stop n)
    (callee : Expr) (ts : List Token) (awaits : Awaits stop ts) :
    Leaves (Awaits stop) (calls (hear finish) (n + 1) callee ts) := by
  rw [calls]
  apply leaves_accept ends rfl awaits
  · exact leaves_pure awaits
  · intro opening after _ _ _ awaits
    have close : ∀ given rest, Awaits stop rest → Leaves (Awaits stop)
        ((expect (hear finish) .rightParen .argumentsNeedClosing >>= fun paren =>
          calls (hear finish) n (.call callee paren given)) rest) := by
      intro given rest awaits
      apply (leaves_expect _ ends (by decide) awaits).bind
      intro paren final awaits
      exact ih.calls _ final awaits
    apply leaves_nextIs
    intro empty
    cases empty with
    | true => exact (leaves_pure awaits).bind close
    | false => exact (ih.arguments 0 after awaits).bind close

private theorem arguments_stay (ends : stop.kind = .semicolon) (ih : ExpressionsStay finish stop n)
    (count : Nat) (ts : List Token) (awaits : Awaits stop ts) :
    Leaves (Awaits stop) (arguments (hear finish) (n + 1) count ts) := by
  rw [arguments]
  apply leaves_ahead
  apply leaves_reportIf rfl awaits
  intro here awaits
  apply (ih.expression here awaits).bind
  intro first rest awaits
  apply leaves_accept ends rfl awaits
  · exact leaves_pure awaits
  · intro comma after _ _ _ awaits
    exact (ih.arguments (count + 1) after awaits).bind fun _ _ awaits => leaves_pure awaits

private theorem primary_stays (ends : stop.kind = .semicolon) (ih : ExpressionsStay finish stop n)
    (ts : List Token) (awaits : Awaits stop ts) :
    Leaves (Awaits stop) (primary (hear finish) (n + 1) ts) := by
  rw [primary]
  apply leaves_accept ends rfl awaits
  · exact leaves_fail _ awaits
  · intro t after begins _ _ awaits
    dsimp only
    rcases beginsPrimary_cases begins with ⟨value, constant⟩ | name | opening
    · apply Leaves.congr (primary_literal constant _ _)
      exact leaves_pure awaits
    · rw [name]
      exact leaves_pure awaits
    · rw [opening]
      apply (ih.expression after awaits).bind
      intro inner rest awaits
      exact (leaves_expect _ ends (by decide) awaits).bind fun _ _ awaits => leaves_pure awaits

theorem expressions_stay (ends : stop.kind = .semicolon) (n : Nat) :
    ExpressionsStay finish stop n := by
  induction n with
  | zero => constructor <;> intros <;> exact leaves_spent ‹_›
  | succ n ih =>
    exact {
      expression := expression_stays ends ih
      binary := fun level ts awaits =>
        (ih.operand level ts awaits).bind fun left rest awaits => ih.climb level left rest awaits
      operand := operand_stays ih
      climb := climb_stays ends ih
      unary := unary_stays ends ih
      calls := calls_stay ends ih
      arguments := arguments_stay ends ih
      primary := primary_stays ends ih }

theorem expr_stays (ends : stop.kind = .semicolon) (awaits : Awaits stop ts) :
    Leaves (Awaits stop) (expr (hear finish) ts) :=
  (expressions_stay ends _).expression ts awaits

/-- A value and the semicolon behind it are all there is. -/
theorem value_ends (ends : stop.kind = .semicolon) (fault : Fault) (form : Expr → Stmt)
    (awaits : Awaits stop ts) :
    Leaves (· = []) ((do
      let value ← expr (hear finish)
      let _ ← expect (hear finish) .semicolon fault
      pure (form value) : Parser (Recorded SyntaxFault) Stmt) ts) := by
  apply (expr_stays ends awaits).bind
  intro value rest awaits
  exact (leaves_semicolon fault awaits).bind fun _ _ last => leaves_pure last

theorem declarationTail_ends (ends : stop.kind = .semicolon) (awaits : Awaits stop ts) :
    Leaves (· = []) (declarationTail (hear finish) ts) := by
  unfold declarationTail
  apply (leaves_expect _ ends (by decide) awaits).bind
  intro name rest awaits
  have close : ∀ initializer rest, Awaits stop rest → Leaves (· = [])
      ((expect (hear finish) .semicolon .declarationNeedsSemicolon >>= fun _ =>
        pure (Stmt.declare name initializer)) rest) := by
    intro initializer rest awaits
    exact (leaves_semicolon _ awaits).bind fun _ _ last => leaves_pure last
  apply leaves_accept ends rfl awaits
  · exact (leaves_pure awaits).bind close
  · intro equal after _ _ _ awaits
    exact ((expr_stays ends awaits).map some).bind close

theorem statement_ends (ends : stop.kind = .semicolon) (n : Nat) (ts : List Token)
    (awaits : Awaits stop ts) : Leaves (· = []) (statement (hear finish) n ts) := by
  induction n generalizing ts with
  | zero => exact leaves_spent awaits
  | succ n ih =>
    rw [statement]
    apply leaves_accept ends rfl awaits
    · exact value_ends ends _ _ awaits
    · intro t after begins noBlock noCount awaits
      dsimp only
      rcases beginsStatement_cases begins with word | word | word | word | word
      · exact absurd word noCount
      · rw [word]
        unfold ifTail
        apply (leaves_expect _ ends (by decide) awaits).bind
        intro opening rest awaits
        apply (expr_stays ends awaits).bind
        intro condition rest awaits
        apply (leaves_expect _ ends (by decide) awaits).bind
        intro closing rest awaits
        apply (ih rest awaits).bind
        rintro consequent _ rfl
        exact leaves_pure rfl
      · rw [word]
        exact value_ends ends _ _ awaits
      · rw [word]
        unfold whileTail
        apply (leaves_expect _ ends (by decide) awaits).bind
        intro opening rest awaits
        apply (expr_stays ends awaits).bind
        intro condition rest awaits
        apply (leaves_expect _ ends (by decide) awaits).bind
        intro closing rest awaits
        exact (ih rest awaits).bind fun _ _ last => leaves_pure last
      · exact absurd word noBlock

theorem declaration_ends (ends : stop.kind = .semicolon) (awaits : Awaits stop ts) :
    Leaves (· = []) (declaration (hear finish) n ts) := by
  cases n with
  | zero => exact leaves_spent awaits
  | succ n =>
    rw [declaration]
    apply leaves_accept ends rfl awaits
    · exact statement_ends ends n ts awaits
    · intro word after _ _ _ awaits
      exact declarationTail_ends ends awaits

/-- A line is simple when its semicolon is the only one, nothing in it opens a block or a counting
loop, and no token but the first is an anchor. -/
structure SimpleLine (w : List Token) (stop : Token) : Prop where
  ends : stop.kind = .semicolon
  plain : ∀ t ∈ w,
    t.kind ≠ .semicolon ∧ t.kind ≠ .leftBrace ∧ t.kind ≠ .for_ ∧ t.kind ≠ .eof
  unanchored : ∀ t ∈ w.tail, isAnchor t.kind = false

variable {w rest : List Token} {inBlock : Bool}

theorem SimpleLine.awaits (line : SimpleLine w stop) : Awaits stop (w ++ [stop]) :=
  ⟨w, rfl, fun t member =>
    have plain := line.plain t member
    ⟨plain.1, plain.2.1, plain.2.2.1⟩⟩

/-- The end of a simple line is a simple line. -/
theorem SimpleLine.of_append {taken : List Token} (line : SimpleLine (taken ++ w) stop) :
    SimpleLine w stop := by
  refine ⟨line.ends, fun t member => line.plain t (List.mem_append_right _ member), ?_⟩
  cases taken with
  | nil => exact line.unanchored
  | cons first taken =>
    intro t member
    exact line.unanchored t (List.mem_append_right _ (List.mem_of_mem_tail member))

/-- Recovery from anywhere in a simple line goes on right behind it. -/
theorem SimpleLine.resume_eq (line : SimpleLine w stop) (rest : List Token) :
    resume (w ++ [stop] ++ rest) = rest := by
  induction w with
  | nil => exact resume_of_stop (.inl line.ends)
  | cons t w ih =>
    have later : SimpleLine w stop := @SimpleLine.of_append stop w [t] line
    have other := (line.plain t (by simp)).1
    have inside : (w ++ [stop] ++ rest).head?.any (isAnchor ·.kind) = false := by
      cases w with
      | nil => simp [line.ends, isAnchor]
      | cons next w => simpa using line.unanchored next (by simp)
    exact (resume_of_skip other inside).trans (ih later)

theorem SimpleLine.ne_eof (line : SimpleLine w stop) : ∀ t ∈ w ++ [stop], t.kind ≠ .eof := by
  intro t member
  rcases List.mem_append.mp member with early | last
  · exact (line.plain t early).2.2.2
  · simp [List.mem_singleton.mp last, line.ends]

/-- A list that one declaration reads to its end gives one statement or none. -/
theorem recorded_of_recovered {first : Option Stmt} {told : List SyntaxFault} (filled : ts ≠ [])
    (inside : ∀ t ∈ ts, t.kind ≠ .eof)
    (run : recover (declaration (hear (endToken ts)) (4 * ts.length + 3)) ts =
      ⟨.done first [], told⟩) :
    recorded ts = ⟨first.toList, told⟩ := by
  have goesOn : endsDeclarations false ts = false := by
    cases ts with
    | nil => exact absurd rfl filled
    | cons t rest => rfl
  have after : declarations (hear (endToken ts)) (4 * ts.length + 3) false [] = ⟨.done [] [], []⟩ :=
    declarations_at_end rfl
  apply recorded_of_done
  rw [body_eq_self inside, program, Nat.mul_add, declarations_before_end goesOn,
    ← List.append_nil told, ← List.append_nil first.toList]
  exact bind_run run (bind_run after rfl)

/-- The last fault of a parser that bails out is fatal. -/
theorem EndsFatally.fatals_pos {told : List SyntaxFault} (h : EndsFatally finish rest told) :
    1 ≤ fatals told := by
  obtain ⟨f, member, fatal⟩ := h.exists_fatal
  exact List.countP_pos_iff.mpr ⟨f, member, fatal⟩

/-- A simple line that gives no statement fails in front of its semicolon or earlier, with one fatal
fault, and nothing else is told of it. -/
theorem SimpleLine.bails (line : SimpleLine w stop)
    (broken : (recorded (w ++ [stop])).value = []) :
    ∃ taken v, w = taken ++ v ∧
      declaration (hear (endToken (w ++ [stop]))) (4 * (w ++ [stop]).length + 3) (w ++ [stop]) =
        ⟨.bail (v ++ [stop]), (recorded (w ++ [stop])).records⟩ ∧
      fatals (recorded (w ++ [stop])).records = 1 := by
  have filled : w ++ [stop] ≠ [] := by simp
  have meets := (statements_meet (endToken (w ++ [stop])) _).declaration (w ++ [stop])
    (Nat.le_add_right (4 * (w ++ [stop]).length + 2) 1)
  have leaves : Leaves (· = []) (declaration (hear (endToken (w ++ [stop])))
      (4 * (w ++ [stop]).length + 3) (w ++ [stop])) := declaration_ends line.ends line.awaits
  rcases run : declaration (hear (endToken (w ++ [stop]))) (4 * (w ++ [stop]).length + 3)
    (w ++ [stop]) with ⟨outcome, told⟩
  rw [run] at meets leaves
  cases outcome with
  | done s rest =>
    obtain ⟨rfl, -⟩ := leaves
    rw [recorded_of_recovered filled line.ne_eof (recover_of_done run)] at broken
    cases broken
  | bail rest =>
    obtain ⟨taken, split, fatal⟩ := meets
    obtain ⟨left, bound⟩ := leaves
    have few : fatals told ≤ 1 := bound
    have one : 1 ≤ fatals told := fatal.fatals_pos
    obtain ⟨v, rfl, rfl⟩ : ∃ v, rest = v ++ [stop] ∧ w = taken ++ v := by
      rw [← List.dropLast_append_getLast left, ← List.append_assoc] at split
      obtain ⟨whole, last⟩ := List.append_inj' split rfl
      rw [List.singleton_inj] at last
      exact ⟨rest.dropLast, by rw [last, List.dropLast_append_getLast left], whole⟩
    have skips : resume (v ++ [stop]) = [] := by
      simpa using (SimpleLine.of_append line).resume_eq []
    have recovered := recover_of_bail run
    rw [skips] at recovered
    rw [recorded_of_recovered filled line.ne_eof recovered]
    exact ⟨taken, v, rfl, rfl, Nat.le_antisymm few one⟩

/-- A simple line that gives no statement leads to what is behind it, and leaves its faults. -/
theorem SimpleLine.leads (line : SimpleLine w stop) (broken : (recorded (w ++ [stop])).value = [])
    (goesOn : endsDeclarations inBlock (w ++ [stop] ++ rest) = false) :
    Leads finish inBlock (w ++ [stop]) [] (recorded (w ++ [stop])).records rest := by
  obtain ⟨taken, v, split, run, -⟩ := line.bails broken
  have later : SimpleLine v stop := by
    rw [split] at line
    exact line.of_append
  apply leads_of_recovered none goesOn
  intro n enough
  have again : declaration (hear finish) n (w ++ [stop] ++ rest) =
      ⟨.bail (v ++ [stop] ++ rest), (recorded (w ++ [stop])).records⟩ :=
    declaration_bails_before (by simp) (Nat.le_succ _) enough run
  rw [recover_of_bail again, later.resume_eq rest]

/-- A block whose inside leads to its closing brace is read as one statement. -/
theorem leads_of_block {opening closing : Token} {u : List Token} {inner : List Stmt}
    {told : List SyntaxFault} (left : opening.kind = .leftBrace)
    (right : closing.kind = .rightBrace) (inside : Leads finish true u inner told [closing]) :
    Leads finish false (opening :: (u ++ [closing])) [.block inner] told [] := by
  have closes : ∀ n, declarations (hear finish) (n + 1) true [closing] = ⟨.done [] [closing], []⟩ :=
    fun n => declarations_at_end (by simp [endsDeclarations, right])
  apply leads_of_recovered (some (.block inner)) rfl
  intro n enough
  simp only [List.append_nil, List.length_cons] at enough ⊢
  obtain ⟨n, rfl⟩ : ∃ k, n = k + 2 := ⟨n - 2, by omega⟩
  have read := inside n 7 [] [closing] [] (by omega) (by simp) (closes 6)
  rw [List.append_nil, List.append_nil] at read
  apply recover_of_done
  rw [declaration]
  refine (accept_bind_none (stops_of_kind left rfl)).trans ?_
  rw [statement]
  refine (accept_bind_some (by simp [left, beginsStatement])).trans ?_
  dsimp only
  rw [left, ← List.append_nil told]
  exact bind_run read (expect_bind right)

theorem SimpleLine.recorded_before (line : SimpleLine w stop)
    (broken : (recorded (w ++ [stop])).value = []) (b : List Token) :
    recorded (w ++ [stop] ++ b) =
      ⟨(recorded b).value, (recorded (w ++ [stop])).records ++ (recorded b).records⟩ := by
  have leads : ∀ finish, Leads finish false (w ++ [stop]) [] (recorded (w ++ [stop])).records
      (body b) := by
    intro finish
    apply line.leads broken
    cases w <;> rfl
  exact recorded_append line.ne_eof leads

/-- The inside of a block with a broken line between two lists of which nothing is told. -/
theorem SimpleLine.leads_inside (line : SimpleLine w stop)
    (broken : (recorded (w ++ [stop])).value = [])
    (head : ∀ t ∈ (w ++ [stop]).head?, t.kind ≠ .else_ ∧ t.kind ≠ .rightBrace)
    {closing : Token} {a b : List Token} (right : closing.kind = .rightBrace)
    (insideA : ∀ t ∈ a, t.kind ≠ .eof) (insideB : ∀ t ∈ b, t.kind ≠ .eof)
    (silentA : (recorded a).records = []) (silentB : (recorded b).records = []) :
    Leads finish true (a ++ (w ++ [stop]) ++ b) ((recorded a).value ++ (recorded b).value)
      (recorded (w ++ [stop])).records [closing] := by
  obtain ⟨t, rest, split⟩ : ∃ t rest, w ++ [stop] = t :: rest := by
    cases w <;> exact ⟨_, _, rfl⟩
  obtain ⟨noElse, noBrace⟩ := head t (by rw [split]; rfl)
  have first : Leads finish true a (recorded a).value [] (w ++ [stop] ++ (b ++ [closing])) := by
    apply leads_of_silent insideA silentA
    rw [split]
    exact stops_cons (by simpa using noElse)
  have middle : Leads finish true (w ++ [stop]) [] (recorded (w ++ [stop])).records
      (b ++ [closing]) := by
    apply line.leads broken
    rw [split]
    simpa [endsDeclarations] using noBrace
  have last : Leads finish true b (recorded b).value [] [closing] :=
    leads_of_silent insideB silentB (stops_of_kind right rfl)
  have whole := (first.append middle).append last
  rwa [List.append_nil, List.nil_append, List.append_nil] at whole

/-- A simple line that gives no statement costs only itself.  It tells exactly one fatal fault, and
whatever follows is read as if the line were not there.  Inside a block, unless it closes the block
or goes on with a branch before it, it leaves the declarations on both sides as they are. -/
theorem broken_line_costs_only_itself (w : List Token) (stop : Token) (line : SimpleLine w stop)
    (broken : (recorded (w ++ [stop])).value = []) :
    (recorded (w ++ [stop])).records.countP (·.fault.isFatal) = 1 ∧
    (∀ b, recorded (w ++ [stop] ++ b) =
      ⟨(recorded b).value, (recorded (w ++ [stop])).records ++ (recorded b).records⟩) ∧
    ∀ (opening closing : Token) (a b : List Token),
      (∀ t ∈ (w ++ [stop]).head?, t.kind ≠ .else_ ∧ t.kind ≠ .rightBrace) →
      opening.kind = .leftBrace → closing.kind = .rightBrace →
      (∀ t ∈ a, t.kind ≠ .eof) → (∀ t ∈ b, t.kind ≠ .eof) →
      (recorded a).records = [] → (recorded b).records = [] →
      recorded (opening :: (a ++ (w ++ [stop]) ++ b ++ [closing])) =
        ⟨[.block ((recorded a).value ++ (recorded b).value)],
          (recorded (w ++ [stop])).records⟩ := by
  obtain ⟨_, _, _, _, one⟩ := line.bails broken
  refine ⟨one, line.recorded_before broken, ?_⟩
  intro opening closing a b head left right insideA insideB silentA silentB
  have inside : ∀ t ∈ opening :: (a ++ (w ++ [stop]) ++ b ++ [closing]), t.kind ≠ .eof := by
    have inLine := line.ne_eof
    simp only [List.forall_mem_cons, List.forall_mem_append] at inLine ⊢
    exact ⟨by simp [left], ⟨⟨insideA, inLine⟩, insideB⟩, by simp [right]⟩
  have block : ∀ finish, Leads finish false (opening :: (a ++ (w ++ [stop]) ++ b ++ [closing]))
      [.block ((recorded a).value ++ (recorded b).value)] (recorded (w ++ [stop])).records [] :=
    fun finish => leads_of_block left right
      (line.leads_inside broken head right insideA insideB silentA silentB)
  have whole : recorded (opening :: (a ++ (w ++ [stop]) ++ b ++ [closing]) ++ []) = _ :=
    recorded_append inside block
  rwa [recorded_nil, List.append_nil, List.append_nil, List.append_nil] at whole

/-- A declaration whose value breaks off. -/
def brokenDeclaration : List Token :=
  [.var, .identifier, .equal, .number, .plus].map (⟨·, [], .nothing, 1⟩)

theorem broken_declaration_in_a_block :
    SimpleLine brokenDeclaration ⟨.semicolon, [], .nothing, 1⟩ ∧
    (recorded (brokenDeclaration ++ [⟨.semicolon, [], .nothing, 1⟩])).value = [] ∧
    recorded (⟨.leftBrace, [], .nothing, 1⟩ :: (openBranch ++
        (brokenDeclaration ++ [⟨.semicolon, [], .nothing, 1⟩]) ++ openBranch ++
        [⟨.rightBrace, [], .nothing, 1⟩])) =
      ⟨[.block ((recorded openBranch).value ++ (recorded openBranch).value)],
        [⟨⟨.semicolon, [], .nothing, 1⟩, .needsExpression⟩]⟩ := by
  have line : SimpleLine brokenDeclaration ⟨.semicolon, [], .nothing, 1⟩ :=
    ⟨rfl, by decide, by decide⟩
  have inside : ∀ t ∈ openBranch, t.kind ≠ .eof := by decide
  refine ⟨line, rfl, ?_⟩
  exact (broken_line_costs_only_itself brokenDeclaration _ line rfl).2.2 _ _ openBranch openBranch
    (by decide) rfl rfl inside inside rfl rfl

end Bhasha.Parse
