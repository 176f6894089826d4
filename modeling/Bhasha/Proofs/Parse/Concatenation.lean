import Bhasha.Proofs.Parse.Acceptance
import Bhasha.Proofs.Parse.Lookahead

/-!
# Programs one after the other

A list of tokens leads to what follows it when reading declarations takes exactly this list off the
front, whatever comes after it is.  Such lists can be put together.  A derivation without fatal
faults leads on if no `else` follows: a branch at its end could still take that `else` for its own.

The parser carries nothing along but its place, so a program that is read in silence and another
program behind it are read as if each stood alone.
-/

namespace Bhasha.Parse

open Grammar

/-- Reading declarations from `u ++ rest` gives the statements `inner` with the faults `told`, and
then goes on with `rest` as if it began there. -/
def Leads (finish : Token) (inBlock : Bool) (u : List Token) (inner : List Stmt)
    (told : List SyntaxFault) (rest : List Token) : Prop :=
  ∀ n m others final more, 4 * (u ++ rest).length + 3 ≤ n → 4 * rest.length + 3 ≤ m →
    declarations (hear finish) m inBlock rest = ⟨.done others final, more⟩ →
    declarations (hear finish) n inBlock (u ++ rest) = ⟨.done (inner ++ others) final, told ++ more⟩

variable {finish : Token} {inBlock : Bool} {u v rest : List Token} {inner inner' : List Stmt}
  {told told' : List SyntaxFault}

theorem leads_nil : Leads finish inBlock [] [] [] rest := by
  intro n m others final more enough enough' run
  rw [List.nil_append, declarations_settled enough' enough]
  exact run

theorem Leads.append (first : Leads finish inBlock u inner told (v ++ rest))
    (second : Leads finish inBlock v inner' told' rest) :
    Leads finish inBlock (u ++ v) (inner ++ inner') (told ++ told') rest := by
  intro n m others final more enough enough' run
  have between := second (4 * (v ++ rest).length + 3) m others final more (Nat.le_refl _) enough'
    run
  rw [List.append_assoc] at enough ⊢
  rw [List.append_assoc, List.append_assoc]
  exact first n _ _ _ _ enough (Nat.le_refl _) between

/-- A declaration that is recovered from, or done, leads to the tokens it leaves. -/
theorem leads_of_recovered (first : Option Stmt)
    (goesOn : endsDeclarations inBlock (u ++ rest) = false)
    (reads : ∀ n, 4 * (u ++ rest).length + 2 ≤ n →
      recover (declaration (hear finish) n) (u ++ rest) = ⟨.done first rest, told⟩) :
    Leads finish inBlock u first.toList told rest := by
  intro n m others final more enough enough' run
  obtain ⟨n, rfl⟩ : ∃ k, n = k + 1 := ⟨n - 1, by omega⟩
  have read := reads n (by omega)
  have shorter := recovered_shorter (ne_nil_of_goesOn goesOn) (by omega) read
  have run' : declarations (hear finish) n inBlock rest = ⟨.done others final, more⟩ := by
    rw [declarations_settled enough' (by omega)]
    exact run
  rw [declarations_before_end goesOn, ← List.append_nil more]
  exact bind_run read (bind_run run' rfl)

/-- What can begin a declaration does not end a list of declarations. -/
theorem goesOn_of_begins {t : Token} (begins : beginsDeclaration t.kind = true) :
    endsDeclarations inBlock (t :: rest) = false := by
  cases kind : t.kind <;>
    simp_all [endsDeclarations, beginsDeclaration, beginsStatement, beginsExpression,
      isUnaryOperator, beginsPrimary]

theorem leads_of_declaration {dangles : Bool} {s : Stmt} (derived : Declaration dangles u s told)
    (lenient : Lenient told) (follows : Stops (· == .else_) rest) :
    Leads finish inBlock u [s] told rest := by
  apply leads_of_recovered (some s)
  · obtain ⟨t, v, rfl, begins⟩ := derived.head
    exact goesOn_of_begins begins
  · intro n enough
    have reads : DeclarationReads finish dangles u s told := declaration_reads derived lenient
    exact recover_of_done (reads n rest enough fun _ => follows)

/-- No declaration begins with `else`, so a list of declarations passes the `else` on to what is
behind it only if it is empty. -/
theorem stops_else_append (derived : Declarations v inner told) (lenient : Lenient told)
    (follows : Stops (· == .else_) rest) : Stops (· == .else_) (v ++ rest) := by
  cases v with
  | nil => exact follows
  | cons t w =>
    have ends : endsDeclarations false [] = true := rfl
    have first := stops_else derived lenient ends
    rw [List.append_nil] at first
    exact first

theorem leads_of_derivation : ∀ {u : List Token} {inner : List Stmt} {told : List SyntaxFault},
    Declarations u inner told → Lenient told → Stops (· == .else_) rest →
      Leads finish inBlock u inner told rest
  | _, _, _, .nil, _, _ => leads_nil
  | _, _, _, .cons first others, lenient, follows => by
    have both := lenient_append.mp lenient
    have here : Leads finish inBlock _ [_] _ _ :=
      leads_of_declaration first both.1 (stops_else_append others both.2 follows)
    exact here.append (leads_of_derivation others both.2 follows)
  | _, _, _, .gap fatal others, lenient, _ => by
    obtain ⟨f, member, fatal⟩ := fatal
    have mild := (lenient_append.mp lenient).1 f member
    rw [fatal] at mild
    cases mild

theorem body_append {a : List Token} (b : List Token) (inside : ∀ t ∈ a, t.kind ≠ .eof) :
    body (a ++ b) = a ++ body b := by
  unfold body
  exact List.takeWhile_append_of_pos fun t member => bne_iff_ne.mpr (inside t member)

theorem body_eq_self {a : List Token} (inside : ∀ t ∈ a, t.kind ≠ .eof) : body a = a := by
  simpa [body] using body_append [] inside

theorem find?_end {a : List Token} (inside : ∀ t ∈ a, t.kind ≠ .eof) :
    a.find? (·.kind == .eof) = none := by
  simpa using inside

theorem endToken_append {a b : List Token} (inside : ∀ t ∈ a, t.kind ≠ .eof) (filled : b ≠ []) :
    endToken (a ++ b) = endToken b := by
  unfold endToken
  rw [List.find?_append, find?_end inside, Option.none_or, List.getLast?_append,
    List.getLast?_eq_some_getLast filled, Option.some_or]

theorem recorded_nil : recorded [] = ⟨[], []⟩ := rfl

/-- A list that leads to every program behind it adds its statements and faults to theirs. -/
theorem recorded_append {a b : List Token} (inside : ∀ t ∈ a, t.kind ≠ .eof)
    (leads : ∀ finish, Leads finish false a inner told (body b)) :
    recorded (a ++ b) = ⟨inner ++ (recorded b).value, told ++ (recorded b).records⟩ := by
  have join : ∀ others more,
      program (hear (endToken (a ++ b))) (body b) = ⟨.done others [], more⟩ →
        recorded (a ++ b) = ⟨inner ++ others, told ++ more⟩ := by
    intro others more run
    apply recorded_of_done
    rw [body_append b inside]
    exact leads _ _ _ _ _ _ (by omega) (by omega) run
  by_cases filled : b = []
  · subst filled
    exact join [] [] rfl
  · obtain ⟨others, more, run, -⟩ := program_reads (endToken b) (body b)
    rw [recorded_of_done run]
    rw [endToken_append inside filled] at join
    exact join others more run

/-- A list of which nothing is told leads to everything that does not begin with `else`. -/
theorem leads_of_silent {a : List Token} (inside : ∀ t ∈ a, t.kind ≠ .eof)
    (silent : (recorded a).records = []) (follows : Stops (· == .else_) rest) :
    Leads finish inBlock a (recorded a).value [] rest := by
  have derives := recorded_derives a
  rw [silent, body_eq_self inside] at derives
  exact leads_of_derivation derives (by simp [Lenient]) follows

/-- A program of which nothing is told, and any other program behind it that does not begin with
`else`, are read as if each stood alone. -/
theorem programs_compose (a b : List Token) (inside : ∀ t ∈ a, t.kind ≠ .eof)
    (silent : (recorded a).records = []) (apart : ∀ t ∈ b.head?, t.kind ≠ .else_) :
    recorded (a ++ b) = ⟨(recorded a).value ++ (recorded b).value, (recorded b).records⟩ := by
  have follows : Stops (· == .else_) (body b) := by
    cases b with
    | nil => rfl
    | cons t rest =>
      have other : t.kind ≠ .else_ := apart t rfl
      by_cases final : t.kind = .eof
      · simp [body, final, Stops]
      · simpa [body, final, Stops] using other
  exact recorded_append inside fun finish => leads_of_silent inside silent follows

/-- A branch to which an `else` could still be added. -/
def openBranch : List Token :=
  [.if_, .leftParen, .identifier, .rightParen, .print, .nil, .semicolon].map (⟨·, [], .nothing, 1⟩)

/-- A print statement without a value, and an expression. -/
def hollowPrint : List Token :=
  [.print, .semicolon, .identifier, .semicolon].map (⟨·, [], .nothing, 2⟩)

theorem hollow_print_behind_open_branch :
    (∀ t ∈ openBranch, t.kind ≠ .eof) ∧ (recorded openBranch).records = [] ∧
    (∀ t ∈ hollowPrint.head?, t.kind ≠ .else_) ∧
    recorded (openBranch ++ hollowPrint) =
      ⟨[.branch (.identifier ⟨.identifier, [], .nothing, 1⟩) (.print (.literal .nothing)) none,
        .expression (.identifier ⟨.identifier, [], .nothing, 2⟩)],
      [⟨⟨.semicolon, [], .nothing, 2⟩, .needsExpression⟩]⟩ := by
  have inside : ∀ t ∈ openBranch, t.kind ≠ .eof := by decide
  have apart : ∀ t ∈ hollowPrint.head?, t.kind ≠ .else_ := by decide
  exact ⟨inside, rfl, apart, programs_compose openBranch hollowPrint inside rfl apart⟩

end Bhasha.Parse
