import Bhasha.Proofs.Parse.Acceptance
import Bhasha.Proofs.Tree.WellFormed
import Mathlib.Data.List.Nodup
import Mathlib.Data.List.Perm.Subperm

/-!
# Where the tokens go

A tree holds the tokens of its names, its operators and the closing parentheses of its calls.  The
tokens of a derivation are accounted for: each is held by the tree, at one place, or laid aside, and
none is held that was not read.  Counting loops reorder what they hold but copy nothing, a target
that is assigned to hands its token on, and what is given up is laid aside.

Punctuation, reserved words and literals are always laid aside.  A name or an operator is laid aside
only together with a fault.
-/

namespace Bhasha

open Parse Grammar

namespace Expr

mutual

/-- The tokens that an expression holds, in the order of the source. -/
def held : Expr → List Token
  | .literal _ => []
  | .identifier name => [name]
  | .assign name value => name :: value.held
  | .logical left operator right => left.held ++ operator :: right.held
  | .binary left operator right => left.held ++ operator :: right.held
  | .unary operator right => operator :: right.held
  | .call callee paren given => callee.held ++ (heldAll given ++ [paren])
  | .bareCall callee paren => callee.held ++ [paren]
  | .grouping inner => inner.held

def heldAll : List Expr → List Token
  | [] => []
  | first :: rest => first.held ++ heldAll rest

end

@[simp] theorem held_node (level : Level) (left right : Expr) (operator : Token) :
    (Grammar.node level left operator right).held = left.held ++ operator :: right.held := by
  cases level <;> simp [Grammar.node, held]

end Expr

namespace Stmt

mutual

/-- The tokens that a statement holds. -/
def held : Stmt → List Token
  | .expression value => value.held
  | .print value => value.held
  | .declare name none => [name]
  | .declare name (some value) => name :: value.held
  | .block inner => heldAll inner
  | .bareBlock => []
  | .branch condition consequent none => condition.held ++ consequent.held
  | .branch condition consequent (some alternative) =>
    condition.held ++ (consequent.held ++ alternative.held)
  | .loop condition body => condition.held ++ body.held

def heldAll : List Stmt → List Token
  | [] => []
  | first :: rest => first.held ++ heldAll rest

end

/-- A counting loop holds what its clauses and its body hold, the increment last. -/
theorem held_spelledOut (start : Option Stmt) (condition increment : Option Expr) (body : Stmt) :
    (Grammar.spelledOut start condition increment body).held =
      heldAll start.toList ++ (Expr.heldAll condition.toList ++
        (body.held ++ Expr.heldAll increment.toList)) := by
  cases start <;> cases condition <;> cases increment <;>
    simp [Grammar.spelledOut, held, heldAll, Expr.held, Expr.heldAll]

end Stmt

/-- The kinds of names and operators. -/
def Kind.isEssential (kind : Kind) : Bool :=
  kind == .identifier || isUnaryOperator kind || (Level.of? kind).isSome

theorem Kind.isEssential_of_owns {kind : Kind} {level : Level} (owned : level.owns kind = true) :
    kind.isEssential = true := by
  simp [isEssential, Level.of?_of_owns owned]

namespace Grammar

/-- What is `taken` consists of what is `held` and of tokens laid aside.  If nothing is told, no
name and no operator is laid aside. -/
def Accounts (told : List SyntaxFault) (taken held : List Token) : Prop :=
  ∃ aside, taken.Perm (held ++ aside) ∧
    (told = [] → ∀ t ∈ aside, t.kind.isEssential = false)

namespace Accounts

variable {told more : List SyntaxFault} {taken taken' held held' whole front rest : List Token}
  {t : Token}

theorem refl (ts : List Token) : Accounts [] ts ts := ⟨[], by simp, by simp⟩

theorem aside (plain : t.kind.isEssential = false) : Accounts [] [t] [] :=
  ⟨[t], by simp, by simpa using plain⟩

/-- A token of a given kind that is neither a name nor an operator. -/
theorem mark {kind : Kind} (same : t.kind = kind) (plain : kind.isEssential = false) :
    Accounts [] [t] [] :=
  aside (same ▸ plain)

/-- Where something is told, everything may be laid aside. -/
theorem lost (faulty : told ≠ []) (ts : List Token) : Accounts told ts [] :=
  ⟨ts, by simp, fun silent => absurd silent faulty⟩

theorem append (first : Accounts told taken held) (second : Accounts more taken' held') :
    Accounts (told ++ more) (taken ++ taken') (held ++ held') := by
  obtain ⟨aside, split, spare⟩ := first
  obtain ⟨aside', split', spare'⟩ := second
  refine ⟨aside ++ aside', ?_, ?_⟩
  · have moved := (List.perm_append_comm_assoc aside held' aside').append_left held
    simpa using (split.append split').trans (by simpa using moved)
  · intro silent t member
    obtain ⟨first, second⟩ := List.append_eq_nil_iff.mp silent
    exact (List.mem_append.mp member).elim (spare first t) (spare' second t)

theorem trans (first : Accounts told taken held) (second : Accounts more held whole) :
    Accounts (told ++ more) taken whole := by
  obtain ⟨aside, split, spare⟩ := first
  obtain ⟨aside', split', spare'⟩ := second
  refine ⟨aside' ++ aside, ?_, ?_⟩
  · rw [← List.append_assoc]
    exact split.trans (split'.append_right aside)
  · intro silent t member
    obtain ⟨first, second⟩ := List.append_eq_nil_iff.mp silent
    exact (List.mem_append.mp member).elim (spare' second t) (spare first t)

/-- What is held may be counted in any order. -/
theorem perm (h : Accounts told taken held) (same : held.Perm held') :
    Accounts told taken held' := by
  obtain ⟨aside, split, spare⟩ := h
  exact ⟨aside, split.trans (same.append_right aside), spare⟩

/-- Telling more only weakens an account. -/
theorem weaken (more : List SyntaxFault) (h : Accounts told taken held) :
    Accounts (more ++ told) taken held := by
  obtain ⟨aside, split, spare⟩ := h
  exact ⟨aside, split, fun silent => spare (List.append_eq_nil_iff.mp silent).2⟩

/-- The account of a part put into the account of the whole. -/
theorem into (part : Accounts told taken held)
    (outer : Accounts more (front ++ (held ++ rest)) whole) :
    Accounts (told ++ more) (front ++ (taken ++ rest)) whole := by
  have filled := (refl front).append (part.append (refl rest))
  simpa using filled.trans outer

theorem before (part : Accounts told taken held) (outer : Accounts more (held ++ rest) whole) :
    Accounts (told ++ more) (taken ++ rest) whole := by
  simpa using (part.append (refl rest)).trans outer

/-- No token is held that was not taken, and none more often than it was. -/
theorem subperm (h : Accounts told taken held) : held.Subperm taken := by
  obtain ⟨aside, split, -⟩ := h
  exact (List.sublist_append_left held aside).subperm.trans split.symm.subperm

/-- If nothing is told, the names and operators are held. -/
theorem mem_held (h : Accounts [] taken held) (member : t ∈ taken)
    (essential : t.kind.isEssential = true) : t ∈ held := by
  obtain ⟨aside, split, spare⟩ := h
  obtain inside | outside := List.mem_append.mp (split.mem_iff.mp member)
  · exact inside
  · simp [spare rfl t outside] at essential

end Accounts

/-- The tokens that a nonterminal has taken over from the expression that it continues. -/
@[simp] def Symbol.carried : Symbol → List Token
  | .climb _ left => left.held
  | .calls callee => callee.held
  | _ => []

theorem Symbol.carried_operandOf (level : Level) : (operandOf level).carried = [] := by
  cases level <;> rfl

theorem plain_of_literal {t : Token} {value : Literal} (constant : literalOf? t = some value) :
    t.kind.isEssential = false := by
  unfold literalOf? at constant
  split at constant
  all_goals simp_all [Kind.isEssential, isUnaryOperator, Level.of?]

variable {symbol : Symbol} {u : List Token} {e : Expr} {told : List SyntaxFault}

mutual

/-- The tokens of an expression are accounted for, together with those of what it continues. -/
theorem Derives.accounts {symbol : Symbol} {u : List Token} {e : Expr} {told : List SyntaxFault} :
    Derives symbol u e told → Accounts told (symbol.carried ++ u) e.held
  | .loosest inner => inner.accounts
  | .assign target sign right =>
    -- the name of the target is held by the assignment in its place
    target.accounts.append ((Accounts.mark sign rfl).append right.accounts)
  | @Derives.misassign u v equal left _ told more target _ _ _ => by
    have faulty : more ++ [⟨equal, .invalidTarget⟩] ≠ [] := by simp
    have lost := target.accounts.append (Accounts.lost faulty (equal :: v))
    rwa [List.append_nil] at lost
  | .chain first others => by
    have operand := first.accounts
    rw [Symbol.carried_operandOf] at operand
    exact operand.before others.accounts
  | .climbed => by
    simpa using Accounts.refl _
  | @Derives.climb level operator u v left right e told more _ operand others => by
    have second := operand.accounts
    rw [Symbol.carried_operandOf] at second
    have outer : Accounts more ((left.held ++ [operator]) ++ (right.held ++ v)) e.held := by
      simpa using others.accounts
    simpa using second.into outer
  | .unary _ operand => (Accounts.refl [_]).append operand.accounts
  | .call first others => first.accounts.before others.accounts
  | .called => by
    simpa using Accounts.refl _
  | @Derives.callEmpty opening paren v callee e more left _ others => by
    have outer : Accounts more (callee.held ++ ([] ++ paren :: v)) e.held := by
      simpa [Expr.held, Expr.heldAll] using others.accounts
    exact (Accounts.mark left rfl).into outer
  | @Derives.callGiven opening paren u v given callee e told more left inside _ others => by
    have outer : Accounts more (callee.held ++ (Expr.heldAll given ++ paren :: v)) e.held := by
      simpa [Expr.held] using others.accounts
    exact ((Accounts.mark left rfl).append inside.accounts).into outer
  | .literal constant => Accounts.aside (plain_of_literal constant)
  | .identifier _ => Accounts.refl [_]
  | .grouping left inner right => by
    have closed := inner.accounts.append (Accounts.mark right rfl)
    simpa [Symbol.carried, Expr.held] using (Accounts.mark left rfl).append closed

theorem ArgumentList.accounts {count : Nat} {u : List Token} {given : List Expr}
    {told : List SyntaxFault} :
    ArgumentList count u given told → Accounts told u (Expr.heldAll given)
  | .last argument => by
    simpa [Expr.heldAll] using argument.accounts.weaken _
  | .more argument sign tail =>
    (argument.accounts.append ((Accounts.mark sign rfl).append tail.accounts)).weaken _

end

theorem Declared.accounts {s : Stmt} (h : Declared u s told) : Accounts told u s.held := by
  cases h with
  | bare named stop => exact (Accounts.refl [_]).append (Accounts.mark stop rfl)
  | valued named sign value stop =>
    have after := value.accounts.append (Accounts.mark stop rfl)
    simpa [Stmt.held] using (Accounts.refl [_]).append ((Accounts.mark sign rfl).append after)

theorem Initializer.accounts {start : Option Stmt} (h : Initializer u start told) :
    Accounts told u (Stmt.heldAll start.toList) := by
  cases h with
  | empty stop => exact Accounts.mark stop rfl
  | declared first tail =>
    simpa [Stmt.heldAll] using (Accounts.mark first rfl).append tail.accounts
  | expression value stop =>
    simpa [Stmt.heldAll, Stmt.held] using value.accounts.append (Accounts.mark stop rfl)

theorem Clause.accounts {value : Option Expr} (h : Clause u value told) :
    Accounts told u (Expr.heldAll value.toList) := by
  cases h with
  | empty => exact Accounts.refl []
  | given value => simpa [Expr.heldAll] using value.accounts

theorem Header.accounts {word : Kind} (plain : word.isEssential = false)
    (h : Header word u e told) : Accounts told u e.held := by
  cases h with
  | mk start left condition right =>
    have inner := condition.accounts.append (Accounts.mark right rfl)
    simpa using (Accounts.mark start plain).append ((Accounts.mark left rfl).append inner)

theorem Clauses.accounts {start : Option Stmt} {condition increment : Option Expr}
    (h : Clauses u start condition increment told) :
    Accounts told u (Stmt.heldAll start.toList ++
      (Expr.heldAll condition.toList ++ Expr.heldAll increment.toList)) := by
  cases h with
  | mk word left initializer test stop step right =>
    have last := (Accounts.mark stop rfl).append (step.accounts.append (Accounts.mark right rfl))
    have clauses := initializer.accounts.append (test.accounts.append last)
    simpa using (Accounts.mark word rfl).append ((Accounts.mark left rfl).append clauses)

mutual

/-- The tokens of a statement are accounted for. -/
theorem Statement.accounts {dangles : Bool} {u : List Token} {s : Stmt} {told : List SyntaxFault} :
    Statement dangles u s told → Accounts told u s.held
  | .expression value stop => by
    simpa [Stmt.held] using value.accounts.append (Accounts.mark stop rfl)
  | .print word value stop => by
    have inner := value.accounts.append (Accounts.mark stop rfl)
    simpa [Stmt.held] using (Accounts.mark word rfl).append inner
  | .loop header body => (header.accounts rfl).append body.accounts
  | .counting clauses body => by
    -- the body is read after the increment and held before it
    rw [Stmt.held_spelledOut]
    refine (clauses.accounts.append body.accounts).perm ?_
    simp only [List.append_assoc]
    exact (List.perm_append_comm.append_left _).append_left _
  | .branch header consequent => (header.accounts rfl).append consequent.accounts
  | .branchElse header consequent other alternative =>
    (header.accounts rfl).append
      (consequent.accounts.append ((Accounts.mark other rfl).append alternative.accounts))
  | .block left inside right => by
    have inner := inside.accounts.append (Accounts.mark right rfl)
    simpa [Stmt.held] using (Accounts.mark left rfl).append inner

theorem Declaration.accounts {dangles : Bool} {u : List Token} {s : Stmt}
    {told : List SyntaxFault} : Declaration dangles u s told → Accounts told u s.held
  | .declare word tail => (Accounts.mark word rfl).append tail.accounts
  | .statement inner => inner.accounts

/-- The tokens of declarations are accounted for; those of a gap are all laid aside. -/
theorem Declarations.accounts {u : List Token} {inner : List Stmt} {told : List SyntaxFault} :
    Declarations u inner told → Accounts told u (Stmt.heldAll inner)
  | .nil => Accounts.refl []
  | .cons first rest => first.accounts.append rest.accounts
  | .gap fatal rest => by
    obtain ⟨f, member, -⟩ := fatal
    exact (Accounts.lost (List.ne_nil_of_mem member) _).append rest.accounts

end

end Grammar

namespace Parse

/-- The tokens before the end of the input are accounted for, whatever they are. -/
theorem recorded_accounts (ts : List Token) :
    Accounts (recorded ts).records (body ts) (Stmt.heldAll (recorded ts).value) :=
  (recorded_derives ts).accounts

/-- Tokens that differ from each other are used at most once.  The trees hold tokens from before the
end of the input only, each at one place.  If nothing is told, every name and every operator is held
at exactly one place. -/
theorem tokens_are_held_once (ts : List Token) (distinct : ts.Nodup) :
    (∀ t ∈ Stmt.heldAll (recorded ts).value, t ∈ body ts) ∧
    (Stmt.heldAll (recorded ts).value).Nodup ∧
    ((recorded ts).records = [] → ∀ t ∈ body ts,
      t.kind = .identifier ∨ isUnaryOperator t.kind = true ∨
        (∃ level : Level, level.owns t.kind = true) →
      (Stmt.heldAll (recorded ts).value).count t = 1) := by
  have accounts := recorded_accounts ts
  have sub := accounts.subperm
  have once : (Stmt.heldAll (recorded ts).value).Nodup := by
    rw [List.nodup_iff_count_le_one]
    intro t
    have apart : (body ts).Nodup := distinct.sublist (List.takeWhile_sublist _)
    exact Nat.le_trans (sub.count_le t) (List.nodup_iff_count_le_one.mp apart t)
  refine ⟨fun t member => sub.subset member, once, ?_⟩
  intro silent t member kinds
  rw [silent] at accounts
  have essential : t.kind.isEssential = true := by
    obtain name | unary | ⟨level, owned⟩ := kinds
    · simp [Kind.isEssential, name]
    · simp [Kind.isEssential, unary]
    · exact Kind.isEssential_of_owns owned
  exact List.count_eq_one_of_mem once (accounts.mem_held member essential)

/-- A counting loop with a call in its increment, each token on a line of its own. -/
def countedCalls : List Token :=
  [.for_, .leftParen, .var, .identifier, .equal, .minus, .number, .semicolon,
    .identifier, .less, .identifier, .or, .bang, .identifier, .semicolon,
    .identifier, .equal, .identifier, .leftParen, .identifier, .rightParen, .rightParen,
    .print, .identifier, .semicolon].mapIdx fun line kind => ⟨kind, [], .nothing, line⟩

theorem counted_calls_are_held_once :
    countedCalls.Nodup ∧ (recorded countedCalls).records = [] ∧
    (Stmt.heldAll (recorded countedCalls).value).map (·.line) =
      [3, 5, 8, 9, 10, 11, 12, 13, 23, 15, 17, 19, 20] ∧
    (Stmt.heldAll (recorded countedCalls).value).Nodup ∧
    ∀ t ∈ body countedCalls, t.kind = .identifier →
      (Stmt.heldAll (recorded countedCalls).value).count t = 1 := by
  have distinct : countedCalls.Nodup := by decide
  have silent : (recorded countedCalls).records = [] := by decide +kernel
  obtain ⟨-, once, used⟩ := tokens_are_held_once countedCalls distinct
  exact ⟨distinct, silent, by decide +kernel, once,
    fun t member name => used silent t member (.inl name)⟩

end Parse

end Bhasha
