import Bhasha.Proofs.Tree.WellFormed

/-!
# Derivations of the tokens of a tree

The tokens of a well-formed tree derive that tree again, and all that is told of them is that some
calls have too many arguments.  Derivations join operators from the left and read argument lists one
after the other, whereas a tree has its last operator and its last argument list at the root, so the
main step is to add an operator or an argument list at the end of a derivation.
-/

namespace Bhasha

namespace Grammar

open Parse

/-- The list of arguments between two parentheses, which may be empty. -/
def Given (u : List Token) (given : List Expr) (told : List SyntaxFault) : Prop :=
  u = [] ∧ given = [] ∧ told = [] ∨ ArgumentList 0 u given told

theorem Derives.callList {opening paren : Token} {u v : List Token} {given : List Expr}
    {callee e : Expr} {told more : List SyntaxFault} (left : opening.kind = .leftParen)
    (inside : Given u given told) (right : paren.kind = .rightParen)
    (others : Derives (.calls (.call callee paren given)) v e more) :
    Derives (.calls callee) (opening :: (u ++ paren :: v)) e (told ++ more) := by
  obtain ⟨rfl, rfl, rfl⟩ | arguments := inside
  · exact .callEmpty left right others
  · exact .callGiven left arguments right others

/-- The nonterminal continues an operand of the level. -/
def Symbol.Climbs (level : Level) : Symbol → Prop
  | .climb other _ => other = level
  | _ => False

/-- An operator with its right operand can be added at the end. -/
theorem Derives.addOperator {level : Level} {operator : Token} {w : List Token} {right : Expr}
    {more : List SyntaxFault} (owned : operator.kind ∈ operators level)
    (operand : Derives (operandOf level) w right more) {symbol : Symbol} {u : List Token} {e : Expr}
    {told : List SyntaxFault} :
    Derives symbol u e told → symbol.Climbs level →
      Derives symbol (u ++ operator :: w) (node level e operator right) (told ++ more)
  | .climbed, same => by
    cases same
    simpa using Derives.climb owned operand .climbed
  | .climb first next others, same => by
    have extended := Derives.addOperator owned operand others same
    cases same
    simpa using Derives.climb first next extended
  | .loosest _, other => other.elim
  | .assign _ _ _, other => other.elim
  | .misassign _ _ _ _, other => other.elim
  | .chain _ _, other => other.elim
  | .unary _ _, other => other.elim
  | .call _ _, other => other.elim
  | .called, other => other.elim
  | .callEmpty _ _ _, other => other.elim
  | .callGiven _ _ _ _, other => other.elim
  | .literal _, other => other.elim
  | .identifier _, other => other.elim
  | .grouping _ _ _, other => other.elim

theorem Derives.addToChain {level : Level} {operator : Token} {u w : List Token} {e right : Expr}
    {told more : List SyntaxFault} (chain : Derives (.binary level) u e told)
    (owned : operator.kind ∈ operators level)
    (operand : Derives (operandOf level) w right more) :
    Derives (.binary level) (u ++ operator :: w) (node level e operator right) (told ++ more) := by
  cases chain with
  | chain first others =>
    simpa using Derives.chain first (Derives.addOperator owned operand others rfl)

def Symbol.isCalls : Symbol → Bool
  | .calls _ => true
  | _ => false

/-- An argument list can be added at the end. -/
theorem Derives.addCall {opening paren : Token} {w : List Token} {given : List Expr}
    {more : List SyntaxFault} (left : opening.kind = .leftParen) (inside : Given w given more)
    (right : paren.kind = .rightParen) {symbol : Symbol} {u : List Token} {e : Expr}
    {told : List SyntaxFault} :
    Derives symbol u e told → symbol.isCalls = true →
      Derives symbol (u ++ opening :: (w ++ [paren])) (.call e paren given) (told ++ more)
  | .called, _ => by
    simpa using Derives.callList left inside right .called
  | .callEmpty first second others, calls => by
    have extended := Derives.addCall left inside right others calls
    simpa using Derives.callEmpty first second extended
  | .callGiven first arguments second others, calls => by
    have extended := Derives.addCall left inside right others calls
    simpa using Derives.callGiven first arguments second extended
  | .loosest _, other => by cases other
  | .assign _ _ _, other => by cases other
  | .misassign _ _ _ _, other => by cases other
  | .chain _ _, other => by cases other
  | .climbed, other => by cases other
  | .climb _ _ _, other => by cases other
  | .unary _ _, other => by cases other
  | .call _ _, other => by cases other
  | .literal _, other => by cases other
  | .identifier _, other => by cases other
  | .grouping _ _ _, other => by cases other

/-- A primary expression with argument lists behind it. -/
def Called (u : List Token) (e : Expr) (told : List SyntaxFault) : Prop :=
  ∃ v w callee first more, u = v ++ w ∧ told = first ++ more ∧ Derives .primary v callee first ∧
    Derives (.calls callee) w e more

/-- The expressions of each rank. -/
def ReadsAt : Nat → List Token → Expr → List SyntaxFault → Prop
  | 0 => Derives .expression
  | 1 => Derives (.binary .or)
  | 2 => Derives (.binary .and)
  | 3 => Derives (.binary .equality)
  | 4 => Derives (.binary .comparison)
  | 5 => Derives (.binary .term)
  | 6 => Derives (.binary .factor)
  | 7 => Derives .unary
  | 8 => Called
  | _ => Derives .primary

theorem readsAt_rank (level : Level) : ReadsAt level.rank = Derives (.binary level) := by
  cases level <;> rfl

theorem readsAt_succ_rank (level : Level) :
    ReadsAt (level.rank + 1) = Derives (operandOf level) := by
  cases level <;> rfl

variable {u : List Token} {e : Expr} {told : List SyntaxFault}

theorem ReadsAt.loosen : ∀ rank, ReadsAt (rank + 1) u e told → ReadsAt rank u e told
  | 0, h => Derives.loosest h
  | 1, h => @Derives.widen .or _ _ _ h
  | 2, h => @Derives.widen .and _ _ _ h
  | 3, h => @Derives.widen .equality _ _ _ h
  | 4, h => @Derives.widen .comparison _ _ _ h
  | 5, h => @Derives.widen .term _ _ _ h
  | 6, h => @Derives.widen .factor _ _ _ h
  | 7, h => by
    obtain ⟨v, w, callee, first, more, rfl, rfl, primary, calls⟩ := h
    exact Derives.call primary calls
  | 8, h => ⟨u, [], e, told, [], by simp, by simp, h, .called⟩
  | _ + 9, h => h

/-- An expression of a tighter rank may stand where a looser one is asked for. -/
theorem ReadsAt.of_le {low high : Nat} (le : low ≤ high) (h : ReadsAt high u e told) :
    ReadsAt low u e told := by
  induction le with
  | refl => exact h
  | step _ ih => exact ih (h.loosen _)

theorem ReadsAt.derives {rank : Nat} (h : ReadsAt rank u e told) : Derives .expression u e told :=
  h.of_le (Nat.zero_le rank)

end Grammar

open Parse Grammar

variable {P : Token → Prop}

theorem Expr.readsAt_node {level : Level} {left right : Expr} {operator : Token}
    (fits : Expr.Fits P level left operator right)
    (first : ReadsAt left.rank left.tokens left.unlined left.excess)
    (second : ReadsAt right.rank right.tokens right.unlined right.excess) :
    ReadsAt level.rank (left.tokens ++ operator.unlined :: right.tokens)
      (node level left.unlined operator.unlined right.unlined) (left.excess ++ right.excess) := by
  obtain ⟨owned, -, loose, tight⟩ := fits
  have chain := first.of_le loose
  have operand := second.of_le (Nat.succ_le_of_lt tight)
  rw [readsAt_rank] at chain ⊢
  rw [readsAt_succ_rank] at operand
  exact chain.addToChain (mem_operators_iff.mpr owned) operand

theorem Expr.given_of_arguments {given : List Expr}
    (arguments : given ≠ [] → ArgumentList 0 (Expr.tokensBetween given) (Expr.unlinedAll given)
      (Expr.excessAfter 0 given)) :
    Given (Expr.tokensBetween given) (Expr.unlinedAll given) (Expr.excessAfter 0 given) := by
  cases given with
  | nil => exact .inl ⟨rfl, rfl, rfl⟩
  | cons first rest => exact .inr (arguments (List.cons_ne_nil _ _))

theorem node_logical {level : Level} (logical : level.isLogical = true) (left right : Expr)
    (operator : Token) : node level left operator right = .logical left operator right := by
  cases level <;> first | rfl | cases logical

theorem node_binary {level : Level} (plain : level.isLogical = false) (left right : Expr)
    (operator : Token) : node level left operator right = .binary left operator right := by
  cases level <;> first | rfl | cases plain

mutual

/-- The tokens of a well-formed expression derive it. -/
theorem Expr.readsAt_tokens : ∀ e : Expr, e.WellFormed P →
    ReadsAt e.rank e.tokens e.unlined e.excess
  | .literal value, _ => Derives.literal (literalOf?_token value)
  | .identifier name, formed => Derives.identifier formed.1
  | .assign name value, formed => by
    have right := (value.readsAt_tokens formed.2.2).derives
    have target := Derives.ofUnary (.call (.identifier (t := name.unlined) formed.1) .called)
    exact Derives.assign target rfl right
  | .logical left operator right, formed => by
    obtain ⟨⟨level, logical, fits⟩, first, second⟩ := formed
    have joined := Expr.readsAt_node fits (left.readsAt_tokens first) (right.readsAt_tokens second)
    rw [node_logical logical] at joined
    rw [Expr.rank, Level.of?_of_owns fits.1]
    exact joined
  | .binary left operator right, formed => by
    obtain ⟨⟨level, plain, fits⟩, first, second⟩ := formed
    have joined := Expr.readsAt_node fits (left.readsAt_tokens first) (right.readsAt_tokens second)
    rw [node_binary plain] at joined
    rw [Expr.rank, Level.of?_of_owns fits.1]
    exact joined
  | .unary operator right, formed => by
    obtain ⟨sign, -, rank, inner⟩ := formed
    have operand := (right.readsAt_tokens inner).of_le rank
    exact Derives.unary (mem_signs_iff.mpr sign) operand
  | .call callee paren given, formed => by
    obtain ⟨closing, -, rank, first, inner⟩ := formed
    obtain ⟨v, w, base, told, more, tokens, faults, primary, calls⟩ :=
      (callee.readsAt_tokens first).of_le rank
    have arguments := Expr.given_of_arguments (Expr.arguments_tokens given inner · 0)
    refine ⟨v, w ++ Kind.leftParen.token :: (Expr.tokensBetween given ++ [paren.unlined]), base,
      told, more ++ Expr.excessAfter 0 given, ?_, ?_, primary, ?_⟩
    · rw [Expr.tokens, tokens, List.append_assoc]
    · rw [Expr.excess, faults, List.append_assoc]
    · have opens : Kind.leftParen.token.kind = .leftParen := rfl
      have closes : paren.unlined.kind = .rightParen := closing
      exact Derives.addCall opens arguments closes calls rfl
  | .bareCall _ _, formed => formed.elim
  | .grouping inner, formed => by
    have derived := (inner.readsAt_tokens formed).derives
    exact Derives.grouping rfl derived rfl

theorem Expr.arguments_tokens : ∀ given : List Expr, Expr.AllWellFormed P given → given ≠ [] →
    ∀ count, ArgumentList count (Expr.tokensBetween given) (Expr.unlinedAll given)
      (Expr.excessAfter count given)
  | [], _, nonempty, _ => absurd rfl nonempty
  | [last], formed, _, count => by
    have derived := (last.readsAt_tokens formed.1).derives
    have whole := @ArgumentList.last count _ _ _ derived
    simpa [Expr.tokensBetween, Expr.unlinedAll, Expr.excessAfter] using whole
  | first :: next :: rest, formed, _, count => by
    have derived := (first.readsAt_tokens formed.1).derives
    have tail := Expr.arguments_tokens (next :: rest) formed.2 (List.cons_ne_nil _ _) (count + 1)
    exact ArgumentList.more derived rfl tail

end

theorem Expr.derives_tokens {e : Expr} (formed : e.WellFormed P) :
    Derives .expression e.tokens e.unlined e.excess :=
  (e.readsAt_tokens formed).derives

theorem Stmt.header_tokens {condition : Expr} (word : Kind) (formed : condition.WellFormed P) :
    Header word (Stmt.conditionTokens word condition) condition.unlined condition.excess :=
  .mk rfl rfl (Expr.derives_tokens formed) rfl

theorem Stmt.declaration_tokens {s : Stmt} (formed : s.WellFormed P)
    (declared : s.isDeclaration = true) : Declaration false s.tokens s.unlined s.excess := by
  cases s with
  | declare name initializer =>
    cases initializer with
    | none =>
      have named : name.unlined.kind = .identifier := formed.1
      exact .declare rfl (.bare named rfl)
    | some value =>
      have named : name.unlined.kind = .identifier := formed.1
      exact .declare rfl (.valued named rfl (Expr.derives_tokens formed.2.2) rfl)
  | _ => cases declared

mutual

/-- The tokens of a well-formed statement derive it, and it dangles as the tree does. -/
theorem Stmt.statement_tokens : ∀ s : Stmt, s.WellFormed P → s.isDeclaration = false →
    Statement s.dangles s.tokens s.unlined s.excess
  | .expression value, formed, _ => .expression (Expr.derives_tokens formed) rfl
  | .print value, formed, _ => .print rfl (Expr.derives_tokens formed) rfl
  | .declare _ _, _, proper => by cases proper
  | .block inner, formed, _ => .block rfl (Stmt.declarations_tokens inner formed) rfl
  | .bareBlock, formed, _ => formed.elim
  | .branch condition consequent none, formed, _ =>
    .branch (Stmt.header_tokens .if_ formed.1)
      (consequent.statement_tokens formed.2.1 formed.2.2)
  | .branch condition consequent (some alternative), formed, _ => by
    obtain ⟨test, first, proper, shut, second, proper'⟩ := formed
    have inner := consequent.statement_tokens first proper
    rw [shut] at inner
    exact .branchElse (Stmt.header_tokens .if_ test) inner rfl
      (alternative.statement_tokens second proper')
  | .loop condition body, formed, _ =>
    .loop (Stmt.header_tokens .while_ formed.1) (body.statement_tokens formed.2.1 formed.2.2)

theorem Stmt.declarations_tokens : ∀ ss : List Stmt, Stmt.AllWellFormed P ss →
    Declarations (Stmt.tokensAll ss) (Stmt.unlinedAll ss) (Stmt.excessAll ss)
  | [], _ => .nil
  | first :: rest, formed => by
    have tail := Stmt.declarations_tokens rest formed.2
    have statement := first.statement_tokens formed.1
    cases declared : first.isDeclaration with
    | false => exact .cons (.statement (statement declared)) tail
    | true => exact .cons (Stmt.declaration_tokens formed.1 declared) tail

end

end Bhasha
