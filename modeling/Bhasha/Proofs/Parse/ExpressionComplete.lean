import Bhasha.Proofs.Parse.ExpressionSound

/-!
# Sentences are read as their derivations say

A sentence of the expression grammar, followed by a token that cannot continue it, is read to its
end: the parser returns the tree of the derivation, tells the faults of the derivation and leaves
what follows.  One token of lookahead decides every choice, so the derivation is the only one.
-/

namespace Bhasha.Parse

open Grammar

variable {α β : Type} {finish : Token} {n : Nat} {ts : List Token}

theorem bind_run {ρ : Type} {p : Parser (Recorded ρ) α} {f : α → Parser (Recorded ρ) β}
    {value : α} {rest : List Token} {told more : List ρ} {outcome : Outcome β}
    (hp : p ts = ⟨.done value rest, told⟩) (hf : f value rest = ⟨outcome, more⟩) :
    (p >>= f) ts = ⟨outcome, told ++ more⟩ := by
  rw [bind_of_done hp, hf]

theorem accept_bind_some {wanted : Kind → Bool} {t : Token}
    {f : Option Token → Parser (Recorded SyntaxFault) β} (wants : wanted t.kind = true) :
    (accept wanted >>= f) (t :: ts) = f (some t) ts := by
  have read : (accept wanted : Parser (Recorded SyntaxFault) (Option Token)) (t :: ts) =
      ⟨.done (some t) ts, []⟩ := by rw [accept_cons, if_pos wants]
  rw [bind_of_done read]
  rfl

theorem accept_bind_none {wanted : Kind → Bool}
    {f : Option Token → Parser (Recorded SyntaxFault) β}
    (unwanted : ts.head?.any (wanted ·.kind) = false) :
    (accept wanted >>= f) ts = f none ts := by
  have read : (accept wanted : Parser (Recorded SyntaxFault) (Option Token)) ts =
      ⟨.done none ts, []⟩ := by
    cases ts with
    | nil => rfl
    | cons t rest => rw [accept_cons, if_neg (by simpa using unwanted)]
  rw [bind_of_done read]
  rfl

theorem expect_bind {kind : Kind} {fault : Fault} {t : Token}
    {f : Token → Parser (Recorded SyntaxFault) β} (same : t.kind = kind) :
    (expect (hear finish) kind fault >>= f) (t :: ts) = f t ts := by
  have read : expect (hear finish) kind fault (t :: ts) = ⟨.done t ts, []⟩ := by
    rw [expect_cons, if_pos same]
  rw [bind_of_done read]
  rfl

theorem nextIs_bind_true {kind : Kind} {t : Token} {f : Bool → Parser (Recorded SyntaxFault) β}
    (same : t.kind = kind) : (nextIs kind >>= f) (t :: ts) = f true (t :: ts) := by
  show f (t.kind == kind) (t :: ts) = f true (t :: ts)
  rw [same, beq_self_eq_true]

theorem nextIs_bind_false {kind : Kind} {f : Bool → Parser (Recorded SyntaxFault) β}
    (other : ts.head?.any (·.kind == kind) = false) : (nextIs kind >>= f) ts = f false ts := by
  show f (ts.head?.any (·.kind == kind)) ts = f false ts
  rw [other]

/-- The parser of a nonterminal. -/
def parserOf (finish : Token) (n : Nat) : Symbol → Parser (Recorded SyntaxFault) Expr
  | .expression => expression (hear finish) n
  | .binary level => binary (hear finish) n level
  | .climb level left => climb (hear finish) n level left
  | .unary => unary (hear finish) n
  | .calls callee => calls (hear finish) n callee
  | .primary => primary (hear finish) n

/-- The fuel that a nonterminal takes before its first token. -/
def reserveOf : Symbol → Nat
  | .expression => 15
  | .binary level => operandReserve level + 1
  | .climb _ _ | .calls _ | .primary => 1
  | .unary => 2

/-- A level and all tighter ones. -/
def levelsFrom : Level → List Level
  | .or => [.or, .and, .equality, .comparison, .term, .factor]
  | .and => [.and, .equality, .comparison, .term, .factor]
  | .equality => [.equality, .comparison, .term, .factor]
  | .comparison => [.comparison, .term, .factor]
  | .term => [.term, .factor]
  | .factor => [.factor]

/-- The kinds that would continue a sentence of a nonterminal. -/
def continues : Symbol → Kind → Bool
  | .expression, kind => kind == .equal || kind == .leftParen || (levelsFrom .or).any (·.owns kind)
  | .binary level, kind | .climb level _, kind =>
    kind == .leftParen || (levelsFrom level).any (·.owns kind)
  | .unary, kind | .calls _, kind => kind == .leftParen
  | .primary, _ => false

/-- What follows begins with no kind that satisfies `p`. -/
def Stops (p : Kind → Bool) (rest : List Token) : Prop := rest.head?.any (p ·.kind) = false

theorem Stops.mono {p q : Kind → Bool} {rest : List Token} (h : Stops p rest)
    (imp : ∀ kind, q kind = true → p kind = true) : Stops q rest := by
  cases rest with
  | nil => rfl
  | cons t rest =>
    simp only [Stops, List.head?_cons, Option.any_some] at h ⊢
    cases hq : q t.kind with
    | false => rfl
    | true => rw [imp _ hq] at h; exact h

theorem stops_cons {p : Kind → Bool} {t : Token} {rest : List Token} (h : p t.kind = false) :
    Stops p (t :: rest) := by
  simpa [Stops] using h

/-- The parser of a nonterminal reads a sentence to its end and returns its tree and faults. -/
def ReadsAs (finish : Token) (symbol : Symbol) (u : List Token) (e : Expr)
    (told : List SyntaxFault) : Prop :=
  ∀ n rest, 20 * (u ++ rest).length + reserveOf symbol ≤ n → Stops (continues symbol) rest →
    parserOf finish n symbol (u ++ rest) = ⟨.done e rest, told⟩

theorem operand_eq (finish : Token) (n : Nat) (level : Level) :
    operand (hear finish) (n + 1) level = parserOf finish n (operandOf level) := by
  rw [operand]
  cases level <;> rfl

theorem reserveOf_operandOf (level : Level) :
    reserveOf (operandOf level) + 1 = operandReserve level := by
  cases level <;> rfl

/-- An operator of a level does not continue an operand of that level. -/
theorem owns_not_continues {level : Level} {kind : Kind} (h : level.owns kind = true) :
    continues (operandOf level) kind = false := by
  cases level <;> cases kind <;> first | rfl | cases h

theorem continues_of_operand {level : Level} {kind : Kind}
    (h : continues (operandOf level) kind = true) : continues (.binary level) kind = true := by
  cases level <;> cases kind <;> first | rfl | cases h

theorem continues_of_owns {level : Level} {kind : Kind} (h : level.owns kind = true) :
    continues (.binary level) kind = true := by
  cases level <;> simp [continues, levelsFrom, h]

theorem continues_of_loosest {kind : Kind} (h : continues (.binary .or) kind = true) :
    continues .expression kind = true := by
  simp only [continues, Bool.or_eq_true] at h ⊢
  exact h.imp Or.inr id

/-- The operators of a level, or what follows them, stop an operand of the level. -/
theorem stops_operand {level : Level} {left e : Expr} {v rest : List Token}
    {more : List SyntaxFault} (others : Derives (.climb level left) v e more)
    (stops : Stops (continues (.binary level)) rest) :
    Stops (continues (operandOf level)) (v ++ rest) := by
  cases others with
  | climbed => exact stops.mono fun kind => continues_of_operand
  | climb owned operand others => exact stops_cons (owns_not_continues (mem_operators_iff.mp owned))

private theorem ReadsAs.loosest {u : List Token} {e : Expr} {told : List SyntaxFault}
    (inner : ReadsAs finish (.binary .or) u e told) : ReadsAs finish .expression u e told := by
  intro n rest fuel stops
  obtain ⟨n, rfl⟩ : ∃ m, n = m + 1 := ⟨n - 1, by simp only [reserveOf] at fuel; omega⟩
  have read := inner n rest (by simp only [reserveOf, operandReserve] at fuel ⊢; omega)
    (stops.mono fun kind => continues_of_loosest)
  simp only [parserOf] at read ⊢
  rw [expression]
  have after : Stops (· == .equal) rest := stops.mono fun kind same => by simp_all [continues]
  rw [← List.append_nil told]
  refine bind_run read ?_
  exact accept_bind_none after

private theorem ReadsAs.assign {u v : List Token} {name equal : Token} {value : Expr}
    {told more : List SyntaxFault} (target : ReadsAs finish (.binary .or) u (.identifier name) told)
    (sign : equal.kind = .equal) (right : ReadsAs finish .expression v value more) :
    ReadsAs finish .expression (u ++ equal :: v) (.assign name value) (told ++ more) := by
  intro n rest fuel stops
  obtain ⟨n, rfl⟩ : ∃ m, n = m + 1 := ⟨n - 1, by simp only [reserveOf] at fuel; omega⟩
  have read := target n (equal :: v ++ rest)
    (by simp [reserveOf, operandReserve] at fuel ⊢; omega) (stops_cons (by rw [sign]; rfl))
  have read' := right n rest (by simp [reserveOf] at fuel ⊢; omega) stops
  simp only [parserOf] at read read' ⊢
  rw [expression, List.append_assoc]
  refine bind_run read ?_
  refine (accept_bind_some (by simp [sign])).trans ?_
  rw [← List.append_nil more]
  exact bind_run read' rfl

private theorem ReadsAs.misassign {u v : List Token} {equal : Token} {left value : Expr}
    {told more : List SyntaxFault} (target : ReadsAs finish (.binary .or) u left told)
    (invalid : ∀ name, left ≠ .identifier name) (sign : equal.kind = .equal)
    (right : ReadsAs finish .expression v value more) :
    ReadsAs finish .expression (u ++ equal :: v) left
      (told ++ (more ++ [⟨equal, .invalidTarget⟩])) := by
  intro n rest fuel stops
  obtain ⟨n, rfl⟩ : ∃ m, n = m + 1 := ⟨n - 1, by simp only [reserveOf] at fuel; omega⟩
  have read := target n (equal :: v ++ rest)
    (by simp [reserveOf, operandReserve] at fuel ⊢; omega) (stops_cons (by rw [sign]; rfl))
  have read' := right n rest (by simp [reserveOf] at fuel ⊢; omega) stops
  simp only [parserOf] at read read' ⊢
  rw [expression, List.append_assoc]
  refine bind_run read ?_
  refine (accept_bind_some (by simp [sign])).trans ?_
  refine bind_run read' ?_
  cases left with
  | identifier name => exact absurd rfl (invalid name)
  | _ => rfl

private theorem ReadsAs.chain {level : Level} {u v : List Token} {left e : Expr}
    {told more : List SyntaxFault} (first : ReadsAs finish (operandOf level) u left told)
    (derived : Derives (.climb level left) v e more)
    (others : ReadsAs finish (.climb level left) v e more) :
    ReadsAs finish (.binary level) (u ++ v) e (told ++ more) := by
  intro n rest fuel stops
  have reserve := operandReserve_bounds level
  have reserve' := reserveOf_operandOf level
  obtain ⟨n, rfl⟩ : ∃ m, n = m + 2 := ⟨n - 2, by simp only [reserveOf] at fuel; omega⟩
  have read := first n (v ++ rest) (by simp [reserveOf] at fuel; simp; omega)
    (stops_operand derived stops)
  have read' := others (n + 1) rest (by simp [reserveOf] at fuel ⊢; omega) stops
  simp only [parserOf] at read' ⊢
  rw [binary, operand_eq, List.append_assoc]
  exact bind_run read read'

private theorem ReadsAs.climbed {level : Level} {left : Expr} :
    ReadsAs finish (.climb level left) [] left [] := by
  intro n rest fuel stops
  obtain ⟨n, rfl⟩ : ∃ m, n = m + 1 := ⟨n - 1, by simp only [reserveOf] at fuel; omega⟩
  simp only [parserOf]
  rw [climb]
  exact accept_bind_none (stops.mono fun kind owned => continues_of_owns owned)

private theorem ReadsAs.climb {level : Level} {operator : Token} {u v : List Token}
    {left right e : Expr} {told more : List SyntaxFault} (owned : operator.kind ∈ operators level)
    (operand : ReadsAs finish (operandOf level) u right told)
    (derived : Derives (.climb level (node level left operator right)) v e more)
    (others : ReadsAs finish (.climb level (node level left operator right)) v e more) :
    ReadsAs finish (.climb level left) (operator :: (u ++ v)) e (told ++ more) := by
  intro n rest fuel stops
  have reserve := operandReserve_bounds level
  have reserve' := reserveOf_operandOf level
  obtain ⟨n, rfl⟩ : ∃ m, n = m + 2 := ⟨n - 2, by simp [reserveOf] at fuel; omega⟩
  have read := operand n (v ++ rest) (by simp [reserveOf] at fuel; simp; omega)
    (stops_operand derived stops)
  have read' := others (n + 1) rest (by simp [reserveOf] at fuel ⊢; omega) stops
  simp only [parserOf] at read' ⊢
  rw [Parse.climb, operand_eq, List.cons_append, List.append_assoc]
  rw [node_eq_join] at read'
  refine (accept_bind_some (mem_operators_iff.mp owned)).trans ?_
  exact bind_run read read'

private theorem ReadsAs.unary {operator : Token} {u : List Token} {right : Expr}
    {told : List SyntaxFault} (sign : operator.kind ∈ signs)
    (operand : ReadsAs finish .unary u right told) :
    ReadsAs finish .unary (operator :: u) (.unary operator right) told := by
  intro n rest fuel stops
  obtain ⟨n, rfl⟩ : ∃ m, n = m + 1 := ⟨n - 1, by simp [reserveOf] at fuel; omega⟩
  have read := operand n rest (by simp [reserveOf] at fuel ⊢; omega) stops
  simp only [parserOf] at read ⊢
  rw [Parse.unary, List.cons_append]
  refine (accept_bind_some (mem_signs_iff.mp sign)).trans ?_
  rw [← List.append_nil told]
  exact bind_run read rfl

theorem isUnaryOperator_of_beginsPrimary {kind : Kind} (h : beginsPrimary kind = true) :
    isUnaryOperator kind = false := by
  cases kind <;> first | rfl | cases h

private theorem ReadsAs.call {u v : List Token} {callee e : Expr} {told more : List SyntaxFault}
    (derived : Derives .primary u callee told) (first : ReadsAs finish .primary u callee told)
    (others : ReadsAs finish (.calls callee) v e more) :
    ReadsAs finish .unary (u ++ v) e (told ++ more) := by
  intro n rest fuel stops
  obtain ⟨n, rfl⟩ : ∃ m, n = m + 1 := ⟨n - 1, by simp [reserveOf] at fuel; omega⟩
  have read := first n (v ++ rest) (by simp [reserveOf] at fuel ⊢; omega)
    (by cases v ++ rest <;> rfl)
  have read' := others n rest (by simp [reserveOf] at fuel ⊢; omega) stops
  obtain ⟨t, w, rfl, begins⟩ := derived.primary_head
  simp only [parserOf] at read read' ⊢
  rw [Parse.unary, List.append_assoc]
  refine (accept_bind_none ?_).trans (bind_run read read')
  simpa using isUnaryOperator_of_beginsPrimary begins

private theorem ReadsAs.called {callee : Expr} : ReadsAs finish (.calls callee) [] callee [] := by
  intro n rest fuel stops
  obtain ⟨n, rfl⟩ : ∃ m, n = m + 1 := ⟨n - 1, by simp only [reserveOf] at fuel; omega⟩
  simp only [parserOf]
  rw [calls]
  exact accept_bind_none stops

private theorem ReadsAs.callEmpty {opening paren : Token} {v : List Token} {callee e : Expr}
    {more : List SyntaxFault} (left : opening.kind = .leftParen) (right : paren.kind = .rightParen)
    (others : ReadsAs finish (.calls (.call callee paren [])) v e more) :
    ReadsAs finish (.calls callee) (opening :: paren :: v) e more := by
  intro n rest fuel stops
  obtain ⟨n, rfl⟩ : ∃ m, n = m + 1 := ⟨n - 1, by simp [reserveOf] at fuel; omega⟩
  have read := others n rest (by simp [reserveOf] at fuel ⊢; omega) stops
  simp only [parserOf] at read ⊢
  rw [calls]
  refine (accept_bind_some (by simp [left])).trans ?_
  refine (nextIs_bind_true right).trans ?_
  exact (expect_bind right).trans read

/-- Arguments are read to their end when neither an expression nor the list goes on after them. -/
def ArgumentsReadAs (finish : Token) (count : Nat) (u : List Token) (given : List Expr)
    (told : List SyntaxFault) : Prop :=
  ∀ n rest, 20 * (u ++ rest).length + 16 ≤ n → Stops (continues .expression) rest →
    Stops (· == .comma) rest →
      arguments (hear finish) n count (u ++ rest) = ⟨.done given rest, told⟩

private theorem ReadsAs.callGiven {opening paren : Token} {u v : List Token} {given : List Expr}
    {callee e : Expr} {told more : List SyntaxFault} (left : opening.kind = .leftParen)
    (derived : ArgumentList 0 u given told) (inside : ArgumentsReadAs finish 0 u given told)
    (right : paren.kind = .rightParen)
    (others : ReadsAs finish (.calls (.call callee paren given)) v e more) :
    ReadsAs finish (.calls callee) (opening :: (u ++ paren :: v)) e (told ++ more) := by
  intro n rest fuel stops
  obtain ⟨n, rfl⟩ : ∃ m, n = m + 1 := ⟨n - 1, by simp [reserveOf] at fuel; omega⟩
  have read := inside n (paren :: v ++ rest) (by simp [reserveOf] at fuel ⊢; omega)
    (stops_cons (by rw [right]; rfl)) (stops_cons (by rw [right]; rfl))
  have read' := others n rest (by simp [reserveOf] at fuel ⊢; omega) stops
  obtain ⟨t, w, rfl, begins⟩ := derived.head
  have filled : (t.kind == .rightParen) = false := by
    cases hk : t.kind <;> simp_all [beginsExpression, isUnaryOperator, beginsPrimary]
  simp only [parserOf] at read' ⊢
  rw [calls, List.cons_append, List.append_assoc]
  refine (accept_bind_some (by simp [left])).trans ?_
  refine (nextIs_bind_false (by simpa using filled)).trans ?_
  exact bind_run read ((expect_bind right).trans read')

private theorem ReadsAs.literal {t : Token} {value : Literal}
    (constant : literalOf? t = some value) : ReadsAs finish .primary [t] (.literal value) [] := by
  intro n rest fuel _
  obtain ⟨n, rfl⟩ : ∃ m, n = m + 1 := ⟨n - 1, by simp [reserveOf] at fuel; omega⟩
  simp only [parserOf]
  rw [primary]
  refine (accept_bind_some (beginsPrimary_of_literal constant)).trans ?_
  exact congrFun (primary_literal constant _ _) rest

private theorem ReadsAs.identifier {t : Token} (name : t.kind = .identifier) :
    ReadsAs finish .primary [t] (.identifier t) [] := by
  intro n rest fuel _
  obtain ⟨n, rfl⟩ : ∃ m, n = m + 1 := ⟨n - 1, by simp [reserveOf] at fuel; omega⟩
  simp only [parserOf]
  rw [primary]
  refine (accept_bind_some (by simp [name, beginsPrimary])).trans ?_
  dsimp only
  rw [name]
  rfl

private theorem ReadsAs.grouping {opening closing : Token} {u : List Token} {e : Expr}
    {told : List SyntaxFault} (left : opening.kind = .leftParen)
    (inner : ReadsAs finish .expression u e told) (right : closing.kind = .rightParen) :
    ReadsAs finish .primary (opening :: (u ++ [closing])) (.grouping e) told := by
  intro n rest fuel _
  obtain ⟨n, rfl⟩ : ∃ m, n = m + 1 := ⟨n - 1, by simp [reserveOf] at fuel; omega⟩
  have read := inner n (closing :: rest) (by simp [reserveOf] at fuel ⊢; omega)
    (stops_cons (by rw [right]; rfl))
  simp only [parserOf] at read ⊢
  rw [primary, List.cons_append, List.append_assoc]
  refine (accept_bind_some (by simp [left, beginsPrimary])).trans ?_
  dsimp only
  rw [left, ← List.append_nil told]
  exact bind_run read (expect_bind right)

/-- The argument and what follows it, after the report that the limit asks for. -/
private theorem arguments_run {count : Nat} {t : Token} {rest : List Token} {given : List Expr}
    {told : List SyntaxFault} {left : List Token}
    (after : (do
        let first ← expression (hear finish) n
        match ← accept (· == .comma) with
        | none => pure [first]
        | some _ =>
          let rest ← arguments (hear finish) n (count + 1)
          pure (first :: rest) : Parser (Recorded SyntaxFault) (List Expr)) (t :: rest) =
      ⟨.done given left, told⟩) :
    arguments (hear finish) (n + 1) count (t :: rest) =
      ⟨.done given left, limitFault count [t] ++ told⟩ := by
  rw [arguments]
  show (ite _ _ _ : Parser (Recorded SyntaxFault) (List Expr)) _ = _
  by_cases exceeds : maxArguments ≤ count
  · rw [if_pos exceeds]
    have limit : limitFault count [t] = [⟨t, .tooManyArguments⟩] := by simp [limitFault_eq, exceeds]
    rw [limit]
    exact bind_run rfl after
  · rw [if_neg exceeds]
    have limit : limitFault count [t] = [] := by simp [limitFault_eq, exceeds]
    rw [limit]
    exact after

theorem limitFault_cons (count : Nat) (t : Token) (v : List Token) :
    limitFault count (t :: v) = limitFault count [t] := by
  simp [limitFault]

private theorem ArgumentsReadAs.last {count : Nat} {u : List Token} {e : Expr}
    {told : List SyntaxFault} (derived : Derives .expression u e told)
    (argument : ReadsAs finish .expression u e told) :
    ArgumentsReadAs finish count u [e] (limitFault count u ++ told) := by
  intro n rest fuel stops closed
  obtain ⟨n, rfl⟩ : ∃ m, n = m + 1 := ⟨n - 1, by omega⟩
  have read := argument n rest (by simp only [reserveOf]; omega) stops
  obtain ⟨t, v, rfl, -⟩ := derived.head rfl
  simp only [parserOf] at read
  rw [limitFault_cons]
  refine arguments_run ?_
  rw [← List.append_nil told]
  exact bind_run read (accept_bind_none closed)

private theorem ArgumentsReadAs.more {count : Nat} {comma : Token} {u v : List Token} {e : Expr}
    {others : List Expr} {told more : List SyntaxFault} (derived : Derives .expression u e told)
    (argument : ReadsAs finish .expression u e told) (sign : comma.kind = .comma)
    (tail : ArgumentsReadAs finish (count + 1) v others more) :
    ArgumentsReadAs finish count (u ++ comma :: v) (e :: others)
      (limitFault count u ++ (told ++ more)) := by
  intro n rest fuel stops closed
  obtain ⟨n, rfl⟩ : ∃ m, n = m + 1 := ⟨n - 1, by omega⟩
  have read := argument n (comma :: v ++ rest) (by simp [reserveOf] at fuel ⊢; omega)
    (stops_cons (by rw [sign]; rfl))
  have read' := tail n rest (by simp at fuel ⊢; omega) stops closed
  obtain ⟨t, w, rfl, -⟩ := derived.head rfl
  simp only [parserOf] at read
  rw [limitFault_cons, List.append_assoc]
  refine arguments_run (bind_run read ?_)
  refine (accept_bind_some (by simp [sign])).trans ?_
  rw [← List.append_nil more]
  exact bind_run read' rfl

mutual

/-- Every sentence is read as its derivation says. -/
theorem derives_readsAs {symbol : Symbol} {u : List Token} {e : Expr} {told : List SyntaxFault} :
    Derives symbol u e told → ReadsAs finish symbol u e told
  | .loosest inner => (derives_readsAs inner).loosest
  | .assign target sign right => (derives_readsAs target).assign sign (derives_readsAs right)
  | .misassign target invalid sign right =>
    (derives_readsAs target).misassign invalid sign (derives_readsAs right)
  | .chain first others => (derives_readsAs first).chain others (derives_readsAs others)
  | .climbed => .climbed
  | .climb owned operand others =>
    .climb owned (derives_readsAs operand) others (derives_readsAs others)
  | .unary sign operand => .unary sign (derives_readsAs operand)
  | .call first others => .call first (derives_readsAs first) (derives_readsAs others)
  | .called => .called
  | .callEmpty left right others => .callEmpty left right (derives_readsAs others)
  | .callGiven left inside right others =>
    .callGiven left inside (arguments_readAs inside) right (derives_readsAs others)
  | .literal constant => .literal constant
  | .identifier name => .identifier name
  | .grouping left inner right => .grouping left (derives_readsAs inner) right

theorem arguments_readAs {count : Nat} {u : List Token} {given : List Expr}
    {told : List SyntaxFault} :
    ArgumentList count u given told → ArgumentsReadAs finish count u given told
  | .last argument => .last argument (derives_readsAs argument)
  | .more argument sign tail =>
    .more argument (derives_readsAs argument) sign (arguments_readAs tail)

end

/-- An expression before a token that cannot continue it is read to its end. -/
theorem expr_reads {u rest : List Token} {e : Expr} {told : List SyntaxFault}
    (derived : Derives .expression u e told) (stops : Stops (continues .expression) rest) :
    expr (hear finish) (u ++ rest) = ⟨.done e rest, told⟩ :=
  derives_readsAs derived _ rest (by simp [reserveOf]; omega) stops

end Bhasha.Parse
