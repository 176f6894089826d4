import Bhasha.Proofs.Reading.RoundTrip

/-!
# Writing keeps the tokens

A tree keeps everything of a faultless text but its layout.  Along a derivation of which nothing is
told, the tokens of the tree are the derived tokens, one by one and in order: a number may be
spelled in another way, everything else stays as it was.  Counting loops are the one exception,
since the tree spells them out.
-/

namespace Bhasha

open Parse Grammar

/-- A token that keeps its kind, its literal and, unless it is a number, its text. -/
structure Token.KeptAs (t t' : Token) : Prop where
  kind : t.kind = t'.kind
  literal : t.literal = t'.literal
  lexeme : t.kind ≠ .number → t.lexeme = t'.lexeme

theorem Token.KeptAs.trans {t t' t'' : Token} (first : t.KeptAs t') (second : t'.KeptAs t'') :
    t.KeptAs t'' where
  kind := first.kind.trans second.kind
  literal := first.literal.trans second.literal
  lexeme := fun other => (first.lexeme other).trans (second.lexeme (first.kind ▸ other))

theorem Token.keptAs_unlined (t : Token) : t.KeptAs t.unlined := ⟨rfl, rfl, fun _ => rfl⟩

theorem Token.Scanned.keptAs_token {t : Token} (scanned : t.Scanned) {kind : Kind}
    (same : t.kind = kind) (fixed : kind.isFixed = true) : t.KeptAs kind.token := by
  subst same
  rw [← scanned.eq_token fixed]
  exact t.keptAs_unlined

theorem Token.Scanned.keptAs_literal {t : Token} {value : Literal} (scanned : t.Scanned)
    (constant : literalOf? t = some value) : t.KeptAs value.token := by
  unfold literalOf? at constant
  split at constant
  · rename_i word
    cases constant
    exact scanned.keptAs_token word rfl
  · rename_i word
    cases constant
    exact scanned.keptAs_token word rfl
  · rename_i word
    cases constant
    exact scanned.keptAs_token word rfl
  · rename_i number
    cases constant
    obtain ⟨v, -, same⟩ := scanned.literal_cases.1 number
    rw [same]
    exact ⟨number, same, fun other => absurd number other⟩
  · rename_i string
    cases constant
    obtain ⟨content, -, same, quoted⟩ := scanned.literal_cases.2 string
    rw [same]
    exact ⟨string, same, fun _ => quoted⟩
  · cases constant

/-- Two lists of tokens where each token of the first is kept in the second. -/
abbrev Kept (u w : List Token) : Prop := List.Forall₂ Token.KeptAs u w

theorem Kept.refl (u : List Token) : Kept u u :=
  List.forall₂_same.mpr fun _ _ => ⟨rfl, rfl, fun _ => rfl⟩

theorem Kept.trans {u v w : List Token} (first : Kept u v) (second : Kept v w) : Kept u w := by
  induction first generalizing w with
  | nil => exact second
  | cons here _ ih =>
    cases second with
    | cons here' rest => exact .cons (here.trans here') (ih rest)

theorem Kept.append {u v u' v' : List Token} (first : Kept u u') (second : Kept v v') :
    Kept (u ++ v) (u' ++ v') := List.rel_append first second

namespace Grammar

/-- The tokens of the part that a phrase goes on from. -/
def Symbol.tokens : Symbol → List Token
  | .climb _ left => left.tokens
  | .calls callee => callee.tokens
  | _ => []

@[simp] theorem operandOf_tokens (level : Level) : (operandOf level).tokens = [] := by
  cases level <;> rfl

theorem tokens_node (level : Level) (left right : Expr) (operator : Token) :
    (node level left operator right).tokens = left.tokens ++ operator.unlined :: right.tokens := by
  cases level <;> rfl

mutual

/-- A faultless phrase is kept in its tree, after the part that it goes on from. -/
theorem Derives.kept {symbol : Symbol} {u : List Token} {e : Expr} {told : List SyntaxFault} :
    Derives symbol u e told → told = [] → (∀ t ∈ u, t.Scanned) → Kept (symbol.tokens ++ u) e.tokens
  | .loosest inner, silent, all => inner.kept silent all
  | .assign target sign right, silent, all => by
    simp only [List.append_eq_nil_iff] at silent
    simp only [List.forall_mem_append, List.forall_mem_cons] at all
    have name := target.kept silent.1 all.1
    have value := right.kept silent.2 all.2.2
    exact name.append (.cons (all.2.1.keptAs_token sign rfl) value)
  | .misassign _ _ _ _, silent, _ => by simp at silent
  | .chain first others, silent, all => by
    simp only [List.append_eq_nil_iff] at silent
    rw [List.forall_mem_append] at all
    have left := first.kept silent.1 all.1
    have whole := others.kept silent.2 all.2
    rw [operandOf_tokens] at left
    exact (left.append (Kept.refl _)).trans whole
  | .climbed, _, _ => by
    rw [List.append_nil]
    exact Kept.refl _
  | @Derives.climb _ operator u v left _ _ _ _ owned operand others, silent, all => by
    simp only [List.append_eq_nil_iff] at silent
    simp only [List.forall_mem_append, List.forall_mem_cons] at all
    have right := operand.kept silent.1 all.2.1
    have whole := others.kept silent.2 all.2.2
    rw [operandOf_tokens] at right
    have joined := (Kept.refl left.tokens).append
      (.cons operator.keptAs_unlined (right.append (Kept.refl v)))
    simp only [Symbol.tokens, tokens_node, List.append_assoc, List.cons_append] at whole
    exact joined.trans whole
  | .unary sign operand, silent, all => by
    rw [List.forall_mem_cons] at all
    exact .cons (Token.keptAs_unlined _) (operand.kept silent all.2)
  | .call first others, silent, all => by
    simp only [List.append_eq_nil_iff] at silent
    rw [List.forall_mem_append] at all
    have callee := first.kept silent.1 all.1
    have whole := others.kept silent.2 all.2
    exact (callee.append (Kept.refl _)).trans whole
  | .called, _, _ => by
    rw [List.append_nil]
    exact Kept.refl _
  | @Derives.callEmpty opening paren v callee _ _ left right others, silent, all => by
    simp only [List.forall_mem_cons] at all
    have whole := others.kept silent all.2.2
    have list := (Kept.refl callee.tokens).append
      (.cons (all.1.keptAs_token left rfl) (.cons paren.keptAs_unlined (Kept.refl v)))
    simp only [Symbol.tokens, Expr.tokens, Expr.tokensBetween, List.nil_append, List.append_assoc,
      List.cons_append] at whole
    exact list.trans whole
  | @Derives.callGiven opening paren u v _ callee _ _ _ left inside right others, silent, all => by
    simp only [List.append_eq_nil_iff] at silent
    simp only [List.forall_mem_append, List.forall_mem_cons] at all
    have given := inside.kept silent.1 all.2.1
    have whole := others.kept silent.2 all.2.2.2
    have list := (Kept.refl callee.tokens).append (.cons (all.1.keptAs_token left rfl)
      (given.append (.cons paren.keptAs_unlined (Kept.refl v))))
    simp only [Symbol.tokens, Expr.tokens, List.nil_append, List.append_assoc,
      List.cons_append] at whole
    exact list.trans whole
  | .literal constant, _, all => .cons ((all _ (.head _)).keptAs_literal constant) .nil
  | .identifier _, _, _ => .cons (Token.keptAs_unlined _) .nil
  | .grouping left inner right, silent, all => by
    simp only [List.forall_mem_append, List.forall_mem_cons] at all
    have between := inner.kept silent all.2.1
    exact .cons (all.1.keptAs_token left rfl)
      (between.append (.cons (all.2.2.1.keptAs_token right rfl) .nil))

theorem ArgumentList.kept {count : Nat} {u : List Token} {given : List Expr}
    {told : List SyntaxFault} : ArgumentList count u given told → told = [] →
      (∀ t ∈ u, t.Scanned) → Kept u (Expr.tokensBetween given)
  | .last argument, silent, all => by
    simp only [List.append_eq_nil_iff] at silent
    exact argument.kept silent.2 all
  | .more argument sign tail, silent, all => by
    simp only [List.append_eq_nil_iff] at silent
    simp only [List.forall_mem_append, List.forall_mem_cons] at all
    have first := argument.kept silent.2.1 all.1
    have others := tail.kept silent.2.2 all.2.2
    have list := first.append (.cons (all.2.1.keptAs_token sign rfl) others)
    cases tail with
    | last _ => exact list
    | more _ _ _ => exact list

end

theorem Declared.kept {u : List Token} {s : Stmt} {told : List SyntaxFault}
    (h : Declared u s told) (silent : told = []) (all : ∀ t ∈ u, t.Scanned) :
    Kept (Kind.var.token :: u) s.tokens := by
  have word := Kept.refl [Kind.var.token]
  cases h with
  | bare named stop =>
    simp only [List.forall_mem_cons] at all
    exact word.append (.cons (Token.keptAs_unlined _) (.cons (all.2.1.keptAs_token stop rfl) .nil))
  | valued named sign value stop =>
    simp only [List.forall_mem_append, List.forall_mem_cons] at all
    have kept := value.kept silent all.2.2.1
    exact word.append (.cons (Token.keptAs_unlined _) (.cons (all.2.1.keptAs_token sign rfl)
      (kept.append (.cons (all.2.2.2.1.keptAs_token stop rfl) .nil))))

theorem Header.kept {word : Kind} {u : List Token} {e : Expr} {told : List SyntaxFault}
    (h : Header word u e told) (fixed : word.isFixed = true) (silent : told = [])
    (all : ∀ t ∈ u, t.Scanned) : Kept u (Stmt.conditionTokens word e) := by
  cases h with
  | mk start left condition right =>
    simp only [List.forall_mem_append, List.forall_mem_cons] at all
    have kept := condition.kept silent all.2.2.1
    exact .cons (all.1.keptAs_token start fixed) (.cons (all.2.1.keptAs_token left rfl)
      (kept.append (.cons (all.2.2.2.1.keptAs_token right rfl) .nil)))

/-- A scanned token that does not begin a counting loop. -/
def Plain (t : Token) : Prop := t.Scanned ∧ t.kind ≠ .for_

mutual

/-- A faultless statement without counting loops is kept in its tree. -/
theorem Statement.kept {dangles : Bool} {u : List Token} {s : Stmt} {told : List SyntaxFault} :
    Statement dangles u s told → told = [] → (∀ t ∈ u, Plain t) → Kept u s.tokens
  | .expression value stop, silent, all => by
    simp only [List.forall_mem_append, List.forall_mem_cons] at all
    have kept := value.kept silent fun t member => (all.1 t member).1
    exact kept.append (.cons (all.2.1.1.keptAs_token stop rfl) .nil)
  | .print word value stop, silent, all => by
    simp only [List.forall_mem_append, List.forall_mem_cons] at all
    have kept := value.kept silent fun t member => (all.2.1 t member).1
    exact .cons (all.1.1.keptAs_token word rfl)
      (kept.append (.cons (all.2.2.1.1.keptAs_token stop rfl) .nil))
  | .loop header body, silent, all => by
    rw [List.append_eq_nil_iff] at silent
    rw [List.forall_mem_append] at all
    have test := header.kept rfl silent.1 fun t member => (all.1 t member).1
    exact test.append (body.kept silent.2 all.2)
  | .counting clauses _, _, all => by
    cases clauses with
    | mk word _ _ _ _ _ _ => exact absurd word (all _ (.head _)).2
  | .branch header consequent, silent, all => by
    rw [List.append_eq_nil_iff] at silent
    rw [List.forall_mem_append] at all
    have test := header.kept rfl silent.1 fun t member => (all.1 t member).1
    exact test.append (consequent.kept silent.2 all.2)
  | .branchElse header consequent other alternative, silent, all => by
    simp only [List.append_eq_nil_iff] at silent
    simp only [List.forall_mem_append, List.forall_mem_cons] at all
    have test := header.kept rfl silent.1 fun t member => (all.1 t member).1
    have inner := consequent.kept silent.2.1 all.2.1
    have others := alternative.kept silent.2.2 all.2.2.2
    exact test.append (inner.append (.cons (all.2.2.1.1.keptAs_token other rfl) others))
  | .block left inside right, silent, all => by
    simp only [List.forall_mem_append, List.forall_mem_cons] at all
    have inner := inside.kept silent all.2.1
    exact .cons (all.1.1.keptAs_token left rfl)
      (inner.append (.cons (all.2.2.1.1.keptAs_token right rfl) .nil))

theorem Declaration.kept {dangles : Bool} {u : List Token} {s : Stmt} {told : List SyntaxFault} :
    Declaration dangles u s told → told = [] → (∀ t ∈ u, Plain t) → Kept u s.tokens
  | .declare word tail, silent, all => by
    rw [List.forall_mem_cons] at all
    have kept := tail.kept silent fun t member => (all.2 t member).1
    exact Kept.trans (.cons (all.1.1.keptAs_token word rfl) (Kept.refl _)) kept
  | .statement inner, silent, all => inner.kept silent all

/-- Faultless declarations without counting loops are kept in their trees, and there are no gaps
between them. -/
theorem Declarations.kept {u : List Token} {inner : List Stmt} {told : List SyntaxFault} :
    Declarations u inner told → told = [] → (∀ t ∈ u, Plain t) → Kept u (Stmt.tokensAll inner)
  | .nil, _, _ => .nil
  | .cons first rest, silent, all => by
    rw [List.append_eq_nil_iff] at silent
    rw [List.forall_mem_append] at all
    exact (first.kept silent.1 all.1).append (rest.kept silent.2 all.2)
  | .gap fatal _, silent, _ => by
    obtain ⟨f, member, -⟩ := fatal
    rw [(List.append_eq_nil_iff.mp silent).1] at member
    cases member

end

end Grammar

/-- Writing a text without counting loops of which no syntactic fault is told keeps its tokens: in
the same order, the same kinds and literals, and the same texts but for the numbers. -/
theorem writing_keeps_the_tokens (source : Text)
    (uncounted : ∀ t ∈ (Scan.ofSource source).tokens, t.kind ≠ .for_)
    (silent : (Reading.ofSource source).syntactic = []) :
    List.Forall₂ Token.KeptAs (Scan.ofSource source).tokens
      (Scan.ofSource (Reading.ofSource source).program.source).tokens := by
  obtain ⟨last, whole, scanned⟩ := scan_body source
  obtain ⟨last', whole', -⟩ := scan_body (Reading.ofSource source).program.source
  obtain ⟨tokens, -⟩ := Program.scan_source (Reading.wellFormed source)
  have plain : ∀ t ∈ body (Scan.ofSource source).tokens, Plain t := by
    intro t member
    refine ⟨scanned t member, uncounted t ?_⟩
    rw [whole]
    exact List.mem_append_left _ member
  have kept := (recorded_derives (Scan.ofSource source).tokens).kept silent plain
  have written : Kept (Reading.ofSource source).program.tokens
      (body (Scan.ofSource (Reading.ofSource source).program.source).tokens) := by
    rw [← tokens, Kept, List.forall₂_map_left_iff]
    exact List.forall₂_same.mpr fun t _ => ⟨rfl, rfl, fun _ => rfl⟩
  rw [whole, whole']
  exact (kept.trans written).append (.cons ⟨rfl, rfl, fun _ => rfl⟩ .nil)

/-- A text with little layout, a comment and a number that is not spelled in the shortest way. -/
def crampedSource : Text :=
  text "dhoro a=01.50;// half\njodi(a>-1)\x7blekho f(a,\"b\");\x7dnahole lekho!a;"

theorem cramped_source_keeps_its_tokens :
    (∀ t ∈ (Scan.ofSource crampedSource).tokens, t.kind ≠ .for_) ∧
    (Reading.ofSource crampedSource).syntactic = [] ∧
    List.Forall₂ Token.KeptAs (Scan.ofSource crampedSource).tokens
      (Scan.ofSource (Reading.ofSource crampedSource).program.source).tokens := by
  have uncounted : ∀ t ∈ (Scan.ofSource crampedSource).tokens, t.kind ≠ .for_ := by decide +kernel
  have silent : (Reading.ofSource crampedSource).syntactic = [] := by decide +kernel
  exact ⟨uncounted, silent, writing_keeps_the_tokens crampedSource uncounted silent⟩

end Bhasha
