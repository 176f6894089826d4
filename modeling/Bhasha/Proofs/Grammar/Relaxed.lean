import Mathlib.Computability.ContextFreeGrammar
import Bhasha.Proofs.Grammar.Kinds
import Bhasha.Proofs.Parse.StatementComplete

/-!
# The relaxed grammar

The grammar of the language without its two restrictions, as a context-free grammar of token kinds:
any expression of the loosest binary level may stand before an equals sign, and a call may have any
number of arguments.  An `else` may go with any branch before it.

Its words are the sentences of derivations of which nothing fatal is told.  The derivations bind
every `else` to the nearest open branch, which loses no word.
-/

namespace Bhasha.Grammar

open Parse

theorem limitFault_lenient (count : Nat) (u : List Token) : Lenient (limitFault count u) := by
  intro f member
  unfold limitFault at member
  split at member
  · obtain ⟨t, -, rfl⟩ := List.mem_map.mp member
    rfl
  · cases member

mutual

/-- Nothing fatal is told of an expression. -/
theorem Derives.lenient {symbol : Symbol} {u : List Token} {e : Expr} {told : List SyntaxFault} :
    Derives symbol u e told → Lenient told
  | .loosest inner => inner.lenient
  | .assign target _ right => target.lenient.append right.lenient
  | .misassign target _ _ right =>
    target.lenient.append (right.lenient.append (List.forall_mem_singleton.mpr rfl))
  | .chain first others => first.lenient.append others.lenient
  | .climbed => lenient_nil
  | .climb _ operand others => operand.lenient.append others.lenient
  | .unary _ operand => operand.lenient
  | .call first others => first.lenient.append others.lenient
  | .called => lenient_nil
  | .callEmpty _ _ others => others.lenient
  | .callGiven _ inside _ others => inside.lenient.append others.lenient
  | .literal _ => lenient_nil
  | .identifier _ => lenient_nil
  | .grouping _ inner _ => inner.lenient

theorem ArgumentList.lenient {count : Nat} {u : List Token} {given : List Expr}
    {told : List SyntaxFault} : ArgumentList count u given told → Lenient told
  | .last argument => (limitFault_lenient _ _).append argument.lenient
  | .more argument _ tail =>
    (limitFault_lenient _ _).append (argument.lenient.append tail.lenient)

end

theorem Declared.lenient {u : List Token} {s : Stmt} {told : List SyntaxFault}
    (h : Declared u s told) : Lenient told := by
  cases h with
  | bare => exact lenient_nil
  | valued _ _ value _ => exact value.lenient

theorem Initializer.lenient {u : List Token} {start : Option Stmt} {told : List SyntaxFault}
    (h : Initializer u start told) : Lenient told := by
  cases h with
  | empty => exact lenient_nil
  | declared _ tail => exact tail.lenient
  | expression value _ => exact value.lenient

theorem Clause.lenient {u : List Token} {value : Option Expr} {told : List SyntaxFault}
    (h : Clause u value told) : Lenient told := by
  cases h with
  | empty => exact lenient_nil
  | given value => exact value.lenient

theorem Header.lenient {word : Kind} {u : List Token} {e : Expr} {told : List SyntaxFault}
    (h : Header word u e told) : Lenient told := by
  cases h with
  | mk _ _ condition _ => exact condition.lenient

theorem Clauses.lenient {u : List Token} {start : Option Stmt} {condition increment : Option Expr}
    {told : List SyntaxFault} (h : Clauses u start condition increment told) : Lenient told := by
  cases h with
  | mk _ _ initializer test _ step _ =>
    exact initializer.lenient.append (test.lenient.append step.lenient)

end Bhasha.Grammar

namespace Bhasha.Relaxed

open Parse
open Grammar hiding Symbol

/-- The nonterminals of the relaxed grammar. -/
inductive Phrase where
  | program
  | declaration
  | variable
  | statement
  | initializer
  | clause
  | expression
  | binary (level : Level)
  | operators (level : Level)
  | unary
  | calls
  | arguments
  | primary
deriving DecidableEq, Repr

/-- A sequence of kinds and nonterminals. -/
abbrev Form : Type := List (Symbol Kind Phrase)

instance : Coe Kind (Symbol Kind Phrase) := ⟨.terminal⟩

instance : Coe Phrase (Symbol Kind Phrase) := ⟨.nonterminal⟩

/-- The operands of a binary level. -/
def operand : Level → Phrase
  | .or => .binary .and
  | .and => .binary .equality
  | .equality => .binary .comparison
  | .comparison => .binary .term
  | .term => .binary .factor
  | .factor => .unary

/-- What a nonterminal may be replaced by. -/
def alternatives : Phrase → List Form
  | .program => [[], [Phrase.declaration, Phrase.program]]
  | .declaration => [[Phrase.variable], [Phrase.statement]]
  | .variable => [
      [Kind.var, Kind.identifier, Kind.semicolon],
      [Kind.var, Kind.identifier, Kind.equal, Phrase.expression, Kind.semicolon]]
  | .statement => [
      [Kind.for_, Kind.leftParen, Phrase.initializer, Phrase.clause, Kind.semicolon, Phrase.clause,
        Kind.rightParen, Phrase.statement],
      [Kind.if_, Kind.leftParen, Phrase.expression, Kind.rightParen, Phrase.statement],
      [Kind.if_, Kind.leftParen, Phrase.expression, Kind.rightParen, Phrase.statement, Kind.else_,
        Phrase.statement],
      [Kind.print, Phrase.expression, Kind.semicolon],
      [Kind.while_, Kind.leftParen, Phrase.expression, Kind.rightParen, Phrase.statement],
      [Kind.leftBrace, Phrase.program, Kind.rightBrace],
      [Phrase.expression, Kind.semicolon]]
  | .initializer => [[Kind.semicolon], [Phrase.variable], [Phrase.expression, Kind.semicolon]]
  | .clause => [[], [Phrase.expression]]
  | .expression => [[Phrase.binary .or], [Phrase.binary .or, Kind.equal, Phrase.expression]]
  | .binary level => [[operand level, Phrase.operators level]]
  | .operators level =>
    [] :: (operators level).map fun sign : Kind =>
      [↑sign, ↑(operand level), ↑(Phrase.operators level)]
  | .unary => [[Kind.bang, Phrase.unary], [Kind.minus, Phrase.unary],
      [Phrase.primary, Phrase.calls]]
  | .calls => [[], [Kind.leftParen, Kind.rightParen, Phrase.calls],
      [Kind.leftParen, Phrase.arguments, Kind.rightParen, Phrase.calls]]
  | .arguments => [[Phrase.expression], [Phrase.expression, Kind.comma, Phrase.arguments]]
  | .primary => [[Kind.false_], [Kind.true_], [Kind.nil], [Kind.number], [Kind.string],
      [Kind.identifier], [Kind.leftParen, Phrase.expression, Kind.rightParen]]

/-- All nonterminals. -/
def phrases : List Phrase := [
  .program, .declaration, .variable, .statement, .initializer, .clause, .expression,
  .binary .or, .binary .and, .binary .equality, .binary .comparison, .binary .term, .binary .factor,
  .operators .or, .operators .and, .operators .equality, .operators .comparison, .operators .term,
  .operators .factor, .unary, .calls, .arguments, .primary]

/-- The relaxed grammar. -/
def grammar : ContextFreeGrammar Kind where
  NT := Phrase
  initial := .program
  rules := (phrases.flatMap fun p => (alternatives p).map (ContextFreeRule.mk p)).toFinset

theorem mem_phrases (p : Phrase) : p ∈ phrases := by
  cases p with
  | binary level | operators level => cases level <;> decide
  | _ => decide

theorem mem_rules_iff {rule : ContextFreeRule Kind Phrase} :
    rule ∈ grammar.rules ↔ rule.output ∈ alternatives rule.input := by
  obtain ⟨p, form⟩ := rule
  refine List.mem_toFinset.trans ?_
  simp [mem_phrases]

/-- A sequence can be spelled out by kinds. -/
def Spells (form : Form) (word : List Kind) : Prop :=
  grammar.Derives form (word.map Symbol.terminal)

section

variable {p : Phrase} {form : Form} {u v : List Kind}

theorem spells_nil : Spells [] [] := .refl _

theorem Spells.terminal (h : Spells form u) (kind : Kind) : Spells (↑kind :: form) (kind :: u) :=
  ContextFreeGrammar.Derives.append_left h [.terminal kind]

theorem Spells.append (first : Spells [↑p] u) (next : Spells form v) :
    Spells (↑p :: form) (u ++ v) := by
  rw [Spells, List.map_append]
  exact (ContextFreeGrammar.Derives.append_right first form).trans
    (ContextFreeGrammar.Derives.append_left next _)

theorem Spells.rule (member : form ∈ alternatives p) (h : Spells form u) :
    Spells [↑p] u := by
  have step : grammar.Produces [.nonterminal p] form :=
    ⟨⟨p, form⟩, mem_rules_iff.mpr member, .input_output⟩
  exact step.trans_derives h

end

/-- The nonterminal of the relaxed grammar for a nonterminal of derivations. -/
@[simp] def phraseOf : Grammar.Symbol → Phrase
  | .expression => .expression
  | .binary level => .binary level
  | .climb level _ => .operators level
  | .unary => .unary
  | .calls _ => .calls
  | .primary => .primary

theorem phraseOf_operandOf (level : Level) : phraseOf (operandOf level) = operand level := by
  cases level <;> rfl

theorem literal_kind {t : Token} {value : Literal} (constant : literalOf? t = some value) :
    t.kind ∈ [Kind.false_, .true_, .nil, .number, .string] := by
  unfold literalOf? at constant
  split at constant
  all_goals simp_all

mutual

/-- The tokens of an expression spell its nonterminal, whatever is told of it. -/
theorem derives_spells {symbol : Grammar.Symbol} {u : List Token} {e : Expr}
    {told : List SyntaxFault} : Derives symbol u e told → Spells [↑(phraseOf symbol)] (kinds u)
  | .loosest inner => .rule (by simp [alternatives]) (derives_spells inner)
  | .assign target sign right | .misassign target _ sign right => by
    have whole : Spells [↑Phrase.expression] _ := .rule (by simp [alternatives])
      ((derives_spells target).append ((derives_spells right).terminal .equal))
    simpa [sign] using whole
  | @Derives.chain level _ _ _ _ _ _ first others => by
    have left := derives_spells first
    rw [phraseOf_operandOf] at left
    have whole : Spells [↑(Phrase.binary level)] _ := .rule (by simp [alternatives])
      (left.append (derives_spells others))
    simpa using whole
  | .climbed => .rule (by simp [alternatives]) spells_nil
  | @Derives.climb level operator _ _ _ _ _ _ _ owned right others => by
    have operand := derives_spells right
    rw [phraseOf_operandOf] at operand
    have whole : Spells [↑(Phrase.operators level)] _ :=
      .rule (by simp [alternatives, owned])
        ((operand.append (derives_spells others)).terminal operator.kind)
    simpa using whole
  | @Derives.unary operator _ _ _ sign right => by
    have either : operator.kind = .bang ∨ operator.kind = .minus := by simpa [signs] using sign
    exact .rule (by simpa [alternatives] using either)
      ((derives_spells right).terminal operator.kind)
  | .call first others => by
    have whole : Spells [↑Phrase.unary] _ := .rule (by simp [alternatives])
      ((derives_spells first).append (derives_spells others))
    simpa using whole
  | .called => .rule (by simp [alternatives]) spells_nil
  | .callEmpty left right others => by
    have whole : Spells [↑Phrase.calls] _ := .rule (by simp [alternatives])
      (((derives_spells others).terminal .rightParen).terminal .leftParen)
    simpa [left, right] using whole
  | .callGiven left inside right others => by
    have whole : Spells [↑Phrase.calls] _ := .rule (by simp [alternatives])
      (((arguments_spell inside).append
        ((derives_spells others).terminal .rightParen)).terminal .leftParen)
    simpa [left, right] using whole
  | @Derives.literal t _ constant => by
    have kind := literal_kind constant
    exact .rule (by simp [alternatives] at kind ⊢; tauto) (spells_nil.terminal t.kind)
  | .identifier name => by
    have whole : Spells [↑Phrase.primary] _ := .rule (by simp [alternatives])
      (spells_nil.terminal .identifier)
    simpa [name] using whole
  | .grouping left inner right => by
    have whole : Spells [↑Phrase.primary] _ := .rule (by simp [alternatives])
      (((derives_spells inner).append (spells_nil.terminal .rightParen)).terminal .leftParen)
    simpa [left, right] using whole

theorem arguments_spell {count : Nat} {u : List Token} {given : List Expr}
    {told : List SyntaxFault} :
    ArgumentList count u given told → Spells [↑Phrase.arguments] (kinds u)
  | .last argument => .rule (by simp [alternatives]) (derives_spells argument)
  | .more argument sign tail => by
    have whole : Spells [↑Phrase.arguments] _ := .rule (by simp [alternatives])
      ((derives_spells argument).append ((arguments_spell tail).terminal .comma))
    simpa [sign] using whole

end

theorem declared_spells {u : List Token} {s : Stmt} {told : List SyntaxFault} {first : Token}
    (word : first.kind = .var) (h : Declared u s told) :
    Spells [↑Phrase.variable] (kinds (first :: u)) := by
  cases h with
  | bare named stop =>
    have whole : Spells [↑Phrase.variable] _ := .rule (by simp [alternatives])
      (((spells_nil.terminal .semicolon).terminal .identifier).terminal .var)
    simpa [word, named, stop] using whole
  | valued named sign value stop =>
    have tail := (derives_spells value).append (spells_nil.terminal .semicolon)
    have whole : Spells [↑Phrase.variable] _ := .rule (by simp [alternatives])
      (((tail.terminal .equal).terminal .identifier).terminal .var)
    simpa [word, named, sign, stop] using whole

theorem initializer_spells {u : List Token} {start : Option Stmt} {told : List SyntaxFault}
    (h : Initializer u start told) : Spells [↑Phrase.initializer] (kinds u) := by
  cases h with
  | empty stop =>
    have whole : Spells [↑Phrase.initializer] _ := .rule (by simp [alternatives])
      (spells_nil.terminal .semicolon)
    simpa [stop] using whole
  | declared first tail => exact .rule (by simp [alternatives]) (declared_spells first tail)
  | expression value stop =>
    have whole : Spells [↑Phrase.initializer] _ := .rule (by simp [alternatives])
      ((derives_spells value).append (spells_nil.terminal .semicolon))
    simpa [stop] using whole

theorem clause_spells {u : List Token} {value : Option Expr} {told : List SyntaxFault}
    (h : Clause u value told) : Spells [↑Phrase.clause] (kinds u) := by
  cases h with
  | empty => exact .rule (by simp [alternatives]) spells_nil
  | given value => exact .rule (by simp [alternatives]) (derives_spells value)

/-- A word, a condition between parentheses, and what follows. -/
theorem header_spells {word : Kind} {u : List Token} {v : List Kind} {e : Expr}
    {told : List SyntaxFault} {form : Form} (h : Header word u e told) (next : Spells form v) :
    Spells (↑word :: ↑Kind.leftParen :: ↑Phrase.expression :: ↑Kind.rightParen :: form)
      (kinds u ++ v) := by
  cases h with
  | mk start left condition right =>
    have whole := (((derives_spells condition).append (next.terminal .rightParen)).terminal
      .leftParen).terminal word
    simpa [start, left, right] using whole

mutual

/-- The tokens of a statement spell its nonterminal if nothing fatal is told of it. -/
theorem statement_spells {dangles : Bool} {u : List Token} {s : Stmt} {told : List SyntaxFault} :
    Statement dangles u s told → Lenient told → Spells [↑Phrase.statement] (kinds u)
  | .expression value stop, _ => by
    have whole : Spells [↑Phrase.statement] _ := .rule (by simp [alternatives])
      ((derives_spells value).append (spells_nil.terminal .semicolon))
    simpa [stop] using whole
  | .print word value stop, _ => by
    have whole : Spells [↑Phrase.statement] _ := .rule (by simp [alternatives])
      (((derives_spells value).append (spells_nil.terminal .semicolon)).terminal .print)
    simpa [word, stop] using whole
  | .loop header body, lenient => by
    have inner := statement_spells body (lenient_append.mp lenient).2
    have whole : Spells [↑Phrase.statement] _ := .rule (by simp [alternatives])
      (header_spells header inner)
    simpa using whole
  | .counting clauses body, lenient => by
    have inner := statement_spells body (lenient_append.mp lenient).2
    cases clauses with
    | mk word left initializer test stop step right =>
      have increment := (clause_spells step).append (inner.terminal .rightParen)
      have condition := (clause_spells test).append (increment.terminal .semicolon)
      have start := (initializer_spells initializer).append condition
      have whole : Spells [↑Phrase.statement] _ := .rule (by simp [alternatives])
        ((start.terminal .leftParen).terminal .for_)
      simpa [word, left, stop, right] using whole
  | .branch header consequent, lenient => by
    have inner := statement_spells consequent (lenient_append.mp lenient).2
    have whole : Spells [↑Phrase.statement] _ := .rule (by simp [alternatives])
      (header_spells header inner)
    simpa using whole
  | .branchElse header consequent other alternative, lenient => by
    have arms := lenient_append.mp (lenient_append.mp lenient).2
    have inner := statement_spells consequent arms.1
    have last := statement_spells alternative arms.2
    have whole : Spells [↑Phrase.statement] _ := .rule (by simp [alternatives])
      (header_spells header (inner.append (last.terminal .else_)))
    simpa [other] using whole
  | .block left inside right, lenient => by
    have inner := declarations_spell inside lenient
    have whole : Spells [↑Phrase.statement] _ := .rule (by simp [alternatives])
      ((inner.append (spells_nil.terminal .rightBrace)).terminal .leftBrace)
    simpa [left, right] using whole

theorem declaration_spells {dangles : Bool} {u : List Token} {s : Stmt}
    {told : List SyntaxFault} :
    Declaration dangles u s told → Lenient told → Spells [↑Phrase.declaration] (kinds u)
  | .declare word tail, _ => .rule (by simp [alternatives]) (declared_spells word tail)
  | .statement inner, lenient => .rule (by simp [alternatives]) (statement_spells inner lenient)

theorem declarations_spell {u : List Token} {inner : List Stmt} {told : List SyntaxFault} :
    Declarations u inner told → Lenient told → Spells [↑Phrase.program] (kinds u)
  | .nil, _ => .rule (by simp [alternatives]) spells_nil
  | .cons first rest, lenient => by
    have both := lenient_append.mp lenient
    have whole : Spells [↑Phrase.program] _ := .rule (by simp [alternatives])
      ((declaration_spells first both.1).append (declarations_spell rest both.2))
    simpa using whole
  | .gap fatal _, lenient => by
    obtain ⟨f, member, fatal⟩ := fatal
    have mild := (lenient_append.mp lenient).1 f member
    exact absurd (mild.symm.trans fatal) Bool.false_ne_true

end

/-- The tokens have a derivation of which nothing fatal is told. -/
def Phrase.Reads (w : List Token) : Phrase → Prop
  | .program => ∃ inner told, Declarations w inner told ∧ Lenient told
  | .declaration => ∃ dangles s told, Declaration dangles w s told ∧ Lenient told
  | .variable => ∃ first u s told, w = first :: u ∧ first.kind = .var ∧ Declared u s told
  | .statement => ∃ dangles s told, Statement dangles w s told ∧ Lenient told
  | .initializer => ∃ start told, Initializer w start told
  | .clause => ∃ value told, Clause w value told
  | .expression => ∃ e told, Derives .expression w e told
  | .binary level => ∃ e told, Derives (.binary level) w e told
  | .operators level => ∀ left, ∃ e told, Derives (.climb level left) w e told
  | .unary => ∃ e told, Derives .unary w e told
  | .calls => ∀ callee, ∃ e told, Derives (.calls callee) w e told
  | .arguments => ∀ count, ∃ given told, ArgumentList count w given told
  | .primary => ∃ e told, Derives .primary w e told

/-- The tokens are parts that have derivations, and tokens of the right kinds between them. -/
def Reads : Form → List Token → Prop
  | [], w => w = []
  | .terminal kind :: form, w => ∃ t v, w = t :: v ∧ t.kind = kind ∧ Reads form v
  | .nonterminal p :: form, w => ∃ u v, w = u ++ v ∧ p.Reads u ∧ Reads form v

section

variable {form next : Form} {w : List Token}

theorem reads_append :
    Reads (form ++ next) w ↔ ∃ u v, w = u ++ v ∧ Reads form u ∧ Reads next v := by
  induction form generalizing w with
  | nil => simp [Reads]
  | cons symbol form ih =>
    cases symbol with
    | terminal kind =>
      constructor
      · rintro ⟨t, v, rfl, same, after⟩
        obtain ⟨x, y, rfl, inside, last⟩ := ih.mp after
        exact ⟨t :: x, y, rfl, ⟨t, x, rfl, same, inside⟩, last⟩
      · rintro ⟨_, y, rfl, ⟨t, x, rfl, same, inside⟩, last⟩
        exact ⟨t, x ++ y, rfl, same, ih.mpr ⟨x, y, rfl, inside, last⟩⟩
    | nonterminal p =>
      constructor
      · rintro ⟨u, v, rfl, first, after⟩
        obtain ⟨x, y, rfl, inside, last⟩ := ih.mp after
        exact ⟨u ++ x, y, (List.append_assoc _ _ _).symm, ⟨u, x, rfl, first, inside⟩, last⟩
      · rintro ⟨_, y, rfl, ⟨u, x, rfl, first, inside⟩, last⟩
        exact ⟨u, x ++ y, List.append_assoc _ _ _, first, ih.mpr ⟨x, y, rfl, inside, last⟩⟩

theorem reads_kinds (w : List Token) : Reads ((kinds w).map Symbol.terminal) w := by
  induction w with
  | nil => rfl
  | cons t w ih => exact ⟨t, w, rfl, rfl, ih⟩

theorem reads_singleton {p : Phrase} : Reads [↑p] w ↔ p.Reads w := by
  simp [Reads]

private theorem program_reads_of (member : form ∈ alternatives .program) (reads : Reads form w) :
    Phrase.program.Reads w := by
  simp only [alternatives, List.mem_cons, List.not_mem_nil, or_false] at member
  rcases member with rfl | rfl
  · obtain rfl := reads
    exact ⟨[], [], .nil, lenient_nil⟩
  · obtain ⟨u, _, rfl, ⟨dangles, s, told, first, mild⟩, v, _, rfl, ⟨inner, more, rest, mild'⟩,
      rfl⟩ := reads
    rw [List.append_nil]
    exact ⟨_, _, .cons first rest, mild.append mild'⟩

private theorem declaration_reads_of (member : form ∈ alternatives .declaration)
    (reads : Reads form w) : Phrase.declaration.Reads w := by
  simp only [alternatives, List.mem_cons, List.not_mem_nil, or_false] at member
  rcases member with rfl | rfl
  · obtain ⟨first, u, s, told, rfl, word, tail⟩ := reads_singleton.mp reads
    exact ⟨_, _, _, .declare word tail, tail.lenient⟩
  · obtain ⟨dangles, s, told, statement, mild⟩ := reads_singleton.mp reads
    exact ⟨_, _, _, .statement statement, mild⟩

private theorem variable_reads_of (member : form ∈ alternatives .variable) (reads : Reads form w) :
    Phrase.variable.Reads w := by
  simp only [alternatives, List.mem_cons, List.not_mem_nil, or_false] at member
  rcases member with rfl | rfl
  · obtain ⟨first, _, rfl, word, name, _, rfl, named, semicolon, _, rfl, stop, rfl⟩ := reads
    exact ⟨first, _, _, _, rfl, word, .bare named stop⟩
  · obtain ⟨first, _, rfl, word, name, _, rfl, named, equal, _, rfl, sign, u, _, rfl,
      ⟨e, told, value⟩, semicolon, _, rfl, stop, rfl⟩ := reads
    exact ⟨first, _, _, _, rfl, word, .valued named sign value stop⟩

/-- A word, a condition between parentheses, and what follows. -/
private theorem header_of_reads {word : Kind} (reads : Reads
      (↑word :: ↑Kind.leftParen :: ↑Phrase.expression :: ↑Kind.rightParen :: form) w) :
    ∃ u v e told, w = u ++ v ∧ Header word u e told ∧ Reads form v := by
  obtain ⟨first, _, rfl, start, opening, _, rfl, left, u, _, rfl, ⟨e, told, condition⟩, closing, v,
    rfl, right, after⟩ := reads
  exact ⟨first :: opening :: (u ++ [closing]), v, e, told, by simp, .mk start left condition right,
    after⟩

private theorem statement_reads_of (member : form ∈ alternatives .statement)
    (reads : Reads form w) : Phrase.statement.Reads w := by
  simp only [alternatives, List.mem_cons, List.not_mem_nil, or_false] at member
  rcases member with rfl | rfl | rfl | rfl | rfl | rfl | rfl
  · obtain ⟨first, _, rfl, word, opening, _, rfl, left, u, _, rfl, ⟨start, told, initializer⟩,
      v, _, rfl, ⟨condition, more, test⟩, semicolon, _, rfl, stop, x, _, rfl,
      ⟨increment, most, step⟩, closing, _, rfl, right, y, _, rfl,
      ⟨dangles, s, last, body, mild⟩, rfl⟩ := reads
    have clauses := Clauses.mk word left initializer test stop step right
    have whole := Statement.counting clauses body
    exact ⟨dangles, _, _, by simpa using whole, clauses.lenient.append mild⟩
  · obtain ⟨u, _, e, told, rfl, header, v, _, rfl, ⟨dangles, s, more, consequent, mild⟩, rfl⟩ :=
      header_of_reads reads
    rw [List.append_nil]
    exact ⟨true, _, _, .branch header consequent, header.lenient.append mild⟩
  · obtain ⟨u, _, e, told, rfl, header, v, _, rfl, ⟨dangles, s, more, consequent, mild⟩, other, _,
      rfl, sign, x, _, rfl, ⟨open_, a, most, alternative, mild'⟩, rfl⟩ := header_of_reads reads
    rw [List.append_nil]
    cases dangles with
    | false =>
      exact ⟨open_, _, _, .branchElse header consequent sign alternative,
        header.lenient.append (mild.append mild')⟩
    | true =>
      -- the consequent ends in an open branch, and the alternative goes there
      obtain ⟨dangles, result, attached⟩ := Statement.attach sign alternative consequent rfl
      exact ⟨true, _, _, .branch header attached, header.lenient.append (mild.append mild')⟩
  · obtain ⟨first, _, rfl, word, u, _, rfl, ⟨e, told, value⟩, semicolon, _, rfl, stop, rfl⟩ := reads
    exact ⟨false, _, _, .print word value stop, value.lenient⟩
  · obtain ⟨u, _, e, told, rfl, header, v, _, rfl, ⟨dangles, s, more, body, mild⟩, rfl⟩ :=
      header_of_reads reads
    rw [List.append_nil]
    exact ⟨dangles, _, _, .loop header body, header.lenient.append mild⟩
  · obtain ⟨opening, _, rfl, left, u, _, rfl, ⟨inner, told, inside, mild⟩, closing, _, rfl, right,
      rfl⟩ := reads
    exact ⟨false, _, _, .block left inside right, mild⟩
  · obtain ⟨u, _, rfl, ⟨e, told, value⟩, semicolon, _, rfl, stop, rfl⟩ := reads
    exact ⟨false, _, _, .expression value stop, value.lenient⟩

private theorem initializer_reads_of (member : form ∈ alternatives .initializer)
    (reads : Reads form w) : Phrase.initializer.Reads w := by
  simp only [alternatives, List.mem_cons, List.not_mem_nil, or_false] at member
  rcases member with rfl | rfl | rfl
  · obtain ⟨semicolon, _, rfl, stop, rfl⟩ := reads
    exact ⟨_, _, .empty stop⟩
  · obtain ⟨first, u, s, told, rfl, word, tail⟩ := reads_singleton.mp reads
    exact ⟨_, _, .declared word tail⟩
  · obtain ⟨u, _, rfl, ⟨e, told, value⟩, semicolon, _, rfl, stop, rfl⟩ := reads
    exact ⟨_, _, .expression value stop⟩

private theorem clause_reads_of (member : form ∈ alternatives .clause) (reads : Reads form w) :
    Phrase.clause.Reads w := by
  simp only [alternatives, List.mem_cons, List.not_mem_nil, or_false] at member
  rcases member with rfl | rfl
  · obtain rfl := reads
    exact ⟨_, _, .empty⟩
  · obtain ⟨e, told, value⟩ := reads_singleton.mp reads
    exact ⟨_, _, .given value⟩

private theorem expression_reads_of (member : form ∈ alternatives .expression)
    (reads : Reads form w) : Phrase.expression.Reads w := by
  simp only [alternatives, List.mem_cons, List.not_mem_nil, or_false] at member
  rcases member with rfl | rfl
  · obtain ⟨e, told, inner⟩ := reads_singleton.mp reads
    exact ⟨_, _, .loosest inner⟩
  · obtain ⟨u, _, rfl, ⟨left, told, target⟩, equal, _, rfl, sign, v, _, rfl,
      ⟨value, more, right⟩, rfl⟩ := reads
    rw [List.append_nil]
    by_cases named : ∃ name, left = .identifier name
    · obtain ⟨name, rfl⟩ := named
      exact ⟨_, _, .assign target sign right⟩
    · exact ⟨_, _, .misassign target (fun name same => named ⟨name, same⟩) sign right⟩

theorem operand_reads_iff {level : Level} :
    (operand level).Reads w ↔ ∃ e told, Derives (operandOf level) w e told := by
  cases level <;> exact Iff.rfl

private theorem binary_reads_of {level : Level} (member : form ∈ alternatives (.binary level))
    (reads : Reads form w) : (Phrase.binary level).Reads w := by
  simp only [alternatives, List.mem_cons, List.not_mem_nil, or_false] at member
  subst member
  obtain ⟨u, _, rfl, first, v, _, rfl, others, rfl⟩ := reads
  obtain ⟨left, told, first⟩ := operand_reads_iff.mp first
  obtain ⟨e, more, climbed⟩ := others left
  rw [List.append_nil]
  exact ⟨_, _, .chain first climbed⟩

private theorem operators_read_of {level : Level} (member : form ∈ alternatives (.operators level))
    (reads : Reads form w) : (Phrase.operators level).Reads w := by
  intro left
  simp only [alternatives, List.mem_cons, List.mem_map] at member
  rcases member with rfl | ⟨sign, owned, rfl⟩
  · obtain rfl := reads
    exact ⟨_, _, .climbed⟩
  · obtain ⟨operator, _, rfl, rfl, u, _, rfl, next, v, _, rfl, others, rfl⟩ := reads
    obtain ⟨right, told, operand⟩ := operand_reads_iff.mp next
    obtain ⟨e, more, climbed⟩ := others (node level left operator right)
    rw [List.append_nil]
    exact ⟨_, _, .climb owned operand climbed⟩

private theorem unary_reads_of (member : form ∈ alternatives .unary) (reads : Reads form w) :
    Phrase.unary.Reads w := by
  simp only [alternatives, List.mem_cons, List.not_mem_nil, or_false] at member
  have signed : ∀ {sign : Kind}, sign ∈ signs →
      Reads [↑sign, ↑Phrase.unary] w → Phrase.unary.Reads w := by
    rintro _ unary ⟨operator, _, rfl, rfl, u, _, rfl, ⟨right, told, operand⟩, rfl⟩
    rw [List.append_nil]
    exact ⟨_, _, .unary unary operand⟩
  rcases member with rfl | rfl | rfl
  · exact signed (by decide) reads
  · exact signed (by decide) reads
  · obtain ⟨u, _, rfl, ⟨callee, told, first⟩, v, _, rfl, others, rfl⟩ := reads
    obtain ⟨e, more, calls⟩ := others callee
    rw [List.append_nil]
    exact ⟨_, _, .call first calls⟩

private theorem calls_read_of (member : form ∈ alternatives .calls) (reads : Reads form w) :
    Phrase.calls.Reads w := by
  intro callee
  simp only [alternatives, List.mem_cons, List.not_mem_nil, or_false] at member
  rcases member with rfl | rfl | rfl
  · obtain rfl := reads
    exact ⟨_, _, .called⟩
  · obtain ⟨opening, _, rfl, left, paren, _, rfl, right, v, _, rfl, others, rfl⟩ := reads
    obtain ⟨e, more, calls⟩ := others (.call callee paren [])
    rw [List.append_nil]
    exact ⟨_, _, .callEmpty left right calls⟩
  · obtain ⟨opening, _, rfl, left, u, _, rfl, arguments, paren, _, rfl, right, v, _, rfl, others,
      rfl⟩ := reads
    obtain ⟨given, told, inside⟩ := arguments 0
    obtain ⟨e, more, calls⟩ := others (.call callee paren given)
    rw [List.append_nil]
    exact ⟨_, _, .callGiven left inside right calls⟩

private theorem arguments_read_of (member : form ∈ alternatives .arguments)
    (reads : Reads form w) : Phrase.arguments.Reads w := by
  intro count
  simp only [alternatives, List.mem_cons, List.not_mem_nil, or_false] at member
  rcases member with rfl | rfl
  · obtain ⟨e, told, argument⟩ := reads_singleton.mp reads
    exact ⟨_, _, .last argument⟩
  · obtain ⟨u, _, rfl, ⟨e, told, argument⟩, comma, _, rfl, sign, v, _, rfl, others, rfl⟩ := reads
    obtain ⟨given, more, tail⟩ := others (count + 1)
    rw [List.append_nil]
    exact ⟨_, _, .more argument sign tail⟩

private theorem primary_reads_of (member : form ∈ alternatives .primary) (reads : Reads form w) :
    Phrase.primary.Reads w := by
  simp only [alternatives, List.mem_cons, List.not_mem_nil, or_false] at member
  have literal : ∀ {kind : Kind}, kind ∈ [.false_, .true_, .nil, .number, .string] →
      Reads [↑kind] w → Phrase.primary.Reads w := by
    rintro _ constant ⟨t, _, rfl, rfl, rfl⟩
    obtain ⟨value, literal⟩ := literalOf?_of_kind constant
    exact ⟨_, _, .literal literal⟩
  rcases member with rfl | rfl | rfl | rfl | rfl | rfl | rfl
  · exact literal (by decide) reads
  · exact literal (by decide) reads
  · exact literal (by decide) reads
  · exact literal (by decide) reads
  · exact literal (by decide) reads
  · obtain ⟨t, _, rfl, name, rfl⟩ := reads
    exact ⟨_, _, .identifier name⟩
  · obtain ⟨opening, _, rfl, left, u, _, rfl, ⟨e, told, inner⟩, closing, _, rfl, right,
      rfl⟩ := reads
    exact ⟨_, _, .grouping left inner right⟩

/-- What an alternative reads, its nonterminal reads. -/
theorem phrase_reads_of {p : Phrase} (member : form ∈ alternatives p) (reads : Reads form w) :
    p.Reads w := by
  cases p with
  | program => exact program_reads_of member reads
  | declaration => exact declaration_reads_of member reads
  | «variable» => exact variable_reads_of member reads
  | statement => exact statement_reads_of member reads
  | initializer => exact initializer_reads_of member reads
  | clause => exact clause_reads_of member reads
  | expression => exact expression_reads_of member reads
  | binary level => exact binary_reads_of member reads
  | operators level => exact operators_read_of member reads
  | unary => exact unary_reads_of member reads
  | calls => exact calls_read_of member reads
  | arguments => exact arguments_read_of member reads
  | primary => exact primary_reads_of member reads

/-- A step of a derivation can be undone in what is read. -/
theorem reads_of_produces (step : grammar.Produces form next) (reads : Reads next w) :
    Reads form w := by
  obtain ⟨rule, member, rewrites⟩ := step
  obtain ⟨before, after, rfl, rfl⟩ := rewrites.exists_parts
  obtain ⟨_, v, rfl, front, last⟩ := reads_append.mp reads
  obtain ⟨u, x, rfl, first, inside⟩ := reads_append.mp front
  have whole := reads_singleton.mpr (phrase_reads_of (mem_rules_iff.mp member) inside)
  exact reads_append.mpr ⟨_, v, rfl, reads_append.mpr ⟨u, x, rfl, first, whole⟩, last⟩

theorem Spells.reads (h : Spells form (kinds w)) : Reads form w := by
  unfold Spells at h
  -- from the word backwards: the word reads as itself, and every step is undone
  induction h using Relation.ReflTransGen.head_induction_on with
  | refl => exact reads_kinds w
  | head step _ ih => exact reads_of_produces step ih

end

/-- The words of the relaxed grammar are the sentences of derivations of which nothing fatal is
told. -/
theorem mem_language_iff {w : List Token} :
    kinds w ∈ grammar.language ↔ ∃ inner told, Declarations w inner told ∧ Lenient told := by
  constructor
  · intro word
    exact reads_singleton.mp (Spells.reads word)
  · rintro ⟨inner, told, derived, mild⟩
    exact declarations_spell derived mild

end Bhasha.Relaxed
