import Bhasha.Proofs.Grammar.Statement

/-!
# The language of the grammar

The strict grammar as a set of sequences of token kinds, rule by rule and with nothing said about
trees.  This grammar is ambiguous: an `else` after two nested branches may go with either of them.
The sequences it generates are nevertheless those of the derivations of which no fault is told,
where every `else` goes with the nearest open branch: an alternative that a sequence gives to an
outer branch can always be given to the inner branch at the end of the consequent instead.
-/

namespace Bhasha.Grammar

open Parse

/-- The nonterminals of the grammar. -/
inductive Nonterminal where
  | program
  | declaration
  | variable
  | statement
  /-- The first clause of a counting loop with its semicolon. -/
  | initializer
  /-- The other clauses, which may be left out. -/
  | clause
  | expression
  | binary (level : Level)
  /-- The operators of a level with their right operands. -/
  | operators (level : Level)
  | unary
  /-- The argument lists after a primary expression. -/
  | calls
  /-- At least one and at most `limit` arguments. -/
  | arguments (limit : Nat)
  | primary

/-- The operands of a binary level. -/
def Nonterminal.operand : Level → Nonterminal
  | .or => .binary .and
  | .and => .binary .equality
  | .equality => .binary .comparison
  | .comparison => .binary .term
  | .term => .binary .factor
  | .factor => .unary

/-- The sequences of kinds that a nonterminal generates. -/
inductive Generates : Nonterminal → List Kind → Prop
  | noDeclaration : Generates .program []
  | declarations {u v : List Kind} (first : Generates .declaration u)
      (rest : Generates .program v) : Generates .program (u ++ v)
  | ofVariable {u : List Kind} (inner : Generates .variable u) : Generates .declaration u
  | ofStatement {u : List Kind} (inner : Generates .statement u) : Generates .declaration u
  | bare : Generates .variable [.var, .identifier, .semicolon]
  | valued {u : List Kind} (value : Generates .expression u) :
      Generates .variable (.var :: .identifier :: .equal :: (u ++ [.semicolon]))
  | counting {u v w x : List Kind} (start : Generates .initializer u)
      (condition : Generates .clause v) (increment : Generates .clause w)
      (body : Generates .statement x) :
      Generates .statement
        (.for_ :: .leftParen :: (u ++ (v ++ .semicolon :: (w ++ .rightParen :: x))))
  | branch {u v : List Kind} (condition : Generates .expression u)
      (consequent : Generates .statement v) :
      Generates .statement (.if_ :: .leftParen :: (u ++ .rightParen :: v))
  | branchElse {u v w : List Kind} (condition : Generates .expression u)
      (consequent : Generates .statement v) (alternative : Generates .statement w) :
      Generates .statement (.if_ :: .leftParen :: (u ++ .rightParen :: (v ++ .else_ :: w)))
  | print {u : List Kind} (value : Generates .expression u) :
      Generates .statement (.print :: (u ++ [.semicolon]))
  | loop {u v : List Kind} (condition : Generates .expression u) (body : Generates .statement v) :
      Generates .statement (.while_ :: .leftParen :: (u ++ .rightParen :: v))
  | block {u : List Kind} (inner : Generates .program u) :
      Generates .statement (.leftBrace :: (u ++ [.rightBrace]))
  | simple {u : List Kind} (value : Generates .expression u) :
      Generates .statement (u ++ [.semicolon])
  | noInitializer : Generates .initializer [.semicolon]
  | variableInitializer {u : List Kind} (inner : Generates .variable u) : Generates .initializer u
  | simpleInitializer {u : List Kind} (value : Generates .expression u) :
      Generates .initializer (u ++ [.semicolon])
  | noClause : Generates .clause []
  | ofClause {u : List Kind} (value : Generates .expression u) : Generates .clause u
  | assign {u : List Kind} (value : Generates .expression u) :
      Generates .expression (.identifier :: .equal :: u)
  | loosest {u : List Kind} (inner : Generates (.binary .or) u) : Generates .expression u
  | operands {level : Level} {u v : List Kind} (first : Generates (.operand level) u)
      (others : Generates (.operators level) v) : Generates (.binary level) (u ++ v)
  | noOperator {level : Level} : Generates (.operators level) []
  | operator {level : Level} {kind : Kind} {u v : List Kind} (owned : kind ∈ operators level)
      (right : Generates (.operand level) u) (others : Generates (.operators level) v) :
      Generates (.operators level) (kind :: (u ++ v))
  | sign {kind : Kind} {u : List Kind} (unary : kind ∈ signs)
      (operand : Generates .unary u) : Generates .unary (kind :: u)
  | called {u v : List Kind} (callee : Generates .primary u) (others : Generates .calls v) :
      Generates .unary (u ++ v)
  | noCall : Generates .calls []
  | callEmpty {u : List Kind} (others : Generates .calls u) :
      Generates .calls (.leftParen :: .rightParen :: u)
  | callGiven {u v : List Kind} (given : Generates (.arguments argumentLimit) u)
      (others : Generates .calls v) : Generates .calls (.leftParen :: (u ++ .rightParen :: v))
  | lastArgument {limit : Nat} {u : List Kind} (value : Generates .expression u) :
      Generates (.arguments (limit + 1)) u
  | argument {limit : Nat} {u v : List Kind} (value : Generates .expression u)
      (others : Generates (.arguments limit) v) :
      Generates (.arguments (limit + 1)) (u ++ .comma :: v)
  | literal {kind : Kind} (constant : kind ∈ [.false_, .true_, .nil, .number, .string]) :
      Generates .primary [kind]
  | identifier : Generates .primary [.identifier]
  | grouping {u : List Kind} (inner : Generates .expression u) :
      Generates .primary (.leftParen :: (u ++ [.rightParen]))

/-- The kinds of the tokens of a list. -/
abbrev kinds (ts : List Token) : List Kind := ts.map (·.kind)

/-- The nonterminal of the language for a nonterminal of derivations. -/
@[simp] def Symbol.nonterminal : Symbol → Nonterminal
  | .expression => .expression
  | .binary level => .binary level
  | .climb level _ => .operators level
  | .unary => .unary
  | .calls _ => .calls
  | .primary => .primary

theorem operandOf_nonterminal (level : Level) :
    (operandOf level).nonterminal = .operand level := by
  cases level <;> rfl

theorem node_ne_identifier (level : Level) (left right : Expr) (operator name : Token) :
    node level left operator right ≠ .identifier name := by
  cases level <;> simp [node]

/-- What a nonterminal can derive when its tree is the bare identifier `name`. -/
def Symbol.SpellsName (name : Token) (u : List Token) (told : List SyntaxFault) : Symbol → Prop
  | .climb _ left | .calls left => u = [] ∧ told = [] ∧ left = .identifier name
  | _ => u = [name] ∧ told = [] ∧ name.kind = .identifier

theorem operandOf_spellsName {level : Level} {name : Token} {u : List Token}
    {told : List SyntaxFault} :
    (operandOf level).SpellsName name u told ↔ (Symbol.binary level).SpellsName name u told := by
  cases level <;> exact Iff.rfl

/-- Only a single token stands for a bare identifier: operators, arguments and parentheses all leave
their mark on the tree. -/
theorem Derives.spellsName {symbol : Symbol} {u : List Token} {e : Expr} {told : List SyntaxFault}
    {name : Token} : Derives symbol u e told → e = .identifier name →
      symbol.SpellsName name u told
  | .loosest inner, same => inner.spellsName same
  | .assign _ _ _, same => by cases same
  | .misassign _ invalid _ _, same => absurd same (invalid name)
  | .chain first others, same => by
    obtain ⟨rfl, rfl, isName⟩ := others.spellsName same
    rw [List.append_nil, List.append_nil]
    exact operandOf_spellsName.mp (first.spellsName isName)
  | .climbed, same => ⟨rfl, rfl, same⟩
  | .climb _ _ others, same =>
    absurd (others.spellsName same).2.2 (node_ne_identifier _ _ _ _ _)
  | .unary _ _, same => by cases same
  | .call first others, same => by
    obtain ⟨rfl, rfl, isName⟩ := others.spellsName same
    rw [List.append_nil, List.append_nil]
    exact first.spellsName isName
  | .called, same => ⟨rfl, rfl, same⟩
  | .callEmpty _ _ others, same => by cases (others.spellsName same).2.2
  | .callGiven _ _ _ others, same => by cases (others.spellsName same).2.2
  | .literal _, same => by cases same
  | .identifier isName, same => by
    cases same
    exact ⟨rfl, rfl, isName⟩
  | .grouping _ _ _, same => by cases same

theorem generates_literal {t : Token} {value : Literal} (constant : literalOf? t = some value) :
    Generates .primary [t.kind] := by
  refine .literal ?_
  unfold literalOf? at constant
  split at constant
  all_goals simp_all

theorem lt_of_limitFault_nil {count : Nat} {u : List Token} {e : Expr} {told : List SyntaxFault}
    (argument : Derives .expression u e told) (none : limitFault count u = []) :
    count < argumentLimit := by
  obtain ⟨t, v, rfl, -⟩ := argument.head rfl
  refine Nat.lt_of_not_le fun exceeds => ?_
  simp [limitFault, exceeds] at none

mutual

/-- A sentence of which nothing is told is generated by the strict grammar. -/
theorem Derives.generates {symbol : Symbol} {u : List Token} {e : Expr}
    {told : List SyntaxFault} :
    Derives symbol u e told → told = [] → Generates symbol.nonterminal (kinds u)
  | .loosest inner, silent => .loosest (inner.generates silent)
  | .assign target sign right, silent => by
    have both := List.append_eq_nil_iff.mp silent
    obtain ⟨rfl, -, isName⟩ := target.spellsName rfl
    simpa [isName, sign] using Generates.assign (right.generates both.2)
  | .misassign _ _ _ _, silent => by simp at silent
  | .chain first others, silent => by
    have both := List.append_eq_nil_iff.mp silent
    have left := first.generates both.1
    rw [operandOf_nonterminal] at left
    simpa using Generates.operands left (others.generates both.2)
  | .climbed, _ => .noOperator
  | .climb owned operand others, silent => by
    have both := List.append_eq_nil_iff.mp silent
    have right := operand.generates both.1
    rw [operandOf_nonterminal] at right
    simpa using Generates.operator owned right (others.generates both.2)
  | .unary sign operand, silent => .sign sign (operand.generates silent)
  | .call first others, silent => by
    have both := List.append_eq_nil_iff.mp silent
    simpa using Generates.called (first.generates both.1) (others.generates both.2)
  | .called, _ => .noCall
  | .callEmpty left right others, silent => by
    simpa [left, right] using Generates.callEmpty (others.generates silent)
  | .callGiven left inside right others, silent => by
    have both := List.append_eq_nil_iff.mp silent
    simpa [left, right] using
      Generates.callGiven (inside.generates both.1) (others.generates both.2)
  | .literal constant, _ => generates_literal constant
  | .identifier name, _ => by simpa [name] using Generates.identifier
  | .grouping left inner right, silent => by
    simpa [left, right] using Generates.grouping (inner.generates silent)

theorem ArgumentList.generates {count : Nat} {u : List Token} {given : List Expr}
    {told : List SyntaxFault} :
    ArgumentList count u given told → told = [] →
      Generates (.arguments (argumentLimit - count)) (kinds u)
  | .last argument, silent => by
    have both := List.append_eq_nil_iff.mp silent
    have under := lt_of_limitFault_nil argument both.1
    obtain ⟨limit, room⟩ : ∃ limit, argumentLimit - count = limit + 1 :=
      ⟨argumentLimit - count - 1, by omega⟩
    rw [room]
    exact .lastArgument (argument.generates both.2)
  | @ArgumentList.more count _ _ _ _ _ _ _ argument sign tail, silent => by
    have both := List.append_eq_nil_iff.mp silent
    have inner := List.append_eq_nil_iff.mp both.2
    have under := lt_of_limitFault_nil argument both.1
    have room : argumentLimit - count = argumentLimit - (count + 1) + 1 := by omega
    rw [room]
    simpa [sign] using
      Generates.argument (argument.generates inner.1) (tail.generates inner.2)

end

theorem Declared.generates {u : List Token} {s : Stmt} {told : List SyntaxFault} {first : Token}
    (word : first.kind = .var) (h : Declared u s told) (silent : told = []) :
    Generates .variable (kinds (first :: u)) := by
  cases h with
  | bare named stop => simpa [word, named, stop] using Generates.bare
  | valued named sign value stop =>
    simpa [word, named, sign, stop] using Generates.valued (value.generates silent)

theorem Initializer.generates {u : List Token} {start : Option Stmt} {told : List SyntaxFault}
    (h : Initializer u start told) (silent : told = []) : Generates .initializer (kinds u) := by
  cases h with
  | empty stop => simpa [stop] using Generates.noInitializer
  | declared first tail => exact .variableInitializer (tail.generates first silent)
  | expression value stop =>
    simpa [stop] using Generates.simpleInitializer (value.generates silent)

theorem Clause.generates {u : List Token} {value : Option Expr} {told : List SyntaxFault}
    (h : Clause u value told) (silent : told = []) : Generates .clause (kinds u) := by
  cases h with
  | empty => exact .noClause
  | given value => exact .ofClause (value.generates silent)

mutual

theorem Statement.generates {dangles : Bool} {u : List Token} {s : Stmt}
    {told : List SyntaxFault} :
    Statement dangles u s told → told = [] → Generates .statement (kinds u)
  | .expression value stop, silent => by
    simpa [stop] using Generates.simple (value.generates silent)
  | .print word value stop, silent => by
    simpa [word, stop] using Generates.print (value.generates silent)
  | .loop header body, silent => by
    have both := List.append_eq_nil_iff.mp silent
    have inner := body.generates both.2
    cases header with
    | mk start left condition right =>
      simpa [start, left, right] using Generates.loop (condition.generates both.1) inner
  | .counting clauses body, silent => by
    have both := List.append_eq_nil_iff.mp silent
    have inner := body.generates both.2
    cases clauses with
    | mk word left initializer test stop step right =>
      have parts := both.1
      simp only [List.append_eq_nil_iff] at parts
      simpa [word, left, stop, right] using
        Generates.counting (initializer.generates parts.1) (test.generates parts.2.1)
          (step.generates parts.2.2) inner
  | .branch header consequent, silent => by
    have both := List.append_eq_nil_iff.mp silent
    have inner := consequent.generates both.2
    cases header with
    | mk start left condition right =>
      simpa [start, left, right] using Generates.branch (condition.generates both.1) inner
  | .branchElse header consequent other alternative, silent => by
    have both := List.append_eq_nil_iff.mp silent
    have arms := List.append_eq_nil_iff.mp both.2
    have inner := consequent.generates arms.1
    have last := alternative.generates arms.2
    cases header with
    | mk start left condition right =>
      simpa [start, left, right, other] using
        Generates.branchElse (condition.generates both.1) inner last
  | .block left inside right, silent => by
    simpa [left, right] using Generates.block (inside.generates silent)

theorem Declaration.generates {dangles : Bool} {u : List Token} {s : Stmt}
    {told : List SyntaxFault} :
    Declaration dangles u s told → told = [] → Generates .declaration (kinds u)
  | .declare word tail, silent => .ofVariable (tail.generates word silent)
  | .statement inner, silent => .ofStatement (inner.generates silent)

theorem Declarations.generates {u : List Token} {inner : List Stmt} {told : List SyntaxFault} :
    Declarations u inner told → told = [] → Generates .program (kinds u)
  | .nil, _ => .noDeclaration
  | .cons first rest, silent => by
    have both := List.append_eq_nil_iff.mp silent
    simpa using Generates.declarations (first.generates both.1) (rest.generates both.2)
  | .gap fatal _, silent => by
    obtain ⟨f, member, -⟩ := fatal
    rw [(List.append_eq_nil_iff.mp silent).1] at member
    cases member

end

/-- An alternative after a statement that dangles goes with its innermost open branch. -/
theorem Statement.attach {word : Token} {v : List Token} {a : Stmt} {other : Bool}
    {more : List SyntaxFault} (sign : word.kind = .else_) (alternative : Statement other v a more)
    {dangles : Bool} {u : List Token} {s : Stmt} {told : List SyntaxFault} :
    Statement dangles u s told → dangles = true →
      ∃ open_ result, Statement open_ (u ++ word :: v) result (told ++ more)
  | .expression _ _, dangling => by cases dangling
  | .print _ _ _, dangling => by cases dangling
  | .block _ _ _, dangling => by cases dangling
  | .loop header body, dangling => by
    obtain ⟨open_, result, attached⟩ := Statement.attach sign alternative body dangling
    exact ⟨open_, _, by simpa using Statement.loop header attached⟩
  | .counting clauses body, dangling => by
    obtain ⟨open_, result, attached⟩ := Statement.attach sign alternative body dangling
    exact ⟨open_, _, by simpa using Statement.counting clauses attached⟩
  | @Statement.branch inner _ _ _ _ _ _ header consequent, _ => by
    have nested := Statement.attach sign alternative consequent
    by_cases closed : inner = false
    · rw [closed] at consequent
      exact ⟨_, _, by simpa using Statement.branchElse header consequent sign alternative⟩
    · obtain ⟨open_, result, attached⟩ := nested (by simpa using closed)
      exact ⟨true, _, by simpa using Statement.branch header attached⟩
  | .branchElse header consequent first last, dangling => by
    obtain ⟨open_, result, attached⟩ := Statement.attach sign alternative last dangling
    exact ⟨open_, _, by simpa using Statement.branchElse header consequent first attached⟩

/-- A phrase of the operands of a level is a phrase of that level, with no operator in it. -/
theorem Derives.widen {level : Level} {u : List Token} {e : Expr} {told : List SyntaxFault}
    (operand : Derives (operandOf level) u e told) : Derives (.binary level) u e told := by
  have whole := Derives.chain operand (@Derives.climbed level e)
  rwa [List.append_nil, List.append_nil] at whole

theorem Derives.ofUnary {u : List Token} {e : Expr} {told : List SyntaxFault}
    (h : Derives .unary u e told) : Derives (.binary .or) u e told :=
  have factor : Derives (.binary .factor) u e told := .widen h
  have term : Derives (.binary .term) u e told := .widen factor
  have comparison : Derives (.binary .comparison) u e told := .widen term
  have equality : Derives (.binary .equality) u e told := .widen comparison
  have conjunction : Derives (.binary .and) u e told := .widen equality
  .widen conjunction

/-- A sequence of tokens has a derivation of which nothing is told. -/
def Realized (w : List Token) : Nonterminal → Prop
  | .program => ∃ inner, Declarations w inner []
  | .declaration => ∃ dangles s, Declaration dangles w s []
  | .variable => ∃ first u s, w = first :: u ∧ first.kind = .var ∧ Declared u s []
  | .statement => ∃ dangles s, Statement dangles w s []
  | .initializer => ∃ start, Initializer w start []
  | .clause => ∃ value, Clause w value []
  | .expression => ∃ e, Derives .expression w e []
  | .binary level => ∃ e, Derives (.binary level) w e []
  | .operators level => ∀ left, ∃ e, Derives (.climb level left) w e []
  | .unary => ∃ e, Derives .unary w e []
  | .calls => ∀ callee, ∃ e, Derives (.calls callee) w e []
  | .arguments limit =>
    ∀ count, count + limit ≤ argumentLimit → ∃ given, ArgumentList count w given []
  | .primary => ∃ e, Derives .primary w e []

theorem realized_operand {level : Level} {w : List Token} :
    Realized w (.operand level) ↔ ∃ e, Derives (operandOf level) w e [] := by
  cases level <;> exact Iff.rfl

theorem limitFault_of_lt {count : Nat} (u : List Token) (under : count < argumentLimit) :
    limitFault count u = [] :=
  if_neg (Nat.not_le.mpr under)

theorem ArgumentList.last_silent {count : Nat} {u : List Token} {e : Expr}
    (under : count < argumentLimit) (argument : Derives .expression u e []) :
    ArgumentList count u [e] [] := by
  have whole := @ArgumentList.last count _ _ _ argument
  rwa [limitFault_of_lt u under] at whole

theorem ArgumentList.more_silent {count : Nat} {comma : Token} {u v : List Token} {e : Expr}
    {others : List Expr} (under : count < argumentLimit) (argument : Derives .expression u e [])
    (sign : comma.kind = .comma) (tail : ArgumentList (count + 1) v others []) :
    ArgumentList count (u ++ comma :: v) (e :: others) [] := by
  have whole := ArgumentList.more argument sign tail
  rwa [limitFault_of_lt u under] at whole

theorem literalOf?_of_kind {t : Token}
    (constant : t.kind ∈ [.false_, .true_, .nil, .number, .string]) :
    ∃ value, literalOf? t = some value := by
  simp only [List.mem_cons, List.not_mem_nil, or_false] at constant
  unfold literalOf?
  obtain h | h | h | h | h := constant <;> exact ⟨_, by rw [h]⟩

/-- A condition between parentheses after a word, and what follows it. -/
theorem header_of_kinds {word : Kind} {u v : List Kind} {w : List Token}
    (condition : ∀ x, kinds x = u → Realized x .expression)
    (spelled : kinds w = word :: .leftParen :: (u ++ .rightParen :: v)) :
    ∃ x y e, w = x ++ y ∧ Header word x e [] ∧ kinds y = v := by
  simp only [kinds, List.map_eq_cons_iff, List.map_eq_append_iff] at spelled
  obtain ⟨first, _, rfl, start, opening, _, rfl, left, x, _, rfl, inside, closing, y, rfl, right,
    after⟩ := spelled
  obtain ⟨e, test⟩ := condition x inside
  exact ⟨first :: opening :: (x ++ [closing]), y, e, by simp, .mk start left test right, after⟩

/-- An expression and the semicolon after it. -/
theorem terminated_of_kinds {u : List Kind} {w : List Token}
    (value : ∀ x, kinds x = u → Realized x .expression) (spelled : kinds w = u ++ [.semicolon]) :
    ∃ x semicolon e, w = x ++ [semicolon] ∧ Derives .expression x e [] ∧
      semicolon.kind = .semicolon := by
  simp only [kinds, List.map_eq_cons_iff, List.map_eq_append_iff, List.map_eq_nil_iff] at spelled
  obtain ⟨x, _, rfl, inside, semicolon, _, rfl, stop, rfl⟩ := spelled
  obtain ⟨e, derived⟩ := value x inside
  exact ⟨x, semicolon, e, rfl, derived, stop⟩

/-- Every sequence that the language has is realized by tokens of these kinds. -/
theorem Generates.realized {nonterminal : Nonterminal} {ks : List Kind}
    (h : Generates nonterminal ks) : ∀ w, kinds w = ks → Realized w nonterminal := by
  induction h with
  | noDeclaration =>
    intro w spelled
    obtain rfl := List.map_eq_nil_iff.mp spelled
    exact ⟨[], .nil⟩
  | declarations _ _ first rest =>
    intro w spelled
    obtain ⟨u, v, rfl, left, right⟩ := List.map_eq_append_iff.mp spelled
    obtain ⟨dangles, s, declaration⟩ := first u left
    obtain ⟨others, tail⟩ := rest v right
    exact ⟨_, .cons declaration tail⟩
  | ofVariable _ inner =>
    intro w spelled
    obtain ⟨first, u, s, rfl, word, tail⟩ := inner w spelled
    exact ⟨_, _, .declare word tail⟩
  | ofStatement _ inner =>
    intro w spelled
    obtain ⟨dangles, s, statement⟩ := inner w spelled
    exact ⟨_, _, .statement statement⟩
  | bare =>
    intro w spelled
    simp only [kinds, List.map_eq_cons_iff, List.map_eq_nil_iff] at spelled
    obtain ⟨first, _, rfl, word, name, _, rfl, named, semicolon, _, rfl, stop, rfl⟩ := spelled
    exact ⟨first, _, _, rfl, word, .bare named stop⟩
  | valued _ value =>
    intro w spelled
    simp only [kinds, List.map_eq_cons_iff] at spelled
    obtain ⟨first, _, rfl, word, name, _, rfl, named, equal, _, rfl, sign, inside⟩ := spelled
    obtain ⟨u, semicolon, e, rfl, derived, stop⟩ := terminated_of_kinds value inside
    exact ⟨first, _, _, rfl, word, .valued named sign derived stop⟩
  | counting _ _ _ _ start condition increment body =>
    intro w spelled
    simp only [kinds, List.map_eq_cons_iff, List.map_eq_append_iff] at spelled
    obtain ⟨first, _, rfl, word, opening, _, rfl, left, u, _, rfl, atStart, v, _, rfl, atCondition,
      semicolon, _, rfl, stop, w, _, rfl, atIncrement, closing, x, rfl, right, atBody⟩ := spelled
    obtain ⟨_, initializer⟩ := start u atStart
    obtain ⟨_, test⟩ := condition v atCondition
    obtain ⟨_, step⟩ := increment w atIncrement
    obtain ⟨dangles, s, statement⟩ := body x atBody
    exact ⟨dangles, _,
      by simpa using Statement.counting (.mk word left initializer test stop step right) statement⟩
  | branch _ _ condition consequent =>
    intro w spelled
    obtain ⟨u, v, e, rfl, header, after⟩ := header_of_kinds condition spelled
    obtain ⟨dangles, s, statement⟩ := consequent v after
    exact ⟨true, _, .branch header statement⟩
  | branchElse _ _ _ condition consequent alternative =>
    intro w spelled
    obtain ⟨u, _, e, rfl, header, after⟩ := header_of_kinds condition spelled
    simp only [kinds, List.map_eq_cons_iff, List.map_eq_append_iff] at after
    obtain ⟨v, _, rfl, atConsequent, other, x, rfl, sign, atAlternative⟩ := after
    obtain ⟨dangles, s, statement⟩ := consequent v atConsequent
    obtain ⟨_, a, last⟩ := alternative x atAlternative
    cases dangles with
    | false => exact ⟨_, _, .branchElse header statement sign last⟩
    | true =>
      obtain ⟨open_, result, attached⟩ := Statement.attach sign last statement rfl
      exact ⟨true, _, .branch header attached⟩
  | print _ value =>
    intro w spelled
    obtain ⟨first, _, rfl, word, inside⟩ := List.map_eq_cons_iff.mp spelled
    obtain ⟨u, semicolon, e, rfl, derived, stop⟩ := terminated_of_kinds value inside
    exact ⟨_, _, .print word derived stop⟩
  | loop _ _ condition body =>
    intro w spelled
    obtain ⟨u, v, e, rfl, header, after⟩ := header_of_kinds condition spelled
    obtain ⟨dangles, s, statement⟩ := body v after
    exact ⟨dangles, _, .loop header statement⟩
  | block _ inner =>
    intro w spelled
    simp only [kinds, List.map_eq_cons_iff, List.map_eq_append_iff, List.map_eq_nil_iff] at spelled
    obtain ⟨opening, _, rfl, left, u, _, rfl, inside, closing, _, rfl, right, rfl⟩ := spelled
    obtain ⟨statements, derived⟩ := inner u inside
    exact ⟨_, _, .block left derived right⟩
  | simple _ value =>
    intro w spelled
    obtain ⟨u, semicolon, e, rfl, derived, stop⟩ := terminated_of_kinds value spelled
    exact ⟨_, _, .expression derived stop⟩
  | noInitializer =>
    intro w spelled
    simp only [kinds, List.map_eq_cons_iff, List.map_eq_nil_iff] at spelled
    obtain ⟨semicolon, _, rfl, stop, rfl⟩ := spelled
    exact ⟨none, .empty stop⟩
  | variableInitializer _ inner =>
    intro w spelled
    obtain ⟨first, u, s, rfl, word, tail⟩ := inner w spelled
    exact ⟨_, .declared word tail⟩
  | simpleInitializer _ value =>
    intro w spelled
    obtain ⟨u, semicolon, e, rfl, derived, stop⟩ := terminated_of_kinds value spelled
    exact ⟨_, .expression derived stop⟩
  | noClause =>
    intro w spelled
    obtain rfl := List.map_eq_nil_iff.mp spelled
    exact ⟨none, .empty⟩
  | ofClause _ value =>
    intro w spelled
    obtain ⟨e, derived⟩ := value w spelled
    exact ⟨_, .given derived⟩
  | assign _ value =>
    intro w spelled
    simp only [kinds, List.map_eq_cons_iff] at spelled
    obtain ⟨name, _, rfl, named, equal, u, rfl, sign, inside⟩ := spelled
    obtain ⟨e, derived⟩ := value u inside
    have target := Derives.ofUnary (Derives.call (.identifier named) .called)
    exact ⟨_, .assign target sign derived⟩
  | loosest _ inner =>
    intro w spelled
    obtain ⟨e, derived⟩ := inner w spelled
    exact ⟨e, .loosest derived⟩
  | operands _ _ first others =>
    intro w spelled
    obtain ⟨u, v, rfl, left, right⟩ := List.map_eq_append_iff.mp spelled
    obtain ⟨operand, derived⟩ := realized_operand.mp (first u left)
    obtain ⟨e, climbed⟩ := others v right operand
    exact ⟨e, .chain derived climbed⟩
  | noOperator =>
    intro w spelled left
    obtain rfl := List.map_eq_nil_iff.mp spelled
    exact ⟨left, .climbed⟩
  | @operator level _ _ _ owned _ _ right others =>
    intro w spelled left
    simp only [kinds, List.map_eq_cons_iff, List.map_eq_append_iff] at spelled
    obtain ⟨operator, _, rfl, rfl, u, v, rfl, atRight, atOthers⟩ := spelled
    obtain ⟨operand, derived⟩ := realized_operand.mp (right u atRight)
    obtain ⟨e, climbed⟩ := others v atOthers (node level left operator operand)
    exact ⟨e, .climb owned derived climbed⟩
  | sign unary _ operand =>
    intro w spelled
    simp only [kinds, List.map_eq_cons_iff] at spelled
    obtain ⟨operator, u, rfl, rfl, inside⟩ := spelled
    obtain ⟨e, derived⟩ := operand u inside
    exact ⟨_, .unary unary derived⟩
  | called _ _ callee others =>
    intro w spelled
    obtain ⟨u, v, rfl, left, right⟩ := List.map_eq_append_iff.mp spelled
    obtain ⟨first, derived⟩ := callee u left
    obtain ⟨e, calls⟩ := others v right first
    exact ⟨e, .call derived calls⟩
  | noCall =>
    intro w spelled callee
    obtain rfl := List.map_eq_nil_iff.mp spelled
    exact ⟨callee, .called⟩
  | callEmpty _ others =>
    intro w spelled callee
    simp only [kinds, List.map_eq_cons_iff] at spelled
    obtain ⟨opening, _, rfl, left, paren, v, rfl, right, after⟩ := spelled
    obtain ⟨e, calls⟩ := others v after (.call callee paren [])
    exact ⟨e, .callEmpty left right calls⟩
  | callGiven _ _ given others =>
    intro w spelled callee
    simp only [kinds, List.map_eq_cons_iff, List.map_eq_append_iff] at spelled
    obtain ⟨opening, _, rfl, left, u, _, rfl, inside, paren, v, rfl, right, after⟩ := spelled
    obtain ⟨arguments, derived⟩ := given u inside 0 (by simp)
    obtain ⟨e, calls⟩ := others v after (.call callee paren arguments)
    exact ⟨e, .callGiven left derived right calls⟩
  | lastArgument _ value =>
    intro w spelled count room
    obtain ⟨e, derived⟩ := value w spelled
    exact ⟨[e], .last_silent (by omega) derived⟩
  | argument _ _ value others =>
    intro w spelled count room
    simp only [kinds, List.map_eq_cons_iff, List.map_eq_append_iff] at spelled
    obtain ⟨u, _, rfl, inside, comma, v, rfl, sign, after⟩ := spelled
    obtain ⟨e, derived⟩ := value u inside
    obtain ⟨given, rest⟩ := others v after (count + 1) (by omega)
    exact ⟨e :: given, .more_silent (by omega) derived sign rest⟩
  | literal constant =>
    intro w spelled
    simp only [kinds, List.map_eq_cons_iff, List.map_eq_nil_iff] at spelled
    obtain ⟨t, _, rfl, rfl, rfl⟩ := spelled
    obtain ⟨value, literal⟩ := literalOf?_of_kind constant
    exact ⟨_, .literal literal⟩
  | identifier =>
    intro w spelled
    simp only [kinds, List.map_eq_cons_iff, List.map_eq_nil_iff] at spelled
    obtain ⟨t, _, rfl, named, rfl⟩ := spelled
    exact ⟨_, .identifier named⟩
  | grouping _ inner =>
    intro w spelled
    simp only [kinds, List.map_eq_cons_iff, List.map_eq_append_iff, List.map_eq_nil_iff] at spelled
    obtain ⟨opening, _, rfl, left, u, _, rfl, inside, closing, _, rfl, right, rfl⟩ := spelled
    obtain ⟨e, derived⟩ := inner u inside
    exact ⟨_, .grouping left derived right⟩

/-- The derivations of which nothing is told spell exactly the language. -/
theorem generates_program_iff {w : List Token} :
    Generates .program (kinds w) ↔ ∃ inner, Declarations w inner [] :=
  ⟨fun generated => generated.realized w rfl, fun ⟨_, derived⟩ => derived.generates rfl⟩

end Bhasha.Grammar
