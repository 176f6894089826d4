import Bhasha.Proofs.Parse.Concatenation

/-!
# Counting loops and the loops they stand for

A counting loop and the text in which it is spelled out are read as the same statement.  The
spelled-out text has its condition, or `true`, in an ordinary loop; its increment is a statement
behind the body, in a block with it; its initializer is a declaration before the loop, in a block
with it.

The clauses of a counting loop are read from the front, and each of them ends where it ends in
every text: an initializer behind its semicolon, the other clauses before the mark that closes them.
So the pieces that a reader of the text sees are those that the parser has read.
-/

namespace Bhasha.Parse

open Grammar

/-- A part of a text: a token of some kind, or tokens that are given. -/
inductive Part where
  | mark (kind : Kind)
  | given (tokens : List Token)

/-- The texts that are written part by part. A mark is any token of its kind. -/
def WrittenAs : List Part → List Token → Prop
  | [], ts => ts = []
  | .mark kind :: parts, ts => ∃ t rest, ts = t :: rest ∧ t.kind = kind ∧ WrittenAs parts rest
  | .given u :: parts, ts => ∃ rest, ts = u ++ rest ∧ WrittenAs parts rest

/-- The pieces of a counting loop. The initializer has its semicolon with it. -/
structure LoopPieces where
  initializer : List Token
  condition : List Token
  increment : List Token
  body : List Token

namespace LoopPieces

/-- The counting loop with these pieces. -/
def counting (p : LoopPieces) : List Part :=
  [.mark .for_, .mark .leftParen, .given p.initializer, .given p.condition, .mark .semicolon,
    .given p.increment, .mark .rightParen, .given p.body]

/-- The condition, spelled out. -/
def test (p : LoopPieces) : Part :=
  if p.condition = [] then .mark .true_ else .given p.condition

/-- What is done in each round: the body, and the increment behind it. -/
def round (p : LoopPieces) : List Part :=
  if p.increment = [] then [.given p.body]
  else [.mark .leftBrace, .given p.body, .given p.increment, .mark .semicolon, .mark .rightBrace]

/-- The loop without its initializer. -/
def loop (p : LoopPieces) : List Part :=
  .mark .while_ :: .mark .leftParen :: p.test :: .mark .rightParen :: p.round

/-- The counting loop spelled out. -/
def spelledOut (p : LoopPieces) : List Part :=
  if kinds p.initializer = [.semicolon] then p.loop
  else .mark .leftBrace :: .given p.initializer :: (p.loop ++ [.mark .rightBrace])

end LoopPieces

/-- What is written of parts in a row is written of each of them. -/
theorem written_append {parts more : List Part} {ts : List Token}
    (written : WrittenAs (parts ++ more) ts) :
    ∃ u v, ts = u ++ v ∧ WrittenAs parts u ∧ WrittenAs more v := by
  induction parts generalizing ts with
  | nil => exact ⟨[], ts, rfl, rfl, written⟩
  | cons part parts ih =>
    cases part with
    | mark kind =>
      obtain ⟨t, rest, rfl, same, after⟩ := written
      obtain ⟨u, v, rfl, first, others⟩ := ih after
      exact ⟨t :: u, v, rfl, ⟨t, u, rfl, same, first⟩, others⟩
    | given w =>
      obtain ⟨rest, rfl, after⟩ := written
      obtain ⟨u, v, rfl, first, others⟩ := ih after
      exact ⟨w ++ u, v, (List.append_assoc w u v).symm, ⟨u, rfl, first⟩, others⟩

/-- No end of input is in a part. -/
def Part.Inside : Part → Prop
  | .mark kind => kind ≠ .eof
  | .given u => ∀ t ∈ u, t.kind ≠ .eof

theorem written_inside {parts : List Part} {ts : List Token} (written : WrittenAs parts ts)
    (inside : ∀ part ∈ parts, part.Inside) : ∀ t ∈ ts, t.kind ≠ .eof := by
  induction parts generalizing ts with
  | nil =>
    obtain rfl := written
    simp
  | cons part parts ih =>
    obtain ⟨here, others⟩ := List.forall_mem_cons.mp inside
    cases part with
    | mark kind =>
      obtain ⟨t, rest, rfl, same, after⟩ := written
      exact List.forall_mem_cons.mpr ⟨by rw [same]; exact here, ih after others⟩
    | given u =>
      obtain ⟨rest, rfl, after⟩ := written
      exact List.forall_mem_append.mpr ⟨here, ih after others⟩

/-- No end of input is in the pieces of a loop. -/
structure LoopPieces.Inside (p : LoopPieces) : Prop where
  initializer : ∀ t ∈ p.initializer, t.kind ≠ .eof
  condition : ∀ t ∈ p.condition, t.kind ≠ .eof
  increment : ∀ t ∈ p.increment, t.kind ≠ .eof
  body : ∀ t ∈ p.body, t.kind ≠ .eof

theorem LoopPieces.Inside.counting {p : LoopPieces} (inside : p.Inside) :
    ∀ part ∈ p.counting, part.Inside := by
  simpa [LoopPieces.counting, Part.Inside] using
    ⟨inside.initializer, inside.condition, inside.increment, inside.body⟩

theorem LoopPieces.Inside.loop {p : LoopPieces} (inside : p.Inside) :
    ∀ part ∈ p.loop, part.Inside := by
  have test : p.test.Inside := by
    unfold LoopPieces.test
    split
    · exact nofun
    · exact inside.condition
  have round : ∀ part ∈ p.round, part.Inside := by
    unfold LoopPieces.round
    split
    · simpa [Part.Inside] using inside.body
    · simpa [Part.Inside] using ⟨inside.body, inside.increment⟩
  simpa [LoopPieces.loop, Part.Inside] using ⟨test, round⟩

theorem LoopPieces.Inside.spelledOut {p : LoopPieces} (inside : p.Inside) :
    ∀ part ∈ p.spelledOut, part.Inside := by
  unfold LoopPieces.spelledOut
  split
  · exact inside.loop
  · rename_i given
    have bare := inside.loop
    simp only [List.mem_cons, List.mem_append]
    rintro part (rfl | rfl | member | rfl | none)
    · exact nofun
    · exact inside.initializer
    · exact bare part member
    · exact nofun
    · cases none

section

variable {u v rest rest' : List Token} {told told' : List SyntaxFault}

/-- An initializer ends where it ends in every text that begins with it. -/
theorem initializer_front {start start' : Option Stmt} (first : Initializer u start told)
    (second : Initializer v start' told') (same : u ++ rest = v ++ rest') :
    start = start' ∧ u = v ∧ rest = rest' := by
  have read : initializerClause (hear (.endOfInput 1)) (u ++ rest) = _ :=
    initializerClause_reads first
  have read' : initializerClause (hear (.endOfInput 1)) (v ++ rest') = _ :=
    initializerClause_reads second
  -- Both are read from the same text, and reading has one outcome.
  rw [same, read'] at read
  injection read with outcome
  injection outcome with value left
  subst left
  exact ⟨value.symm, List.append_cancel_right same, rfl⟩

/-- A clause ends before the mark that closes it. -/
theorem clause_front {closing closing' : Token} {kind : Kind} {value value' : Option Expr}
    (first : Clause u value told) (second : Clause v value' told')
    (closes : closing.kind = kind) (closes' : closing'.kind = kind)
    (closer : kind = .semicolon ∨ kind = .rightParen)
    (same : u ++ closing :: rest = v ++ closing' :: rest') :
    value = value' ∧ u = v ∧ rest = rest' := by
  have read : clause (hear (.endOfInput 1)) kind (u ++ closing :: rest) = _ :=
    clause_reads first closes closer
  have read' : clause (hear (.endOfInput 1)) kind (v ++ closing' :: rest') = _ :=
    clause_reads second closes' closer
  rw [same, read'] at read
  injection read with outcome
  injection outcome with found left
  rw [left] at same
  obtain ⟨-, others⟩ := List.cons.inj left
  exact ⟨found.symm, List.append_cancel_right same, others.symm⟩

end

/-- A statement that begins with the word of counting loops is one. -/
theorem counting_of_head {dangles : Bool} {w : List Token} {s : Stmt} {told : List SyntaxFault}
    (derived : Statement dangles w s told) (word : w.head?.map (·.kind) = some .for_) :
    ∃ u v start condition increment inner told' more,
      w = u ++ v ∧ s = countingLoop start condition increment inner ∧ told = told' ++ more ∧
        Clauses u start condition increment told' ∧ Statement dangles v inner more := by
  cases derived with
  | expression value stop =>
    obtain ⟨t, v, rfl, begins⟩ := value.head rfl
    simp_all [beginsExpression, isUnaryOperator, beginsPrimary]
  | print first value stop => simp_all
  | loop header body =>
    cases header with
    | mk start left condition right => simp_all
  | counting clauses body =>
    exact ⟨_, _, _, _, _, _, _, _, rfl, spelledOut_eq _ _ _ _, rfl, clauses, body⟩
  | branch header consequent =>
    cases header with
    | mk start left condition right => simp_all
  | branchElse header consequent other alternative =>
    cases header with
    | mk start left condition right => simp_all
  | block left inside right => simp_all

/-- A list of declarations of which nothing is told has no gaps. -/
theorem declarations_silent {w : List Token} {inner : List Stmt}
    (derived : Declarations w inner []) :
    w = [] ∧ inner = [] ∨ ∃ dangles u v s others, w = u ++ v ∧ inner = s :: others ∧
      Declaration dangles u s [] ∧ Declarations v others [] := by
  generalize silent : ([] : List SyntaxFault) = told at derived
  cases derived with
  | nil => exact Or.inl ⟨rfl, rfl⟩
  | cons first rest =>
    obtain ⟨rfl, rfl⟩ := List.append_eq_nil_iff.mp silent.symm
    exact Or.inr ⟨_, _, _, _, _, rfl, rfl, first, rest⟩
  | gap fatal =>
    obtain ⟨f, member, -⟩ := fatal
    obtain ⟨rfl, -⟩ := List.append_eq_nil_iff.mp silent.symm
    cases member

/-- A single statement of which nothing is told has all tokens to itself. -/
theorem declaration_of_single {w : List Token} {s : Stmt} (derived : Declarations w [s] []) :
    ∃ dangles, Declaration dangles w s [] := by
  obtain ⟨-, none⟩ | ⟨dangles, u, v, _, _, rfl, one, first, rest⟩ := declarations_silent derived
  · cases none
  · obtain ⟨rfl, rfl⟩ := List.cons.inj one
    obtain ⟨rfl, -⟩ | ⟨_, _, _, _, _, -, more, -⟩ := declarations_silent rest
    · exact ⟨dangles, by simpa using first⟩
    · cases more

/-- A counting loop that is read alone and without faults has the clauses and the body that it is
written with. -/
theorem counting_of_written {p : LoopPieces} {ts : List Token} {start : Option Stmt}
    {condition increment : Option Expr} {s : Stmt}
    (initializer : Initializer p.initializer start []) (test : Clause p.condition condition [])
    (step : Clause p.increment increment []) (written : WrittenAs p.counting ts)
    (derived : Declarations ts [s] []) :
    ∃ dangles inner, Statement dangles p.body inner [] ∧
      s = countingLoop start condition increment inner := by
  obtain ⟨word, _, rfl, isWord, opening, _, rfl, left, _, rfl, _, rfl, semicolon, _, rfl, stop, _,
    rfl, closing, _, rfl, right, _, rfl, rfl⟩ := written
  obtain ⟨dangles, declaration⟩ := declaration_of_single derived
  generalize same : word :: _ = w at declaration
  cases declaration with
  | declare other tail =>
    obtain ⟨rfl, -⟩ := List.cons.inj same
    simp_all
  | statement derived =>
    subst same
    obtain ⟨u, body, start', condition', increment', inner, told, more, same, rfl, silent, clauses,
      statement⟩ := counting_of_head derived (by simp [isWord])
    obtain ⟨-, rfl⟩ := List.append_eq_nil_iff.mp silent.symm
    cases clauses with
    | mk _ _ initializer' test' stop' step' right' =>
      simp only [List.cons_append, List.append_assoc, List.nil_append, List.append_nil,
        List.cons.injEq] at same
      obtain ⟨rfl, rfl, after⟩ := same
      obtain ⟨rfl, -, after⟩ := initializer_front initializer initializer' after
      obtain ⟨rfl, -, after⟩ := clause_front test test' stop stop' (Or.inl rfl) after
      obtain ⟨rfl, -, rfl⟩ := clause_front step step' right right' (Or.inr rfl) after
      exact ⟨dangles, inner, statement, rfl⟩

section

variable {p : LoopPieces} {ts : List Token} {start : Option Stmt}
  {condition increment : Option Expr} {body : Stmt} {dangles : Bool}

/-- The token `true` is an expression. -/
theorem derives_true {t : Token} (word : t.kind = .true_) :
    Derives .expression [t] (.literal (.truth true)) [] := by
  have constant : literalOf? t = some (.truth true) := by rw [literalOf?, word]
  have primary := Derives.call (.literal constant) .called
  exact .loosest (.ofUnary primary)

theorem derives_test (test : Clause p.condition condition []) (written : WrittenAs [p.test] ts) :
    Derives .expression ts (condition.getD (.literal (.truth true))) [] := by
  unfold LoopPieces.test at written
  generalize p.condition = u at test written
  cases test with
  | empty =>
    rw [if_pos rfl] at written
    obtain ⟨t, _, rfl, word, rfl⟩ := written
    exact derives_true word
  | given value =>
    obtain ⟨t, v, rfl, -⟩ := value.head rfl
    rw [if_neg (List.cons_ne_nil t v)] at written
    obtain ⟨_, rfl, rfl⟩ := written
    rwa [List.append_nil]

/-- The body and the increment behind it, in a block. -/
theorem statement_block_of_round {u v : List Token} {opening semicolon closing : Token} {e : Expr}
    (left : opening.kind = .leftBrace) (derived : Statement dangles u body [])
    (step : Derives .expression v e []) (stop : semicolon.kind = .semicolon)
    (right : closing.kind = .rightBrace) :
    Statement false (opening :: (u ++ (v ++ [semicolon, closing])))
      (.block [body, .expression e]) [] := by
  have last := Declarations.cons (.statement (.expression step stop)) .nil
  have inside := Declarations.cons (.statement derived) last
  simpa using Statement.block left inside right

/-- The loop without initializer is the spelled-out counting loop without initializer. -/
theorem statement_loop (test : Clause p.condition condition [])
    (step : Clause p.increment increment []) (derived : Statement dangles p.body body [])
    (written : WrittenAs p.loop ts) :
    ∃ dangles, Statement dangles ts (countingLoop none condition increment body) [] := by
  obtain ⟨word, _, rfl, isWord, opening, _, rfl, left, after⟩ := written
  obtain ⟨u, _, rfl, condition', closing, v, rfl, right, inRound⟩ :=
    @written_append [p.test] _ _ after
  have header := Header.mk isWord left (derives_test test condition') right
  unfold LoopPieces.round at inRound
  generalize p.increment = w at step inRound
  cases step with
  | empty =>
    rw [if_pos rfl] at inRound
    obtain ⟨_, rfl, rfl⟩ := inRound
    exact ⟨dangles, by simpa [countingLoop] using Statement.loop header derived⟩
  | given value =>
    obtain ⟨t, x, rfl, -⟩ := value.head rfl
    rw [if_neg (List.cons_ne_nil t x)] at inRound
    obtain ⟨brace, _, rfl, isBrace, _, rfl, _, rfl, semicolon, _, rfl, stop, final, _, rfl,
      isFinal, rfl⟩ := inRound
    have round := statement_block_of_round isBrace derived value stop isFinal
    exact ⟨false, by simpa [countingLoop] using Statement.loop header round⟩

/-- An initializer is a declaration like any other. -/
theorem declaration_of_initializer {u : List Token} {first : Stmt}
    (initializer : Initializer u (some first) []) : Declaration false u first [] := by
  cases initializer with
  | declared word tail => exact .declare word tail
  | expression value stop => exact .statement (.expression value stop)

theorem initializer_none_iff {u : List Token} (initializer : Initializer u start []) :
    kinds u = [.semicolon] ↔ start = none := by
  cases initializer with
  | empty stop => simp [kinds, stop]
  | declared word tail => simp [kinds, word]
  | expression value stop =>
    obtain ⟨t, v, rfl, -⟩ := value.head rfl
    simp [kinds]

/-- The text that spells out a counting loop is derived as the counting loop is. -/
theorem statement_spelledOut (initializer : Initializer p.initializer start [])
    (test : Clause p.condition condition []) (step : Clause p.increment increment [])
    (derived : Statement dangles p.body body []) (written : WrittenAs p.spelledOut ts) :
    ∃ dangles, Statement dangles ts (countingLoop start condition increment body) [] := by
  have bare := initializer_none_iff initializer
  unfold LoopPieces.spelledOut at written
  cases start with
  | none =>
    rw [if_pos (bare.mpr rfl)] at written
    exact statement_loop test step derived written
  | some first =>
    rw [if_neg (by simp [bare])] at written
    obtain ⟨opening, _, rfl, left, _, rfl, after⟩ := written
    obtain ⟨u, _, rfl, inLoop, closing, _, rfl, right, rfl⟩ := written_append after
    obtain ⟨dangles, loop⟩ := statement_loop test step derived inLoop
    have inside := Declarations.cons (declaration_of_initializer initializer)
      (.cons (.statement loop) .nil)
    exact ⟨false, by simpa [countingLoop] using Statement.block left inside right⟩

end

/-- A counting loop and the text that spells it out are read as the same statement, with the same
tokens in it, and nothing is told of either.  The clauses are those of the grammar; that the body is
one statement is seen in what the counting loop is read as. -/
theorem counting_loop_is_spelled_out (p : LoopPieces) (written spelled : List Token)
    (initializer : Generates .initializer (kinds p.initializer))
    (condition : Generates .clause (kinds p.condition))
    (increment : Generates .clause (kinds p.increment)) (inside : p.Inside)
    (counting : WrittenAs p.counting written) (explicit : WrittenAs p.spelledOut spelled)
    (silent : (recorded written).records = []) (single : (recorded written).value.length = 1) :
    recorded spelled = recorded written := by
  obtain ⟨start, first⟩ := initializer.realized p.initializer rfl
  obtain ⟨condition, test⟩ := condition.realized p.condition rfl
  obtain ⟨increment, step⟩ := increment.realized p.increment rfl
  obtain ⟨s, one⟩ := List.length_eq_one_iff.mp single
  -- Without reports the counting loop has a derivation; its pieces can be no others than `p`'s.
  have derives := recorded_derives written
  rw [body_eq_self (written_inside counting inside.counting), one, silent] at derives
  obtain ⟨_, inner, body, rfl⟩ := counting_of_written first test step counting derives
  obtain ⟨_, statement⟩ := statement_spelledOut first test step body explicit
  have program := Declarations.cons (.statement statement) .nil
  rw [List.append_nil, ← body_eq_self (written_inside explicit inside.spelledOut)] at program
  have read : recorded spelled = ⟨[_], []⟩ := recorded_of_derivation program (by simp [Lenient])
  rw [read, ← one, ← silent]

/-- The pieces of a counting loop with a nested one at the end of an open branch. -/
def nestedLoop : LoopPieces where
  initializer := [.var, .identifier, .semicolon].map (⟨·, [], .nothing, 1⟩)
  condition := []
  increment := [.identifier, .equal, .identifier].map (⟨·, [], .nothing, 2⟩)
  body := [.if_, .leftParen, .identifier, .rightParen, .for_, .leftParen, .semicolon, .semicolon,
    .rightParen, .print, .identifier, .semicolon].map (⟨·, [], .nothing, 3⟩)

/-- A text part by part, with all its marks on the same line. -/
def writeDown (line : Int) : List Part → List Token
  | [] => []
  | .mark kind :: parts => ⟨kind, [], .nothing, line⟩ :: writeDown line parts
  | .given u :: parts => u ++ writeDown line parts

theorem written_writeDown (line : Int) (parts : List Part) :
    WrittenAs parts (writeDown line parts) := by
  induction parts with
  | nil => rfl
  | cons part parts ih =>
    cases part with
    | mark kind => exact ⟨_, _, rfl, rfl, ih⟩
    | given u => exact ⟨_, rfl, ih⟩

theorem nested_loop_is_spelled_out :
    Generates .initializer (kinds nestedLoop.initializer) ∧
    Generates .clause (kinds nestedLoop.condition) ∧
    Generates .clause (kinds nestedLoop.increment) ∧ nestedLoop.Inside ∧
    WrittenAs nestedLoop.counting (writeDown 4 nestedLoop.counting) ∧
    WrittenAs nestedLoop.spelledOut (writeDown 5 nestedLoop.spelledOut) ∧
    (recorded (writeDown 4 nestedLoop.counting)).records = [] ∧
    (recorded (writeDown 4 nestedLoop.counting)).value.length = 1 ∧
    recorded (writeDown 5 nestedLoop.spelledOut) = recorded (writeDown 4 nestedLoop.counting) := by
  have initializer : Generates .initializer (kinds nestedLoop.initializer) :=
    .variableInitializer .bare
  have name : Derives .expression [⟨.identifier, [], .nothing, 2⟩] _ [] :=
    .loosest (.ofUnary (.call (.identifier rfl) .called))
  have increment : Generates .clause (kinds nestedLoop.increment) :=
    .ofClause (.assign (name.generates rfl))
  have inside : nestedLoop.Inside := ⟨by decide, by decide, by decide, by decide⟩
  have counting := written_writeDown 4 nestedLoop.counting
  have explicit := written_writeDown 5 nestedLoop.spelledOut
  exact ⟨initializer, .noClause, increment, inside, counting, explicit, rfl, rfl,
    counting_loop_is_spelled_out nestedLoop _ _ initializer .noClause increment inside counting
      explicit rfl rfl⟩

end Bhasha.Parse
