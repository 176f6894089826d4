import Bhasha.Proofs.Parse.CursorProgram

/-!
# Nothing behind the end of the input matters

A cursor looks at the token in front of it and at the one behind it, and it moves on only from a
token that is no end of the input.  So it never passes the first one, and what an array holds
further on has no influence on its run: not on the statements, not on the faults, not on the visits
and not on when the fuel is spent.

Two machines are compared by running them on two arrays that share their tokens up to an end of the
input.  They do the same there and stay there, and this is kept by everything a machine is made of.
-/

namespace Bhasha.Parse

namespace Cursor

variable {α β : Type} {tokens tokens' : Array Token} {last : Int} {n : Nat}

/-- Two arrays hold the same tokens up to a place, and at that place the input ends. -/
structure Shared (last : Int) (tokens tokens' : Array Token) : Prop where
  same : ∀ place, place ≤ last → tokenAt? tokens place = tokenAt? tokens' place
  ends : ∃ finish, tokenAt? tokens last = some finish ∧ finish.kind = .eof

/-- A run that is done or bails out leaves the cursor no further than at a place. -/
def Ending.Within (last : Int) : Ending α → Prop
  | .done _ s => s.current ≤ last
  | .bail s => s.current ≤ last
  | .outside _ => True
  | .spent => True

/-- From every state up to a place the machines do the same, and never pass that place. -/
def Same (last : Int) (p q : Machine α) : Prop :=
  ∀ s : State, s.current ≤ last → p s = q s ∧ (p s).Within last

/-- A machine that looks at no token and does not move. -/
theorem same_of_still {p : Machine α}
    (still : ∀ s : State, s.current ≤ last → (p s).Within last) : Same last p p :=
  fun s before => ⟨rfl, still s before⟩

theorem same_pure (value : α) : Same last (pure value) (pure value) :=
  same_of_still fun _ before => before

theorem same_spent : Same last (spent : Machine α) spent := same_of_still fun _ _ => trivial

theorem same_report (t : Token) (fault : Fault) : Same last (report t fault) (report t fault) :=
  same_of_still fun _ before => before

theorem same_bail : Same last (bail : Machine α) bail := same_of_still fun _ before => before

/-- Machines one after the other; the second ones may rely on how the first run was done. -/
theorem Same.bind_of_run {p q : Machine α} {f g : α → Machine β} (first : Same last p q)
    (next : ∀ s value s', s.current ≤ last → p s = .done value s' → s'.current ≤ last →
      f value s' = g value s' ∧ (f value s').Within last) : Same last (p >>= f) (q >>= g) := by
  intro s before
  obtain ⟨same, within⟩ := first s before
  simp only [Bind.bind]
  rw [← same]
  cases run : p s with
  | done value s' =>
    rw [run] at within
    exact next s value s' before run within
  | bail s' =>
    rw [run] at within
    exact ⟨rfl, within⟩
  | outside place => exact ⟨rfl, trivial⟩
  | spent => exact ⟨rfl, trivial⟩

theorem Same.bind {p q : Machine α} {f g : α → Machine β} (first : Same last p q)
    (next : ∀ value, Same last (f value) (g value)) : Same last (p >>= f) (q >>= g) :=
  first.bind_of_run fun _ value s' _ _ before => next value s' before

theorem Same.map {p q : Machine α} (f : α → β) (first : Same last p q) :
    Same last (f <$> p) (f <$> q) :=
  first.bind fun value => same_pure (f value)

theorem same_if {c : Prop} [Decidable c] {p p' q q' : Machine α} (yes : Same last p q)
    (no : Same last p' q') : Same last (if c then p else p') (if c then q else q') := by
  split
  · exact yes
  · exact no

section

variable (shared : Shared last tokens tokens')
include shared

/-- Reading a token up to the place where both arrays end the input. -/
theorem same_readAt {place : Int} {s : State} (inside : place ≤ last) (before : s.current ≤ last) :
    readAt tokens place s = readAt tokens' place s ∧ (readAt tokens place s).Within last := by
  unfold readAt
  rw [← shared.same place inside]
  cases tokenAt? tokens place with
  | none => exact ⟨rfl, trivial⟩
  | some t => exact ⟨rfl, before⟩

theorem same_peek : Same last (peek tokens) (peek tokens') :=
  fun _ before => same_readAt shared before before

theorem same_previous : Same last (previous tokens) (previous tokens') :=
  fun _ before => same_readAt shared (by omega) before

theorem same_atEnd : Same last (atEnd tokens) (atEnd tokens') :=
  (same_peek shared).bind fun t => same_pure (t.kind == .eof)

/-- A cursor that is not at the end of the input can move on. -/
theorem before_last {s s' : State} (before : s.current ≤ last)
    (goesOn : atEnd tokens s = .done false s') : s' = s ∧ s.current < last := by
  obtain ⟨finish, found, final⟩ := shared.ends
  simp only [atEnd, peek, readAt, Bind.bind] at goesOn
  by_cases there : s.current = last
  · rw [there, found] at goesOn
    simp [pure, final] at goesOn
  · cases read : tokenAt? tokens s.current with
    | none => simp [read] at goesOn
    | some t =>
      simp only [read, pure, Ending.done.injEq] at goesOn
      exact ⟨goesOn.2.symm, by omega⟩

theorem same_advance : Same last (advance tokens) (advance tokens') := by
  unfold advance
  apply (same_atEnd shared).bind_of_run
  intro s ended s' before run within
  cases ended with
  | true => exact same_previous shared s' within
  | false =>
    obtain ⟨rfl, room⟩ := before_last shared before run
    have moved : s'.next.current ≤ last := by
      simp only [State.next]
      omega
    exact same_previous shared s'.next moved

theorem same_check (kind : Kind) : Same last (check tokens kind) (check tokens' kind) := by
  unfold check
  apply (same_atEnd shared).bind
  intro ended
  exact same_if (same_pure false) ((same_peek shared).bind fun t => same_pure (t.kind == kind))

theorem same_accepts (wanted : Kind → Bool) :
    Same last (accepts tokens wanted) (accepts tokens' wanted) := by
  unfold accepts
  apply (same_atEnd shared).bind
  intro ended
  apply same_if (same_pure false)
  apply (same_peek shared).bind
  intro t
  exact same_if ((same_advance shared).bind fun _ => same_pure true) (same_pure false)

theorem same_fail (fault : Fault) :
    Same last (fail tokens fault : Machine α) (fail tokens' fault) :=
  (same_peek shared).bind fun t => (same_report t fault).bind fun _ => same_bail

theorem same_expect (kind : Kind) (fault : Fault) :
    Same last (expect tokens kind fault) (expect tokens' kind fault) := by
  unfold expect
  apply (same_check shared kind).bind
  intro found
  exact same_if (same_advance shared) (same_fail shared fault)

/-- A choice that depends on whether the next token is wanted. -/
theorem same_choice {wanted : Kind → Bool} {p p' q q' : Machine α} (yes : Same last p q)
    (no : Same last p' q') :
    Same last (accepts tokens wanted >>= fun taken => if taken then p else p')
      (accepts tokens' wanted >>= fun taken => if taken then q else q') :=
  (same_accepts shared wanted).bind fun _ => same_if yes no

theorem same_skip (n : Nat) : Same last (skip tokens n) (skip tokens' n) := by
  induction n with
  | zero => exact same_spent
  | succ n ih =>
    unfold skip
    apply (same_atEnd shared).bind
    intro ended
    apply same_if (same_pure ())
    apply (same_previous shared).bind
    intro behind
    apply same_if (same_pure ())
    apply (same_peek shared).bind
    intro ahead
    exact same_if (same_pure ()) ((same_advance shared).bind fun _ => ih)

theorem same_synchronize (n : Nat) : Same last (synchronize tokens n) (synchronize tokens' n) :=
  (same_advance shared).bind fun _ => same_skip shared n

theorem Same.recovering {p q : Machine α} (inner : Same last p q) (n : Nat) :
    Same last (recovering tokens n p) (recovering tokens' n q) := by
  intro s before
  obtain ⟨same, within⟩ := inner s before
  unfold Cursor.recovering
  rw [← same]
  cases run : p s with
  | done value s' =>
    rw [run] at within
    exact ⟨rfl, within⟩
  | bail s' =>
    rw [run] at within
    exact ((same_synchronize shared n).bind fun _ => same_pure none) s' within
  | outside place => exact ⟨rfl, trivial⟩
  | spent => exact ⟨rfl, trivial⟩

omit shared in
theorem Same.visit {p q : Machine α} (inner : Same last p q) : Same last (visit p) (visit q) := by
  intro s before
  obtain ⟨same, within⟩ := inner s before
  unfold Cursor.visit
  rw [← same]
  cases run : p s with
  | done value s' =>
    rw [run] at within
    exact ⟨rfl, within⟩
  | bail s' =>
    rw [run] at within
    exact ⟨rfl, within⟩
  | outside place => exact ⟨rfl, trivial⟩
  | spent => exact ⟨rfl, trivial⟩

end

/-- All machines of expressions with `n` units of fuel do the same on both arrays. -/
structure ExpressionsSame (last : Int) (tokens tokens' : Array Token) (n : Nat) : Prop where
  expression : Same last (expression tokens n) (expression tokens' n)
  binary : ∀ level, Same last (binary tokens n level) (binary tokens' n level)
  operand : ∀ level, Same last (operand tokens n level) (operand tokens' n level)
  climb : ∀ level left, Same last (climb tokens n level left) (climb tokens' n level left)
  unary : Same last (unary tokens n) (unary tokens' n)
  calls : ∀ callee, Same last (calls tokens n callee) (calls tokens' n callee)
  arguments : ∀ count, Same last (arguments tokens n count) (arguments tokens' n count)
  primary : Same last (primary tokens n) (primary tokens' n)

private theorem expression_same (shared : Shared last tokens tokens')
    (ih : ExpressionsSame last tokens tokens' n) :
    Same last (expression tokens (n + 1)) (expression tokens' (n + 1)) := by
  unfold expression
  apply (ih.binary .or).bind
  intro left
  apply same_choice shared _ (same_pure left)
  apply (same_previous shared).bind
  intro equal
  apply ih.expression.bind
  intro value
  cases left with
  | identifier name => exact same_pure _
  | _ => exact (same_report equal .invalidTarget).bind fun _ => same_pure _

private theorem binary_same (ih : ExpressionsSame last tokens tokens' n) (level : Level) :
    Same last (binary tokens (n + 1) level) (binary tokens' (n + 1) level) := by
  unfold binary
  exact (ih.operand level).bind (ih.climb level)

private theorem operand_same (ih : ExpressionsSame last tokens tokens' n) (level : Level) :
    Same last (operand tokens (n + 1) level) (operand tokens' (n + 1) level) := by
  unfold operand
  cases level.tighter? with
  | some tighter => exact ih.binary tighter
  | none => exact ih.unary

private theorem climb_same (shared : Shared last tokens tokens')
    (ih : ExpressionsSame last tokens tokens' n) (level : Level) (left : Expr) :
    Same last (climb tokens (n + 1) level left) (climb tokens' (n + 1) level left) := by
  unfold climb
  apply same_choice shared _ (same_pure left)
  apply (same_previous shared).bind
  intro operator
  exact (ih.operand level).bind fun right => ih.climb level _

private theorem unary_same (shared : Shared last tokens tokens')
    (ih : ExpressionsSame last tokens tokens' n) :
    Same last (unary tokens (n + 1)) (unary tokens' (n + 1)) := by
  unfold unary
  apply same_choice shared
  · apply (same_previous shared).bind
    intro operator
    exact ih.unary.bind fun right => same_pure _
  · exact ih.primary.bind ih.calls

private theorem calls_same (shared : Shared last tokens tokens')
    (ih : ExpressionsSame last tokens tokens' n) (callee : Expr) :
    Same last (calls tokens (n + 1) callee) (calls tokens' (n + 1) callee) := by
  unfold calls
  apply same_choice shared _ (same_pure callee)
  apply (same_check shared .rightParen).bind
  intro empty
  have close : ∀ given, Same last
      (expect tokens .rightParen .argumentsNeedClosing >>= fun paren =>
        calls tokens n (.call callee paren given))
      (expect tokens' .rightParen .argumentsNeedClosing >>= fun paren =>
        calls tokens' n (.call callee paren given)) :=
    fun given => (same_expect shared _ _).bind fun paren => ih.calls _
  exact same_if ((same_pure []).bind close) ((ih.arguments 0).bind close)

private theorem arguments_same (shared : Shared last tokens tokens')
    (ih : ExpressionsSame last tokens tokens' n) (count : Nat) :
    Same last (arguments tokens (n + 1) count) (arguments tokens' (n + 1) count) := by
  unfold arguments
  have read : Same last
      (expression tokens n >>= fun first => accepts tokens (· == .comma) >>= fun more =>
        if more then arguments tokens n (count + 1) >>= fun rest => pure (first :: rest)
        else pure [first])
      (expression tokens' n >>= fun first => accepts tokens' (· == .comma) >>= fun more =>
        if more then arguments tokens' n (count + 1) >>= fun rest => pure (first :: rest)
        else pure [first]) := by
    apply ih.expression.bind
    intro first
    apply same_choice shared _ (same_pure [first])
    exact (ih.arguments (count + 1)).bind fun rest => same_pure _
  apply same_if _ read
  apply (same_peek shared).bind
  intro t
  exact (same_report t .tooManyArguments).bind fun _ => read

private theorem primary_same (shared : Shared last tokens tokens')
    (ih : ExpressionsSame last tokens tokens' n) :
    Same last (primary tokens (n + 1)) (primary tokens' (n + 1)) := by
  unfold primary
  apply same_choice shared (same_pure _)
  apply same_choice shared (same_pure _)
  apply same_choice shared (same_pure _)
  apply same_choice shared ((same_previous shared).bind fun t => same_pure _)
  apply same_choice shared ((same_previous shared).bind fun name => same_pure _)
  apply same_choice shared _ (same_fail shared _)
  apply ih.expression.bind
  intro inner
  exact (same_expect shared _ _).bind fun _ => same_pure _

/-- Machines of expressions do the same on both arrays, whatever fuel they have. -/
theorem expressions_same (shared : Shared last tokens tokens') (n : Nat) :
    ExpressionsSame last tokens tokens' n := by
  induction n with
  | zero => constructor <;> intros <;> exact same_spent
  | succ n ih =>
    exact {
      expression := expression_same shared ih
      binary := binary_same ih
      operand := operand_same ih
      climb := climb_same shared ih
      unary := unary_same shared ih
      calls := calls_same shared ih
      arguments := arguments_same shared ih
      primary := primary_same shared ih }

section

variable (shared : Shared last tokens tokens')
include shared

theorem same_expression (n : Nat) : Same last (expression tokens n) (expression tokens' n) :=
  (expressions_same shared n).expression

theorem same_declarationTail (n : Nat) :
    Same last (declarationTail tokens n) (declarationTail tokens' n) := by
  unfold declarationTail
  apply (same_expect shared _ _).bind
  intro name
  apply (same_accepts shared _).bind
  intro valued
  have close : ∀ initializer, Same last
      (expect tokens .semicolon .declarationNeedsSemicolon >>= fun _ =>
        pure (Stmt.declare name initializer))
      (expect tokens' .semicolon .declarationNeedsSemicolon >>= fun _ =>
        pure (Stmt.declare name initializer)) :=
    fun initializer => (same_expect shared _ _).bind fun _ => same_pure _
  exact same_if (((same_expression shared n).map some).bind close) ((same_pure none).bind close)

theorem same_expressionStatement (n : Nat) :
    Same last (expressionStatement tokens n) (expressionStatement tokens' n) :=
  (same_expression shared n).bind fun _ => (same_expect shared _ _).bind fun _ => same_pure _

theorem same_printTail (n : Nat) : Same last (printTail tokens n) (printTail tokens' n) :=
  (same_expression shared n).bind fun _ => (same_expect shared _ _).bind fun _ => same_pure _

theorem same_initializerClause (n : Nat) :
    Same last (initializerClause tokens n) (initializerClause tokens' n) := by
  unfold initializerClause
  apply same_choice shared (same_pure none)
  exact same_choice shared ((same_declarationTail shared n).map some)
    ((same_expressionStatement shared n).map some)

theorem same_clause (n : Nat) (closing : Kind) :
    Same last (clause tokens n closing) (clause tokens' n closing) := by
  unfold clause
  apply (same_check shared closing).bind
  intro empty
  exact same_if (same_pure none) ((same_expression shared n).map some)

variable {p q : Machine Stmt}

theorem same_forTail (bodies : Same last p q) (n : Nat) :
    Same last (forTail tokens n p) (forTail tokens' n q) := by
  unfold forTail
  apply (same_expect shared _ _).bind
  intro opening
  apply (same_initializerClause shared n).bind
  intro initializer
  apply (same_clause shared n _).bind
  intro condition
  apply (same_expect shared _ _).bind
  intro semicolon
  apply (same_clause shared n _).bind
  intro increment
  apply (same_expect shared _ _).bind
  intro closing
  exact bodies.bind fun body => same_pure _

theorem same_whileTail (bodies : Same last p q) (n : Nat) :
    Same last (whileTail tokens n p) (whileTail tokens' n q) := by
  unfold whileTail
  apply (same_expect shared _ _).bind
  intro opening
  apply (same_expression shared n).bind
  intro condition
  apply (same_expect shared _ _).bind
  intro closing
  exact bodies.bind fun body => same_pure _

theorem same_ifTail (bodies : Same last p q) (n : Nat) :
    Same last (ifTail tokens n p) (ifTail tokens' n q) := by
  unfold ifTail
  apply (same_expect shared _ _).bind
  intro opening
  apply (same_expression shared n).bind
  intro condition
  apply (same_expect shared _ _).bind
  intro closing
  apply bodies.bind
  intro consequent
  exact same_choice shared (bodies.bind fun alternative => same_pure _) (same_pure _)

theorem same_ends (inBlock : Bool) : Same last (ends tokens inBlock) (ends tokens' inBlock) := by
  unfold ends
  have closes : ∀ closed : Bool, Same last (if closed then pure true else atEnd tokens)
      (if closed then pure true else atEnd tokens') :=
    fun closed => same_if (same_pure true) (same_atEnd shared)
  exact same_if ((same_check shared .rightBrace).bind closes) ((same_pure false).bind closes)

end

/-- All machines of statements with `n` units of fuel do the same on both arrays. -/
structure StatementsSame (last : Int) (tokens tokens' : Array Token) (n : Nat) : Prop where
  statement : Same last (statement tokens n) (statement tokens' n)
  declaration : Same last (declaration tokens n) (declaration tokens' n)
  declarations : ∀ inBlock,
    Same last (declarations tokens n inBlock) (declarations tokens' n inBlock)

private theorem statement_same (shared : Shared last tokens tokens')
    (ih : StatementsSame last tokens tokens' n) :
    Same last (statement tokens (n + 1)) (statement tokens' (n + 1)) := by
  unfold statement
  apply same_choice shared (same_forTail shared ih.statement n)
  apply same_choice shared (same_ifTail shared ih.statement n)
  apply same_choice shared (same_printTail shared n)
  apply same_choice shared (same_whileTail shared ih.statement n)
  apply same_choice shared _ (same_expressionStatement shared n)
  apply (ih.declarations true).bind
  intro inner
  exact (same_expect shared _ _).bind fun _ => same_pure _

private theorem declaration_same (shared : Shared last tokens tokens')
    (ih : StatementsSame last tokens tokens' n) :
    Same last (declaration tokens (n + 1)) (declaration tokens' (n + 1)) := by
  unfold declaration
  apply Same.recovering shared
  exact same_choice shared (same_declarationTail shared n) ih.statement

private theorem declarations_same (shared : Shared last tokens tokens')
    (ih : StatementsSame last tokens tokens' n) (inBlock : Bool) :
    Same last (declarations tokens (n + 1) inBlock) (declarations tokens' (n + 1) inBlock) := by
  unfold declarations
  apply (same_ends shared inBlock).bind
  intro ended
  apply same_if (same_pure [])
  apply ih.declaration.visit.bind
  intro first
  exact (ih.declarations inBlock).bind fun rest => same_pure _

/-- Machines of statements do the same on both arrays, whatever fuel they have. -/
theorem statements_same (shared : Shared last tokens tokens') (n : Nat) :
    StatementsSame last tokens tokens' n := by
  induction n with
  | zero => constructor <;> intros <;> exact same_spent
  | succ n ih =>
    exact ⟨statement_same shared ih, declaration_same shared ih, declarations_same shared ih⟩

section

variable {a behind others others' : List Token} {finish : Token}

theorem shared_before_end (final : finish.kind = .eof) :
    Shared a.length (a ++ finish :: others).toArray (a ++ finish :: others').toArray where
  same := by
    intro place inside
    unfold tokenAt?
    split
    · by_cases within : place.toNat < a.length
      · simp [List.getElem?_append_left within]
      · have there : place.toNat = a.length := by omega
        simp [there]
    · rfl
  ends := ⟨finish, by simp [tokenAt?], final⟩

theorem closed_before_end : ∃ others, closed (a ++ finish :: behind) = a ++ finish :: others := by
  unfold closed
  split
  · exact ⟨behind, rfl⟩
  · exact ⟨behind ++ [_], List.append_assoc ..⟩

/-- A run with any fuel is the same whatever stands behind an end of the input. -/
theorem run_before_end (final : finish.kind = .eof) (fuel : Nat) :
    run fuel (a ++ finish :: behind) = run fuel (a ++ [finish]) := by
  obtain ⟨others, left⟩ := @closed_before_end a behind finish
  obtain ⟨others', right⟩ := @closed_before_end a [] finish
  have shared : Shared a.length _ _ := @shared_before_end a others others' finish final
  have same := (statements_same shared fuel).declarations false ⟨0, [], []⟩ (Int.natCast_nonneg _)
  unfold run
  rw [left, right, same.1]

end

end Cursor

theorem recorded_congr {ts us : List Token} (bodies : body ts = body us)
    (ends : endToken ts = endToken us) : recorded ts = recorded us := by
  unfold recorded statementsM
  rw [bodies, ends]

/-- The parser takes the tokens before the first end of the input, and that end. -/
theorem recorded_before_end {a behind : List Token} {finish : Token}
    (inside : ∀ t ∈ a, t.kind ≠ .eof) (final : finish.kind = .eof) :
    recorded (a ++ finish :: behind) = recorded (a ++ [finish]) := by
  apply recorded_congr
  · rw [body_append_end inside final, body_append _ inside]
    simp [body, final]
  · rw [endToken_append_end inside final, endToken_append inside (by simp)]
    simp [endToken, final]

/-- The end of an input that has none of its own: on the line of its last token, or on line one if
there is no token. -/
def impliedEnd (ts : List Token) : Token := .endOfInput ((ts.getLast?.map (·.line)).getD 1)

theorem endToken_eq_impliedEnd {a : List Token} (inside : ∀ t ∈ a, t.kind ≠ .eof) :
    endToken a = impliedEnd a := by
  simp [endToken, impliedEnd, find?_end inside]

theorem recorded_impliedEnd {a : List Token} (inside : ∀ t ∈ a, t.kind ≠ .eof) :
    recorded (a ++ [impliedEnd a]) = recorded a := by
  apply recorded_congr
  · rw [body_append_end inside rfl, body_eq_self inside]
  · rw [endToken_append_end inside rfl, endToken_eq_impliedEnd inside]

theorem Cursor.closed_impliedEnd {a : List Token} (inside : ∀ t ∈ a, t.kind ≠ .eof) :
    Cursor.closed (a ++ [impliedEnd a]) = Cursor.closed a := by
  have unended : a.getLast?.any (·.kind == .eof) = false := by
    cases last : a.getLast? with
    | none => rfl
    | some t => simpa using inside t (List.mem_of_getLast? last)
  unfold Cursor.closed
  rw [unended]
  simp [impliedEnd, Token.endOfInput]

/-- Only the tokens up to the first end of the input matter.  What stands behind it changes neither
the statements nor the faults, and a cursor on the array of all tokens, with whatever fuel, makes
the same run as if nothing stood there.  A list without an end of the input is parsed as with one
behind it, on the line of its last token, or on line one if it is empty. -/
theorem nothing_behind_the_end_matters (a : List Token) (inside : ∀ t ∈ a, t.kind ≠ .eof) :
    (∀ finish : Token, finish.kind = .eof → ∀ behind : List Token,
      recorded (a ++ [finish] ++ behind) = recorded (a ++ [finish]) ∧
      ∀ fuel, Cursor.run fuel (a ++ [finish] ++ behind) = Cursor.run fuel (a ++ [finish])) ∧
    recorded a = recorded (a ++ [impliedEnd a]) ∧
    ∀ fuel, Cursor.run fuel a = Cursor.run fuel (a ++ [impliedEnd a]) := by
  refine ⟨?_, (recorded_impliedEnd inside).symm, ?_⟩
  · intro finish final behind
    rw [List.append_assoc, List.singleton_append]
    exact ⟨recorded_before_end inside final, Cursor.run_before_end final⟩
  · intro fuel
    unfold Cursor.run
    rw [Cursor.closed_impliedEnd inside]

/-- A block that is still open, with a declaration that lacks its name. -/
def openDeclaration : List Token :=
  [.leftBrace, .var, .semicolon, .print, .nil].map (⟨·, [], .nothing, 7⟩)

theorem open_declaration_before_the_end :
    (∀ t ∈ openDeclaration, t.kind ≠ .eof) ∧ (Token.endOfInput 9).kind = .eof ∧
    recorded (openDeclaration ++ [Token.endOfInput 9] ++ openDeclaration) =
      ⟨[], [⟨⟨.semicolon, [], .nothing, 7⟩, .declarationNeedsName⟩,
        ⟨.endOfInput 9, .printNeedsSemicolon⟩, ⟨.endOfInput 9, .blockNeedsBrace⟩]⟩ ∧
    recorded openDeclaration = recorded (openDeclaration ++ [Token.endOfInput 7]) := by
  have inside : ∀ t ∈ openDeclaration, t.kind ≠ .eof := by decide
  obtain ⟨ended, unended⟩ := nothing_behind_the_end_matters openDeclaration inside
  exact ⟨inside, rfl, (ended (.endOfInput 9) rfl openDeclaration).1, unended.1⟩

end Bhasha.Parse
