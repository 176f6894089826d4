import Bhasha.Proofs.Parse.Cursor
import Bhasha.Proofs.Parse.Lookahead

/-!
# A cursor follows the parser

A cursor that is run on an array with an end of the input in it does what the parser does on the
tokens before that end: it gives the same values, tells the same faults and stands where the parser
has what is left.  In particular it never asks for a token outside the array.

The position of a cursor is the number of tokens read.  The token at that position is always there,
for at worst it is the end of the input.  The token before it is asked for after a token was read.

This module has the steps of a cursor and the expressions; statements and recovery come next.
-/

namespace Bhasha.Parse.Cursor

open Grammar

/-- The array holds the tokens of `base`, none of which is an end of the input, and then one. -/
structure Holds (tokens : Array Token) (base : List Token) (finish : Token) : Prop where
  split : ∃ others, tokens.toList = base ++ finish :: others
  inside : ∀ t ∈ base, t.kind ≠ .eof
  final : finish.kind = .eof

/-- The cursor stands in front of `ts`, with which `base` ends. -/
def At (base ts : List Token) (s : State) : Prop :=
  ∃ read : List Token, base = read ++ ts ∧ s.current = read.length

/-- The cursor stands in front of `ts` and behind the token `t`. -/
def Behind (base : List Token) (t : Token) (ts : List Token) (s : State) : Prop :=
  ∃ read : List Token, base = read ++ t :: ts ∧ s.current = read.length + 1

section

variable {α β : Type} {tokens : Array Token} {base ts rest : List Token} {finish t : Token}
  {s s' : State}

theorem Machine.bind_of_done {p : Machine α} {f : α → Machine β} {value : α}
    (h : p s = .done value s') : (p >>= f) s = f value s' := by
  simp [bind, h]

theorem Machine.bind_of_bail {p : Machine α} {f : α → Machine β} (h : p s = .bail s') :
    (p >>= f) s = .bail s' := by
  simp [bind, h]

theorem Behind.at (behind : Behind base t ts s) : At base ts s := by
  obtain ⟨read, split, place⟩ := behind
  exact ⟨read ++ [t], by simp [split], by simp [place]⟩

theorem At.next (here : At base (t :: ts) s) : Behind base t ts s.next := by
  obtain ⟨read, split, place⟩ := here
  exact ⟨read, split, by simp [State.next, place]⟩

theorem tokenAt?_length (holds : Holds tokens base finish) {read : List Token}
    (split : base = read ++ ts) : tokenAt? tokens read.length = some (ts.headD finish) := by
  obtain ⟨others, whole⟩ := holds.split
  rw [tokenAt?, if_pos (Int.natCast_nonneg _), Int.toNat_natCast, ← Array.getElem?_toList, whole,
    split]
  cases ts <;> simp

theorem peek_eq (holds : Holds tokens base finish) (here : At base ts s) :
    peek tokens s = .done (ts.headD finish) s := by
  obtain ⟨read, split, place⟩ := here
  rw [peek, readAt, place, tokenAt?_length holds split]

theorem previous_eq (holds : Holds tokens base finish) (behind : Behind base t ts s) :
    previous tokens s = .done t s := by
  obtain ⟨read, split, place⟩ := behind
  rw [previous, readAt, place, Int.add_sub_cancel, tokenAt?_length holds split]
  rfl

theorem atEnd_eq (holds : Holds tokens base finish) (here : At base ts s) :
    atEnd tokens s = .done ts.isEmpty s := by
  rw [atEnd, Machine.bind_of_done (peek_eq holds here)]
  cases ts with
  | nil =>
    show Ending.done (finish.kind == .eof) s = _
    simp [holds.final]
  | cons t ts =>
    obtain ⟨read, split, -⟩ := here
    have other : t.kind ≠ .eof := holds.inside t (by simp [split])
    show Ending.done (t.kind == .eof) s = _
    simp [other]

theorem advance_eq (holds : Holds tokens base finish) (here : At base (t :: ts) s) :
    advance tokens s = .done t s.next := by
  rw [advance, Machine.bind_of_done (atEnd_eq holds here)]
  exact previous_eq holds here.next

theorem check_eq (holds : Holds tokens base finish) (here : At base ts s) (kind : Kind) :
    check tokens kind s = .done (ts.head?.any (·.kind == kind)) s := by
  rw [check, Machine.bind_of_done (atEnd_eq holds here)]
  cases ts with
  | nil => rfl
  | cons t ts => exact Machine.bind_of_done (peek_eq holds here)

theorem accepts_nil (holds : Holds tokens base finish) (here : At base [] s)
    (wanted : Kind → Bool) : accepts tokens wanted s = .done false s := by
  rw [accepts, Machine.bind_of_done (atEnd_eq holds here)]
  rfl

theorem accepts_cons (holds : Holds tokens base finish) (here : At base (t :: ts) s)
    (wanted : Kind → Bool) :
    accepts tokens wanted s = if wanted t.kind then .done true s.next else .done false s := by
  rw [accepts, Machine.bind_of_done (atEnd_eq holds here)]
  refine (Machine.bind_of_done (peek_eq holds here)).trans ?_
  show (if wanted t.kind then _ else _ : Machine Bool) s = _
  split
  · exact Machine.bind_of_done (advance_eq holds here)
  · rfl

/-- What a run did between two states: the cursor moved on to `rest`, the faults `told` were added,
and if all visits led forward before, they still do. -/
structure Reaches (base ts : List Token) (s : State) (rest : List Token) (told : List SyntaxFault)
    (s' : State) : Prop where
  here : At base rest s'
  shorter : rest.length ≤ ts.length
  faults : s'.faults = s.faults ++ told
  visits : (∀ v ∈ s.visits, v.start < v.stop) → ∀ v ∈ s'.visits, v.start < v.stop

/-- The run of a cursor ends as the run of a parser does. -/
inductive Mirrors (base ts : List Token) (s : State) :
    Recorded SyntaxFault (Outcome α) → Ending α → Prop
  | done {value : α} {rest : List Token} {told : List SyntaxFault} {s' : State}
      (reaches : Reaches base ts s rest told s') :
      Mirrors base ts s ⟨.done value rest, told⟩ (.done value s')
  | bail {rest : List Token} {told : List SyntaxFault} {s' : State}
      (reaches : Reaches base ts s rest told s') : Mirrors base ts s ⟨.bail rest, told⟩ (.bail s')

theorem reaches_self (here : At base ts s) : Reaches base ts s ts [] s :=
  ⟨here, Nat.le_refl _, by simp, id⟩

theorem Reaches.trans {final : List Token} {told more : List SyntaxFault} {s'' : State}
    (first : Reaches base ts s rest told s') (second : Reaches base rest s' final more s'') :
    Reaches base ts s final (told ++ more) s'' where
  here := second.here
  shorter := Nat.le_trans second.shorter first.shorter
  faults := by rw [second.faults, first.faults, List.append_assoc]
  visits := fun all => second.visits (first.visits all)

theorem Mirrors.after {told : List SyntaxFault} {r : Recorded SyntaxFault (Outcome α)}
    {e : Ending α} (h : Mirrors base rest s' r e) (first : Reaches base ts s rest told s') :
    Mirrors base ts s ⟨r.value, told ++ r.records⟩ e := by
  cases h with
  | done second => exact .done (first.trans second)
  | bail second => exact .bail (first.trans second)

theorem Mirrors.congr {p q : Parser (Recorded SyntaxFault) α} {e : Ending α} (same : p = q)
    (h : Mirrors base ts s (q ts) e) : Mirrors base ts s (p ts) e := by
  rw [same]
  exact h

theorem Mirrors.bind_of_run {p : Parser (Recorded SyntaxFault) α} {q : Machine α}
    {f : α → Parser (Recorded SyntaxFault) β} {g : α → Machine β}
    (first : Mirrors base ts s (p ts) (q s))
    (next : ∀ value rest told s', p ts = ⟨.done value rest, told⟩ → At base rest s' →
      rest.length ≤ ts.length → Mirrors base rest s' (f value rest) (g value s')) :
    Mirrors base ts s ((p >>= f) ts) ((q >>= g) s) := by
  generalize left : p ts = r at first
  generalize right : q s = e at first
  cases first with
  | done reaches =>
    rw [bind_of_done left, Machine.bind_of_done right]
    exact (next _ _ _ _ left reaches.here reaches.shorter).after reaches
  | bail reaches =>
    rw [Parse.bind_of_bail left, Machine.bind_of_bail right]
    exact .bail reaches

theorem Mirrors.bind {p : Parser (Recorded SyntaxFault) α} {q : Machine α}
    {f : α → Parser (Recorded SyntaxFault) β} {g : α → Machine β}
    (first : Mirrors base ts s (p ts) (q s))
    (next : ∀ value rest s', At base rest s' → rest.length ≤ ts.length →
      Mirrors base rest s' (f value rest) (g value s')) :
    Mirrors base ts s ((p >>= f) ts) ((q >>= g) s) := by
  apply first.bind_of_run
  intro value rest told s' _ here shorter
  exact next value rest s' here shorter

theorem mirrors_pure (value : α) (here : At base ts s) :
    Mirrors base ts s ((pure value : Parser (Recorded SyntaxFault) α) ts)
      ((pure value : Machine α) s) := .done (reaches_self here)

theorem Mirrors.map {p : Parser (Recorded SyntaxFault) α} {q : Machine α} (f : α → β)
    (h : Mirrors base ts s (p ts) (q s)) : Mirrors base ts s ((f <$> p) ts) ((f <$> q) s) :=
  h.bind fun value _ _ here _ => mirrors_pure (f value) here

theorem reaches_report (here : At base ts s) (t : Token) (fault : Fault) :
    Reaches base ts s ts [⟨t, fault⟩] { s with faults := s.faults ++ [⟨t, fault⟩] } :=
  ⟨here, Nat.le_refl _, rfl, id⟩

theorem mirrors_report (here : At base ts s) (place : List Token) (fault : Fault) :
    Mirrors base ts s (reportAt (hear finish) place fault ts)
      (report (place.headD finish) fault s) := .done (reaches_report here _ fault)

theorem mirrors_fail (holds : Holds tokens base finish) (here : At base ts s) (fault : Fault) :
    Mirrors base ts s ((Parse.fail (hear finish) fault : Parser _ α) ts)
      ((fail tokens fault : Machine α) s) := by
  rw [fail, Machine.bind_of_done (peek_eq holds here)]
  exact .bail (reaches_report here _ fault)

/-- A report that is made on a condition, at the next token. -/
theorem mirrors_reportIf {c : Prop} [Decidable c] (holds : Holds tokens base finish)
    (here : At base ts s) {fault : Fault} {p : Parser (Recorded SyntaxFault) α} {q : Machine α}
    (next : ∀ s, At base ts s → Mirrors base ts s (p ts) (q s)) :
    Mirrors base ts s
      ((ahead >>= fun place =>
        if c then reportAt (hear finish) place fault >>= fun _ => p else p) ts)
      ((if c then peek tokens >>= fun t => report t fault >>= fun _ => q else q) s) := by
  show Mirrors base ts s ((if c then reportAt (hear finish) ts fault >>= fun _ => p else p) ts) _
  split
  · rw [Machine.bind_of_done (peek_eq holds here)]
    have reported := reaches_report here (ts.headD finish) fault
    exact (next _ reported.here).after reported
  · exact next s here

theorem reaches_next (here : At base (t :: ts) s) : Reaches base (t :: ts) s ts [] s.next :=
  ⟨here.next.at, by simp, by simp [State.next], id⟩

theorem mirrors_expect (holds : Holds tokens base finish) (here : At base ts s) (kind : Kind)
    (fault : Fault) :
    Mirrors base ts s (Parse.expect (hear finish) kind fault ts) (expect tokens kind fault s) := by
  rw [expect, Machine.bind_of_done (check_eq holds here kind)]
  cases ts with
  | nil => exact mirrors_fail holds here fault
  | cons t ts =>
    rw [expect_cons]
    show Mirrors base (t :: ts) s _ ((if t.kind == kind then _ else _ : Machine Token) s)
    by_cases same : t.kind = kind
    · rw [if_pos same, if_pos (by simp [same]), advance_eq holds here]
      exact .done (reaches_next here)
    · rw [if_neg same, if_neg (by simp [same])]
      exact mirrors_fail holds here fault

/-- A cursor may ask for one kind after the other where the parser asks for all of them at once. -/
theorem mirrors_choice {wanted : Kind → Bool} {f : Option Token → Parser (Recorded SyntaxFault) β}
    {e : Ending β} (here : At base ts s)
    (refused : Stops wanted ts → Mirrors base ts s (f none ts) e)
    (read : ∀ t rest, ts = t :: rest → wanted t.kind = true → Behind base t rest s.next →
      Mirrors base rest s.next (f (some t) rest) e) :
    Mirrors base ts s ((accept wanted >>= f) ts) e := by
  by_cases stops : Stops wanted ts
  · rw [accept_bind_none stops]
    exact refused stops
  · cases ts with
    | nil => exact absurd rfl stops
    | cons t rest =>
      have wants : wanted t.kind = true := by simpa [Stops] using stops
      rw [accept_bind_some wants]
      exact (read t rest rfl wants here.next).after (reaches_next here)

theorem previous_bind (holds : Holds tokens base finish) (behind : Behind base t ts s)
    (g : Token → Machine β) : (previous tokens >>= g) s = g t s :=
  Machine.bind_of_done (previous_eq holds behind)

theorem accepts_bind (holds : Holds tokens base finish) (here : At base (t :: ts) s)
    (wanted : Kind → Bool) (g : Bool → Machine β) :
    (accepts tokens wanted >>= g) s = if wanted t.kind then g true s.next else g false s := by
  have run := accepts_cons holds here wanted
  by_cases wants : wanted t.kind = true
  · rw [if_pos wants] at run ⊢
    exact Machine.bind_of_done run
  · rw [if_neg wants] at run ⊢
    exact Machine.bind_of_done run

/-- A cursor in front of a token takes one of two ways. -/
theorem accepts_if (holds : Holds tokens base finish) (here : At base (t :: ts) s)
    (wanted : Kind → Bool) (p q : Machine β) :
    (accepts tokens wanted >>= fun taken => if taken then p else q) s =
      if wanted t.kind then p s.next else q s :=
  accepts_bind holds here wanted _

theorem accepts_bind_refused (holds : Holds tokens base finish) (here : At base ts s)
    {wanted : Kind → Bool} (stops : Stops wanted ts) (g : Bool → Machine β) :
    (accepts tokens wanted >>= g) s = g false s := by
  cases ts with
  | nil => exact Machine.bind_of_done (accepts_nil holds here wanted)
  | cons t ts =>
    have unwanted : wanted t.kind = false := by simpa [Stops] using stops
    rw [accepts_bind holds here, unwanted]
    rfl

theorem accepts_if_refused (holds : Holds tokens base finish) (here : At base ts s)
    {wanted others : Kind → Bool} (stops : Stops others ts)
    (among : ∀ kind, wanted kind = true → others kind = true) (p q : Machine β) :
    (accepts tokens wanted >>= fun taken => if taken then p else q) s = q s :=
  accepts_bind_refused holds here (stops.mono among) _

/-- The parser has the token it read, the cursor has it behind itself. -/
theorem mirrors_accept (holds : Holds tokens base finish) (here : At base ts s)
    {wanted : Kind → Bool} {f : Option Token → Parser (Recorded SyntaxFault) β}
    {g : Bool → Machine β} (refused : Mirrors base ts s (f none ts) (g false s))
    (read : ∀ t rest, ts = t :: rest → wanted t.kind = true → Behind base t rest s.next →
      Mirrors base rest s.next (f (some t) rest) (g true s.next)) :
    Mirrors base ts s ((accept wanted >>= f) ts) ((accepts tokens wanted >>= g) s) := by
  apply mirrors_choice here
  · intro stops
    rw [accepts_bind_refused holds here stops]
    exact refused
  · rintro t rest rfl wants behind
    rw [accepts_bind holds here, if_pos wants]
    exact read t rest rfl wants behind

theorem mirrors_check (holds : Holds tokens base finish) (here : At base ts s) {kind : Kind}
    {f : Bool → Parser (Recorded SyntaxFault) β} {g : Bool → Machine β}
    (next : ∀ found, Mirrors base ts s (f found ts) (g found s)) :
    Mirrors base ts s ((nextIs kind >>= f) ts) ((check tokens kind >>= g) s) := by
  rw [Machine.bind_of_done (check_eq holds here kind)]
  exact next _

end

/-- With `n` units of fuel a cursor mirrors a parser that has `m` units, wherever both have enough:
twenty units for each token ahead, and a reserve. -/
abbrev MirrorsWith {α : Type} (base : List Token) (reserve n m : Nat)
    (p : Parser (Recorded SyntaxFault) α) (q : Machine α) : Prop :=
  ∀ ts s, 20 * ts.length + reserve ≤ n → 20 * ts.length + reserve ≤ m → At base ts s →
    Mirrors base ts s (p ts) (q s)

variable {tokens : Array Token} {base : List Token} {finish : Token} {n m : Nat}

/-- On an array all machines of expressions mirror their parsers. -/
structure ExpressionsMirror (tokens : Array Token) (base : List Token) (finish : Token)
    (n m : Nat) : Prop where
  expression : MirrorsWith base 15 n m (Parse.expression (hear finish) m) (expression tokens n)
  binary : ∀ level, MirrorsWith base (operandReserve level + 1) n m
    (Parse.binary (hear finish) m level) (binary tokens n level)
  operand : ∀ level, MirrorsWith base (operandReserve level) n m
    (Parse.operand (hear finish) m level) (operand tokens n level)
  climb : ∀ level left, MirrorsWith base 1 n m
    (Parse.climb (hear finish) m level left) (climb tokens n level left)
  unary : MirrorsWith base 2 n m (Parse.unary (hear finish) m) (unary tokens n)
  calls : ∀ callee, MirrorsWith base 1 n m
    (Parse.calls (hear finish) m callee) (calls tokens n callee)
  arguments : ∀ count, MirrorsWith base 16 n m
    (Parse.arguments (hear finish) m count) (arguments tokens n count)
  primary : MirrorsWith base 1 n m (Parse.primary (hear finish) m) (primary tokens n)

private theorem expression_mirrors (holds : Holds tokens base finish)
    (ih : ExpressionsMirror tokens base finish n m) :
    MirrorsWith base 15 (n + 1) (m + 1)
      (Parse.expression (hear finish) (m + 1)) (expression tokens (n + 1)) := by
  intro ts s enough enough' here
  rw [Parse.expression, expression]
  apply (ih.binary .or ts s (by simp only [operandReserve]; omega)
    (by simp only [operandReserve]; omega) here).bind
  intro left rest s' here shorter
  apply mirrors_accept holds here
  · exact mirrors_pure left here
  · rintro equal after rfl - behind
    rw [List.length_cons] at shorter
    rw [if_pos rfl, previous_bind holds behind]
    apply (ih.expression after s'.next (by omega) (by omega) behind.at).bind
    intro value final s'' here _
    cases left with
    | identifier name => exact mirrors_pure _ here
    | _ =>
      exact (mirrors_report here (equal :: after) _).bind fun _ _ _ here _ => mirrors_pure _ here

private theorem operand_mirrors (ih : ExpressionsMirror tokens base finish n m) (level : Level) :
    MirrorsWith base (operandReserve level) (n + 1) (m + 1)
      (Parse.operand (hear finish) (m + 1) level) (operand tokens (n + 1) level) := by
  intro ts s enough enough' here
  rw [Parse.operand, operand]
  cases level <;> simp only [operandReserve] at enough enough'
  case factor => exact ih.unary ts s (by omega) (by omega) here
  all_goals
    apply ih.binary _ ts s _ _ here <;> simp only [operandReserve] <;> omega

private theorem binary_mirrors (ih : ExpressionsMirror tokens base finish n m) (level : Level) :
    MirrorsWith base (operandReserve level + 1) (n + 1) (m + 1)
      (Parse.binary (hear finish) (m + 1) level) (binary tokens (n + 1) level) := by
  intro ts s enough enough' here
  have reserve := operandReserve_bounds level
  rw [Parse.binary, binary]
  apply (ih.operand level ts s (by omega) (by omega) here).bind
  intro left rest s' here shorter
  exact ih.climb level left rest s' (by omega) (by omega) here

private theorem climb_mirrors (holds : Holds tokens base finish)
    (ih : ExpressionsMirror tokens base finish n m) (level : Level) (left : Expr) :
    MirrorsWith base 1 (n + 1) (m + 1)
      (Parse.climb (hear finish) (m + 1) level left) (climb tokens (n + 1) level left) := by
  intro ts s enough enough' here
  have reserve := operandReserve_bounds level
  rw [Parse.climb, climb]
  apply mirrors_accept holds here
  · exact mirrors_pure left here
  · rintro operator after rfl - behind
    rw [List.length_cons] at enough enough'
    rw [if_pos rfl, previous_bind holds behind]
    apply (ih.operand level after s.next (by omega) (by omega) behind.at).bind
    intro right rest s' here shorter
    exact ih.climb level _ rest s' (by omega) (by omega) here

private theorem unary_mirrors (holds : Holds tokens base finish)
    (ih : ExpressionsMirror tokens base finish n m) :
    MirrorsWith base 2 (n + 1) (m + 1)
      (Parse.unary (hear finish) (m + 1)) (unary tokens (n + 1)) := by
  intro ts s enough enough' here
  rw [Parse.unary, unary]
  apply mirrors_accept holds here
  · rw [if_neg Bool.false_ne_true]
    apply (ih.primary ts s (by omega) (by omega) here).bind
    intro callee rest s' here shorter
    exact ih.calls callee rest s' (by omega) (by omega) here
  · rintro operator after rfl - behind
    rw [List.length_cons] at enough enough'
    rw [if_pos rfl, previous_bind holds behind]
    apply (ih.unary after s.next (by omega) (by omega) behind.at).bind
    intro right rest s' here _
    exact mirrors_pure _ here

private theorem calls_mirror (holds : Holds tokens base finish)
    (ih : ExpressionsMirror tokens base finish n m) (callee : Expr) :
    MirrorsWith base 1 (n + 1) (m + 1)
      (Parse.calls (hear finish) (m + 1) callee) (calls tokens (n + 1) callee) := by
  intro ts s enough enough' here
  rw [Parse.calls, calls]
  apply mirrors_accept holds here
  · exact mirrors_pure callee here
  · rintro opening after rfl - behind
    rw [List.length_cons] at enough enough'
    have close : ∀ given rest s', At base rest s' → rest.length ≤ after.length →
        Mirrors base rest s'
          ((Parse.expect (hear finish) .rightParen .argumentsNeedClosing >>= fun paren =>
            Parse.calls (hear finish) m (.call callee paren given)) rest)
          ((expect tokens .rightParen .argumentsNeedClosing >>= fun paren =>
            calls tokens n (.call callee paren given)) s') := by
      intro given rest s' here shorter
      apply (mirrors_expect holds here _ _).bind
      intro paren final s'' here shorter'
      exact ih.calls _ final s'' (by omega) (by omega) here
    rw [if_pos rfl]
    apply mirrors_check holds behind.at
    intro empty
    cases empty with
    | true => exact (mirrors_pure [] behind.at).bind close
    | false => exact (ih.arguments 0 after s.next (by omega) (by omega) behind.at).bind close

private theorem arguments_mirror (holds : Holds tokens base finish)
    (ih : ExpressionsMirror tokens base finish n m) (count : Nat) :
    MirrorsWith base 16 (n + 1) (m + 1)
      (Parse.arguments (hear finish) (m + 1) count) (arguments tokens (n + 1) count) := by
  intro ts s enough enough' here
  rw [Parse.arguments, arguments]
  apply mirrors_reportIf holds here
  intro s here
  apply (ih.expression ts s (by omega) (by omega) here).bind
  intro first rest s' here shorter
  apply mirrors_accept holds here
  · exact mirrors_pure _ here
  · rintro comma after rfl - behind
    rw [List.length_cons] at shorter
    rw [if_pos rfl]
    apply (ih.arguments (count + 1) after s'.next (by omega) (by omega) behind.at).bind
    intro others final s'' here _
    exact mirrors_pure _ here

private theorem primary_constant (holds : Holds tokens base finish) {t : Token} {ts : List Token}
    {s : State} (here : At base (t :: ts) s) {value : Literal}
    (constant : literalOf? t = some value) :
    primary tokens (n + 1) s = .done (.literal value) s.next := by
  unfold literalOf? at constant
  split at constant
  case h_6 => simp at constant
  all_goals
    rename_i kind
    obtain rfl := Option.some.inj constant
    simp only [primary, accepts_if holds here, previous_bind holds here.next, kind, beq_iff_eq,
      reduceCtorEq, Bool.or_eq_true, or_false, or_true, ↓reduceIte]
    rfl

private theorem primary_mirrors (holds : Holds tokens base finish)
    (ih : ExpressionsMirror tokens base finish n m) :
    MirrorsWith base 1 (n + 1) (m + 1)
      (Parse.primary (hear finish) (m + 1)) (primary tokens (n + 1)) := by
  intro ts s enough enough' here
  rw [Parse.primary]
  apply mirrors_choice here
  · intro stops
    rw [primary]
    iterate 6 rw [accepts_if_refused holds here stops (by simp [beginsPrimary])]
    exact mirrors_fail holds here _
  · rintro t after rfl begins behind
    rw [List.length_cons] at enough enough'
    dsimp only
    rcases beginsPrimary_cases begins with ⟨value, constant⟩ | name | opening
    · apply Mirrors.congr (primary_literal constant _ _)
      rw [primary_constant holds here constant]
      exact mirrors_pure _ behind.at
    · rw [name]
      simp only [primary, accepts_if holds here, name, beq_iff_eq, reduceCtorEq, Bool.or_eq_true,
        or_self, ↓reduceIte]
      rw [previous_bind holds behind]
      exact mirrors_pure _ behind.at
    · rw [opening]
      simp only [primary, accepts_if holds here, opening, beq_iff_eq, reduceCtorEq,
        Bool.or_eq_true, or_self, ↓reduceIte]
      apply (ih.expression after s.next (by omega) (by omega) behind.at).bind
      intro inner rest s' here _
      apply (mirrors_expect holds here _ _).bind
      intro closing final s'' here _
      exact mirrors_pure _ here

/-- The machines of expressions mirror their parsers wherever the fuel is enough. -/
theorem expressions_mirror (holds : Holds tokens base finish) (n m : Nat) :
    ExpressionsMirror tokens base finish n m := by
  induction n generalizing m with
  | zero =>
    constructor
    case operand =>
      intro level ts s enough
      have reserve := operandReserve_bounds level
      omega
    all_goals intros; omega
  | succ n ih =>
    cases m with
    | zero =>
      constructor
      case operand =>
        intro level ts s _ enough'
        have reserve := operandReserve_bounds level
        omega
      all_goals intros; omega
    | succ m =>
      have inner := ih m
      exact {
        expression := expression_mirrors holds inner
        binary := binary_mirrors inner
        operand := operand_mirrors inner
        climb := climb_mirrors holds inner
        unary := unary_mirrors holds inner
        calls := calls_mirror holds inner
        arguments := arguments_mirror holds inner
        primary := primary_mirrors holds inner }

end Bhasha.Parse.Cursor
