import Mathlib.Order.Bounds.Defs
import Bhasha.Proofs.Parse.CursorProgram
import Bhasha.Proofs.Parse.Passage

/-!
# Where parsing goes on

A fatal fault, the declaration that is given up for it and what that declaration returns stand next
to each other in every chronicle, and none of the three is there without the others.  So a failure
ends exactly one declaration, the innermost one, and nothing is told on the way to the place where
parsing goes on.

That place is the first boundary behind the blamed token.
-/

namespace Bhasha.Parse

/-- A log in which every failure is dealt with. Declarations are given up at places of `ts`. -/
inductive Settled (ts : List Token) : List Event → Prop
  | nil : Settled ts []
  | mild {blocks : Nat} {report : Report} {log : List Event} (mild : report.fault.isFatal = false)
      (next : Settled ts log) : Settled ts (.told blocks report :: log)
  | kept {s : Stmt} {here : List Token} {log : List Event} (next : Settled ts log) :
      Settled ts (.returned (some s) here :: log)
  | failed {blocks : Nat} {start blamed : List Token} {fault : Fault} {log : List Event}
      (fatal : fault.isFatal = true) (call : GivesUp start blamed) (inside : start <:+ ts)
      (further : blamed <:+ start) (next : Settled ts log) :
      Settled ts (.told blocks ⟨blamed, fault⟩ :: .gaveUp start blamed ::
        .returned none (resume blamed) :: log)

section

variable {ts mid : List Token} {log later : List Event}

theorem Settled.append (first : Settled ts log) (next : Settled ts later) :
    Settled ts (log ++ later) := by
  induction first with
  | nil => exact next
  | mild mild _ ih => exact .mild mild ih
  | kept _ ih => exact .kept ih
  | failed fatal call inside further _ ih => exact .failed fatal call inside further ih

/-- A log of later places. -/
theorem Settled.of_suffix (h : Settled mid log) (further : mid <:+ ts) : Settled ts log := by
  induction h with
  | nil => exact .nil
  | mild mild _ ih => exact .mild mild ih
  | kept _ ih => exact .kept ih
  | failed fatal call inside past _ ih =>
    exact .failed fatal call (inside.trans further) past ih

/-- All failures but the last one have been dealt with, and that one is at `rest`. -/
def Unsettled (ts : List Token) (log : List Event) (rest : List Token) : Prop :=
  ∃ before blocks fault, log = before ++ [.told blocks ⟨rest, fault⟩] ∧ fault.isFatal = true ∧
    Settled ts before

end

mutual

theorem Passage.settled {blocks : Nat} {ts rest : List Token} {log : List Event} :
    Passage blocks ts log rest → Settled ts log
  | .stay => .nil
  | .read next => next.settled.of_suffix (List.suffix_cons _ _)
  | .told mild next => .mild mild next.settled
  | .block inside next =>
    inside.settled.append (next.settled.of_suffix ((List.suffix_cons _ _).trans inside.suffix))

theorem Rounds.settled {blocks : Nat} {ts rest : List Token} {log : List Event} :
    Rounds blocks ts log rest → Settled ts log
  | .stop => .nil
  | .kept first next => first.settled.append (.kept (next.settled.of_suffix first.suffix))
  | @Rounds.given _ _ mid _ _ _ call first next => by
    obtain ⟨before, blocks, fault, rfl, fatal, settled⟩ := first.unsettled
    have after := next.settled.of_suffix ((resume_isSuffix mid).trans first.suffix)
    rw [List.append_assoc]
    exact settled.append (.failed fatal call (List.suffix_refl _) first.suffix after)

theorem Breakdown.unsettled {blocks : Nat} {ts rest : List Token} {log : List Event} :
    Breakdown blocks ts log rest → Unsettled ts log rest
  | .here before fatal => ⟨_, _, _, rfl, fatal, before.settled⟩
  | .unclosed before inside fatal =>
    ⟨_, _, _, (List.append_assoc _ _ _).symm, fatal,
      before.settled.append (inside.settled.of_suffix before.suffix)⟩

end

theorem chronicle_settled (ts : List Token) : Settled (body ts) (chronicle ts).records := by
  obtain ⟨rest, rounds⟩ := chronicle_rounds ts
  exact rounds.settled

/-- What stands around a declaration that is given up: right before it the fault, and right behind
it that nothing is returned. -/
structure Recovered (ts start blamed : List Token) (before after : List Event) : Prop where
  call : GivesUp start blamed
  inside : start <:+ ts
  further : blamed <:+ start
  fault : ∃ earlier blocks fault, before = earlier ++ [.told blocks ⟨blamed, fault⟩] ∧
    fault.isFatal = true
  resumed : ∃ later, after = .returned none (resume blamed) :: later

theorem Recovered.cons {ts start blamed : List Token} {before after : List Event}
    (h : Recovered ts start blamed before after) (event : Event) :
    Recovered ts start blamed (event :: before) after := by
  obtain ⟨earlier, blocks, fault, rfl, fatal⟩ := h.fault
  exact { h with fault := ⟨event :: earlier, blocks, fault, rfl, fatal⟩ }

theorem Settled.recovered {ts start blamed : List Token} {log before after : List Event}
    (h : Settled ts log) (split : log = before ++ .gaveUp start blamed :: after) :
    Recovered ts start blamed before after := by
  induction h generalizing before with
  | nil => simp at split
  | mild _ _ ih | kept _ ih =>
    cases before with
    | nil => cases split
    | cons event before =>
      rw [List.cons_append, List.cons.injEq] at split
      exact (ih split.2).cons event
  | failed fatal call inside further _ ih =>
    rcases before with _ | ⟨first, _ | ⟨second, _ | ⟨third, before⟩⟩⟩
    · cases split
    · cases split
      exact ⟨call, inside, further, ⟨[], _, _, rfl, fatal⟩, ⟨_, rfl⟩⟩
    · cases split
    · simp only [List.cons_append, List.cons.injEq] at split
      exact (((ih split.2.2.2).cons third).cons second).cons first

/-- The listener does not matter for where a declaration bails out, and recovery tells nothing. -/
theorem GivesUp.heard {start blamed : List Token} (h : GivesUp start blamed) (finish : Token) :
    ∃ n told, 4 * start.length + 2 ≤ n ∧
      declaration (hear finish) n start = ⟨.bail blamed, told⟩ ∧
      recover (declaration (hear finish) n) start = ⟨.done none (resume blamed), told⟩ := by
  obtain ⟨n, reports, enough, bails⟩ := h.bails
  have hears := hears_replaying (hear finish)
  have heard := hear_eq (Correspondence.statements_follow hears n).declaration start
  rw [bails] at heard
  exact ⟨n, _, enough, heard, recover_of_bail heard⟩

/-- The kind of a token of a list. -/
def kindAt (ts : List Token) (k : Nat) : Option Kind := ts[k]?.map (·.kind)

/-- A place where recovery may end: the end of the input, a token behind a semicolon, or a word that
begins a statement. -/
def Boundary (ts : List Token) (k : Nat) : Prop :=
  kindAt ts k = some .eof ∨ kindAt ts (k - 1) = some .semicolon ∨
    ∃ word ∈ [Kind.class_, .fun_, .var, .for_, .if_, .while_, .print, .return_],
      kindAt ts k = some word

/-- The tokens from number `k` on are ahead. The end of the input is the token behind the last. -/
def Stands (ts : List Token) (k : Nat) (ahead : List Token) : Prop :=
  k ≤ (body ts).length ∧ ahead = (body ts).drop k

theorem isAnchor_iff (kind : Kind) :
    isAnchor kind = true ↔
      kind ∈ [Kind.class_, .fun_, .var, .for_, .if_, .while_, .print, .return_] := by
  cases kind <;> simp [isAnchor]

section

variable {ts ahead : List Token} {k : Nat}

theorem exists_stands (inside : ahead <:+ body ts) : ∃ k, Stands ts k ahead := by
  obtain ⟨read, split⟩ := inside
  exact ⟨read.length, by simp [← split], by simp [← split]⟩

theorem Stands.token (stands : Stands ts k ahead) :
    (Cursor.closed ts)[k]? = some (ahead.headD (endToken ts)) := by
  obtain ⟨le, rfl⟩ := stands
  obtain ⟨others, whole⟩ := Cursor.closed_split ts
  rw [whole, List.headD_eq_head?_getD, List.head?_drop]
  rcases Nat.lt_or_eq_of_le le with lt | rfl
  · simp [List.getElem?_append_left lt, List.getElem?_eq_getElem lt]
  · simp

theorem Stands.kindAt_eq (stands : Stands ts k ahead) :
    kindAt (Cursor.closed ts) k = some (ahead.headD (endToken ts)).kind := by
  rw [kindAt, stands.token]
  rfl

/-- Only at the end of the input nothing is ahead. -/
theorem Stands.kindAt_eof_iff (stands : Stands ts k ahead) :
    kindAt (Cursor.closed ts) k = some .eof ↔ ahead = [] := by
  rw [stands.kindAt_eq]
  cases ahead with
  | nil => simp [Cursor.endToken_kind]
  | cons t rest =>
    have member : t ∈ body ts := by
      rw [← List.take_append_drop k (body ts), ← stands.2]
      simp
    simpa using (Cursor.holds_closed ts).inside t member

theorem Stands.next {t : Token} (stands : Stands ts k (t :: ahead)) : Stands ts (k + 1) ahead := by
  obtain ⟨le, split⟩ := stands
  have shorter := congrArg List.length split
  rw [List.length_cons, List.length_drop] at shorter
  refine ⟨by omega, ?_⟩
  rw [← List.drop_drop, ← split]
  rfl

/-- One step behind a token there is a boundary, or recovery skips another token. -/
theorem Stands.boundary_iff {t : Token} (stands : Stands ts k (t :: ahead)) :
    Boundary (Cursor.closed ts) (k + 1) ↔
      ahead = [] ∨ t.kind = .semicolon ∨ ahead.head?.any (isAnchor ·.kind) = true := by
  have before : kindAt (Cursor.closed ts) (k + 1 - 1) = some t.kind := stands.kindAt_eq
  rw [Boundary, stands.next.kindAt_eof_iff, before, Option.some.injEq, stands.next.kindAt_eq]
  cases ahead with
  | nil => simp
  | cons next rest => simp [isAnchor_iff]

end

/-- Behind a blamed token, recovery goes to the first boundary. -/
theorem resume_isLeast {ts ahead : List Token} {t : Token} {e : Nat}
    (stands : Stands ts e (t :: ahead)) :
    ∃ k, Stands ts k (resume (t :: ahead)) ∧
      IsLeast {k | e + 1 ≤ k ∧ Boundary (Cursor.closed ts) k} k := by
  induction ahead generalizing t e with
  | nil =>
    have stop : resume [t] = [] := by simp [resume]
    rw [stop]
    exact ⟨e + 1, stands.next, ⟨Nat.le_refl _, stands.boundary_iff.mpr (.inl rfl)⟩,
      fun k other => other.1⟩
  | cons next rest ih =>
    by_cases stop : t.kind = .semicolon ∨ (next :: rest).head?.any (isAnchor ·.kind) = true
    · rw [resume_of_stop stop]
      exact ⟨e + 1, stands.next, ⟨Nat.le_refl _, stands.boundary_iff.mpr (.inr stop)⟩,
        fun k other => other.1⟩
    · obtain ⟨other, inside⟩ := not_or.mp stop
      rw [resume_of_skip other (by simpa using inside)]
      obtain ⟨k, resumed, ⟨past, boundary⟩, least⟩ := ih stands.next
      refine ⟨k, resumed, ⟨by omega, boundary⟩, ?_⟩
      rintro k' ⟨past', boundary'⟩
      -- the token right behind the blamed one is no boundary
      have further : k' ≠ e + 1 := by
        rintro rfl
        exact (stands.boundary_iff.mp boundary').elim (List.cons_ne_nil next rest) stop
      exact least ⟨by omega, boundary'⟩

/-- Recovery goes on at the first boundary.  A chronicle is the record of the run and its additions.
Wherever it says that a declaration is given up, the declaration began in front of the end of the
input and bails out at the blamed token; the last report was fatal and blamed that token; nothing
more is told before nothing is returned; and parsing goes on at the blamed token if that is the end
of the input, and otherwise at the first boundary behind it. -/
theorem recovery_goes_to_first_boundary (ts : List Token) :
    (chronicle ts).value = (recorded ts).value ∧
    ((chronicle ts).records.filterMap Event.report?).map (Report.attach (endToken ts)) =
      (recorded ts).records ∧
    ∀ before start blamed after,
      (chronicle ts).records = before ++ .gaveUp start blamed :: after →
      ∃ s e k,
        Stands ts s start ∧ kindAt (Cursor.closed ts) s ≠ some .eof ∧ Stands ts e blamed ∧
        (∃ earlier blocks fault, before = earlier ++ [.told blocks ⟨blamed, fault⟩] ∧
          fault.isFatal = true ∧
          (Cursor.closed ts)[e]? =
            some ((Report.mk blamed fault).attach (endToken ts)).token) ∧
        (∃ here later, after = .returned none here :: later ∧ Stands ts k here ∧
          ∃ n told, 4 * start.length + 2 ≤ n ∧
            declaration (hear (endToken ts)) n start = ⟨.bail blamed, told⟩ ∧
            recover (declaration (hear (endToken ts)) n) start = ⟨.done none here, told⟩) ∧
        (kindAt (Cursor.closed ts) e = some .eof → k = e) ∧
        (kindAt (Cursor.closed ts) e ≠ some .eof →
          IsLeast {k | e + 1 ≤ k ∧ Boundary (Cursor.closed ts) k} k) := by
  obtain ⟨value, reports⟩ := chronicle_recorded ts
  refine ⟨value, reports, ?_⟩
  intro before start blamed after split
  obtain ⟨call, inside, further, ⟨earlier, blocks, fault, told, fatal⟩, later, returned⟩ :=
    (chronicle_settled ts).recovered split
  obtain ⟨s, starts⟩ := exists_stands inside
  obtain ⟨e, stands⟩ := exists_stands (further.trans inside)
  have atStart : kindAt (Cursor.closed ts) s ≠ some .eof := by
    rw [Ne, starts.kindAt_eof_iff]
    exact call.begins
  have blames : ∃ earlier blocks fault, before = earlier ++ [.told blocks ⟨blamed, fault⟩] ∧
      fault.isFatal = true ∧
      (Cursor.closed ts)[e]? = some ((Report.mk blamed fault).attach (endToken ts)).token :=
    ⟨earlier, blocks, fault, told, fatal, stands.token⟩
  have bails := call.heard (endToken ts)
  cases blamed with
  | nil =>
    have final := stands.kindAt_eof_iff.mpr rfl
    exact ⟨s, e, e, starts, atStart, stands, blames, ⟨[], later, returned, stands, bails⟩,
      fun _ => rfl, fun inside => absurd final inside⟩
  | cons t rest =>
    have inside : kindAt (Cursor.closed ts) e ≠ some .eof := by
      rw [Ne, stands.kindAt_eof_iff]
      exact List.cons_ne_nil t rest
    obtain ⟨k, resumed, least⟩ := resume_isLeast stands
    exact ⟨s, e, k, starts, atStart, stands, blames, ⟨_, later, returned, resumed, bails⟩,
      fun final => absurd final inside, fun _ => least⟩

/-- Two blocks, a statement without its value in each, and no end of the outer one. -/
def hollowBlocks : List Token :=
  [.leftBrace, .leftBrace, .print, .semicolon, .rightBrace, .print, .semicolon].map
    (⟨·, [], .nothing, 1⟩)

theorem hollow_blocks_resumed :
    ∃ after, (chronicle hollowBlocks).records =
        [.told 2 ⟨hollowBlocks.drop 3, .needsExpression⟩] ++
          .gaveUp (hollowBlocks.drop 2) (hollowBlocks.drop 3) ::
            .returned none (hollowBlocks.drop 4) :: after ∧
      ∃ e k, Stands hollowBlocks e (hollowBlocks.drop 3) ∧
        Stands hollowBlocks k (hollowBlocks.drop 4) ∧
        IsLeast {k | e + 1 ≤ k ∧ Boundary (Cursor.closed hollowBlocks) k} k := by
  obtain ⟨after, log⟩ : ∃ after, (chronicle hollowBlocks).records =
      [.told 2 ⟨hollowBlocks.drop 3, .needsExpression⟩] ++
        .gaveUp (hollowBlocks.drop 2) (hollowBlocks.drop 3) ::
          .returned none (hollowBlocks.drop 4) :: after := ⟨_, rfl⟩
  obtain ⟨_, e, k, -, -, stands, -, ⟨here, later, split, resumed, -⟩, -, least⟩ :=
    (recovery_goes_to_first_boundary hollowBlocks).2.2 _ _ _ _ log
  cases split
  refine ⟨after, log, e, k, stands, resumed, least ?_⟩
  rw [Ne, stands.kindAt_eof_iff]
  exact List.cons_ne_nil _ _

end Bhasha.Parse
