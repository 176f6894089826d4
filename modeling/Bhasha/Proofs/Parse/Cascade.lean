import Bhasha.Proofs.Parse.Resumption

/-!
# No cascades of faults

A fatal fault is behind every place that parsing goes on at afterwards, so no token is blamed by two
of them.  The end of the input is the exception: nothing is behind it.  There every block that is
still open may fail once more, for want of its closing brace, but nothing else is tried.
-/

namespace Bhasha.Parse

/-- A fatal report, with the number of blocks that are open. -/
structure Failure where
  blocks : Nat
  report : Report

/-- The failure of an event. -/
def Event.failure? : Event → Option Failure
  | .told blocks report => if report.fault.isFatal then some ⟨blocks, report⟩ else none
  | _ => none

/-- The failures of a log, one after the other. -/
def failures (log : List Event) : List Failure := log.filterMap Event.failure?

namespace Failure

/-- Whether a failure is at the end of the input. -/
def atEnd (f : Failure) : Bool := f.report.ahead.isEmpty

/-- A failure stands before a place, or both are at the end of the input. -/
def Before (f : Failure) (rest : List Token) : Prop :=
  rest.length < f.report.ahead.length ∨ (f.report.ahead = [] ∧ rest = [])

end Failure

section

variable {blocks : Nat} {report : Report} {log later : List Event}

@[simp] theorem failures_append : failures (log ++ later) = failures log ++ failures later :=
  List.filterMap_append

@[simp] theorem failures_gaveUp {start blamed : List Token} :
    failures (.gaveUp start blamed :: log) = failures log := rfl

@[simp] theorem failures_returned {result : Option Stmt} {here : List Token} :
    failures (.returned result here :: log) = failures log := rfl

theorem failures_mild (mild : report.fault.isFatal = false) :
    failures (.told blocks report :: log) = failures log := by
  simp [failures, Event.failure?, mild]

theorem failures_fatal (fatal : report.fault.isFatal = true) :
    failures (.told blocks report :: log) = ⟨blocks, report⟩ :: failures log := by
  simp [failures, Event.failure?, fatal]

end

theorem Settled.failure_inside {ts : List Token} {log : List Event} (h : Settled ts log) :
    ∀ f ∈ failures log, f.report.ahead <:+ ts := by
  induction h with
  | nil => exact List.forall_mem_nil _
  | mild mild _ ih => rwa [failures_mild mild]
  | kept _ ih => exact ih
  | failed fatal _ inside further _ ih =>
    rw [failures_fatal fatal]
    exact List.forall_mem_cons.mpr ⟨further.trans inside, ih⟩

theorem Failure.Before.later {f : Failure} {mid rest : List Token} (h : f.Before mid)
    (further : rest <:+ mid) : f.Before rest := by
  rcases h with shorter | ⟨final, rfl⟩
  · exact .inl (Nat.lt_of_le_of_lt further.length_le shorter)
  · exact .inr ⟨final, List.suffix_nil.mp further⟩

theorem resume_shorter {ts : List Token} (inside : ts ≠ []) : (resume ts).length < ts.length := by
  cases ts with
  | nil => exact absurd rfl inside
  | cons t rest =>
    obtain ⟨skipped, split⟩ := resume_split t rest
    have lengths := congrArg List.length split
    simp only [List.length_append, List.length_cons] at lengths ⊢
    omega

/-- The last of the failures is at `rest`, the others before it. -/
def BreaksAt (fs : List Failure) (rest : List Token) : Prop :=
  ∃ others last, fs = others ++ [last] ∧ last.report.ahead = rest ∧ ∀ f ∈ others, f.Before rest

theorem BreaksAt.before_resume {fs : List Failure} {rest : List Token} (h : BreaksAt fs rest) :
    ∀ f ∈ fs, f.Before (resume rest) := by
  obtain ⟨others, last, rfl, place, past⟩ := h
  refine List.forall_mem_append.mpr
    ⟨fun f member => (past f member).later (resume_isSuffix rest), ?_⟩
  rw [List.forall_mem_singleton, Failure.Before, place]
  by_cases final : rest = []
  · exact .inr ⟨final, by rw [final]; rfl⟩
  · exact .inl (resume_shorter final)

/-- In front of a token nothing has failed at the end of the input. -/
theorem BreaksAt.none_atEnd {fs : List Failure} {rest : List Token} (h : BreaksAt fs rest)
    (inside : rest ≠ []) : ∀ f ∈ fs, f.atEnd = false := by
  obtain ⟨others, last, rfl, place, past⟩ := h
  refine List.forall_mem_append.mpr ⟨fun f member => ?_, ?_⟩
  · rcases past f member with shorter | ⟨-, final⟩
    · exact List.isEmpty_eq_false_iff.mpr (List.ne_nil_of_length_pos (by omega))
    · exact absurd final inside
  · rw [List.forall_mem_singleton, Failure.atEnd, place]
    exact List.isEmpty_eq_false_iff.mpr inside

mutual

/-- A stretch that goes well leads past all its failures. -/
theorem Passage.past {blocks : Nat} {ts rest : List Token} {log : List Event} :
    Passage blocks ts log rest → ∀ f ∈ failures log, rest.length < f.report.ahead.length
  | .stay => List.forall_mem_nil _
  | .read next => next.past
  | .told mild next => by
    rw [failures_mild mild]
    exact next.past
  | .block inside next => by
    rw [failures_append]
    refine List.forall_mem_append.mpr ⟨?_, next.past⟩
    intro f member
    have le := next.suffix.length_le
    -- the block is closed by a token, so its end is not the end of the input
    rcases inside.past f member with shorter | ⟨-, empty⟩
    · rw [List.length_cons] at shorter
      omega
    · cases empty

/-- A loop over declarations stops behind its failures, or with them at the end of the input. -/
theorem Rounds.past {blocks : Nat} {ts rest : List Token} {log : List Event} :
    Rounds blocks ts log rest → ∀ f ∈ failures log, f.Before rest
  | .stop => List.forall_mem_nil _
  | .kept first next => by
    rw [failures_append, failures_returned]
    refine List.forall_mem_append.mpr ⟨?_, next.past⟩
    intro f member
    exact .inl (Nat.lt_of_le_of_lt next.suffix.length_le (first.past f member))
  | .given _ first next => by
    rw [failures_append, failures_gaveUp, failures_returned]
    refine List.forall_mem_append.mpr ⟨?_, next.past⟩
    exact fun f member => (first.past.before_resume f member).later next.suffix

/-- The last failure of a declaration that breaks down is at the place where it does. -/
theorem Breakdown.past {blocks : Nat} {ts rest : List Token} {log : List Event} :
    Breakdown blocks ts log rest → BreaksAt (failures log) rest
  | .here before fatal => by
    rw [failures_append, failures_fatal fatal]
    exact ⟨_, _, rfl, rfl, fun f member => .inl (before.past f member)⟩
  | .unclosed before inside fatal => by
    rw [failures_append, failures_append, failures_fatal fatal, ← List.append_assoc]
    refine ⟨_, _, rfl, rfl, List.forall_mem_append.mpr ⟨?_, inside.past⟩⟩
    intro f member
    exact .inl (Nat.lt_of_le_of_lt inside.suffix.length_le (before.past f member))

end

/-- Later failures are further on, or at the end of the input like earlier ones. -/
def InOrder (fs : List Failure) : Prop := fs.Pairwise fun f g => f.Before g.report.ahead

theorem InOrder.append {fs gs : List Failure} {mid : List Token} (first : InOrder fs)
    (next : InOrder gs) (past : ∀ f ∈ fs, f.Before mid)
    (inside : ∀ g ∈ gs, g.report.ahead <:+ mid) : InOrder (fs ++ gs) :=
  List.pairwise_append.mpr ⟨first, next, fun f member g member' =>
    (past f member).later (inside g member')⟩

theorem InOrder.snoc {fs : List Failure} {last : Failure} (h : InOrder fs)
    (past : ∀ f ∈ fs, f.Before last.report.ahead) : InOrder (fs ++ [last]) :=
  h.append (List.pairwise_singleton _ last) past
    (List.forall_mem_singleton.mpr (List.suffix_refl _))

mutual

theorem Passage.inOrder {blocks : Nat} {ts rest : List Token} {log : List Event} :
    Passage blocks ts log rest → InOrder (failures log)
  | .stay => List.Pairwise.nil
  | .read next => next.inOrder
  | .told mild next => by
    rw [failures_mild mild]
    exact next.inOrder
  | .block inside next => by
    rw [failures_append]
    exact inside.inOrder.append next.inOrder inside.past fun g member =>
      (next.settled.failure_inside g member).trans (List.suffix_cons _ _)

theorem Rounds.inOrder {blocks : Nat} {ts rest : List Token} {log : List Event} :
    Rounds blocks ts log rest → InOrder (failures log)
  | .stop => List.Pairwise.nil
  | .kept first next => by
    rw [failures_append, failures_returned]
    exact first.inOrder.append next.inOrder (fun f member => .inl (first.past f member))
      next.settled.failure_inside
  | .given _ first next => by
    rw [failures_append, failures_gaveUp, failures_returned]
    exact first.inOrder.append next.inOrder first.past.before_resume next.settled.failure_inside

theorem Breakdown.inOrder {blocks : Nat} {ts rest : List Token} {log : List Event} :
    Breakdown blocks ts log rest → InOrder (failures log)
  | .here before fatal => by
    rw [failures_append, failures_fatal fatal]
    exact before.inOrder.snoc fun f member => .inl (before.past f member)
  | .unclosed before inside fatal => by
    rw [failures_append, failures_append, failures_fatal fatal]
    refine before.inOrder.append (inside.inOrder.snoc inside.past)
      (fun f member => .inl (before.past f member)) ?_
    exact List.forall_mem_append.mpr
      ⟨inside.settled.failure_inside, List.forall_mem_singleton.mpr inside.suffix⟩

end

/-- Inside a number of open blocks: the first failure at the end of the input is followed by at most
one more for each block that has been opened since then and is open when it happens. -/
def Capped (blocks : Nat) (fs : List Failure) : Prop :=
  ∀ first others, fs.filter Failure.atEnd = first :: others →
    blocks + others.length ≤ first.blocks

section

variable {blocks : Nat} {fs gs : List Failure}

theorem Capped.append (inside : ∀ f ∈ fs, f.atEnd = false) (next : Capped blocks gs) :
    Capped blocks (fs ++ gs) := by
  have none : fs.filter Failure.atEnd = [] :=
    List.filter_eq_nil_iff.mpr fun f member => by simp [inside f member]
  intro first others split
  rw [List.filter_append, none] at split
  exact next first others split

theorem capped_nil : Capped blocks [] := fun _ _ split => by cases split

theorem capped_singleton {report : Report} : Capped blocks [⟨blocks, report⟩] := by
  intro first others split
  cases final : Failure.atEnd ⟨blocks, report⟩ with
  | false => simp [final] at split
  | true =>
    simp only [List.filter_cons, final, if_true, List.filter_nil, List.cons.injEq] at split
    obtain ⟨rfl, rfl⟩ := split
    exact Nat.le_refl blocks

/-- The failure of a block that is not closed comes on top of the failures inside. -/
theorem Capped.unclosed {report : Report} (inner : Capped (blocks + 1) fs) :
    Capped blocks (fs ++ [⟨blocks + 1, report⟩]) := by
  intro first others split
  rw [List.filter_append] at split
  cases ends : fs.filter Failure.atEnd with
  | nil =>
    rw [ends, List.nil_append] at split
    have outer := capped_singleton first others split
    omega
  | cons f more =>
    rw [ends, List.cons_append, List.cons.injEq] at split
    obtain ⟨rfl, rfl⟩ := split
    -- the bound inside has one block more to go by, which pays for the failure added here
    have bound := inner f more ends
    have le := List.length_filter_le Failure.atEnd [⟨blocks + 1, report⟩]
    rw [List.length_append]
    simp only [List.length_cons, List.length_nil] at le
    omega

end

theorem Passage.none_atEnd {blocks : Nat} {ts rest : List Token} {log : List Event}
    (h : Passage blocks ts log rest) : ∀ f ∈ failures log, f.atEnd = false := by
  intro f member
  have further := h.past f member
  exact List.isEmpty_eq_false_iff.mpr (List.ne_nil_of_length_pos (by omega))

/-- At the end of the input, no declaration is begun. -/
theorem Rounds.failures_at_end {blocks : Nat} {ts rest : List Token} {log : List Event} :
    Rounds blocks ts log rest → ts = [] → failures log = []
  | .stop, _ => rfl
  | .kept first next, final => by
    rw [failures_append, failures_returned]
    subst final
    have quiet : failures _ = [] := List.eq_nil_iff_forall_not_mem.mpr fun f member => by
      have none := first.none_atEnd f member
      rw [Failure.atEnd, List.suffix_nil.mp (first.settled.failure_inside f member)] at none
      cases none
    rw [quiet, next.failures_at_end (List.suffix_nil.mp first.suffix)]
    rfl
  | .given call _ _, final => absurd final call.begins

mutual

theorem Rounds.capped {blocks : Nat} {ts rest : List Token} {log : List Event} :
    Rounds blocks ts log rest → Capped blocks (failures log)
  | .stop => capped_nil
  | .kept first next => by
    rw [failures_append, failures_returned]
    exact next.capped.append first.none_atEnd
  | @Rounds.given _ _ mid _ _ _ _ first next => by
    rw [failures_append, failures_gaveUp, failures_returned]
    by_cases final : mid = []
    -- behind a breakdown at the end of the input the loop has nothing left to try
    · rw [next.failures_at_end (by rw [final]; rfl), List.append_nil]
      exact first.capped
    · exact next.capped.append (first.past.none_atEnd final)

theorem Breakdown.capped {blocks : Nat} {ts rest : List Token} {log : List Event} :
    Breakdown blocks ts log rest → Capped blocks (failures log)
  | .here before fatal => by
    rw [failures_append, failures_fatal fatal]
    exact capped_singleton.append before.none_atEnd
  | .unclosed before inside fatal => by
    rw [failures_append, failures_append, failures_fatal fatal]
    exact inside.capped.unclosed.append before.none_atEnd

end

/-- A fatal report of a run: the number of the token it blames, how many blocks are open, and the
fault. -/
structure Blame where
  place : Nat
  blocks : Nat
  fault : SyntaxFault
deriving DecidableEq, Repr

def Failure.blame (ts : List Token) (f : Failure) : Blame where
  place := (body ts).length - f.report.ahead.length
  blocks := f.blocks
  fault := f.report.attach (endToken ts)

/-- The fatal reports of the run on a list of tokens. -/
def blames (ts : List Token) : List Blame :=
  (failures (chronicle ts).records).map (Failure.blame ts)

theorem failures_reports (log : List Event) :
    (failures log).map (·.report) = (log.filterMap Event.report?).filter (·.fault.isFatal) := by
  induction log with
  | nil => rfl
  | cons event log ih =>
    cases event with
    | gaveUp start blamed => exact ih
    | returned result here => exact ih
    | told blocks report =>
      have told : (.told blocks report :: log).filterMap Event.report? =
          report :: log.filterMap Event.report? := rfl
      cases fatal : report.fault.isFatal with
      | true => simp [failures_fatal fatal, told, fatal, ih]
      | false => simp [failures_mild fatal, told, fatal, ih]

/-- A report is fatal if the declaration is given up for it, and only then. -/
theorem Settled.fatal_iff {ts : List Token} {log before after : List Event} {blocks : Nat}
    {report : Report} (h : Settled ts log) (split : log = before ++ .told blocks report :: after) :
    report.fault.isFatal = true ↔
      ∃ start later, after = .gaveUp start report.ahead :: later := by
  induction h generalizing before with
  | nil => simp at split
  | mild mild next ih =>
    cases before with
    | nil =>
      cases split
      refine ⟨fun fatal => absurd (mild.symm.trans fatal) Bool.false_ne_true, ?_⟩
      rintro ⟨start, later, rfl⟩
      cases next
    | cons event before =>
      rw [List.cons_append, List.cons.injEq] at split
      exact ih split.2
  | kept _ ih =>
    cases before with
    | nil => cases split
    | cons event before =>
      rw [List.cons_append, List.cons.injEq] at split
      exact ih split.2
  | failed fatal _ _ _ _ ih =>
    rcases before with _ | ⟨first, _ | ⟨second, _ | ⟨third, before⟩⟩⟩
    · cases split
      exact ⟨fun _ => ⟨_, _, rfl⟩, fun _ => fatal⟩
    · cases split
    · cases split
    · simp only [List.cons_append, List.cons.injEq] at split
      exact ih split.2.2.2

section

variable {ts : List Token} {f : Failure}

theorem Failure.stands (inside : f.report.ahead <:+ body ts) :
    Stands ts (f.blame ts).place f.report.ahead := by
  obtain ⟨read, split⟩ := inside
  have place : (f.blame ts).place = read.length := by simp [Failure.blame, ← split]
  exact ⟨by simp [place, ← split], by simp [place, ← split]⟩

/-- A failure is at the end of the input if its place is. -/
theorem Failure.atEnd_eq (inside : f.report.ahead <:+ body ts) :
    (kindAt (Cursor.closed ts) (f.blame ts).place == some .eof) = f.atEnd := by
  rw [Bool.eq_iff_iff, beq_iff_eq, (Failure.stands inside).kindAt_eof_iff, Failure.atEnd,
    List.isEmpty_iff]

theorem Failure.Before.place {g : Failure} (h : f.Before g.report.ahead)
    (inside : f.report.ahead <:+ body ts) :
    (f.blame ts).place < (g.blame ts).place ∨
      (kindAt (Cursor.closed ts) (f.blame ts).place = some .eof ∧
        (g.blame ts).place = (f.blame ts).place) := by
  rcases h with further | ⟨final, final'⟩
  · have le := inside.length_le
    exact .inl (by simp only [Failure.blame]; omega)
  · refine .inr ⟨(Failure.stands inside).kindAt_eof_iff.mpr final, ?_⟩
    simp only [Failure.blame, final, final']

end

theorem countP_le_one {α : Type} {p : α → Bool} {l : List α}
    (h : l.Pairwise fun a b => ¬ (p a = true ∧ p b = true)) : l.countP p ≤ 1 := by
  induction h with
  | nil => simp
  | @cons a l apart _ ih =>
    cases found : p a with
    | false => simpa [found] using ih
    | true =>
      have none : l.countP p = 0 := List.countP_eq_zero.mpr fun b member holds =>
        apart b member ⟨found, holds⟩
      simp [found, none]

section

variable (ts : List Token)

theorem failure_inside_body : ∀ f ∈ failures (chronicle ts).records, f.report.ahead <:+ body ts :=
  (chronicle_settled ts).failure_inside

theorem blames_faults :
    (blames ts).map (·.fault) = (recorded ts).records.filter (·.fault.isFatal) :=
  calc
    (blames ts).map (·.fault)
      = ((failures (chronicle ts).records).map (·.report)).map (Report.attach (endToken ts)) := by
        rw [blames, List.map_map, List.map_map]
        rfl
    _ = (recorded ts).records.filter (·.fault.isFatal) := by
        rw [failures_reports, ← (chronicle_recorded ts).2, List.filter_map]
        rfl

theorem blames_increase : (blames ts).Pairwise fun a b => a.place < b.place ∨
    (kindAt (Cursor.closed ts) a.place = some .eof ∧ b.place = a.place) := by
  obtain ⟨rest, rounds⟩ := chronicle_rounds ts
  refine List.pairwise_map.mpr (rounds.inOrder.imp_of_mem ?_)
  intro f g member _ before
  exact before.place (failure_inside_body ts f member)

theorem blames_capped (first : Blame) (others : List Blame)
    (ends : (blames ts).filter (kindAt (Cursor.closed ts) ·.place == some .eof) =
      first :: others) : others.length ≤ first.blocks := by
  obtain ⟨rest, rounds⟩ := chronicle_rounds ts
  have same : (failures (chronicle ts).records).filter
      ((kindAt (Cursor.closed ts) ·.place == some .eof) ∘ Failure.blame ts) =
      (failures (chronicle ts).records).filter Failure.atEnd :=
    List.filter_congr fun f member => Failure.atEnd_eq (failure_inside_body ts f member)
  rw [blames, List.filter_map, same] at ends
  obtain ⟨f, more, atEnd, rfl, rfl⟩ := List.map_eq_cons_iff.mp ends
  have bound := rounds.capped f more atEnd
  rw [List.length_map]
  show more.length ≤ f.blocks
  omega

end

/-- Faults do not cascade.  A fatal report is one for which a declaration is given up.  The places
of the fatal reports of a run increase until the end of the input is reached, so no other token is
blamed by two of them.  The end of the input is blamed at most once for each block that is open when
that happens first, and once more. -/
theorem fatal_faults_never_cascade (ts : List Token) :
    ((chronicle ts).records.filterMap Event.report?).map (Report.attach (endToken ts)) =
      (recorded ts).records ∧
    (∀ before blocks report after,
      (chronicle ts).records = before ++ .told blocks report :: after →
      (report.fault.isFatal = true ↔ ∃ start later, after = .gaveUp start report.ahead :: later)) ∧
    (blames ts).map (·.fault) = (recorded ts).records.filter (·.fault.isFatal) ∧
    (∀ b ∈ blames ts, (Cursor.closed ts)[b.place]? = some b.fault.token) ∧
    (blames ts).Pairwise (fun a b => a.place < b.place ∨
      (kindAt (Cursor.closed ts) a.place = some .eof ∧ b.place = a.place)) ∧
    (∀ k, kindAt (Cursor.closed ts) k ≠ some .eof → (blames ts).countP (·.place == k) ≤ 1) ∧
    ∀ first others,
      (blames ts).filter (kindAt (Cursor.closed ts) ·.place == some .eof) = first :: others →
      (first :: others).length ≤ 1 + first.blocks := by
  refine ⟨(chronicle_recorded ts).2, fun _ _ _ _ split => (chronicle_settled ts).fatal_iff split,
    blames_faults ts, ?_, blames_increase ts, ?_, ?_⟩
  · intro b blamed
    obtain ⟨f, member, rfl⟩ := List.mem_map.mp blamed
    exact (Failure.stands (failure_inside_body ts f member)).token
  · intro k noEnd
    refine countP_le_one ((blames_increase ts).imp ?_)
    rintro a b apart ⟨here, here'⟩
    rw [beq_iff_eq] at here here'
    rcases apart with further | ⟨final, -⟩
    · omega
    · exact noEnd (here ▸ final)
  · intro first others ends
    have bound := blames_capped ts first others ends
    rw [List.length_cons]
    omega

/-- Two blocks and a statement that all go on to the end of the input. -/
def openBlocks : List Token :=
  [.leftBrace, .leftBrace, .print].map (⟨·, [], .nothing, 1⟩)

theorem open_blocks_blame_the_end :
    (blames openBlocks).map (·.place) = [3, 3, 3] ∧
    ∃ first others, (blames openBlocks).filter
        (kindAt (Cursor.closed openBlocks) ·.place == some .eof) = first :: others ∧
      first.blocks = 2 ∧ (first :: others).length ≤ 1 + first.blocks := by
  obtain ⟨first, others, split, blocks⟩ : ∃ first others, (blames openBlocks).filter
      (kindAt (Cursor.closed openBlocks) ·.place == some .eof) = first :: others ∧
      first.blocks = 2 := ⟨_, _, rfl, rfl⟩
  exact ⟨rfl, first, others, split, blocks,
    (fatal_faults_never_cascade openBlocks).2.2.2.2.2.2 first others split⟩

end Bhasha.Parse
