import Bhasha.Proofs.Reading.Journal

/-!
# Deliveries that fall short

A journal takes reports one by one, each of a line or of a token, and keeps their diagnostics in
order, whatever is logged meanwhile.  Written to a sink with room for some bytes only, it accounts
for every byte: the sink takes the first bytes of the diagnostics' lines, the outcome counts exactly
these, and there is a complaint just if some byte was left over, wherever in a line that happens.

The journal and the sink make up one state here, and a delivery runs on this state.  So a delivery
could change the journal, and that it does not is something to be shown.

Source: benglang, package `diag`: `Error`, `ErrorAt`, `add` and `WriteTo` of `Handler`.
-/

namespace Bhasha

open Text (lineFeed)

/-- What is reported to a journal: a fault of a line, or one of a token. -/
inductive Journal.Entry where
  | atLine (line : Int) (message : Text)
  | atToken (t : Token) (message : Text)

def Journal.Entry.diagnostic : Journal.Entry → Diagnostic
  | .atLine line message => .atLine line message
  | .atToken t message => .atToken t message

namespace Journal

variable {m : Type → Type} [Monad m]

/-- Takes reports one after the other. -/
def enter (logger? : Option (Logger m)) : List Entry → Journal → m Journal
  | [], j => pure j
  | first :: rest, j => do
    let j ← j.record logger? [first.diagnostic]
    enter logger? rest j

variable {σ : Type} (logger? : Option (Logger (StateM σ)))

/-- A journal keeps what is reported behind what it holds, whatever the logger does. -/
theorem record_run (reported : List Diagnostic) (j : Journal) (s : σ) :
    ((j.record logger? reported).run s).1 = ⟨j.diagnostics ++ reported⟩ := by
  cases logger? <;> rfl

theorem enter_run (entries : List Entry) (j : Journal) (s : σ) :
    ((enter logger? entries j).run s).1 =
      ⟨j.diagnostics ++ entries.map Entry.diagnostic⟩ := by
  induction entries generalizing j s with
  | nil =>
    rw [List.map_nil, List.append_nil]
    rfl
  | cons first rest ih =>
    have here := record_run logger? [first.diagnostic] j s
    rw [enter, StateT.run_bind]
    refine (ih _ _).trans ?_
    rw [here, List.map_cons, List.append_assoc]
    rfl

end Journal

/-- A journal and the sink that it is written to. -/
structure Desk where
  journal : Journal
  sink : Sink

namespace Desk

def write (bytes : Text) : StateM Desk Written := fun d =>
  (d.sink.outcome bytes, { d with sink := d.sink.after bytes })

/-- Writes the journal to the sink. -/
def deliver : StateM Desk Written := do
  let d ← get
  d.journal.deliver write

/-- On a desk `x` does what `y` does on the sink alone, and leaves the journal as it was. -/
def Follows {α : Type} (x : StateM Desk α) (y : StateM Sink α) : Prop :=
  ∀ d : Desk, x.run d = ((y.run d.sink).1, { d with sink := (y.run d.sink).2 })

theorem Follows.bind {α β : Type} {x : StateM Desk α} {y : StateM Sink α} {f : α → StateM Desk β}
    {g : α → StateM Sink β} (first : Follows x y) (next : ∀ a, Follows (f a) (g a)) :
    Follows (x >>= f) (y >>= g) := by
  intro d
  rw [StateT.run_bind, first d]
  exact next (y.run d.sink).1 { d with sink := (y.run d.sink).2 }

end Desk

namespace Diagnostic

open Desk (Follows)

theorem deliver_follows (ds : List Diagnostic) :
    Follows (deliver Desk.write ds) (deliver Sink.write ds) := by
  induction ds with
  | nil => exact fun _ => rfl
  | cons first rest ih =>
    have here : Follows (Desk.write (first.render ++ [lineFeed]))
        (Sink.write (first.render ++ [lineFeed])) := fun _ => rfl
    rw [deliver, deliver]
    refine here.bind fun outcome => ?_
    cases outcome.complaint? with
    | some complaint => exact fun _ => rfl
    | none => exact ih.bind fun _ _ => rfl

/-- The lines of diagnostics are their common message and the line feed behind it. -/
theorem joined?_lines (ds : List Diagnostic) :
    (joined? ds).map (· ++ [lineFeed]) = if ds = [] then none else some (lines ds) := by
  have whole : ∀ (first : Diagnostic) (rest : List Diagnostic),
      Text.joinLines ((first :: rest).map render) ++ [lineFeed] = lines (first :: rest) := by
    intro first rest
    induction rest generalizing first with
    | nil => simp [Text.joinLines, Text.joinWith, lines]
    | cons second rest ih =>
      rw [lines_cons, ← ih second]
      simp [Text.joinLines, Text.joinWith, fullLine]
  cases ds with
  | nil => rfl
  | cons first rest =>
    rw [if_neg (List.cons_ne_nil _ _), joined?, Option.map_some, whole]

end Diagnostic

/-- Of the lines of all reports a sink takes as many bytes as it has room for, behind those that it
holds.  The delivery counts these bytes, it complains if they are not all, and it leaves the journal
as it was.  The lines are the message of the journal with a line feed behind it; there is a message
if there is a report, and only then. -/
theorem every_byte_is_accounted_for {σ : Type} (logger? : Option (Logger (StateM σ))) (s : σ)
    (entries : List Journal.Entry) (parts : List Text) (room : Nat) (complaint : Text) :
    let j := ((Journal.enter logger? entries .empty).run s).1
    let all := entries.flatMap fun e => e.diagnostic.render ++ [lineFeed]
    let sink : Sink := ⟨parts, some room, complaint⟩
    let delivery := Desk.deliver.run ⟨j, sink⟩
    j.diagnostics = entries.map Journal.Entry.diagnostic ∧
    delivery.2.sink.taken = sink.taken ++ all.take (min room all.length) ∧
    delivery.1.count = min room all.length ∧
    delivery.1.complaint?.map Diagnostic.undelivered =
      (if room < all.length then some (text "write diagnostic: " ++ complaint) else none) ∧
    delivery.2.journal = j ∧
    j.message?.map (· ++ [lineFeed]) = (if entries = [] then none else some all) := by
  intro j all sink delivery
  have kept : j = ⟨entries.map Journal.Entry.diagnostic⟩ :=
    Journal.enter_run logger? entries .empty s
  have lines : Diagnostic.lines j.diagnostics = all := by
    rw [kept]
    exact List.flatMap_map ..
  obtain ⟨outcome, like⟩ := Diagnostic.deliver_run j.diagnostics sink
  rw [lines] at outcome like
  have alone := Diagnostic.deliver_follows j.diagnostics ⟨j, sink⟩
  have told : delivery.1 = sink.outcome all := (congrArg Prod.fst alone).trans outcome
  have taken : delivery.2.sink.taken = (sink.after all).taken :=
    (congrArg (·.2.sink.taken) alone).trans like.taken
  have fits : sink.fitting all = min room all.length := rfl
  refine ⟨by rw [kept], ?_, ?_, ?_, congrArg (·.2.journal) alone, ?_⟩
  · rw [taken, Sink.taken_after, fits]
  · rw [told, Sink.outcome, fits]
  · rw [told, Sink.outcome, fits]
    by_cases cut : room < all.length
    · rw [if_pos cut, if_pos (by omega)]
      rfl
    · rw [if_neg cut, if_neg (by omega)]
      rfl
  · rw [Journal.message?, Diagnostic.joined?_lines, lines, kept]
    simp only [List.map_eq_nil_iff]

/-- A sink that is full at the end of the first line complains about the second. -/
example :
    let j : Journal := ⟨[.atLine 1 (text "x"), .atToken ⟨.eof, [], .nothing, 2⟩ (text "y")]⟩
    (Desk.deliver.run ⟨j, .limited 18 (text "boom")⟩).1 = ⟨18, some (text "boom")⟩ := by
  decide +kernel

end Bhasha
