import Bhasha.Proofs.Command.Start

/-!
# What a run writes

In a world with room on both outputs a run is described by its value and by the bytes it adds to
either output; nothing else in the world changes.  Such descriptions compose along `>>=`: the bytes
of the second part come behind those of the first, and a failure ends the run.

The services of a host, and the parts that the commands are made of, are described one by one, for
the plain session.
-/

namespace Bhasha

open Text (lineFeed)

/-- A world with the input and the files of another, and room on both outputs. -/
structure World.Like (base w : World) : Prop where
  input : w.input = base.input
  files : w.files = base.files
  out : w.out.room = none
  err : w.err.room = none

/-- In every world like `base` the run ends with the value, adds the bytes to the outputs, and
changes nothing else. -/
def Writes {α : Type} (base : World) (x : StateM World α) (value : α) (out err : Text) : Prop :=
  ∀ w, base.Like w → ∃ w', x.run w = (value, w') ∧ base.Like w' ∧
    w'.out.taken = w.out.taken ++ out ∧ w'.err.taken = w.err.taken ++ err

namespace Writes

variable {α β : Type} {base : World} {out err out' err' : Text}

theorem done (a : α) : Writes base (pure a) a [] [] :=
  fun w like => ⟨w, rfl, like, by simp, by simp⟩

theorem bind {x : StateM World α} {f : α → StateM World β} {a : α} {b : β}
    (first : Writes base x a out err) (next : Writes base (f a) b out' err') :
    Writes base (x >>= f) b (out ++ out') (err ++ err') := by
  intro w like
  obtain ⟨w', ran, like', toOut, toErr⟩ := first w like
  obtain ⟨w'', ran', like'', toOut', toErr'⟩ := next w' like'
  refine ⟨w'', ?_, like'', ?_, ?_⟩
  · rw [StateT.run_bind, ran]
    exact ran'
  · rw [toOut', toOut, List.append_assoc]
  · rw [toErr', toErr, List.append_assoc]

theorem map {x : StateM World α} {a : α} (inner : Writes base x a out err) (f : α → β) :
    Writes base (f <$> x) (f a) out err := by
  intro w like
  obtain ⟨w', ran, rest⟩ := inner w like
  refine ⟨w', ?_, rest⟩
  rw [StateT.run_map, ran]
  rfl

/-- A run whose first part writes nothing. -/
theorem after {x : StateM World α} {f : α → StateM World β} {a : α} {b : β}
    (first : Writes base x a [] []) (next : Writes base (f a) b out err) :
    Writes base (x >>= f) b out err :=
  first.bind next

/-- A run whose second part writes nothing. -/
theorem before {x : StateM World α} {f : α → StateM World β} {a : α} {b : β}
    (first : Writes base x a out err) (next : Writes base (f a) b [] []) :
    Writes base (x >>= f) b out err := by
  have whole := first.bind next
  rwa [List.append_nil, List.append_nil] at whole

theorem lift {x : StateM World α} {a : α} (inner : Writes base x a out err) :
    Writes base (ExceptT.lift x : ExceptT Failure (StateM World) α).run (.ok a) out err :=
  inner.map Except.ok

theorem bindOk {x : ExceptT Failure (StateM World) α} {f : α → ExceptT Failure (StateM World) β}
    {a : α} {r : Except Failure β} (first : Writes base x.run (.ok a) out err)
    (next : Writes base (f a).run r out' err') :
    Writes base (x >>= f).run r (out ++ out') (err ++ err') := by
  rw [ExceptT.run_bind]
  exact first.bind next

theorem afterOk {x : ExceptT Failure (StateM World) α} {f : α → ExceptT Failure (StateM World) β}
    {a : α} {r : Except Failure β} (first : Writes base x.run (.ok a) [] [])
    (next : Writes base (f a).run r out err) : Writes base (x >>= f).run r out err :=
  first.bindOk next

theorem beforeOk {x : ExceptT Failure (StateM World) α} {f : α → ExceptT Failure (StateM World) β}
    {a : α} {r : Except Failure β} (first : Writes base x.run (.ok a) out err)
    (next : Writes base (f a).run r [] []) : Writes base (x >>= f).run r out err := by
  rw [ExceptT.run_bind]
  exact first.before next

theorem bindError {x : ExceptT Failure (StateM World) α}
    {f : α → ExceptT Failure (StateM World) β} {failure : Failure}
    (first : Writes base x.run (.error failure) out err) :
    Writes base (x >>= f).run (.error failure) out err := by
  rw [ExceptT.run_bind]
  exact first.before (done _)

/-- What is written to fresh outputs is all there is on them. -/
theorem run_fresh {w : World} {x : StateM World α} {a : α} (freshOut : w.out = .unlimited)
    (freshErr : w.err = .unlimited) (ran : Writes w x a out err) :
    ∃ w', x.run w = (a, w') ∧ w'.out.taken = out ∧ w'.err.taken = err := by
  have like : w.Like w := ⟨rfl, rfl, by rw [freshOut]; rfl, by rw [freshErr]; rfl⟩
  obtain ⟨w', same, -, toOut, toErr⟩ := ran w like
  rw [freshOut] at toOut
  rw [freshErr] at toErr
  exact ⟨w', same, toOut, toErr⟩

end Writes

namespace Sink

theorem fitting_of_room {s : Sink} (roomy : s.room = none) (bytes : Text) :
    s.fitting bytes = bytes.length := by
  rw [fitting, roomy]

theorem outcome_of_room {s : Sink} (roomy : s.room = none) (bytes : Text) :
    s.outcome bytes = ⟨bytes.length, none⟩ := by
  rw [outcome, fitting_of_room roomy, if_neg (Nat.lt_irrefl _)]

theorem room_after {s : Sink} (roomy : s.room = none) (bytes : Text) :
    (s.after bytes).room = none := by
  simp [after, roomy]

theorem taken_after_of_room {s : Sink} (roomy : s.room = none) (bytes : Text) :
    (s.after bytes).taken = s.taken ++ bytes := by
  rw [taken_after, fitting_of_room roomy, List.take_length]

end Sink

section

variable {base : World}

theorem writes_out (bytes : Text) :
    Writes base (World.host.out bytes) ⟨bytes.length, none⟩ bytes [] := by
  intro w like
  refine ⟨{ w with out := w.out.after bytes }, ?_,
    ⟨like.input, like.files, Sink.room_after like.out bytes, like.err⟩,
    Sink.taken_after_of_room like.out bytes, by simp⟩
  rw [← Sink.outcome_of_room like.out bytes]
  rfl

theorem writes_err (bytes : Text) :
    Writes base (World.host.err bytes) ⟨bytes.length, none⟩ [] bytes := by
  intro w like
  refine ⟨{ w with err := w.err.after bytes }, ?_,
    ⟨like.input, like.files, like.out, Sink.room_after like.err bytes⟩, by simp,
    Sink.taken_after_of_room like.err bytes⟩
  rw [← Sink.outcome_of_room like.err bytes]
  rfl

theorem writes_input : Writes base World.host.input base.input [] [] := by
  intro w like
  refine ⟨w, ?_, like, by simp, by simp⟩
  rw [← like.input]
  rfl

theorem writes_readFile (path : Text) :
    Writes base (World.host.readFile path) (base.files.read path) [] [] := by
  intro w like
  refine ⟨w, ?_, like, by simp, by simp⟩
  rw [← like.files]
  rfl

/-- Writing texts one after the other. -/
theorem writes_writeAll {write : Text → StateM World Written} {toOut toErr : Text → Text}
    {outcome : Text → Written}
    (each : ∀ bytes, Writes base (write bytes) (outcome bytes) (toOut bytes) (toErr bytes))
    (lines : List Text) :
    Writes base (Session.writeAll write lines) () (lines.flatMap toOut) (lines.flatMap toErr) := by
  induction lines with
  | nil => exact .done ()
  | cons first rest ih =>
    rw [Session.writeAll, List.flatMap_cons, List.flatMap_cons]
    exact (each first).bind ih

theorem writes_allOut (lines : List Text) :
    Writes base (Session.writeAll World.host.out lines) () lines.flatten [] := by
  have all := @writes_writeAll base _ _ _ _ writes_out lines
  rwa [List.flatMap_id', List.flatMap_eq_nil_iff.mpr fun _ _ => rfl] at all

end

/-- Diagnostics as they are delivered, each on a line of its own. -/
def Diagnostic.lines (ds : List Diagnostic) : Text := ds.flatMap fun d => d.render ++ [lineFeed]

theorem writes_deliver {base : World} (ds : List Diagnostic) :
    Writes base (Diagnostic.deliver World.host.err ds) ⟨(Diagnostic.lines ds).length, none⟩ []
      (Diagnostic.lines ds) := by
  induction ds with
  | nil => exact .done _
  | cons first rest ih =>
    have whole : Diagnostic.lines (first :: rest) =
        first.render ++ [lineFeed] ++ Diagnostic.lines rest := List.flatMap_cons
    rw [Diagnostic.deliver, whole, List.length_append]
    exact (writes_err (first.render ++ [lineFeed])).bind (ih.before (.done _))

namespace Session

variable {base : World}

/-- The plain session on the host of a world. -/
abbrev plain : Session (StateM World) := plainOn World.host

theorem writes_journal (host : Host (StateM World)) (ds : List Diagnostic) :
    Writes base ((plainOn host).journal ds) ⟨ds⟩ [] [] := by
  rw [journal_eq]
  exact .done _

theorem writes_log {level : LogLevel} (low : ¬ LogLevel.warn ≤ level) (message : Text)
    (attributes : List (Text × LogValue)) :
    Writes base (plain.logger.log ⟨level, message, attributes⟩) () [] [] := by
  rw [log_silent World.host low]
  exact .done _

theorem writes_source {name content : Text} (named : name ≠ Source.inputOperand)
    (readable : base.files.read name = .ok content) :
    Writes base (plain.source (some name)).run (.ok ⟨name, content⟩) [] [] := by
  have read := @writes_readFile base name
  rw [readable] at read
  rw [source]
  simp only [Option.getD_some, if_neg named]
  exact read.lift.afterOk (.done _)

/-- The input is the source when there is no operand, and when the operand stands for it. -/
theorem writes_source_input {operand? : Option Text} {content : Text}
    (named : operand?.getD Source.inputOperand = Source.inputOperand)
    (given : base.input = .ok content) :
    Writes base (plain.source operand?).run (.ok ⟨Source.inputName, content⟩) [] [] := by
  have read := @writes_input base
  rw [given] at read
  rw [source]
  simp only [if_pos named]
  exact read.lift.afterOk (.done _)

theorem writes_give (result : Text) : Writes base (plain.give result).run (.ok ()) result [] := by
  rw [give]
  exact (writes_out result).lift.beforeOk (.done _)

/-- How a command ends that reports the diagnostics of a source. -/
def ending (name : Text) (ds : List Diagnostic) : Except Failure Unit :=
  if ds = [] then .ok () else .error (.faulty name ⟨ds⟩)

/-- The diagnostics of a source are delivered; if there are any, they are the command's failure. -/
theorem writes_report (source : Source) (ds : List Diagnostic) :
    Writes base (plain.report source ⟨ds⟩).run (ending source.name ds) []
      (Diagnostic.lines ds) := by
  cases ds with
  | nil => exact .done _
  | cons first rest =>
    rw [report, if_pos (by simp [Journal.isFaulty, Journal.count])]
    exact (writes_deliver (first :: rest)).lift.beforeOk
      ((writes_log info_low _ _).lift.afterOk (.done _))

end Session

end Bhasha
