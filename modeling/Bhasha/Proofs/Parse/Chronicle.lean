import Bhasha.Proofs.Parse.Listener

/-!
# The chronicle of a run

The grammar of statements once more, with a log of what happens in the course of a run.  Three
things are noted: that a fault is told, with the number of blocks that are open at that moment; that
a declaration is given up, as it is seen where a failure is recovered from; and what a declaration
returned to the loop that asked for it, with the place where the loop goes on.

A chronicle changes nothing about the run: without its additions it is the record of the run.

Source: benglang, package `parser`: `Parse`, `declaration`, `statement` and `block`.
-/

namespace Bhasha.Parse

/-- What happens in the course of a run. Places are the tokens from there on. -/
inductive Event where
  | told (blocks : Nat) (report : Report)
  /-- A declaration that began at `start` failed at `blamed`. -/
  | gaveUp (start blamed : List Token)
  /-- A loop over declarations got a result and goes on at `here`. -/
  | returned (result : Option Stmt) (here : List Token)
deriving Repr

/-- The listener inside a number of open blocks. -/
def noteIn (blocks : Nat) : Listener (Recorded Event) := fun r => Recorded.note (.told blocks r)

/-- Recovers from a failure and notes it down. -/
def givingUp {α : Type} (p : Parser (Recorded Event) α) : Parser (Recorded Event) (Option α) :=
  fun ts => do
    match ← p ts with
    | .done a rest => pure (.done (some a) rest)
    | .bail rest =>
      Recorded.note (.gaveUp ts rest)
      pure (.done none (resume rest))

/-- Notes down what a declaration returned, and the next token. -/
def returned (result : Option Stmt) : Parser (Recorded Event) Unit := fun ts => do
  Recorded.note (.returned result ts)
  pure (.done () ts)

mutual

def statementIn : Nat → Nat → Parser (Recorded Event) Stmt
  | 0, _ => spent
  | n + 1, blocks => do
    match ← accept beginsStatement with
    | none => expressionStatement (noteIn blocks)
    | some t =>
      match t.kind with
      | .for_ => forTail (noteIn blocks) (statementIn n blocks)
      | .if_ => ifTail (noteIn blocks) (statementIn n blocks)
      | .print => printTail (noteIn blocks)
      | .while_ => whileTail (noteIn blocks) (statementIn n blocks)
      | _ =>
        let inner ← declarationsIn n (blocks + 1) true
        let _ ← expect (noteIn (blocks + 1)) .rightBrace .blockNeedsBrace
        pure (.block inner)

def declarationIn : Nat → Nat → Parser (Recorded Event) Stmt
  | 0, _ => spent
  | n + 1, blocks => do
    match ← accept (· == .var) with
    | some _ => declarationTail (noteIn blocks)
    | none => statementIn n blocks

def declarationsIn : Nat → Nat → Bool → Parser (Recorded Event) (List Stmt)
  | 0, _, _ => spent
  | n + 1, blocks, inBlock => do
    if endsDeclarations inBlock (← ahead) then pure []
    else
      let first ← givingUp (declarationIn n blocks)
      returned first
      let rest ← declarationsIn n blocks inBlock
      pure (first.toList ++ rest)

end

/-- The statements of a list of tokens, with the chronicle of the run. -/
def chronicle (ts : List Token) : Recorded Event (List Stmt) := do
  match ← declarationsIn (4 * ((body ts).length + 1)) 0 false (body ts) with
  | .done statements _ => pure statements
  | .bail _ => pure []

/-- The report of an event. -/
def Event.report? : Event → Option Report
  | .told _ r => some r
  | _ => none

/-- A run with a log corresponds to the run that takes down the reports of the log. -/
def erasing : Correspondence (Recorded Event) (Recorded Report) where
  Rel x y := x.value = y.value ∧ x.records.filterMap Event.report? = y.records
  ofPure a := ⟨rfl, rfl⟩
  ofBind {_ _ x y f g} first next := by
    obtain ⟨value, records⟩ := first
    have after := next x.value
    change (f x.value).value = (g y.value).value ∧
      (x.records ++ (f x.value).records).filterMap Event.report? =
        y.records ++ (g y.value).records
    rw [← value, List.filterMap_append, records, after.1, after.2]
    exact ⟨rfl, rfl⟩

open Correspondence

theorem hears_noteIn (blocks : Nat) : erasing.Hears (noteIn blocks) Recorded.note :=
  fun _ => ⟨rfl, rfl⟩

theorem follows_givingUp {α : Type} {p : Parser (Recorded Event) α}
    {q : Parser (Recorded Report) α} (h : erasing.Follows p q) :
    erasing.Follows (givingUp p) (recover q) := by
  intro ts
  apply erasing.ofBind (h ts)
  intro outcome
  cases outcome with
  | done a rest => exact erasing.ofPure _
  | bail rest => exact ⟨rfl, rfl⟩

theorem follows_returned {α : Type} (result : Option Stmt) {p : Parser (Recorded Event) α}
    {q : Parser (Recorded Report) α} (h : erasing.Follows p q) :
    erasing.Follows (returned result >>= fun _ => p) q := h

/-- The parsers with a log run like those without one. -/
structure StatementsErase (n : Nat) : Prop where
  statement : ∀ blocks, erasing.Follows (statementIn n blocks) (statement Recorded.note n)
  declaration : ∀ blocks, erasing.Follows (declarationIn n blocks) (declaration Recorded.note n)
  declarations : ∀ blocks inBlock, erasing.Follows (declarationsIn n blocks inBlock)
    (declarations Recorded.note n inBlock)

variable {n : Nat}

private theorem statement_erases (ih : StatementsErase n) (blocks : Nat) :
    erasing.Follows (statementIn (n + 1) blocks) (statement Recorded.note (n + 1)) := by
  rw [statementIn, statement]
  have hears := hears_noteIn blocks
  apply (follows_accept _).bind
  intro word
  cases word with
  | none => exact follows_expressionStatement hears
  | some t =>
    dsimp only
    have block := (ih.declarations (blocks + 1) true).bind fun inner =>
      (follows_expect (hears_noteIn (blocks + 1)) .rightBrace .blockNeedsBrace).bind fun _ =>
        follows_pure (Stmt.block inner)
    cases t.kind with
    | for_ => exact follows_forTail hears (ih.statement blocks)
    | if_ => exact follows_ifTail hears (ih.statement blocks)
    | print => exact follows_printTail hears
    | while_ => exact follows_whileTail hears (ih.statement blocks)
    | _ => exact block

private theorem declaration_erases (ih : StatementsErase n) (blocks : Nat) :
    erasing.Follows (declarationIn (n + 1) blocks) (declaration Recorded.note (n + 1)) := by
  rw [declarationIn, declaration]
  apply (follows_accept _).bind
  intro word
  cases word with
  | none => exact ih.statement blocks
  | some _ => exact follows_declarationTail (hears_noteIn blocks)

private theorem declarations_erase (ih : StatementsErase n) (blocks : Nat) (inBlock : Bool) :
    erasing.Follows (declarationsIn (n + 1) blocks inBlock)
      (declarations Recorded.note (n + 1) inBlock) := by
  rw [declarationsIn, declarations]
  apply follows_ahead.bind
  intro left
  split
  · exact follows_pure []
  · apply (follows_givingUp (ih.declaration blocks)).bind
    intro first
    apply follows_returned first
    exact (ih.declarations blocks inBlock).bind fun rest => follows_pure _

theorem statements_erase (n : Nat) : StatementsErase n := by
  induction n with
  | zero =>
    constructor <;> intros <;> exact follows_spent
  | succ n ih => exact ⟨statement_erases ih, declaration_erases ih, declarations_erase ih⟩

/-- A run that hears faults is the run that takes reports down, with their faults attached. -/
theorem hear_eq {α : Type} {finish : Token} {p : Parser (Recorded SyntaxFault) α}
    {q : Parser (Recorded Report) α} (h : (replaying (hear finish)).Follows p q)
    (ts : List Token) : p ts = ⟨(q ts).value, (q ts).records.map (Report.attach finish)⟩ :=
  (h ts).trans (replay_into _ _)

theorem chronicle_of_done {ts rest : List Token} {inner : List Stmt} {log : List Event}
    (h : declarationsIn (4 * ((body ts).length + 1)) 0 false (body ts) = ⟨.done inner rest, log⟩) :
    chronicle ts = ⟨inner, log⟩ := by
  rw [chronicle, h]
  exact congrArg (Recorded.mk _) (List.append_nil log)

/-- A chronicle has the statements of the record, and the reports of its events are the record. -/
theorem chronicle_recorded (ts : List Token) :
    (chronicle ts).value = (recorded ts).value ∧
    ((chronicle ts).records.filterMap Event.report?).map (Report.attach (endToken ts)) =
      (recorded ts).records := by
  obtain ⟨inner, told, read, -⟩ := program_reads (endToken ts) (body ts)
  have heard := hear_eq (follows_program (hears_replaying (hear (endToken ts)))) (body ts)
  rw [read, Recorded.mk.injEq] at heard
  obtain ⟨value, reports⟩ := (statements_erase _).declarations 0 false (body ts)
  rcases run : declarationsIn (4 * ((body ts).length + 1)) 0 false (body ts) with ⟨outcome, log⟩
  rw [run] at value reports
  obtain rfl : outcome = .done inner [] := value.trans heard.1.symm
  rw [recorded_of_done read, chronicle_of_done run, reports]
  exact ⟨rfl, heard.2.symm⟩

end Bhasha.Parse
