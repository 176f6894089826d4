import Bhasha.Journal
import Bhasha.Proofs.Command.Writes
import Bhasha.Proofs.Lexeme.LineBreak
import Bhasha.Proofs.Reading.Lines

/-!
# The lines a journal writes

A journal is written diagnostic by diagnostic, each followed by a line feed.  To any sink this comes
to writing all of it at once: the same bytes are taken, the same number is counted, and there is the
same complaint, since a delivery stops where a write is cut.

Whether a diagnostic takes one line depends on the token it blames, whose lexeme it quotes as it
stands in the source.  Line numbers and messages hold no line feed, and of all lexemes that become
tokens only strings do.  So the diagnostics of a source stand one on a line exactly when none of
them blames a string that goes over several lines.
-/

namespace Bhasha

open Lexeme Parse
open Text (lineFeed)

namespace Sink

variable {s : Sink} {first rest : Text}

theorem fitting_le (s : Sink) (bytes : Text) : s.fitting bytes ≤ bytes.length := by
  unfold fitting
  split
  · exact Nat.le_refl _
  · exact Nat.min_le_right _ _

@[simp]
theorem fitting_nil (s : Sink) : s.fitting [] = 0 := Nat.le_zero.mp (s.fitting_le [])

/-- Nothing fits behind a write that was cut. -/
theorem fitting_append_of_cut (cut : s.fitting first < first.length) :
    s.fitting (first ++ rest) = s.fitting first := by
  unfold fitting at cut ⊢
  cases limit : s.room with
  | none => simp [limit] at cut
  | some room =>
    simp only [limit, List.length_append] at cut ⊢
    omega

theorem fitting_append_of_fit (fit : s.fitting first = first.length) :
    s.fitting (first ++ rest) = first.length + (s.after first).fitting rest := by
  unfold after
  rw [fit]
  unfold fitting at fit ⊢
  cases limit : s.room with
  | none => simp
  | some room =>
    simp only [limit, List.length_append, Option.map_some] at fit ⊢
    omega

theorem outcome_append_of_cut (cut : s.fitting first < first.length) :
    s.outcome (first ++ rest) = s.outcome first := by
  unfold outcome
  rw [fitting_append_of_cut cut, if_pos cut, if_pos (by rw [List.length_append]; omega)]

theorem outcome_append_of_fit (fit : s.fitting first = first.length) :
    s.outcome (first ++ rest) =
      ⟨first.length + ((s.after first).outcome rest).count,
        ((s.after first).outcome rest).complaint?⟩ := by
  unfold outcome
  rw [fitting_append_of_fit fit, List.length_append]
  simp only [Nat.add_lt_add_iff_left]
  rfl

/-- Two sinks that have taken the same bytes, however they were written, and will take the same. -/
structure Like (s s' : Sink) : Prop where
  taken : s.taken = s'.taken
  room : s.room = s'.room
  complaint : s.complaint = s'.complaint

theorem Like.trans {s s' s'' : Sink} (left : s.Like s') (right : s'.Like s'') : s.Like s'' :=
  ⟨left.taken.trans right.taken, left.room.trans right.room, left.complaint.trans right.complaint⟩

theorem like_after_nil (s : Sink) : s.Like (s.after []) := by
  constructor <;> simp [after, taken]

theorem like_append_of_cut (cut : s.fitting first < first.length) :
    (s.after first).Like (s.after (first ++ rest)) where
  taken := by
    rw [taken_after, taken_after, fitting_append_of_cut cut,
      List.take_append_of_le_length (by omega)]
  room := by
    unfold after
    rw [fitting_append_of_cut cut]
  complaint := rfl

theorem like_append_of_fit (fit : s.fitting first = first.length) :
    ((s.after first).after rest).Like (s.after (first ++ rest)) where
  taken := by
    rw [taken_after, taken_after, taken_after, fitting_append_of_fit fit, fit, List.take_length,
      List.take_length_add_append, List.append_assoc]
  room := by
    have whole := @fitting_append_of_fit _ _ rest fit
    unfold after at whole ⊢
    rw [whole, fit]
    cases s.room with
    | none => rfl
    | some room => simp [Nat.sub_sub]
  complaint := rfl

end Sink

namespace Diagnostic

/-- A diagnostic as it is delivered. -/
def fullLine (d : Diagnostic) : Text := d.render ++ [lineFeed]

theorem lines_cons (first : Diagnostic) (rest : List Diagnostic) :
    lines (first :: rest) = first.fullLine ++ lines rest := List.flatMap_cons

section

variable {first : Diagnostic} {s : Sink} (rest : List Diagnostic)

/-- A delivery stops at a write that is cut. -/
theorem deliver_of_cut (cut : s.fitting first.fullLine < first.fullLine.length) :
    (deliver Sink.write (first :: rest)).run s =
      (s.outcome first.fullLine, s.after first.fullLine) := by
  have cut_short : s.outcome (first.render ++ [lineFeed]) =
      ⟨s.fitting first.fullLine, some s.complaint⟩ := by
    rw [← fullLine, Sink.outcome, if_pos cut]
  unfold deliver fullLine
  simp only [StateT.run, Sink.write, bind, StateT.bind, cut_short]
  rfl

theorem deliver_of_fit (fit : s.fitting first.fullLine = first.fullLine.length) :
    (deliver Sink.write (first :: rest)).run s =
      let onward := (deliver Sink.write rest).run (s.after first.fullLine)
      (⟨first.fullLine.length + onward.1.count, onward.1.complaint?⟩, onward.2) := by
  have whole : s.outcome (first.render ++ [lineFeed]) = ⟨first.fullLine.length, none⟩ := by
    rw [← fullLine, Sink.outcome, fit, if_neg (Nat.lt_irrefl _)]
  conv => lhs; unfold deliver
  simp only [StateT.run, Sink.write, bind, StateT.bind, whole]
  rfl

end

/-- Writing diagnostics one by one takes as many bytes, counts as many and complains as much as
writing their lines at once. -/
theorem deliver_run (ds : List Diagnostic) (s : Sink) :
    ((deliver Sink.write ds).run s).1 = s.outcome (lines ds) ∧
      ((deliver Sink.write ds).run s).2.Like (s.after (lines ds)) := by
  induction ds generalizing s with
  | nil =>
    have nothing : s.outcome (lines []) = ⟨0, none⟩ := by
      simp [Sink.outcome, lines]
    rw [nothing]
    exact ⟨rfl, s.like_after_nil⟩
  | cons first rest ih =>
    rw [lines_cons]
    by_cases cut : s.fitting first.fullLine < first.fullLine.length
    · rw [deliver_of_cut rest cut, Sink.outcome_append_of_cut cut]
      exact ⟨rfl, Sink.like_append_of_cut cut⟩
    · have fit := Nat.le_antisymm (s.fitting_le _) (Nat.le_of_not_lt cut)
      obtain ⟨outcome, like⟩ := ih (s.after first.fullLine)
      rw [deliver_of_fit rest fit, Sink.outcome_append_of_fit fit]
      constructor
      · simp only [outcome]
      · exact like.trans (Sink.like_append_of_fit fit)

/-- What a delivery writes falls into the lines of the single diagnostics, with nothing behind the
last line feed. -/
theorem splitOn_lines (ds : List Diagnostic) :
    List.splitOn lineFeed (lines ds) =
      (ds.flatMap fun d => List.splitOn lineFeed d.render) ++ [[]] := by
  induction ds with
  | nil => rfl
  | cons first rest ih =>
    have whole : lines (first :: rest) = first.render ++ lineFeed :: lines rest := by
      simp [lines_cons, fullLine]
    rw [whole, List.splitOn, List.splitOnP_append_cons _ _ (by simp), List.flatMap_cons,
      List.append_assoc]
    exact congrArg _ ih

theorem count_lines (ds : List Diagnostic) :
    (lines ds).count lineFeed = ds.length + (ds.map (·.render.count lineFeed)).sum := by
  induction ds with
  | nil => rfl
  | cons first rest ih =>
    rw [lines_cons, List.count_append, ih]
    simp only [fullLine, List.count_append, List.count_singleton_self, List.length_cons,
      List.map_cons, List.sum_cons]
    omega

end Diagnostic

theorem Text.sum_count_eq_zero {α : Type} {f : α → Text} {l : List α} {b : UInt8} :
    (l.map fun a => (f a).count b).sum = 0 ↔ ∀ a ∈ l, b ∉ f a := by
  simp [List.sum_eq_zero_iff, List.count_eq_zero]

theorem Text.lineFeed_not_mem_ofInt (n : Int) : lineFeed ∉ Text.ofInt n := by
  have noDigit : Text.isDigit lineFeed = false := by decide
  have decimal : ∀ k : Nat, lineFeed ∉ Text.ofNat k := fun k member => by
    simp [Decimal.isDigit_of_mem_ofNat member] at noDigit
  cases n with
  | ofNat k => exact decimal k
  | negSucc k =>
    intro member
    obtain _ | ⟨_, inside⟩ := member
    exact decimal _ inside

theorem LexicalError.lineFeed_not_mem_message (e : LexicalError) : lineFeed ∉ e.message := by
  cases e <;> decide

theorem Parse.Fault.lineFeed_not_mem_message (f : Fault) : lineFeed ∉ f.message := by
  cases f <;> decide

/-- Only strings are tokens that hold a line feed. -/
theorem Token.Scanned.string_of_lineFeed {t : Token} (scanned : t.Scanned)
    (member : lineFeed ∈ t.lexeme) : t.kind = .string := by
  obtain ⟨l, spelled, denoted⟩ := scanned
  rw [← denoted.token?.2.1] at member
  have shape : l.shape = .blank ∨ l.shape = .string := by
    obtain alone | string := spelled.lineFeed_cases member
    · rw [alone] at spelled
      exact .inl (spelled.shape_unique (.blank (by decide)))
    · exact .inr string
  cases denoted with
  | string => rfl
  | _ => simp at shape

namespace Diagnostic

theorem count_render (d : Diagnostic) :
    d.render.count lineFeed = d.place.count lineFeed + d.message.count lineFeed := by
  have opening : (text "[line ").count lineFeed = 0 := by decide
  have number := List.count_eq_zero.mpr (Text.lineFeed_not_mem_ofInt d.line)
  have closing : (text "] Error").count lineFeed = 0 := by decide
  have colon : (text ": ").count lineFeed = 0 := by decide
  unfold render
  simp only [List.count_append, opening, number, closing, colon]
  omega

theorem count_render_ofLexical (f : LexicalFault) : (ofLexical f).render.count lineFeed = 0 := by
  rw [count_render]
  exact (Nat.zero_add _).trans (List.count_eq_zero.mpr f.error.lineFeed_not_mem_message)

/-- A diagnostic that blames a token has the line feeds of the quoted lexeme. -/
theorem count_render_ofSyntax {f : SyntaxFault}
    (empty : f.token.kind = .eof → f.token.lexeme = []) :
    (ofSyntax f).render.count lineFeed = f.token.lexeme.count lineFeed := by
  have message := List.count_eq_zero.mpr f.fault.lineFeed_not_mem_message
  rw [count_render]
  unfold ofSyntax atToken
  simp only [message, Nat.add_zero]
  split
  · rename_i final
    rw [empty final]
    decide
  · have opening : (text " at '").count lineFeed = 0 := by decide
    have closing : (text "'").count lineFeed = 0 := by decide
    simp only [List.count_append, opening, closing]
    omega

end Diagnostic

namespace Reading

/-- The tokens that the syntactic faults of a reading blame. -/
def blamed (r : Reading) : List Token := r.syntactic.map (·.token)

/-- Scanned tokens are blamed, and the end of the input. -/
theorem blamed_cases (source : Text) : ∀ t ∈ (ofSource source).blamed,
    t.Scanned ∨ ∃ line, t = Token.endOfInput line := by
  obtain ⟨last, whole, scanned⟩ := scan_body source
  have finish : endToken (Scan.ofSource source).tokens = Token.endOfInput last := by
    rw [whole]
    exact endToken_append_end (fun t member => (scanned t member).kind_ne_eof) rfl
  have given := @blames_given (fun t => t.Scanned ∨ ∃ line, t = Token.endOfInput line)
    (Scan.ofSource source).tokens (fun t member => .inl (scanned t member)) (.inr ⟨last, finish⟩)
  intro t member
  obtain ⟨f, found, rfl⟩ := List.mem_map.mp member
  exact given f found

theorem count_diagnostics (source : Text) :
    ((ofSource source).diagnostics.map (·.render.count lineFeed)).sum =
      ((ofSource source).blamed.map (·.lexeme.count lineFeed)).sum := by
  have lexical : ∀ n ∈ (ofSource source).lexical.map
      ((·.render.count lineFeed) ∘ Diagnostic.ofLexical), n = 0 := by
    simp [Diagnostic.count_render_ofLexical]
  have syntactic : ∀ f ∈ (ofSource source).syntactic,
      (Diagnostic.ofSyntax f).render.count lineFeed = f.token.lexeme.count lineFeed := by
    intro f member
    apply Diagnostic.count_render_ofSyntax
    intro final
    obtain scanned | ⟨line, ended⟩ := blamed_cases source f.token (List.mem_map_of_mem member)
    · exact absurd final scanned.kind_ne_eof
    · rw [ended]
      rfl
  unfold diagnostics blamed
  rw [List.map_append, List.sum_append, List.map_map, List.map_map, List.map_map,
    List.sum_eq_zero lexical, Nat.zero_add]
  exact congrArg List.sum (List.map_congr_left syntactic)

end Reading

namespace Journal

/-- The journal of a source text that nobody else reports to. -/
def ofSource (source : Text) : Journal :=
  Id.run (empty.record none (Reading.ofSource source).diagnostics)

/-- What a journal writes to a sink that takes everything. -/
def written (j : Journal) : Text := ((j.deliver Sink.write).run .unlimited).2.taken

/-- A journal is written with as many line feeds as it has diagnostics, and its lines are the
diagnostics, with nothing behind the last line feed. -/
def OnePerLine (j : Journal) : Prop :=
  j.written.count lineFeed = j.count ∧
    List.splitOn lineFeed j.written = j.diagnostics.map Diagnostic.render ++ [[]]

theorem diagnostics_ofSource (source : Text) :
    (ofSource source).diagnostics = (Reading.ofSource source).diagnostics := rfl

theorem written_eq_lines (j : Journal) : j.written = Diagnostic.lines j.diagnostics := by
  rw [written, deliver, (Diagnostic.deliver_run j.diagnostics .unlimited).2.taken,
    Sink.taken_after_of_room rfl]
  rfl

/-- A journal stands one diagnostic on a line if no diagnostic holds a line feed, and only then. -/
theorem onePerLine_iff (j : Journal) :
    j.OnePerLine ↔ ∀ d ∈ j.diagnostics, lineFeed ∉ d.render := by
  unfold OnePerLine
  rw [written_eq_lines, Diagnostic.count_lines, Diagnostic.splitOn_lines, count]
  constructor
  · rintro ⟨counted, -⟩
    exact Text.sum_count_eq_zero.mp (by omega)
  · intro single
    have alone : ∀ d ∈ j.diagnostics, List.splitOn lineFeed d.render = [d.render] :=
      fun d member => List.splitOn_eq_singleton (single d member)
    constructor
    · rw [Text.sum_count_eq_zero.mpr single, Nat.add_zero]
    · rw [List.flatMap_congr alone, List.map_eq_flatMap]

/-- The journal of a source is written whole, and each diagnostic ends with a line feed of its own.
The other line feeds are those of the lexemes that are quoted, and only strings have any.  So the
diagnostics stand one on a line exactly when none of them blames a string that goes over several
lines; one that does takes as many lines as its string. -/
theorem lines_of_a_source (source : Text) :
    (((ofSource source).deliver Sink.write).run .unlimited).1 =
      ⟨(ofSource source).written.length, none⟩ ∧
    List.splitOn lineFeed (ofSource source).written =
      (ofSource source).diagnostics.flatMap (fun d => List.splitOn lineFeed d.render) ++ [[]] ∧
    (ofSource source).written.count lineFeed = (ofSource source).count +
      ((Reading.ofSource source).blamed.map (·.lexeme.count lineFeed)).sum ∧
    (∀ t ∈ (Reading.ofSource source).blamed, lineFeed ∈ t.lexeme → t.kind = .string) ∧
    ((ofSource source).OnePerLine ↔
      ∀ t ∈ (Reading.ofSource source).blamed, lineFeed ∉ t.lexeme) := by
  have extra := Reading.count_diagnostics source
  refine ⟨?_, ?_, ?_, ?_, ?_⟩
  · rw [deliver, (Diagnostic.deliver_run _ _).1, Sink.outcome_of_room rfl, written_eq_lines]
  · rw [written_eq_lines, Diagnostic.splitOn_lines]
  · rw [written_eq_lines, Diagnostic.count_lines, diagnostics_ofSource, extra]
    rfl
  · intro t member held
    obtain scanned | ⟨line, rfl⟩ := Reading.blamed_cases source t member
    · exact scanned.string_of_lineFeed held
    · cases held
  · rw [onePerLine_iff, diagnostics_ofSource, ← Text.sum_count_eq_zero, extra,
      Text.sum_count_eq_zero]

/-- A string over two lines where a semicolon is missing. -/
def brokenString : Text := text "lekho 1 \"a\nb\";"

theorem broken_string_takes_two_lines :
    (ofSource brokenString).count = 1 ∧
    (ofSource brokenString).written =
      text "[line 2] Error at '\"a\nb\"': Expect ';' after value.\n" ∧
    (ofSource brokenString).written.count lineFeed = 2 ∧
    ¬ (ofSource brokenString).OnePerLine := by
  have single : (ofSource brokenString).count = 1 := by decide +kernel
  have double : (ofSource brokenString).written.count lineFeed = 2 := by decide +kernel
  refine ⟨single, by decide +kernel, double, ?_⟩
  rintro ⟨counted, -⟩
  rw [single, double] at counted
  exact absurd counted (by decide)

end Journal

end Bhasha
