import Bhasha.Proofs.Parse.Acceptance
import Bhasha.Proofs.Parse.Alike
import Bhasha.Proofs.Tree.Derivation
import Bhasha.Proofs.Tree.Surplus
import Bhasha.Proofs.Tree.Written

/-!
# Reading what was written

The program of every source text, with or without faults, is well formed.  The source text of a
well-formed program falls into the tokens of the program; these are parsed to the program again, up
to the lines on which its tokens stand, and nothing but arguments past the largest number is
faulted.
-/

namespace Bhasha

open Parse Grammar

/-- The tokens of a scan without the end of the input, which stands behind them. -/
theorem scan_body (source : Text) : ∃ last,
    (Scan.ofSource source).tokens =
      body (Scan.ofSource source).tokens ++ [Token.endOfInput last] ∧
    ∀ t ∈ body (Scan.ofSource source).tokens, t.Scanned := by
  obtain ⟨ts, last, whole, scanned⟩ := scan_tokens source
  have inside : body (Scan.ofSource source).tokens = ts := by
    rw [whole]
    exact body_append_end (fun t member => (scanned t member).kind_ne_eof) rfl
  rw [inside]
  exact ⟨last, whole, scanned⟩

/-- Every source text is read as a well-formed program of scanned tokens. -/
theorem Reading.wellFormed (source : Text) :
    Stmt.AllWellFormed Token.Scanned (Reading.ofSource source).program.statements := by
  obtain ⟨last, -, scanned⟩ := scan_body source
  exact (recorded_derives _).wellFormed scanned

/-- The tokens of a well-formed program are what its source text is scanned as. -/
theorem Program.scan_source {p : Program}
    (formed : Stmt.AllWellFormed Token.Scanned p.statements) :
    ((body (Scan.ofSource p.source).tokens).map Token.unlined = p.tokens) ∧
      (Scan.ofSource p.source).faults = [] := by
  obtain ⟨tokens, clean⟩ := (Program.lexes_source formed).scan
  obtain ⟨last, whole, -⟩ := scan_body p.source
  rw [whole, List.map_append] at tokens
  exact ⟨(List.append_inj' tokens rfl).1, clean⟩

theorem sameButLine_of_unlined {ts us : List Token} (same : ts.map Token.unlined = us) :
    List.Forall₂ SameButLine us ts := by
  subst same
  rw [List.forall₂_map_left_iff]
  exact List.forall₂_same.mpr fun t _ => rfl

theorem fault_of_alike {R : Token → Token → Prop} {told told' : List SyntaxFault}
    (alike : List.Forall₂ (FaultAlike R) told told') :
    told.map (·.fault) = told'.map (·.fault) := by
  induction alike with
  | nil => rfl
  | cons here _ ih => rw [List.map_cons, List.map_cons, here.2, ih]

/-- Reading the source text of a well-formed program gives the program back. -/
theorem Program.read_source {p : Program}
    (formed : Stmt.AllWellFormed Token.Scanned p.statements) :
    (Reading.ofSource p.source).program.unlined = p.unlined ∧
      (Reading.ofSource p.source).lexical = [] ∧
      List.Forall₂ (FaultAlike SameButLine) p.excess (Reading.ofSource p.source).syntactic := by
  obtain ⟨tokens, clean⟩ := Program.scan_source formed
  obtain ⟨last, whole, scanned⟩ := scan_body p.source
  have inside : ∀ t ∈ p.tokens, t.kind ≠ .eof := by
    rw [← tokens]
    intro t member
    obtain ⟨t', member', rfl⟩ := List.mem_map.mp member
    exact (scanned t' member').kind_ne_eof
  have bodies : body (p.tokens ++ [Token.endOfInput 0]) = p.tokens := body_append_end inside rfl
  have ends : SameButLine (endToken (p.tokens ++ [Token.endOfInput 0]))
      (endToken (Scan.ofSource p.source).tokens) := by
    rw [endToken_append_end inside rfl, whole,
      endToken_append_end (fun t member => (scanned t member).kind_ne_eof) rfl]
    rfl
  have direct : recorded (p.tokens ++ [Token.endOfInput 0]) =
      ⟨Stmt.unlinedAll p.statements, p.excess⟩ := by
    refine recorded_of_derivation ?_ (Stmt.excessAll_lenient p.statements)
    rw [bodies]
    exact Stmt.declarations_tokens p.statements formed
  have alike := recorded_alike (fun _ _ => SameButLine.kind)
    (bodies.symm ▸ sameButLine_of_unlined tokens) ends
  rw [direct] at alike
  obtain ⟨trees, faults⟩ := alike
  refine ⟨?_, clean, faults⟩
  have statements := trees.unlinedAll
  rw [Stmt.unlinedAll_unlinedAll] at statements
  exact congrArg Program.mk statements.symm

/-- The program of any source text survives being written and read again: it is the same program up
to lines, no lexical fault is found, and the syntactic faults are those of its arguments past the
largest number, one for each.  Writing it once more gives the same text. -/
theorem reading_the_written_program (source : Text) :
    let p := (Reading.ofSource source).program
    let again := Reading.ofSource p.source
    again.program.unlined = p.unlined ∧ again.lexical = [] ∧
    again.syntactic.map (·.fault) = List.replicate p.surplus .tooManyArguments ∧
    ((Reading.ofSource source).syntactic = [] → again.syntactic = []) ∧
    again.program.source = p.source := by
  intro p again
  obtain ⟨same, clean, faults⟩ := Program.read_source (Reading.wellFormed source)
  have sorts : again.syntactic.map (·.fault) = List.replicate p.surplus .tooManyArguments := by
    rw [← fault_of_alike faults]
    exact Stmt.excessAll_faults p.statements
  refine ⟨same, clean, sorts, fun silent => ?_, ?_⟩
  · have told : p.surplus ≤ limits (Reading.ofSource source).syntactic :=
      (recorded_derives (Scan.ofSource source).tokens).surplus_le
    rw [silent, limits_nil] at told
    rw [Nat.le_zero.mp told] at sorts
    exact List.map_eq_nil_iff.mp sorts
  · rw [← again.program.source_unlined, same, p.source_unlined]

/-- A text with a branch on one line. -/
def branchSource : Text := text "jodi(a)lekho -1.50;nahole\x7b\x7d"

theorem branch_source_is_read_again :
    (Reading.ofSource branchSource).syntactic = [] ∧
    (Reading.ofSource (Reading.ofSource branchSource).program.source).syntactic = [] := by
  have silent : (Reading.ofSource branchSource).syntactic = [] := by decide +kernel
  exact ⟨silent, (reading_the_written_program branchSource).2.2.2.1 silent⟩

end Bhasha
