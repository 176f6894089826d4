import Bhasha.Proofs.Grammar.Kinds
import Bhasha.Proofs.Parse.StatementComplete
import Bhasha.Proofs.Parse.StatementSound

/-!
# What parsing accepts

Parsing a list of tokens records the faults of a derivation of the tokens before the end of the
input, whatever these tokens are.  It records none exactly when their kinds belong to the language,
and then the statements are those of the only derivation of which nothing is told.
-/

namespace Bhasha.Parse

open Grammar

/-- A record without fatal faults has one source only: the derivation that was parsed. -/
theorem recorded_of_derivation {ts : List Token} {inner : List Stmt} {told : List SyntaxFault}
    (derived : Declarations (body ts) inner told) (lenient : Lenient told) :
    recorded ts = ⟨inner, told⟩ :=
  recorded_of_done (program_of_derivation derived lenient)

/-- The statements and the faults of every list of tokens are those of a derivation. -/
theorem recorded_derives (ts : List Token) :
    Declarations (body ts) (recorded ts).value (recorded ts).records := by
  obtain ⟨inner, told, run, derived⟩ := program_reads (endToken ts) (body ts)
  rw [recorded_of_done run]
  exact derived

theorem body_append_end {ts : List Token} {finish : Token}
    (inside : ∀ t ∈ ts, t.kind ≠ .eof) (final : finish.kind = .eof) :
    body (ts ++ [finish]) = ts := by
  unfold body
  rw [List.takeWhile_append_of_pos (fun t member => bne_iff_ne.mpr (inside t member))]
  simp [final]

theorem endToken_append_end {ts : List Token} {finish : Token}
    (inside : ∀ t ∈ ts, t.kind ≠ .eof) (final : finish.kind = .eof) :
    endToken (ts ++ [finish]) = finish := by
  have absent : ts.find? (·.kind == .eof) = none := by
    rw [List.find?_eq_none]
    exact fun t member => by simpa using inside t member
  unfold endToken
  rw [List.find?_append, absent]
  simp [final]

/-- Parsing accepts exactly the language.  The statements of an accepted list are the tree of a
derivation, and of no other derivation: every `else` goes with the nearest open branch and every
counting loop is spelled out. -/
theorem parsing_accepts_exactly_the_grammar (ts : List Token) (finish : Token)
    (inside : ∀ t ∈ ts, t.kind ≠ .eof) (final : finish.kind = .eof) :
    ((recorded (ts ++ [finish])).records = [] ↔ Generates .program (kinds ts)) ∧
    ((recorded (ts ++ [finish])).records = [] →
      ∀ inner, Declarations ts inner [] ↔ inner = (recorded (ts ++ [finish])).value) := by
  have upToEnd := body_append_end inside final
  have derives := recorded_derives (ts ++ [finish])
  rw [upToEnd] at derives
  refine ⟨⟨fun silent => derives.generates silent, fun generated => ?_⟩,
    fun silent inner => ⟨fun derived => ?_, ?_⟩⟩
  · obtain ⟨inner, derived⟩ := generates_program_iff.mp generated
    rw [← upToEnd] at derived
    rw [recorded_of_derivation derived (by simp [Lenient])]
  · rw [← upToEnd] at derived
    rw [recorded_of_derivation derived (by simp [Lenient])]
  · rintro rfl
    rwa [silent] at derives

/-- Two branches, one inside the other, and one alternative. -/
def nestedBranches : List Token :=
  [.if_, .leftParen, .identifier, .rightParen, .if_, .leftParen, .nil, .rightParen,
    .print, .identifier, .semicolon, .else_, .leftBrace, .rightBrace].map (⟨·, [], .nothing, 1⟩)

theorem nested_branches_are_accepted :
    (∀ t ∈ nestedBranches, t.kind ≠ .eof) ∧ (Token.endOfInput 1).kind = .eof ∧
    Generates .program (kinds nestedBranches) ∧
    ∀ inner, Declarations nestedBranches inner [] ↔
      inner = [.branch (.identifier ⟨.identifier, [], .nothing, 1⟩)
        (.branch (.literal .nothing) (.print (.identifier ⟨.identifier, [], .nothing, 1⟩))
          (some (.block []))) none] := by
  have inside : ∀ t ∈ nestedBranches, t.kind ≠ .eof := by decide
  have accepts := parsing_accepts_exactly_the_grammar nestedBranches (Token.endOfInput 1) inside rfl
  exact ⟨inside, rfl, accepts.1.mp rfl, accepts.2 rfl⟩

end Bhasha.Parse
