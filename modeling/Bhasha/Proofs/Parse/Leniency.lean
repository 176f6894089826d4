import Bhasha.Proofs.Grammar.Relaxed
import Bhasha.Proofs.Parse.Acceptance

/-!
# What mild faults cost

An invalid target of an assignment and an argument too many are told, and nothing else comes of
them: parsing goes on as if the grammar had no such restrictions.  So nothing fatal is told of a
list of tokens exactly when it belongs to the relaxed grammar, and then the statements and the
faults are those of the derivation.  That derivation leaves no statement out, at any level; it tells
one fault at each equals sign behind something other than a name, in whose place the left side
stands, and one at the first token of each argument past the limit, all of which stay in the tree.
-/

namespace Bhasha.Parse

open Grammar

theorem isFatal_eq_false_iff (fault : Fault) :
    fault.isFatal = false ↔ fault.message ∈
      [text "Invalid assignment target.", text "Can't have more than 255 arguments."] := by
  cases fault <;> decide

/-- Mild faults cost no statement.  Nothing but the two mild messages is told of a list of tokens
exactly when it is derivable in the relaxed grammar.  The statements and the faults are then those
of its one derivation without gaps. -/
theorem mild_faults_cost_no_statement (ts : List Token) (finish : Token)
    (inside : ∀ t ∈ ts, t.kind ≠ .eof) (final : finish.kind = .eof) :
    ((∀ f ∈ (recorded (ts ++ [finish])).records, f.fault.isFatal = false) ↔
      kinds ts ∈ Relaxed.grammar.language) ∧
    (kinds ts ∈ Relaxed.grammar.language ↔
      ∀ f ∈ (recorded (ts ++ [finish])).records, f.fault.message ∈
        [text "Invalid assignment target.", text "Can't have more than 255 arguments."]) ∧
    (kinds ts ∈ Relaxed.grammar.language → ∀ inner told,
      (Declarations ts inner told ∧ ∀ f ∈ told, f.fault.isFatal = false) ↔
        inner = (recorded (ts ++ [finish])).value ∧
          told = (recorded (ts ++ [finish])).records) := by
  have upToEnd := body_append_end inside final
  have derives := recorded_derives (ts ++ [finish])
  rw [upToEnd] at derives
  have parsed : ∀ inner told, Declarations ts inner told → Lenient told →
      recorded (ts ++ [finish]) = ⟨inner, told⟩ := by
    intro inner told derived mild
    rw [← upToEnd] at derived
    exact recorded_of_derivation derived mild
  have lenient_iff : (∀ f ∈ (recorded (ts ++ [finish])).records, f.fault.isFatal = false) ↔
      kinds ts ∈ Relaxed.grammar.language := by
    rw [Relaxed.mem_language_iff]
    constructor
    · exact fun mild => ⟨_, _, derives, mild⟩
    · rintro ⟨inner, told, derived, mild⟩
      rw [parsed inner told derived mild]
      exact mild
  refine ⟨lenient_iff, ?_, fun word inner told => ⟨?_, ?_⟩⟩
  · simp only [← lenient_iff, isFatal_eq_false_iff]
  · rintro ⟨derived, mild⟩
    rw [parsed inner told derived mild]
    exact ⟨rfl, rfl⟩
  · rintro ⟨rfl, rfl⟩
    exact ⟨derives, lenient_iff.mpr word⟩

/-- A token of a kind on a line. -/
def tokenOn (line : Nat) (kind : Kind) : Token := ⟨kind, [], .nothing, line⟩

/-- A counting loop with three invalid targets: a name in parentheses, another one behind its equals
sign, and in the body the sum of a call and a name.  The call has two arguments too many; they are
those of lines 260 and 261. -/
def crowdedLoop : List Token :=
  [.for_, .leftParen, .semicolon, .identifier, .less, .identifier, .semicolon].map (tokenOn 1) ++
  [.leftParen, .identifier, .rightParen, .equal].map (tokenOn 2) ++
  [.leftParen, .identifier, .rightParen, .equal, .identifier, .rightParen].map (tokenOn 3) ++
  [.identifier, .leftParen].map (tokenOn 4) ++
  (List.range 256).flatMap (fun i => [.nil, .comma].map (tokenOn (5 + i))) ++
  tokenOn 261 .nil ::
  [.rightParen, .plus, .identifier, .equal, .identifier, .semicolon].map (tokenOn 262)

/-- The left sides stay in the places of the assignments, and the call keeps all its arguments. -/
def crowdedTree : Stmt :=
  let name (line : Nat) : Expr := .identifier (tokenOn line .identifier)
  .loop (.binary (name 1) (tokenOn 1 .less) (name 1))
    (.block [
      .expression (.binary
        (.call (name 4) (tokenOn 262 .rightParen)
          (List.replicate 257 (.literal .nothing)))
        (tokenOn 262 .plus) (name 262)),
      .expression (.grouping (name 2))])

def crowdedFaults : List SyntaxFault :=
  [⟨tokenOn 3 .equal, .invalidTarget⟩, ⟨tokenOn 2 .equal, .invalidTarget⟩,
    ⟨tokenOn 260 .nil, .tooManyArguments⟩, ⟨tokenOn 261 .nil, .tooManyArguments⟩,
    ⟨tokenOn 262 .equal, .invalidTarget⟩]

set_option maxRecDepth 100000 in
theorem crowded_loop_keeps_its_left_sides :
    (∀ t ∈ crowdedLoop, t.kind ≠ .eof) ∧ (Token.endOfInput 262).kind = .eof ∧
    kinds crowdedLoop ∈ Relaxed.grammar.language ∧
    ∀ inner told, (Declarations crowdedLoop inner told ∧ ∀ f ∈ told, f.fault.isFatal = false) ↔
      inner = [crowdedTree] ∧ told = crowdedFaults := by
  have inside : ∀ t ∈ crowdedLoop, t.kind ≠ .eof := by decide +kernel
  have parsed := mild_faults_cost_no_statement crowdedLoop (Token.endOfInput 262) inside rfl
  have read : recorded (crowdedLoop ++ [Token.endOfInput 262]) = ⟨[crowdedTree], crowdedFaults⟩ :=
    rfl
  rw [read] at parsed
  have word := parsed.1.mp (by decide)
  exact ⟨inside, rfl, word, parsed.2.2 word⟩

end Bhasha.Parse
