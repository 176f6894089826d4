import Bhasha.Lexeme
import Bhasha.Proofs.Text.Utf8

/-!
# How lexemes are spelled

The texts of every shape, as a grammar would give them and without a word on how a lexeme is found.
The first byte of a text nearly fixes its shape: only a slash can begin two of them, the operator
and a comment.
-/

namespace Bhasha

/-- The operators and marks with their spelling. -/
def Kind.operators : List (Kind × Text) := [
  (.leftParen, text "("), (.rightParen, text ")"), (.leftBrace, text "\x7b"),
  (.rightBrace, text "\x7d"), (.comma, text ","), (.dot, text "."), (.minus, text "-"),
  (.plus, text "+"), (.semicolon, text ";"), (.slash, text "/"), (.star, text "*"),
  (.bang, text "!"), (.bangEqual, text "!="), (.equal, text "="), (.equalEqual, text "=="),
  (.greater, text ">"), (.greaterEqual, text ">="), (.less, text "<"), (.lessEqual, text "<=")]

namespace Lexeme

/-- The texts of each shape; those of the two error shapes are not spelled by any rule. -/
inductive Spells : Shape → Text → Prop
  | blank {b : UInt8} (white : b ∈ [0x20, 0x0d, 0x09, Text.lineFeed]) : Spells .blank [b]
  | comment {body : Text} (oneLine : Text.lineFeed ∉ body) :
      Spells .comment (0x2f :: 0x2f :: body)
  | string {content : Text} (closed : 0x22 ∉ content) :
      Spells .string (0x22 :: (content ++ [0x22]))
  | whole {digits : Text} (some : digits ≠ []) (all : ∀ d ∈ digits, Text.isDigit d = true) :
      Spells .number digits
  | fraction {digits places : Text} (some : digits ≠ []) (all : ∀ d ∈ digits, Text.isDigit d = true)
      (somePlaces : places ≠ []) (allPlaces : ∀ d ∈ places, Text.isDigit d = true) :
      Spells .number (digits ++ 0x2e :: places)
  | word {b : UInt8} {more : Text} (first : beginsWord b = true)
      (others : ∀ c ∈ more, continuesWord c = true) : Spells .word (b :: more)
  | operator {kind : Kind} {spelled : Text} (listed : (kind, spelled) ∈ Kind.operators) :
      Spells (.operator kind) spelled

theorem isBlank_iff {b : UInt8} :
    isBlank b = true ↔ b ∈ [0x20, 0x0d, 0x09, Text.lineFeed] := by
  simp [isBlank, or_assoc]

theorem mark?_cases {b : UInt8} {kind : Kind} (marked : mark? b = some kind) :
    (kind, [b]) ∈ Kind.operators := by
  unfold mark? at marked
  split at marked
  all_goals cases marked
  all_goals decide

theorem withEqual?_cases {b : UInt8} {kind double : Kind} (marked : mark? b = some kind)
    (doubled : withEqual? kind = some double) : (double, [b, 0x3d]) ∈ Kind.operators := by
  unfold mark? at marked
  split at marked
  all_goals cases marked
  all_goals cases doubled
  all_goals decide

/-- An operator is a mark, or a mark that takes an equals sign together with the sign. -/
theorem operators_cases {kind : Kind} {spelled : Text} (listed : (kind, spelled) ∈ Kind.operators) :
    ∃ b single, mark? b = some single ∧
      (spelled = [b] ∧ kind = single ∨ spelled = [b, 0x3d] ∧ withEqual? single = some kind) := by
  have all : ∀ entry ∈ Kind.operators, ∃ b single, mark? b = some single ∧
      (entry.2 = [b] ∧ entry.1 = single ∨
        entry.2 = [b, 0x3d] ∧ withEqual? single = some entry.1) := by
    simp only [Kind.operators, List.forall_mem_cons]
    refine ⟨⟨0x28, _, rfl, .inl ⟨rfl, rfl⟩⟩, ⟨0x29, _, rfl, .inl ⟨rfl, rfl⟩⟩,
      ⟨0x7b, _, rfl, .inl ⟨rfl, rfl⟩⟩, ⟨0x7d, _, rfl, .inl ⟨rfl, rfl⟩⟩,
      ⟨0x2c, _, rfl, .inl ⟨rfl, rfl⟩⟩, ⟨0x2e, _, rfl, .inl ⟨rfl, rfl⟩⟩,
      ⟨0x2d, _, rfl, .inl ⟨rfl, rfl⟩⟩, ⟨0x2b, _, rfl, .inl ⟨rfl, rfl⟩⟩,
      ⟨0x3b, _, rfl, .inl ⟨rfl, rfl⟩⟩, ⟨0x2f, _, rfl, .inl ⟨rfl, rfl⟩⟩,
      ⟨0x2a, _, rfl, .inl ⟨rfl, rfl⟩⟩, ⟨0x21, _, rfl, .inl ⟨rfl, rfl⟩⟩,
      ⟨0x21, _, rfl, .inr ⟨rfl, rfl⟩⟩, ⟨0x3d, _, rfl, .inl ⟨rfl, rfl⟩⟩,
      ⟨0x3d, _, rfl, .inr ⟨rfl, rfl⟩⟩, ⟨0x3e, _, rfl, .inl ⟨rfl, rfl⟩⟩,
      ⟨0x3e, _, rfl, .inr ⟨rfl, rfl⟩⟩, ⟨0x3c, _, rfl, .inl ⟨rfl, rfl⟩⟩,
      ⟨0x3c, _, rfl, .inr ⟨rfl, rfl⟩⟩, by simp⟩
  exact all _ listed

/-- The bytes that begin a text of a shape; the two error shapes are not spelled. -/
def Begins (b : UInt8) : Shape → Prop
  | .blank => isBlank b = true
  | .comment => b = 0x2f
  | .string => b = 0x22
  | .number => Text.isDigit b = true
  | .word => beginsWord b = true
  | .operator _ => mark? b ≠ none
  | .unclosed | .stray => False

theorem Spells.begins {shape : Shape} {v : Text} (spelled : Spells shape v) :
    ∃ b more, v = b :: more ∧ Begins b shape := by
  cases spelled with
  | blank white => exact ⟨_, _, rfl, isBlank_iff.mpr white⟩
  | comment oneLine => exact ⟨_, _, rfl, rfl⟩
  | string closed => exact ⟨_, _, rfl, rfl⟩
  | whole some all =>
    obtain ⟨d, more, rfl⟩ := List.exists_cons_of_ne_nil some
    exact ⟨d, more, rfl, all d List.mem_cons_self⟩
  | fraction some all _ _ =>
    obtain ⟨d, more, rfl⟩ := List.exists_cons_of_ne_nil some
    exact ⟨d, _, rfl, all d List.mem_cons_self⟩
  | word first others => exact ⟨_, _, rfl, first⟩
  | operator listed =>
    obtain ⟨b, single, marked, ⟨rfl, -⟩ | ⟨rfl, -⟩⟩ := operators_cases listed
    · exact ⟨b, [], rfl, by simp [Begins, marked]⟩
    · exact ⟨b, [0x3d], rfl, by simp [Begins, marked]⟩

theorem forall_byte {P : UInt8 → Prop} (all : ∀ n < 256, P (UInt8.ofNat n)) (b : UInt8) : P b := by
  have here := all b.toNat b.toNat_lt
  rwa [UInt8.ofNat_toNat] at here

theorem blank_apart : ∀ b, isBlank b = true →
    b ≠ 0x2f ∧ b ≠ 0x22 ∧ Text.isDigit b = false ∧ beginsWord b = false ∧ mark? b = none :=
  forall_byte (by decide +kernel)

theorem digit_apart : ∀ b, Text.isDigit b = true →
    isBlank b = false ∧ b ≠ 0x2f ∧ b ≠ 0x22 ∧ beginsWord b = false ∧ mark? b = none :=
  forall_byte (by decide +kernel)

theorem letter_apart : ∀ b, beginsWord b = true →
    isBlank b = false ∧ b ≠ 0x2f ∧ b ≠ 0x22 ∧ Text.isDigit b = false ∧ mark? b = none :=
  forall_byte (by decide +kernel)

theorem mark_apart : ∀ b, mark? b ≠ none →
    isBlank b = false ∧ b ≠ 0x22 ∧ Text.isDigit b = false ∧ beginsWord b = false :=
  forall_byte (by decide +kernel)

theorem begins_blank {b : UInt8} {shape : Shape} (white : isBlank b = true)
    (h : Begins b shape) : shape = .blank := by
  obtain ⟨slash, quote, digit, letter, mark⟩ := blank_apart b white
  cases shape <;> simp_all [Begins]

theorem begins_digit {b : UInt8} {shape : Shape} (digit : Text.isDigit b = true)
    (h : Begins b shape) : shape = .number := by
  obtain ⟨blank, slash, quote, letter, mark⟩ := digit_apart b digit
  cases shape <;> simp_all [Begins]

theorem begins_word {b : UInt8} {shape : Shape} (letter : beginsWord b = true)
    (h : Begins b shape) : shape = .word := by
  obtain ⟨blank, slash, quote, digit, mark⟩ := letter_apart b letter
  cases shape <;> simp_all [Begins]

theorem begins_quote {shape : Shape} (h : Begins 0x22 shape) : shape = .string := by
  have blank : isBlank 0x22 = false := by decide
  have digit : Text.isDigit 0x22 = false := by decide
  have letter : beginsWord 0x22 = false := by decide
  have mark : mark? 0x22 = none := by decide
  cases shape <;> simp_all [Begins]

/-- A mark begins an operator; two slashes begin a comment. -/
theorem begins_mark {b : UInt8} {shape : Shape} (marked : mark? b ≠ none) (h : Begins b shape) :
    shape = .comment ∧ b = 0x2f ∨ ∃ kind, shape = .operator kind := by
  obtain ⟨blank, quote, digit, letter⟩ := mark_apart b marked
  cases shape <;> simp_all [Begins]

end Lexeme

end Bhasha
