import Bhasha.Proofs.Lexeme.LongestMatch
import Bhasha.Token.Scan
import Mathlib.Data.List.Forall2

/-!
# What scanning makes of the lexemes

The token of a lexeme, shape by shape.  Scanning keeps the strings, numbers, words and operators and
makes one token of each, in order, and it makes one fault of each error lexeme.  Together with the
longest match this says what scanning does to every text.
-/

namespace Bhasha

open Lexeme

/-- The tokens that a lexeme can stand for; they differ only in their line. -/
inductive Denotes : Lexeme → Token → Prop
  | string {content : Text} {line : Int} :
      Denotes ⟨.string, 0x22 :: (content ++ [0x22])⟩
        ⟨.string, 0x22 :: (content ++ [0x22]), .string content, line⟩
  | whole {digits : Text} {line : Int} (all : ∀ d ∈ digits, Text.isDigit d = true) :
      Denotes ⟨.number, digits⟩ ⟨.number, digits, .number (Decimal.read digits []), line⟩
  | fraction {digits places : Text} {line : Int} (all : ∀ d ∈ digits, Text.isDigit d = true) :
      Denotes ⟨.number, digits ++ 0x2e :: places⟩
        ⟨.number, digits ++ 0x2e :: places, .number (Decimal.read digits places), line⟩
  | reserved {kind : Kind} {line : Int} (listed : kind ∈ Kind.reserved) :
      Denotes ⟨.word, kind.spelling⟩ ⟨kind, kind.spelling, .nothing, line⟩
  | identifier {word : Text} {line : Int} (free : ∀ kind ∈ Kind.reserved, kind.spelling ≠ word) :
      Denotes ⟨.word, word⟩ ⟨.identifier, word, .nothing, line⟩
  | operator {kind : Kind} {spelled : Text} {line : Int} :
      Denotes ⟨.operator kind, spelled⟩ ⟨kind, spelled, .nothing, line⟩

/-- A token as scanning makes it. -/
def Token.Scanned (t : Token) : Prop := ∃ l, Spells l.shape l.text ∧ Denotes l t

/-- A token without its line. -/
def Token.unlined (t : Token) : Token := { t with line := 0 }

/-- The token of a kind that has only one spelling. -/
def Kind.token (kind : Kind) : Token :=
  ⟨kind, (Kind.operators.lookup kind).getD kind.spelling, .nothing, 0⟩

/-- The faults that an error lexeme can stand for. -/
inductive Blames : Lexeme → LexicalFault → Prop
  | unclosed {v : Text} {line : Int} : Blames ⟨.unclosed, v⟩ ⟨line, .unterminatedString⟩
  | stray {v : Text} {line : Int} : Blames ⟨.stray, v⟩ ⟨line, .unexpectedCharacter⟩

/-- The shapes that become tokens. -/
def Shape.isMeaningful : Shape → Bool
  | .string | .number | .word | .operator _ => true
  | .blank | .comment | .unclosed | .stray => false

def Shape.isError : Shape → Bool
  | .unclosed | .stray => true
  | _ => false

namespace Lexeme

theorem content_quoted (content : Text) :
    Lexeme.content (0x22 :: (content ++ [0x22])) = content := by
  simp [Lexeme.content]

theorem no_point_of_digits {digits : Text} (all : ∀ d ∈ digits, Text.isDigit d = true) :
    ∀ d ∈ digits, (!(d = 0x2e : Bool)) = true := by
  intro d member
  have digit := all d member
  simp only [Bool.not_eq_true', decide_eq_false_iff_not]
  rintro rfl
  exact absurd digit (by decide)

theorem numberValue_whole {digits : Text} (all : ∀ d ∈ digits, Text.isDigit d = true) :
    numberValue digits = Decimal.read digits [] := by
  have plain := no_point_of_digits all
  have front := @List.takeWhile_append_of_pos _ _ digits [] plain
  have back := @List.dropWhile_append_of_pos _ _ digits [] plain
  rw [List.append_nil] at front back
  simp [numberValue, Text.cutAt, front, back]

theorem numberValue_fraction {digits places : Text} (all : ∀ d ∈ digits, Text.isDigit d = true) :
    numberValue (digits ++ 0x2e :: places) = Decimal.read digits places := by
  have plain := no_point_of_digits all
  simp [numberValue, Text.cutAt, List.takeWhile_append_of_pos plain,
    List.dropWhile_append_of_pos plain]

end Lexeme

theorem Kind.ofWord_spelling : ∀ kind ∈ Kind.reserved, Kind.ofWord kind.spelling = kind := by
  decide +kernel

theorem Kind.ofWord_eq_identifier {word : Text}
    (free : ∀ kind ∈ Kind.reserved, kind.spelling ≠ word) : Kind.ofWord word = .identifier := by
  have absent : Kind.ofWord? word = none := by
    refine List.find?_eq_none.mpr fun kind listed => ?_
    simpa using free kind listed
  rw [Kind.ofWord, absent]
  rfl

/-- A word is reserved for one kind, or it is free. -/
theorem Kind.word_cases (word : Text) :
    (∃ kind ∈ Kind.reserved, kind.spelling = word) ∨
      ∀ kind ∈ Kind.reserved, kind.spelling ≠ word := by
  by_cases found : ∃ kind ∈ Kind.reserved, kind.spelling = word
  · exact .inl found
  · exact .inr fun kind listed same => found ⟨kind, listed, same⟩

/-- The token of a spelled lexeme is the one that the lexeme denotes. -/
theorem denotes_token {l : Lexeme} (spelled : Spells l.shape l.text) (line : Int)
    {t : Token} (made : l.token? line = some t) : Denotes l t := by
  obtain ⟨shape, v⟩ := l
  cases spelled with
  | blank white => cases made
  | comment oneLine => cases made
  | string closed =>
    cases made
    rw [content_quoted]
    exact .string
  | whole nonempty all =>
    cases made
    dsimp only
    rw [numberValue_whole all]
    exact .whole all
  | @fraction digits places nonempty all somePlaces allPlaces =>
    cases made
    change Denotes _ ⟨_, _, .number (numberValue (digits ++ 0x2e :: places)), line⟩
    rw [numberValue_fraction all]
    exact .fraction all
  | @word b more first others =>
    cases made
    obtain ⟨kind, listed, same⟩ | free := Kind.word_cases (b :: more)
    · rw [← same, Kind.ofWord_spelling kind listed]
      exact .reserved listed
    · rw [Kind.ofWord_eq_identifier free]
      exact .identifier free
  | operator listed =>
    cases made
    exact .operator

theorem token?_isSome_iff (l : Lexeme) (line : Int) :
    (l.token? line).isSome = l.shape.isMeaningful := by
  unfold Lexeme.token?
  cases l.shape <;> rfl

theorem blames_error {l : Lexeme} {error : LexicalError} (line : Int)
    (made : l.error? = some error) : Blames l ⟨line, error⟩ := by
  obtain ⟨shape, v⟩ := l
  cases shape with
  | unclosed =>
    cases made
    exact .unclosed
  | stray =>
    cases made
    exact .stray
  | _ => cases made

theorem error?_isSome_iff (l : Lexeme) : l.error?.isSome = l.shape.isError := by
  unfold Lexeme.error?
  cases l.shape <;> rfl

/-- Scanning makes one token of every meaningful lexeme, in order, then the end of the input. -/
theorem ofLexemes_tokens {ls : List Lexeme}
    (spelled : ∀ l ∈ ls, l.shape.isMeaningful = true → Spells l.shape l.text) (line : Nat) :
    ∃ tokens last, (Scan.ofLexemes line ls).tokens = tokens ++ [Token.endOfInput last] ∧
      List.Forall₂ Denotes (ls.filter (·.shape.isMeaningful)) tokens := by
  induction ls generalizing line with
  | nil => exact ⟨[], line, rfl, .nil⟩
  | cons l rest ih =>
    obtain ⟨tokens, last, whole, denoted⟩ :=
      ih (fun l' member => spelled l' (.tail _ member)) (line + l.lineBreaks)
    have here := token?_isSome_iff l ((line + l.lineBreaks : Nat) : Int)
    simp only [Scan.ofLexemes, whole]
    cases made : l.token? ((line + l.lineBreaks : Nat) : Int) with
    | none =>
      rw [made] at here
      refine ⟨tokens, last, rfl, ?_⟩
      rwa [List.filter_cons_of_neg (by simp [← here])]
    | some t =>
      rw [made] at here
      refine ⟨t :: tokens, last, rfl, ?_⟩
      rw [List.filter_cons_of_pos (by simp [← here])]
      exact .cons (denotes_token (spelled l (.head _) here.symm) _ made) denoted

/-- Scanning makes one fault of every error lexeme, in order. -/
theorem ofLexemes_faults (ls : List Lexeme) (line : Nat) :
    List.Forall₂ Blames (ls.filter (·.shape.isError)) (Scan.ofLexemes line ls).faults := by
  induction ls generalizing line with
  | nil => exact .nil
  | cons l rest ih =>
    have here := error?_isSome_iff l
    simp only [Scan.ofLexemes]
    cases made : l.error? with
    | none =>
      rw [made] at here
      rw [List.filter_cons_of_neg (by simp [← here])]
      exact ih (line + l.lineBreaks)
    | some error =>
      rw [made] at here
      rw [List.filter_cons_of_pos (by simp [← here])]
      exact .cons (blames_error _ made) (ih (line + l.lineBreaks))

theorem Lexeme.Next.spells {source : Text} {l : Lexeme} (h : Next source l)
    (meaningful : l.shape.isMeaningful = true) : Spells l.shape l.text := by
  cases h with
  | longest match_ => exact match_.1
  | unclosed => cases meaningful
  | character => cases meaningful
  | byte => cases meaningful

theorem Lexeme.Cut.spells {source : Text} {ls : List Lexeme} (h : Cut source ls) :
    ∀ l ∈ ls, l.shape.isMeaningful = true → Spells l.shape l.text := by
  induction h with
  | nil => simp
  | cons first tail ih =>
    intro l member
    cases member with
    | head => exact first.spells
    | tail _ member => exact ih l member

/-- Scanning cuts every text by longest matches, in the one way there is, with an error only where
nothing is spelled; no lexeme is measured past the end.  The tokens are those of the meaningful
lexemes, closed by the end of the input, and the faults are those of the error lexemes. -/
theorem scanning_is_longest_match (source : Text) :
    (∀ ls, Cut source ls ↔ ls = split source) ∧
    (∀ b rest, b :: rest <:+ source → (measure b rest).2 ≤ rest.length) ∧
    (∃ tokens last, (Scan.ofSource source).tokens = tokens ++ [Token.endOfInput last] ∧
      List.Forall₂ Denotes ((split source).filter (·.shape.isMeaningful)) tokens) ∧
    List.Forall₂ Blames ((split source).filter (·.shape.isError)) (Scan.ofSource source).faults :=
  ⟨fun _ => cut_iff, fun b rest _ => measure_le_length b rest,
    ofLexemes_tokens (cut_split source).spells 1, ofLexemes_faults (split source) 1⟩

end Bhasha
