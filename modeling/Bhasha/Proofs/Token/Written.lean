import Bhasha.Proofs.Decimal.Positional
import Bhasha.Proofs.Lexeme.Boundary
import Bhasha.Proofs.Token.Meaning

/-!
# Texts that are written from tokens

A text lexes as a list of tokens when it falls into lexemes that stand for them, whatever follows
it.  Most texts ask something of what follows: a word or a number has to be followed by a delimiter.
Two such texts make up a third as soon as the second is something that the first can be followed by.
-/

namespace Bhasha

open Lexeme

/-- `s` falls into lexemes that stand for `ts`, without error, before every text that `next`
allows. -/
def Lexes (next : Text → Prop) (s : Text) (ts : List Token) : Prop :=
  ∀ rest, next rest → ∃ ls, split (s ++ rest) = ls ++ split rest ∧
    ls.filterMap (·.token? 0) = ts ∧ ∀ l ∈ ls, l.shape.isError = false

/-- Any text may follow. -/
abbrev Anything (_ : Text) : Prop := True

variable {next after : Text → Prop} {s s' : Text} {ts ts' : List Token}

theorem lexes_nil : Lexes next [] [] := fun _ _ => ⟨[], rfl, rfl, by simp⟩

theorem Lexes.append (first : Lexes next s ts) (second : Lexes after s' ts')
    (meets : ∀ rest, after rest → next (s' ++ rest)) : Lexes after (s ++ s') (ts ++ ts') := by
  intro rest follows
  obtain ⟨ls, cut, tokens, clean⟩ := first (s' ++ rest) (meets rest follows)
  obtain ⟨ls', cut', tokens', clean'⟩ := second rest follows
  refine ⟨ls ++ ls', ?_, ?_, ?_⟩
  · rw [List.append_assoc, cut, cut', List.append_assoc]
  · rw [List.filterMap_append, tokens, tokens']
  · intro l member
    obtain left | right := List.mem_append.mp member
    · exact clean l left
    · exact clean' l right

/-- A text that can stand before anything can stand before any other text. -/
theorem Lexes.before (first : Lexes Anything s ts) (second : Lexes after s' ts') :
    Lexes after (s ++ s') (ts ++ ts') :=
  first.append second fun _ _ => trivial

theorem Lexes.mono (first : Lexes next s ts) (weaker : ∀ rest, after rest → next rest) :
    Lexes after s ts :=
  fun rest follows => first rest (weaker rest follows)

theorem lexes_of_split {l : Lexeme}
    (cut : ∀ rest, next rest → split (l.text ++ rest) = l :: split rest)
    (clean : l.shape.isError = false) : Lexes next l.text (l.token? 0).toList := by
  intro rest follows
  refine ⟨[l], cut rest follows, ?_, by simpa using clean⟩
  cases token : l.token? 0 with
  | none => simp [token]
  | some t => simp [token]

theorem lexes_blank {b : UInt8} (white : isBlank b = true) : Lexes Anything [b] [] :=
  lexes_of_split (l := ⟨.blank, [b]⟩)
    (fun rest _ => @split_of_measure _ rest _ [] (measure_blank white)) rfl

/-- A mark that begins no longer operator stands before anything. -/
theorem lexes_mark {b : UInt8} {kind : Kind} (marked : mark? b = some kind) (noSlash : b ≠ 0x2f)
    (single : withEqual? kind = none) (spelled : kind.token = ⟨kind, [b], .nothing, 0⟩) :
    Lexes Anything [b] [kind.token] := by
  rw [spelled]
  exact lexes_of_split (l := ⟨.operator kind, [b]⟩)
    (fun rest _ => @split_of_measure _ rest _ [] (measure_mark marked
      (fun slash => absurd slash noSlash) (fun some => absurd single some))) rfl

/-- The lexeme of a scanned token is read as that token again. -/
theorem Denotes.token? {l : Lexeme} {t : Token} (denoted : Denotes l t) :
    l.token? 0 = some t.unlined ∧ l.text = t.lexeme ∧ l.shape ≠ .comment ∧
      l.shape.isError = false := by
  cases denoted with
  | string =>
    refine ⟨?_, rfl, nofun, rfl⟩
    simp [Lexeme.token?, content_quoted, Token.unlined]
  | whole all =>
    refine ⟨?_, rfl, nofun, rfl⟩
    simp [Lexeme.token?, numberValue_whole all, Token.unlined]
  | fraction all =>
    refine ⟨?_, rfl, nofun, rfl⟩
    simp [Lexeme.token?, numberValue_fraction all, Token.unlined]
  | reserved listed =>
    refine ⟨?_, rfl, nofun, rfl⟩
    simp [Lexeme.token?, Kind.ofWord_spelling _ listed, Token.unlined]
  | identifier free =>
    refine ⟨?_, rfl, nofun, rfl⟩
    simp [Lexeme.token?, Kind.ofWord_eq_identifier free, Token.unlined]
  | operator => exact ⟨rfl, rfl, nofun, rfl⟩

/-- A scanned token can be written down before a delimiter. -/
theorem Token.Scanned.lexes {t : Token} (scanned : t.Scanned) :
    Lexes Delimited t.lexeme [t.unlined] := by
  obtain ⟨l, spelled, denoted⟩ := scanned
  obtain ⟨token, same, noComment, clean⟩ := denoted.token?
  have lexes := lexes_of_split (fun rest follows => split_spelled spelled noComment follows) clean
  rwa [token, same] at lexes

theorem Kind.spells_spelling : ∀ kind ∈ Kind.reserved, Spells .word kind.spelling := by
  have words : ∀ kind ∈ Kind.reserved, ∃ b more, kind.spelling = b :: more ∧
      (beginsWord b && more.all continuesWord) = true := by
    simp only [Kind.reserved, List.forall_mem_cons]
    refine ⟨?_, ?_, ?_, ?_, ?_, ?_, ?_, ?_, ?_, ?_, ?_, ?_, ?_, ?_, ?_, ?_, by simp⟩
    all_goals exact ⟨_, _, rfl, by decide⟩
  intro kind listed
  obtain ⟨b, more, spelling, word⟩ := words kind listed
  rw [Bool.and_eq_true, List.all_eq_true] at word
  rw [spelling]
  exact .word word.1 word.2

/-- The kinds that have only one spelling. -/
def Kind.isFixed (kind : Kind) : Bool :=
  match kind with
  | .identifier | .string | .number => false
  | _ => true

theorem Kind.token_reserved :
    ∀ kind ∈ Kind.reserved, kind.token = ⟨kind, kind.spelling, .nothing, 0⟩ := by
  decide +kernel

theorem Kind.token_operator :
    ∀ entry ∈ Kind.operators, entry.1.token = ⟨entry.1, entry.2, .nothing, 0⟩ := by
  decide +kernel

/-- A scanned token of a kind with one spelling is the token of that kind. -/
theorem Token.Scanned.eq_token {t : Token} (scanned : t.Scanned) (fixed : t.kind.isFixed = true) :
    t.unlined = t.kind.token := by
  obtain ⟨l, spelled, denoted⟩ := scanned
  cases denoted with
  | string => cases fixed
  | whole all => cases fixed
  | fraction all => cases fixed
  | reserved listed => exact (Kind.token_reserved _ listed).symm
  | identifier free => cases fixed
  | operator =>
    cases spelled with
    | operator listed => exact (Kind.token_operator _ listed).symm

theorem Kind.isFixed_of_reserved : ∀ kind ∈ Kind.reserved, kind.isFixed = true := by
  decide

theorem Kind.isFixed_of_operator : ∀ entry ∈ Kind.operators, entry.1.isFixed = true := by
  decide +kernel

theorem Lexeme.Spells.string_closed {content : Text}
    (spelled : Spells .string (0x22 :: (content ++ [0x22]))) : 0x22 ∉ content := by
  generalize quoted : 0x22 :: (content ++ [0x22]) = v at spelled
  cases spelled with
  | string closed =>
    rw [List.append_cancel_right (List.cons.inj quoted).2]
    exact closed

/-- The value of a scanned number or string. -/
theorem Token.Scanned.literal_cases {t : Token} (scanned : t.Scanned) :
    (t.kind = .number → ∃ v : Binary64, v.Readable ∧ t.literal = .number v) ∧
    (t.kind = .string → ∃ content, 0x22 ∉ content ∧ t.literal = .string content ∧
      t.lexeme = 0x22 :: (content ++ [0x22])) := by
  obtain ⟨l, spelled, denoted⟩ := scanned
  cases denoted with
  | @string content => exact ⟨nofun, fun _ => ⟨content, spelled.string_closed, rfl, rfl⟩⟩
  | whole all => exact ⟨fun _ => ⟨_, Binary64.readable_ofRatio _ _, rfl⟩, nofun⟩
  | fraction all => exact ⟨fun _ => ⟨_, Binary64.readable_ofRatio _ _, rfl⟩, nofun⟩
  | identifier free => exact ⟨nofun, nofun⟩
  | @reserved kind _ listed =>
    have fixed := Kind.isFixed_of_reserved kind listed
    exact ⟨fun number => by simp_all [Kind.isFixed], fun string => by simp_all [Kind.isFixed]⟩
  | operator =>
    cases spelled with
    | operator listed =>
      have fixed := Kind.isFixed_of_operator _ listed
      exact ⟨fun number => by simp_all [Kind.isFixed], fun string => by simp_all [Kind.isFixed]⟩

/-- The tokens of reserved words are scanned. -/
theorem Kind.scanned_reserved {kind : Kind} (listed : kind ∈ Kind.reserved) :
    kind.token.Scanned := by
  rw [Kind.token_reserved kind listed]
  exact ⟨_, Kind.spells_spelling kind listed, .reserved listed⟩

/-- A reserved word can be written down before a delimiter. -/
theorem Kind.lexes_spelling {kind : Kind} (listed : kind ∈ Kind.reserved) :
    Lexes Delimited kind.spelling [kind.token] := by
  have lexes := (Kind.scanned_reserved listed).lexes
  rwa [Kind.token_reserved kind listed] at lexes ⊢

theorem Kind.equals_of_head : ∀ entry ∈ Kind.operators, entry.1 ≠ .equal →
    entry.1 ≠ .equalEqual → entry.2.head? ≠ some 0x3d := by
  decide +kernel

/-- Only the operators of equality begin with an equals sign. -/
theorem Token.Scanned.head_ne {t : Token} (scanned : t.Scanned)
    (other : t.kind ≠ .equal ∧ t.kind ≠ .equalEqual) :
    ∃ b more, t.lexeme = b :: more ∧ b ≠ 0x3d := by
  obtain ⟨l, spelled, denoted⟩ := scanned
  obtain ⟨-, same, -, -⟩ := denoted.token?
  obtain ⟨b, more, whole, begins⟩ := spelled.begins
  refine ⟨b, more, by rw [← same, whole], ?_⟩
  rintro rfl
  obtain ⟨-, wrong⟩ | ⟨kind, operator⟩ := begins_mark (by decide) begins
  · cases wrong
  · obtain ⟨shape, v⟩ := l
    cases operator
    cases denoted
    cases spelled with
    | operator listed => exact Kind.equals_of_head _ listed other.1 other.2 (by rw [whole]; rfl)

theorem Kind.ne_eof_of_reserved : ∀ kind ∈ Kind.reserved, kind ≠ .eof := by
  decide

theorem Kind.ne_eof_of_operator : ∀ entry ∈ Kind.operators, entry.1 ≠ .eof := by
  decide +kernel

/-- Scanned tokens are not the end of the input. -/
theorem Token.Scanned.kind_ne_eof {t : Token} (scanned : t.Scanned) : t.kind ≠ .eof := by
  obtain ⟨l, spelled, denoted⟩ := scanned
  cases denoted with
  | reserved listed => exact Kind.ne_eof_of_reserved _ listed
  | operator =>
    cases spelled with
    | operator listed => exact Kind.ne_eof_of_operator _ listed
  | _ => exact nofun

theorem exists_of_forall₂ {α β : Type} {R : α → β → Prop} {as : List α} {bs : List β}
    (related : List.Forall₂ R as bs) : ∀ b ∈ bs, ∃ a ∈ as, R a b := by
  induction related with
  | nil => simp
  | cons here _ ih =>
    intro b member
    cases member with
    | head => exact ⟨_, .head _, here⟩
    | tail _ member =>
      obtain ⟨a, inside, same⟩ := ih b member
      exact ⟨a, .tail _ inside, same⟩

/-- Scanning gives scanned tokens and then the end of the input. -/
theorem scan_tokens (source : Text) :
    ∃ ts last, (Scan.ofSource source).tokens = ts ++ [Token.endOfInput last] ∧
      ∀ t ∈ ts, t.Scanned := by
  obtain ⟨ts, last, whole, denoted⟩ := ofLexemes_tokens (cut_split source).spells 1
  refine ⟨ts, last, whole, fun t member => ?_⟩
  obtain ⟨l, inside, here⟩ := exists_of_forall₂ denoted t member
  have kept := List.mem_filter.mp inside
  exact ⟨l, (cut_split source).spells l kept.1 kept.2, here⟩

theorem token?_unlined (l : Lexeme) (line : Int) :
    (l.token? line).map Token.unlined = l.token? 0 := by
  unfold Lexeme.token?
  cases l.shape <;> rfl

/-- But for their lines, the tokens of a scan are those of its lexemes. -/
theorem ofLexemes_unlined (ls : List Lexeme) (line : Nat) :
    (Scan.ofLexemes line ls).tokens.map Token.unlined =
      ls.filterMap (·.token? 0) ++ [Token.endOfInput 0] := by
  induction ls generalizing line with
  | nil => rfl
  | cons l rest ih =>
    have here := token?_unlined l ((line + l.lineBreaks : Nat) : Int)
    simp only [Scan.ofLexemes, List.map_append, ih]
    cases made : l.token? ((line + l.lineBreaks : Nat) : Int) with
    | none =>
      rw [made] at here
      simp [← here]
    | some t =>
      rw [made] at here
      simp [← here]

/-- A text that lexes as tokens is scanned as these tokens, without a fault. -/
theorem Lexes.scan (lexes : Lexes Anything s ts) :
    (Scan.ofSource s).tokens.map Token.unlined = ts ++ [Token.endOfInput 0] ∧
      (Scan.ofSource s).faults = [] := by
  obtain ⟨ls, cut, tokens, clean⟩ := lexes [] trivial
  rw [List.append_nil, split, List.append_nil] at cut
  have blamed := ofLexemes_faults (split s) 1
  have none : (split s).filter (·.shape.isError) = [] := by
    rw [cut, List.filter_eq_nil_iff]
    intro l member
    simp [clean l member]
  rw [none] at blamed
  refine ⟨?_, List.forall₂_nil_left_iff.mp blamed⟩
  rw [Scan.ofSource, ofLexemes_unlined, cut, tokens]

end Bhasha
