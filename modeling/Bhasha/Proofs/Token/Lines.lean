import Bhasha.Proofs.Lexeme.LineBreak
import Bhasha.Proofs.Token.Meaning

/-!
# The lines of tokens and faults

Scanning counts the line feeds of the lexemes it has passed.  The lexemes cover the text without a
gap, so the count is that of the line feeds in the text up to the end of a lexeme: a token stands on
the line on which its text ends.  A character that begins nothing holds no line feed, and a string
that is never closed reaches to the end of the text, so their faults are found on the line of the
character and on the last line.

A scan that starts further down is the same scan with other lines.
-/

namespace Bhasha

open Lexeme
open Text (lineFeed)

/-- The same token further down. -/
def Token.below (lines : Nat) (t : Token) : Token := { t with line := t.line + lines }

/-- The same fault further down. -/
def LexicalFault.below (lines : Nat) (f : LexicalFault) : LexicalFault :=
  { f with line := f.line + lines }

namespace Lexeme

theorem Cut.joined {source : Text} {ls : List Lexeme} (cut : Cut source ls) :
    ls.flatMap (·.text) = source := by
  induction cut with
  | nil => rfl
  | cons _ _ ih => rw [List.flatMap_cons, ih]

theorem Unspelled.no_lineFeed {source : Text} (nothing : Unspelled source) :
    ¬ [lineFeed] <+: source :=
  nothing .blank [lineFeed] (.blank (by decide))

/-- A character that begins nothing holds no line feed. -/
theorem Next.lineBreaks_of_stray {source : Text} {l : Lexeme} (next : Next source l)
    (stray : l.shape = .stray) : l.lineBreaks = 0 := by
  rw [lineBreaks, List.count_eq_zero]
  intro member
  cases next with
  | longest match_ =>
    have spelled := match_.1
    rw [stray] at spelled
    cases spelled
  | unclosed _ _ _ => cases stray
  | character nothing _ scalar start =>
    rw [Utf8.encode_of_lineFeed scalar member] at start
    exact nothing.no_lineFeed start
  | byte present nothing _ _ =>
    obtain ⟨b, tail, rfl⟩ := List.exists_cons_of_ne_nil present
    obtain rfl := List.mem_singleton.mp member
    exact nothing.no_lineFeed (by simp)

/-- A string that is never closed reaches to the end of the text. -/
theorem Next.rest_of_unclosed {l : Lexeme} {rest : Text} (next : Next (l.text ++ rest) l)
    (unclosed : l.shape = .unclosed) : rest = [] := by
  obtain ⟨shape, v⟩ := l
  generalize whole : (Lexeme.mk shape v).text ++ rest = source at next
  cases next with
  | longest match_ =>
    have spelled := match_.1
    rw [unclosed] at spelled
    cases spelled
  | unclosed _ _ _ => exact List.append_right_eq_self.mp whole
  | character _ _ _ _ => cases unclosed
  | byte _ _ _ _ => cases unclosed

theorem token?_below (l : Lexeme) (line : Int) (lines : Nat) :
    l.token? (line + lines) = (l.token? line).map (Token.below lines) := by
  unfold token?
  cases l.shape <;> rfl

theorem line_of_token? {l : Lexeme} {line : Int} {t : Token} (made : l.token? line = some t) :
    t.line = line := by
  unfold token? at made
  split at made
  all_goals cases made
  all_goals rfl

end Lexeme

namespace Scan

theorem tokens_ne_nil (line : Nat) (ls : List Lexeme) : (ofLexemes line ls).tokens ≠ [] := by
  cases ls with
  | nil => simp [ofLexemes]
  | cons l rest => simp [ofLexemes, tokens_ne_nil _ rest]

/-- A scan that starts further down gives the same tokens and faults further down. -/
theorem ofLexemes_below (line lines : Nat) (ls : List Lexeme) :
    ofLexemes (line + lines) ls =
      ⟨(ofLexemes line ls).tokens.map (·.below lines),
        (ofLexemes line ls).faults.map (·.below lines)⟩ := by
  induction ls generalizing line with
  | nil => simp [ofLexemes, Token.below, Token.endOfInput]
  | cons l rest ih =>
    have here : line + lines + l.lineBreaks = line + l.lineBreaks + lines := by omega
    have moved := token?_below l ((line + l.lineBreaks : Nat) : Int) lines
    rw [ofLexemes, here, ih, Int.natCast_add _ lines, moved, ofLexemes]
    cases l.error? with
    | none => simp [Option.toList_map]
    | some e => simp [Option.toList_map, LexicalFault.below]

/-- Lexemes behind others are scanned from the line on which those end. -/
theorem ofLexemes_append (line : Nat) (ls ls' : List Lexeme) :
    ofLexemes line (ls ++ ls') =
      ⟨(ofLexemes line ls).tokens.dropLast ++
          (ofLexemes (line + (ls.flatMap (·.text)).count lineFeed) ls').tokens,
        (ofLexemes line ls).faults ++
          (ofLexemes (line + (ls.flatMap (·.text)).count lineFeed) ls').faults⟩ := by
  induction ls generalizing line with
  | nil => simp [ofLexemes]
  | cons l rest ih =>
    have breaks : line + ((l :: rest).flatMap (·.text)).count lineFeed =
        line + l.lineBreaks + (rest.flatMap (·.text)).count lineFeed := by
      rw [List.flatMap_cons, List.count_append, lineBreaks, Nat.add_assoc]
    rw [List.cons_append, ofLexemes, ih, breaks, ofLexemes]
    simp [List.dropLast_append_of_ne_nil (tokens_ne_nil _ rest)]

/-- No token stands above the line where the scan starts or below the line where it ends. -/
theorem tokens_between (line : Nat) (ls : List Lexeme) :
    ∀ t ∈ (ofLexemes line ls).tokens, (line : Int) ≤ t.line ∧
      t.line ≤ (line + (ls.flatMap (·.text)).count lineFeed : Nat) := by
  induction ls generalizing line with
  | nil =>
    intro t member
    obtain rfl := List.mem_singleton.mp member
    simp [Token.endOfInput]
  | cons l rest ih =>
    intro t member
    rw [List.flatMap_cons, List.count_append]
    change _ ∧ t.line ≤ (line + (l.lineBreaks + _) : Nat)
    obtain here | after := List.mem_append.mp member
    · have line_ := line_of_token? (Option.mem_toList.mp here)
      omega
    · have bounds := ih _ t after
      omega

theorem faults_between (line : Nat) (ls : List Lexeme) :
    ∀ f ∈ (ofLexemes line ls).faults, (line : Int) ≤ f.line ∧
      f.line ≤ (line + (ls.flatMap (·.text)).count lineFeed : Nat) := by
  induction ls generalizing line with
  | nil => simp [ofLexemes]
  | cons l rest ih =>
    intro f member
    rw [List.flatMap_cons, List.count_append]
    change _ ∧ f.line ≤ (line + (l.lineBreaks + _) : Nat)
    obtain here | after := List.mem_append.mp member
    · obtain ⟨e, -, rfl⟩ := Option.map_eq_some_iff.mp (Option.mem_toList.mp here)
      dsimp only
      omega
    · have bounds := ih _ f after
      omega

/-- Lines do not decrease from token to token. -/
theorem tokens_in_order (line : Nat) (ls : List Lexeme) :
    (ofLexemes line ls).tokens.Pairwise fun t t' => t.line ≤ t'.line := by
  induction ls generalizing line with
  | nil => exact List.pairwise_singleton _ _
  | cons l rest ih =>
    refine List.pairwise_append.mpr ⟨?_, ih _, fun t here t' after => ?_⟩
    · cases l.token? ((line + l.lineBreaks : Nat) : Int) with
      | none => exact .nil
      | some t => exact List.pairwise_singleton _ _
    · have line_ := line_of_token? (Option.mem_toList.mp here)
      have bounds := tokens_between _ rest t' after
      omega

end Scan

/-- The line on which the first `offset` bytes of a text end. -/
def lineAt (source : Text) (offset : Nat) : Nat := 1 + (source.take offset).count lineFeed

/-- A lexeme and the number of bytes before it. -/
structure Placed where
  start : Nat
  lexeme : Lexeme
deriving DecidableEq, Repr

namespace Placed

/-- The number of bytes up to the end of a lexeme. -/
def stop (p : Placed) : Nat := p.start + p.lexeme.text.length

/-- Lexemes one behind the other, the first behind `start` bytes. -/
def sequence (start : Nat) : List Lexeme → List Placed
  | [] => []
  | l :: rest => ⟨start, l⟩ :: sequence (start + l.text.length) rest

/-- The lexemes of a text in their places. -/
def ofSource (source : Text) : List Placed := sequence 0 (split source)

/-- The token of a lexeme, on the line on which the lexeme ends. -/
def token? (source : Text) (p : Placed) : Option Token := p.lexeme.token? (lineAt source p.stop)

/-- The fault of a lexeme: of a character on its line, of an open string on the last line. -/
def fault? (source : Text) (p : Placed) : Option LexicalFault :=
  match p.lexeme.shape with
  | .stray => some ⟨lineAt source p.start, .unexpectedCharacter⟩
  | .unclosed => some ⟨lineAt source source.length, .unterminatedString⟩
  | _ => none

end Placed

theorem lineAt_append (before rest : Text) :
    lineAt (before ++ rest) before.length = 1 + before.count lineFeed := by
  rw [lineAt, List.take_left]

theorem lineAt_length (source : Text) :
    lineAt source source.length = 1 + source.count lineFeed := by
  rw [lineAt, List.take_length]

/-- The line on which a lexeme behind `before` ends. -/
theorem lineAt_stop (before : Text) (l : Lexeme) (rest : Text) :
    lineAt (before ++ (l.text ++ rest)) (Placed.stop ⟨before.length, l⟩) =
      1 + before.count lineFeed + l.lineBreaks := by
  rw [Placed.stop, ← List.append_assoc, ← List.length_append, lineAt_append, List.count_append,
    lineBreaks, Nat.add_assoc]

/-- The fault of a lexeme behind `before` is the one that its place gives. -/
theorem Lexeme.Next.fault?_eq {l : Lexeme} {rest : Text} (next : Next (l.text ++ rest) l)
    (before : Text) :
    Placed.fault? (before ++ (l.text ++ rest)) ⟨before.length, l⟩ =
      l.error?.map (LexicalFault.mk ((1 + before.count lineFeed + l.lineBreaks : Nat) : Int)) := by
  cases shape : l.shape with
  | stray =>
    have single := next.lineBreaks_of_stray shape
    simp [Placed.fault?, Lexeme.error?, shape, lineAt_append, single]
  | unclosed =>
    -- the string's end is the end of the text, so the lines of the two ends are one
    have atEnd := next.rest_of_unclosed shape
    subst atEnd
    have last := lineAt_stop before l []
    rw [Placed.stop, List.append_nil, ← List.length_append] at last
    simp only [Placed.fault?, Lexeme.error?, shape, List.append_nil, last]
    rfl
  | _ => simp [Placed.fault?, Lexeme.error?, shape]

/-- Scanning the lexemes behind `before` gives the tokens and faults of their places. -/
theorem Lexeme.Cut.ofLexemes_eq {rest : Text} {ls : List Lexeme} (cut : Cut rest ls)
    (before : Text) :
    Scan.ofLexemes (1 + before.count lineFeed) ls =
      ⟨(Placed.sequence before.length ls).filterMap (Placed.token? (before ++ rest)) ++
          [Token.endOfInput (lineAt (before ++ rest) (before ++ rest).length)],
        (Placed.sequence before.length ls).filterMap (Placed.fault? (before ++ rest))⟩ := by
  induction cut generalizing before with
  | nil => simp [Scan.ofLexemes, Placed.sequence, lineAt]
  | @cons l rest others first _ ih =>
    have after := ih (before ++ l.text)
    have token : Placed.token? (before ++ (l.text ++ rest)) ⟨before.length, l⟩ =
        l.token? ((1 + before.count lineFeed + l.lineBreaks : Nat) : Int) := by
      rw [Placed.token?, lineAt_stop]
    rw [List.count_append, ← Nat.add_assoc, List.append_assoc, List.length_append] at after
    simp only [Scan.ofLexemes, Placed.sequence, List.filterMap_eq_flatMap_toList,
      List.flatMap_cons, token, first.fault?_eq before, List.append_assoc] at after ⊢
    rw [lineBreaks, after]

/-- A lexeme stands in the text where its place says. -/
theorem Placed.stands (before : Text) (ls : List Lexeme) :
    ∀ p ∈ sequence before.length ls,
      p.lexeme.text <+: (before ++ ls.flatMap (·.text)).drop p.start := by
  induction ls generalizing before with
  | nil => simp [sequence]
  | cons l rest ih =>
    intro p member
    cases member with
    | head =>
      rw [List.drop_left, List.flatMap_cons]
      exact List.prefix_append _ _
    | tail _ behind =>
      have inside := ih (before ++ l.text) p (by rwa [List.length_append])
      rwa [List.append_assoc] at inside

end Bhasha
