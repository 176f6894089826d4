import Bhasha.Diagnostic
import Bhasha.Proofs.Reading.RoundTrip
import Bhasha.Proofs.Token.Lines

/-!
# The lines of a reading

Every diagnostic of a source text, lexical or syntactic, names a line of the text.  A lexical fault
has the line of its place; a syntactic one has the line of the token that is blamed, and a parser
blames no token but those it was given.

A text can also be scanned line by line: a line feed that is in no string parts it into two texts
that are scanned on their own, the second further down.
-/

namespace Bhasha

open Lexeme Parse
open Text (lineFeed)

/-- A parser blames the tokens it was given, or the end of the input. -/
theorem Parse.blames_given {P : Token → Prop} {ts : List Token} (inside : ∀ t ∈ body ts, P t)
    (finish : P (endToken ts)) : ∀ f ∈ (recorded ts).records, P f.token := by
  -- a run is alike to itself under any relation that its tokens have to themselves
  have keeps : KeepsKind fun t t' => t = t' ∧ P t := fun t t' same => by rw [same.1]
  have related : List.Forall₂ (fun t t' => t = t' ∧ P t) (body ts) (body ts) :=
    List.forall₂_same.mpr fun t member => ⟨rfl, inside t member⟩
  obtain ⟨-, faults⟩ := recorded_alike keeps related ⟨rfl, finish⟩
  intro f member
  obtain ⟨g, -, blamed, -⟩ := exists_of_forall₂ faults f member
  exact blamed.1 ▸ blamed.2

theorem scan_between (source : Text) :
    (∀ t ∈ (Scan.ofSource source).tokens, 1 ≤ t.line ∧ t.line ≤ lineAt source source.length) ∧
    ∀ f ∈ (Scan.ofSource source).faults, 1 ≤ f.line ∧ f.line ≤ lineAt source source.length := by
  have whole : (split source).flatMap (·.text) = source := (cut_split source).joined
  have tokens := Scan.tokens_between 1 (split source)
  have faults := Scan.faults_between 1 (split source)
  rw [whole] at tokens faults
  rw [lineAt_length]
  exact ⟨tokens, faults⟩

/-- Every diagnostic names a line of the text. -/
theorem Reading.diagnostics_between (source : Text) :
    ∀ d ∈ (Reading.ofSource source).diagnostics,
      1 ≤ d.line ∧ d.line ≤ lineAt source source.length := by
  obtain ⟨tokens, faults⟩ := scan_between source
  obtain ⟨last, whole, scanned⟩ := scan_body source
  have inside : ∀ t ∈ body (Scan.ofSource source).tokens,
      1 ≤ t.line ∧ t.line ≤ lineAt source source.length := by
    intro t member
    refine tokens t ?_
    rw [whole]
    exact List.mem_append_left _ member
  have finish : endToken (Scan.ofSource source).tokens = Token.endOfInput last := by
    rw [whole]
    exact endToken_append_end (fun t member => (scanned t member).kind_ne_eof) rfl
  have ending : 1 ≤ (endToken (Scan.ofSource source).tokens).line ∧
      (endToken (Scan.ofSource source).tokens).line ≤ lineAt source source.length := by
    rw [finish]
    refine tokens _ ?_
    rw [whole]
    exact List.mem_append_right _ (.head _)
  intro d member
  obtain lexical | syntactic := List.mem_append.mp member
  · obtain ⟨f, found, rfl⟩ := List.mem_map.mp lexical
    exact faults f found
  · obtain ⟨f, found, rfl⟩ := List.mem_map.mp syntactic
    exact blames_given inside ending f found

/-- The lines of a text are counted exactly.  The lexemes stand in the text where their places say;
a token has the line on which its lexeme ends, and the end of the input the last line of the text;
a character that begins nothing is reported on its line, and an open string on the last line.  So
lines do not decrease from token to token, and every diagnostic names a line of the text. -/
theorem lines_are_exact (source : Text) :
    (∀ p ∈ Placed.ofSource source, p.lexeme.text <+: source.drop p.start) ∧
    (Scan.ofSource source).tokens =
      (Placed.ofSource source).filterMap (Placed.token? source) ++
        [Token.endOfInput (1 + source.count lineFeed)] ∧
    (Scan.ofSource source).faults = (Placed.ofSource source).filterMap (Placed.fault? source) ∧
    ((Scan.ofSource source).tokens.Pairwise fun t t' => t.line ≤ t'.line) ∧
    ∀ d ∈ (Reading.ofSource source).diagnostics,
      1 ≤ d.line ∧ d.line ≤ 1 + source.count lineFeed := by
  have stands := Placed.stands [] (split source)
  have scan := (cut_split source).ofLexemes_eq []
  have diagnostics := Reading.diagnostics_between source
  rw [List.nil_append, (cut_split source).joined] at stands
  rw [List.nil_append, lineAt_length] at scan
  rw [lineAt_length] at diagnostics
  refine ⟨stands, ?_, ?_, Scan.tokens_in_order 1 (split source), ?_⟩
  · exact congrArg Scan.tokens scan
  · exact congrArg Scan.faults scan
  · exact diagnostics

/-- An open string at the end of a text is reported. -/
theorem closed_of_no_fault {source : Text}
    (closed : ∀ f ∈ (Scan.ofSource source).faults, f.error ≠ .unterminatedString) :
    ∀ l ∈ split source, l.shape ≠ .unclosed := by
  intro l member unclosed
  have blamed := (ofLexemes_faults (split source) 1).flip
  have kept : l ∈ (split source).filter (·.shape.isError) :=
    List.mem_filter.mpr ⟨member, by rw [unclosed]; rfl⟩
  obtain ⟨f, found, blames⟩ := exists_of_forall₂ blamed l kept
  cases blames with
  | unclosed => exact closed _ found rfl
  | stray => cases unclosed

/-- A line feed outside of strings parts a text in two for scanning: the tokens and the faults are
those of the part above and those of the part below it, these as many lines further down as the part
above has. -/
theorem scanning_goes_line_by_line (upper lower : Text)
    (closed : ∀ f ∈ (Scan.ofSource upper).faults, f.error ≠ .unterminatedString) :
    (Scan.ofSource (upper ++ lineFeed :: lower)).tokens =
      body (Scan.ofSource upper).tokens ++
        (Scan.ofSource lower).tokens.map (·.below (1 + upper.count lineFeed)) ∧
    (Scan.ofSource (upper ++ lineFeed :: lower)).faults =
      (Scan.ofSource upper).faults ++
        (Scan.ofSource lower).faults.map (·.below (1 + upper.count lineFeed)) := by
  obtain ⟨last, whole, -⟩ := scan_body upper
  have front : (Scan.ofLexemes 1 (split upper)).tokens.dropLast =
      body (Scan.ofSource upper).tokens := by
    change (Scan.ofSource upper).tokens.dropLast = _
    conv => lhs; rw [whole]
    exact List.dropLast_concat
  -- the line feed itself is a blank: no token, and one more line
  have feed : Scan.ofLexemes (1 + upper.count lineFeed) (⟨.blank, [lineFeed]⟩ :: split lower) =
      Scan.ofLexemes (1 + upper.count lineFeed + 1) (split lower) := rfl
  have parts := Scan.ofLexemes_append 1 (split upper) (⟨.blank, [lineFeed]⟩ :: split lower)
  rw [← split_lineFeed (closed_of_no_fault closed) lower, (cut_split upper).joined, feed,
    Nat.add_comm _ 1, Scan.ofLexemes_below, front] at parts
  exact ⟨congrArg Scan.tokens parts, congrArg Scan.faults parts⟩

/-- A text that breaks off behind a point and inside a sequence of bytes, with a quotation mark in a
comment. -/
def brokenOff : Text := text "a >\n1.//\"\n<" ++ [0xe2, 0x82]

theorem broken_off_text_is_scanned_apart :
    (∀ f ∈ (Scan.ofSource brokenOff).faults, f.error ≠ .unterminatedString) ∧
    (Scan.ofSource (brokenOff ++ lineFeed :: text "= \"b\nc\"")).tokens =
      body (Scan.ofSource brokenOff).tokens ++
        (Scan.ofSource (text "= \"b\nc\"")).tokens.map (·.below 3) := by
  have closed : ∀ f ∈ (Scan.ofSource brokenOff).faults, f.error ≠ .unterminatedString := by
    decide +kernel
  exact ⟨closed, (scanning_goes_line_by_line brokenOff (text "= \"b\nc\"") closed).1⟩

end Bhasha
