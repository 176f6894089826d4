import Bhasha.Proofs.Reading.RoundTrip

/-!
# Layout does not matter

Layout is made of blanks and of comments that end with their line.  It stands before any text and
gives no token; behind a token it is something that ends the token's lexeme, as long as it begins
with a blank.  So the tokens of any text, written down again with any layout around them, are
scanned as the same tokens on other lines, and the parser never looks at lines.
-/

namespace Bhasha

open Lexeme Parse
open Text (lineFeed)

/-- Blanks, and comments with the line feed behind them. -/
inductive Layout : Text → Prop
  | nil : Layout []
  | blank {b : UInt8} {rest : Text} (white : b ∈ [0x20, 0x0d, 0x09, lineFeed])
      (after : Layout rest) : Layout (b :: rest)
  | comment {remark rest : Text} (oneLine : lineFeed ∉ remark) (after : Layout rest) :
      Layout (0x2f :: 0x2f :: (remark ++ lineFeed :: rest))

/-- Layout that begins with a blank. -/
structure Gap (w : Text) : Prop where
  layout : Layout w
  begins : ∃ b ∈ [0x20, 0x0d, 0x09, lineFeed], w.head? = some b

/-- Tokens as they are written, each with the layout behind it. -/
def layOut : List Token → List Text → Text
  | t :: ts, gap :: gaps => t.lexeme ++ (gap ++ layOut ts gaps)
  | _, _ => []

/-- A comment with its line feed is no token and stands before anything. -/
theorem lexes_comment {remark : Text} (oneLine : lineFeed ∉ remark) :
    Lexes Anything (0x2f :: 0x2f :: (remark ++ [lineFeed])) [] := by
  have plain : ∀ c ∈ remark, (c != lineFeed) = true :=
    fun c member => bne_iff_ne.mpr fun same => oneLine (same ▸ member)
  have comment : Lexes (fun rest => rest.head? = some lineFeed) (0x2f :: 0x2f :: remark) [] := by
    refine lexes_of_split (l := ⟨.comment, 0x2f :: 0x2f :: remark⟩) (fun rest feed => ?_) rfl
    refine split_of_measure ?_
    have ran : run (· != lineFeed) (remark ++ rest) = remark.length := by
      refine run_append plain fun c head => ?_
      rw [feed] at head
      cases head
      rfl
    rw [List.cons_append, measure_comment, ran]
    rfl
  exact comment.append (lexes_blank (b := lineFeed) (by decide)) fun rest _ => rfl

theorem Layout.lexes {w : Text} (layout : Layout w) : Lexes Anything w [] := by
  induction layout with
  | nil => exact lexes_nil
  | blank white _ ih => exact (lexes_blank (isBlank_iff.mpr white)).before ih
  | @comment remark rest oneLine _ ih =>
    have whole := (lexes_comment oneLine).before ih
    simpa using whole

theorem Gap.delimited {w : Text} (gap : Gap w) (rest : Text) : Delimited (w ++ rest) := by
  obtain ⟨b, white, head⟩ := gap.begins
  obtain ⟨tail, rfl⟩ := List.head?_eq_some_iff.mp head
  refine delimited_cons ?_
  simp [isDelimiter, isBlank_iff.mpr white]

/-- Scanned tokens that are laid out lex as these tokens. -/
theorem lexes_layOut {ts : List Token} {gaps : List Text} (scanned : ∀ t ∈ ts, t.Scanned)
    (count : gaps.length = ts.length) (between : ∀ w ∈ gaps, Gap w) :
    Lexes Anything (layOut ts gaps) (ts.map Token.unlined) := by
  induction ts generalizing gaps with
  | nil => exact lexes_nil
  | cons t ts ih =>
    cases gaps with
    | nil => cases count
    | cons gap gaps =>
      have here := scanned t (.head _)
      have space := between gap (.head _)
      have others := ih (fun t' member => scanned t' (.tail _ member)) (Nat.succ.inj count)
        fun w member => between w (.tail _ member)
      -- the lexeme ends at its gap, whatever follows the gap
      exact here.lexes.append (space.layout.lexes.before others)
        fun rest _ => by rw [List.append_assoc]; exact space.delimited _

theorem sameButLine_of_map {ts us : List Token}
    (same : ts.map Token.unlined = us.map Token.unlined) :
    List.Forall₂ SameButLine ts us := by
  have equal : List.Forall₂ (· = ·) (ts.map Token.unlined) (us.map Token.unlined) := by
    rw [same]
    exact List.forall₂_refl _
  rwa [List.forall₂_map_left_iff, List.forall₂_map_right_iff] at equal

/-- Two texts with the same tokens but for the lines are read as the same program but for the lines,
with the same syntactic faults. -/
theorem Reading.of_same_tokens {source source' : Text}
    (same : (Scan.ofSource source').tokens.map Token.unlined =
      (Scan.ofSource source).tokens.map Token.unlined) :
    (Reading.ofSource source').program.unlined = (Reading.ofSource source).program.unlined ∧
    List.Forall₂ (FaultAlike SameButLine) (Reading.ofSource source').syntactic
      (Reading.ofSource source).syntactic := by
  obtain ⟨last, whole, scanned⟩ := scan_body source
  obtain ⟨last', whole', scanned'⟩ := scan_body source'
  have bodies : (body (Scan.ofSource source').tokens).map Token.unlined =
      (body (Scan.ofSource source).tokens).map Token.unlined := by
    rw [whole, whole', List.map_append, List.map_append] at same
    exact (List.append_inj' same rfl).1
  have ends : SameButLine (endToken (Scan.ofSource source').tokens)
      (endToken (Scan.ofSource source).tokens) := by
    rw [whole, whole', endToken_append_end (fun t member => (scanned t member).kind_ne_eof) rfl,
      endToken_append_end (fun t member => (scanned' t member).kind_ne_eof) rfl]
    rfl
  obtain ⟨trees, faults⟩ :=
    recorded_alike (fun _ _ => SameButLine.kind) (sameButLine_of_map bodies) ends
  exact ⟨congrArg Program.mk trees.unlinedAll, faults⟩

/-- Layout does not matter.  The tokens of any text, faulty or not, written down with any layout in
front of them and any layout that begins with a blank behind each of them, are scanned without a
fault as the same tokens but for their lines; so the two texts are read as the same program but for
the lines, with the same syntactic faults at the same tokens. -/
theorem layout_does_not_matter (source front : Text) (gaps : List Text) (start : Layout front)
    (count : gaps.length = (body (Scan.ofSource source).tokens).length)
    (between : ∀ w ∈ gaps, Gap w) :
    let laid := front ++ layOut (body (Scan.ofSource source).tokens) gaps
    (Scan.ofSource laid).faults = [] ∧
    (Scan.ofSource laid).tokens.map Token.unlined =
      (Scan.ofSource source).tokens.map Token.unlined ∧
    (Reading.ofSource laid).program.unlined = (Reading.ofSource source).program.unlined ∧
    List.Forall₂ (FaultAlike SameButLine) (Reading.ofSource laid).syntactic
      (Reading.ofSource source).syntactic := by
  intro laid
  obtain ⟨last, whole, scanned⟩ := scan_body source
  obtain ⟨tokens, clean⟩ := (start.lexes.before (lexes_layOut scanned count between)).scan
  have same : (Scan.ofSource laid).tokens.map Token.unlined =
      (Scan.ofSource source).tokens.map Token.unlined := by
    conv => rhs; rw [whole, List.map_append]
    exact tokens
  exact ⟨clean, same, Reading.of_same_tokens same⟩

/-- A text whose tokens touch, with a string that goes over two lines and a stray byte. -/
def denseSource : Text := text "lekho\"a\nb\"+" ++ [0xff] ++ text "1.5;"

/-- Layout with a quotation mark and a stray byte in comments. -/
def spreadOut : List Text :=
  [[0x20], [0x09, 0x2f, 0x2f, 0x22, 0xff, 0x0a], [0x0d, 0x0a], [0x0a, 0x2f, 0x2f, 0x0a], [0x0a]]

theorem spreadOut_gaps : ∀ w ∈ spreadOut, Gap w := by
  simp only [spreadOut, List.forall_mem_cons]
  refine ⟨⟨.blank (by decide) .nil, 0x20, by decide, rfl⟩,
    ⟨.blank (by decide) (@Layout.comment [0x22, 0xff] _ (by decide) .nil), 0x09, by decide, rfl⟩,
    ⟨.blank (by decide) (.blank (by decide) .nil), 0x0d, by decide, rfl⟩,
    ⟨.blank (by decide) (@Layout.comment [] _ (by decide) .nil), 0x0a, by decide, rfl⟩,
    ⟨.blank (by decide) .nil, 0x0a, by decide, rfl⟩, by simp⟩

theorem dense_source_spread_out :
    Layout [0x20] ∧ spreadOut.length = (body (Scan.ofSource denseSource).tokens).length ∧
    (∀ w ∈ spreadOut, Gap w) ∧
    (Reading.ofSource ([0x20] ++ layOut (body (Scan.ofSource denseSource).tokens)
      spreadOut)).program.unlined = (Reading.ofSource denseSource).program.unlined := by
  have start : Layout [0x20] := .blank (by decide) .nil
  have count : spreadOut.length = (body (Scan.ofSource denseSource).tokens).length := by
    decide +kernel
  exact ⟨start, count, spreadOut_gaps,
    (layout_does_not_matter denseSource [0x20] spreadOut start count spreadOut_gaps).2.2.1⟩

end Bhasha
