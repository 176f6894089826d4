import Bhasha.Proofs.Token.Lines
import Bhasha.Proofs.Tree.Written

/-!
# Moving source text to the right

A source text is indented by tabs behind its line breaks, but not behind those inside its strings,
which belong to a value.  Its lexemes tell them apart: a line break between two tokens is a lexeme
of its own.  So the text that a well-formed statement has inside of blocks can be had from the text
of the statement by itself, without knowing the tree.
-/

namespace Bhasha

open Lexeme
open Text (lineFeed)

/-- A line break that stands by itself. -/
def Lexeme.lineBreak : Lexeme := ⟨.blank, [lineFeed]⟩

/-- The text of a lexeme, with `extra` tabs behind it if it is a line break. -/
def Lexeme.indented (extra : Nat) (l : Lexeme) : Text :=
  if l = lineBreak then l.text ++ List.replicate extra 0x09 else l.text

/-- A source text with `extra` tabs inserted behind every line break between its tokens. -/
def reindent (extra : Nat) (source : Text) : Text :=
  (split source).flatMap (Lexeme.indented extra)

/-- Before every text that `next` allows, `s` falls into lexemes, and with `extra` tabs behind each
line break among them it is `s'`. -/
def Indents (next : Text → Prop) (extra : Nat) (s s' : Text) : Prop :=
  ∀ rest, next rest → ∃ ls, split (s ++ rest) = ls ++ split rest ∧
    ls.flatMap (Lexeme.indented extra) = s'

section

variable {next after : Text → Prop} {extra : Nat} {s s' t t' : Text} {ts : List Token}

theorem Indents.append (first : Indents next extra s s') (second : Indents after extra t t')
    (meets : ∀ rest, after rest → next (t ++ rest)) : Indents after extra (s ++ t) (s' ++ t') := by
  intro rest follows
  obtain ⟨ls, cut, moved⟩ := first (t ++ rest) (meets rest follows)
  obtain ⟨ls', cut', moved'⟩ := second rest follows
  refine ⟨ls ++ ls', ?_, ?_⟩
  · rw [List.append_assoc, cut, cut', List.append_assoc]
  · rw [List.flatMap_append, moved, moved']

theorem Indents.before (first : Indents Anything extra s s') (second : Indents after extra t t') :
    Indents after extra (s ++ t) (s' ++ t') :=
  first.append second fun _ _ => trivial

theorem indents_nil : Indents next extra [] [] := fun _ _ => ⟨[], rfl, rfl⟩

theorem Indents.reindent (indents : Indents Anything extra s s') : reindent extra s = s' := by
  obtain ⟨ls, cut, moved⟩ := indents [] trivial
  rw [List.append_nil, split, List.append_nil] at cut
  rw [Bhasha.reindent, cut, moved]

/-- The line feeds in the lexemes of tokens. -/
def lineFeeds (ts : List Token) : Nat := (ts.map (·.lexeme.count lineFeed)).sum

theorem lineFeeds_append (ts us : List Token) :
    lineFeeds (ts ++ us) = lineFeeds ts + lineFeeds us := by
  simp [lineFeeds]

theorem lineFeeds_cons (t : Token) (ts : List Token) :
    lineFeeds (t :: ts) = t.lexeme.count lineFeed + lineFeeds ts := rfl

theorem lexeme_of_token? {l : Lexeme} {t : Token} (made : l.token? 0 = some t) :
    t.lexeme = l.text := by
  unfold Lexeme.token? at made
  split at made
  all_goals cases made
  all_goals rfl

theorem lineFeeds_le (ls : List Lexeme) :
    lineFeeds (ls.filterMap (·.token? 0)) ≤ (ls.flatMap (·.text)).count lineFeed := by
  induction ls with
  | nil => exact Nat.le_refl 0
  | cons l rest ih =>
    rw [List.flatMap_cons, List.count_append]
    cases made : l.token? 0 with
    | none =>
      simp only [List.filterMap_cons, made]
      omega
    | some t =>
      simp only [List.filterMap_cons, made, lineFeeds_cons, lexeme_of_token? made]
      omega

/-- If the tokens hold all line feeds of a text, none of its lexemes is a line break. -/
theorem ne_lineBreak {ls : List Lexeme}
    (held : (ls.flatMap (·.text)).count lineFeed = lineFeeds (ls.filterMap (·.token? 0))) :
    ∀ l ∈ ls, l ≠ lineBreak := by
  induction ls with
  | nil => exact fun _ member => nomatch member
  | cons l rest ih =>
    have bound := lineFeeds_le rest
    rw [List.flatMap_cons, List.count_append] at held
    rw [List.forall_mem_cons]
    cases made : l.token? 0 with
    | none =>
      simp only [List.filterMap_cons, made] at held
      refine ⟨?_, ih (by omega)⟩
      rintro rfl
      have one : lineBreak.text.count lineFeed = 1 := by decide
      omega
    | some t =>
      simp only [List.filterMap_cons, made, lineFeeds_cons, lexeme_of_token? made] at held
      refine ⟨?_, ih (by omega)⟩
      rintro rfl
      cases made

/-- A text whose line feeds are all held by its tokens is not changed. -/
theorem Lexes.indents (lexes : Lexes next s ts) (held : s.count lineFeed = lineFeeds ts) :
    Indents next extra s s := by
  intro rest follows
  obtain ⟨ls, cut, tokens, -⟩ := lexes rest follows
  have whole : s = ls.flatMap (·.text) := by
    have joined := (cut_split (s ++ rest)).joined
    rw [cut, List.flatMap_append, (cut_split rest).joined] at joined
    exact (List.append_cancel_right joined).symm
  -- Where the lexemes are cut is not known here, but a line break among them would be one too many.
  rw [whole, ← tokens] at held
  refine ⟨ls, cut, ?_⟩
  rw [whole]
  exact List.flatMap_congr fun l member => if_neg (ne_lineBreak held l member)

end

/-! ## Expressions -/

theorem lineFeeds_infix {s s' : Text} {ts ts' : List Token} (operator : Token)
    (left : s.count lineFeed = lineFeeds ts) (right : s'.count lineFeed = lineFeeds ts') :
    (s ++ text " " ++ operator.lexeme ++ text " " ++ s').count lineFeed =
      lineFeeds (ts ++ operator.unlined :: ts') := by
  have blank : (text " ").count lineFeed = 0 := by decide
  simp only [lineFeeds_cons, lineFeeds_append, List.count_append, Token.unlined]
  omega

theorem lineFeeds_brackets {s : Text} {ts : List Token} (inner : s.count lineFeed = lineFeeds ts) :
    (text "(" ++ s ++ text ")").count lineFeed =
      lineFeeds (Kind.leftParen.token :: (ts ++ [Kind.rightParen.token])) := by
  have opened : (text "(").count lineFeed = 0 := by decide
  have closed : (text ")").count lineFeed = 0 := by decide
  have opened' : Kind.leftParen.token.lexeme.count lineFeed = 0 := by decide
  have closed' : lineFeeds [Kind.rightParen.token] = 0 := by decide
  simp only [lineFeeds_cons, lineFeeds_append, List.count_append] at closed' ⊢
  omega

mutual

/-- The line feeds of an expression are those of its tokens. -/
theorem Expr.count_source : ∀ e : Expr, e.WellFormed Token.Scanned →
    e.source.count lineFeed = lineFeeds e.tokens
  | .literal value, _ => by
    rw [Expr.source, Expr.tokens, ← value.token_lexeme]
    rfl
  | .identifier name, _ => rfl
  | .assign name value, formed => by
    have sign : (text " = ").count lineFeed = Kind.equal.token.lexeme.count lineFeed := by decide
    have inner := value.count_source formed.2.2
    simp only [Expr.source, Expr.tokens, lineFeeds_cons, List.count_append, Token.unlined]
    omega
  | .logical left operator right, formed =>
    lineFeeds_infix operator (left.count_source formed.2.1) (right.count_source formed.2.2)
  | .binary left operator right, formed =>
    lineFeeds_infix operator (left.count_source formed.2.1) (right.count_source formed.2.2)
  | .unary operator right, formed => by
    rw [Expr.source, Expr.tokens, List.count_append, lineFeeds_cons,
      right.count_source formed.2.2.2]
    rfl
  | .call callee paren given, formed => by
    obtain ⟨closing, scanned, -, called, inner⟩ := formed
    have same : paren.unlined = Kind.rightParen.token := by
      rw [scanned.eq_token (by rw [closing]; rfl), closing]
    have brackets := lineFeeds_brackets (Expr.count_sources given inner)
    rw [Expr.tokens, same, lineFeeds_append, ← brackets, ← callee.count_source called, Expr.source]
    simp only [List.count_append]
    omega
  | .bareCall _ _, formed => formed.elim
  | .grouping inner, formed => lineFeeds_brackets (inner.count_source formed)

theorem Expr.count_sources : ∀ given : List Expr, Expr.AllWellFormed Token.Scanned given →
    (Expr.sources given).count lineFeed = lineFeeds (Expr.tokensBetween given)
  | [], _ => rfl
  | [last], formed => last.count_source formed.1
  | first :: next :: rest, formed => by
    have comma : (text ", ").count lineFeed = Kind.comma.token.lexeme.count lineFeed := by decide
    rw [Expr.sources, Expr.tokensBetween, List.count_append, List.count_append, lineFeeds_append,
      lineFeeds_cons, comma, first.count_source formed.1,
      Expr.count_sources (next :: rest) formed.2, Nat.add_assoc]

end

/-! ## Statements -/

namespace Stmt

variable {extra : Nat}

theorem indents_newline (depth : Nat) :
    Indents Anything extra (newline depth) (newline (depth + extra)) := by
  have broken : Indents Anything extra [lineFeed] (lineFeed :: List.replicate extra 0x09) := by
    intro rest _
    refine ⟨[lineBreak], @split_of_measure _ rest _ [] (measure_blank (by decide)), ?_⟩
    simp [Lexeme.indented, lineBreak]
  have tabs : Lexes Anything (List.replicate depth 0x09) [] :=
    lexes_blanks fun b member => by rw [List.eq_of_mem_replicate member]; decide
  have held : (List.replicate depth (0x09 : UInt8)).count lineFeed = lineFeeds [] := by
    simp [List.count_replicate, lineFeed, lineFeeds]
  have all := broken.before (tabs.indents held)
  have moved : lineFeed :: List.replicate extra 0x09 ++ List.replicate depth 0x09 =
      newline (depth + extra) := by
    rw [List.cons_append, List.replicate_append_replicate, Nat.add_comm, newline]
  rwa [moved] at all

theorem indents_condition {word : Kind} (listed : word ∈ Kind.reserved) {condition : Expr}
    (formed : condition.WellFormed Token.Scanned) :
    Indents Anything extra (conditionSource word condition) (conditionSource word condition) := by
  refine (lexes_condition listed formed).indents ?_
  have brackets := lineFeeds_brackets (condition.count_source formed)
  have same : word.token.lexeme = word.spelling := by rw [Kind.token_reserved word listed]
  have opened : (text " (").count lineFeed = (text "(").count lineFeed := by decide
  have closed : (text ") ").count lineFeed = (text ")").count lineFeed := by decide
  rw [conditionTokens, lineFeeds_cons, same, ← brackets, conditionSource]
  simp only [List.count_append]
  omega

/-- A statement without line breaks of its own. -/
theorem indents_simple {s : Stmt} (formed : s.WellFormed Token.Scanned)
    (same : ∀ depth, s.sourceAt depth = s.source)
    (held : s.source.count lineFeed = lineFeeds s.tokens) (depth : Nat) :
    Indents Anything extra (s.sourceAt depth) (s.sourceAt (depth + extra)) := by
  rw [same, same]
  exact (lexes_source 0 s formed).indents held

theorem lineFeeds_word {word : Kind} (listed : word ∈ Kind.reserved) {s : Text} {ts : List Token}
    (inner : s.count lineFeed = lineFeeds ts) :
    (word.spelling ++ text " " ++ s).count lineFeed = lineFeeds (word.token :: ts) := by
  have blank : (text " ").count lineFeed = 0 := by decide
  rw [Kind.token_reserved word listed, lineFeeds_cons, List.count_append, List.count_append, inner,
    blank, Nat.add_zero]

theorem lineFeeds_closed {s : Text} {ts : List Token} (inner : s.count lineFeed = lineFeeds ts) :
    (s ++ text ";").count lineFeed = lineFeeds (ts ++ [Kind.semicolon.token]) := by
  have closed : (text ";").count lineFeed = lineFeeds [Kind.semicolon.token] := by decide
  rw [List.count_append, lineFeeds_append, inner, closed]

mutual

/-- The text of a statement `extra` blocks further in is its text with `extra` more tabs behind each
line break between its tokens. -/
theorem indents_source : ∀ (depth : Nat) (s : Stmt), s.WellFormed Token.Scanned →
    Indents Anything extra (s.sourceAt depth) (s.sourceAt (depth + extra))
  | depth, .expression value, formed =>
    indents_simple formed (fun _ => rfl) (lineFeeds_closed (value.count_source formed)) depth
  | depth, .print value, formed => by
    have listed : Kind.print ∈ Kind.reserved := by decide
    have held := lineFeeds_closed (lineFeeds_word listed (value.count_source formed))
    exact indents_simple formed (fun _ => rfl) held depth
  | depth, .declare name none, formed => by
    have listed : Kind.var ∈ Kind.reserved := by decide
    have named : name.lexeme.count lineFeed = lineFeeds [name.unlined] := rfl
    have held := lineFeeds_closed (lineFeeds_word listed named)
    exact indents_simple formed (fun _ => rfl) held depth
  | depth, .declare name (some value), formed => by
    have listed : Kind.var ∈ Kind.reserved := by decide
    have assigned := (Expr.assign name value).count_source formed
    have held := lineFeeds_closed (lineFeeds_word listed assigned)
    refine indents_simple formed (fun _ => rfl) ?_ depth
    simpa [source, sourceAt, tokens, Expr.source, Expr.tokens] using held
  | depth, .block [], formed => indents_simple formed (fun _ => rfl) (by decide) depth
  | depth, .block (first :: rest), formed => by
    have opened : Indents Anything extra (text "\x7b") (text "\x7b") :=
      lexes_leftBrace.indents (by decide)
    have closed : Indents Anything extra (text "\x7d") (text "\x7d") :=
      lexes_rightBrace.indents (by decide)
    have lines := indents_lines (depth + 1) (first :: rest) formed
    have all := ((opened.before lines).before (indents_newline depth)).before closed
    rw [Nat.add_right_comm] at all
    exact all
  | _, .bareBlock, formed => formed.elim
  | depth, .branch condition consequent none, formed => by
    have listed : Kind.if_ ∈ Kind.reserved := by decide
    exact (indents_condition listed formed.1).before (indents_source depth consequent formed.2.1)
  | depth, .branch condition consequent (some alternative), formed => by
    obtain ⟨test, first, -, -, second, -⟩ := formed
    have listed : Kind.if_ ∈ Kind.reserved := by decide
    have listed' : Kind.else_ ∈ Kind.reserved := by decide
    have word := lexes_space.before (Kind.lexes_word listed')
    have tested := (indents_condition listed test).before (indents_source depth consequent first)
    have other := tested.before (word.indents (by decide))
    simpa [sourceAt] using other.before (indents_source depth alternative second)
  | depth, .loop condition body, formed => by
    have listed : Kind.while_ ∈ Kind.reserved := by decide
    exact (indents_condition listed formed.1).before (indents_source depth body formed.2.1)

theorem indents_lines : ∀ (depth : Nat) (ss : List Stmt), AllWellFormed Token.Scanned ss →
    Indents Anything extra (linesAt depth ss) (linesAt (depth + extra) ss)
  | _, [], _ => indents_nil
  | depth, first :: rest, formed =>
    ((indents_newline depth).before (indents_source depth first formed.1)).before
      (indents_lines depth rest formed.2)

end

/-- The text of a well-formed statement inside of blocks, from its text alone. -/
theorem reindent_source {s : Stmt} (formed : s.WellFormed Token.Scanned) (depth : Nat) :
    reindent depth s.source = s.sourceAt depth := by
  have moved := (@indents_source depth 0 s formed).reindent
  rwa [Nat.zero_add] at moved

end Stmt

end Bhasha
