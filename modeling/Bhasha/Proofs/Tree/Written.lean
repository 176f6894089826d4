import Bhasha.Proofs.Token.Written
import Bhasha.Proofs.Tree.WellFormed

/-!
# Source text falls into the tokens of its tree

Scanning the source text of a well-formed tree whose tokens were scanned gives the tokens of the
tree.  In an expression every word, number and operator is followed by a blank, a parenthesis, a
comma or a semicolon, except for a unary operator, which stands right before its operand; and no
operand begins with an equals sign.  A statement ends with a semicolon or a brace, so that anything
can follow it.
-/

namespace Bhasha

open Lexeme Parse Grammar

/-- The token of a literal is scanned, and its text is that of the literal. -/
theorem Literal.Sourced.scanned {value : Literal} (sourced : value.Sourced Token.Scanned) :
    value.token.Scanned := by
  obtain rfl | ⟨b, rfl⟩ | ⟨t, scanned, number | string, rfl⟩ := sourced
  · have listed : Kind.nil ∈ Kind.reserved := by decide
    exact Kind.scanned_reserved listed
  · cases b with
    | false =>
      have listed : Kind.false_ ∈ Kind.reserved := by decide
      exact Kind.scanned_reserved listed
    | true =>
      have listed : Kind.true_ ∈ Kind.reserved := by decide
      exact Kind.scanned_reserved listed
  · obtain ⟨v, readable, same⟩ := scanned.literal_cases.1 number
    obtain ⟨spelled, read⟩ := Binary64.positional_reads readable
    have made : (Lexeme.mk .number v.positional).token? 0 = some (Literal.number v).token := by
      simp [Lexeme.token?, read, Literal.token, Literal.source]
    rw [same]
    exact ⟨_, spelled, denotes_token spelled 0 made⟩
  · obtain ⟨content, closed, same, -⟩ := scanned.literal_cases.2 string
    have made : (Lexeme.mk .string (0x22 :: (content ++ [0x22]))).token? 0 =
        some (Literal.string content).token := by
      simp [Lexeme.token?, content_quoted, Literal.token, Literal.source]
    rw [same]
    exact ⟨_, .string closed, denotes_token (.string closed) 0 made⟩

theorem Literal.token_lexeme (value : Literal) : value.token.lexeme = value.source := by
  cases value with
  | truth b => cases b <;> decide
  | nothing => decide
  | _ => rfl

theorem Literal.token_unlined (value : Literal) : value.token.unlined = value.token := by
  cases value with
  | truth b => cases b <;> rfl
  | _ => rfl

theorem Literal.Sourced.lexes {value : Literal} (sourced : value.Sourced Token.Scanned) :
    Lexes Delimited value.source [value.token] := by
  have lexes := sourced.scanned.lexes
  rwa [value.token_lexeme, value.token_unlined] at lexes

theorem lexes_space : Lexes Anything (text " ") [] := lexes_blank (by decide)

theorem lexes_leftParen : Lexes Anything (text "(") [Kind.leftParen.token] :=
  lexes_mark rfl (by decide) rfl (by decide)

theorem lexes_rightParen : Lexes Anything (text ")") [Kind.rightParen.token] :=
  lexes_mark rfl (by decide) rfl (by decide)

theorem lexes_semicolon : Lexes Anything (text ";") [Kind.semicolon.token] :=
  lexes_mark rfl (by decide) rfl (by decide)

theorem lexes_leftBrace : Lexes Anything (text "\x7b") [Kind.leftBrace.token] :=
  lexes_mark rfl (by decide) rfl (by decide)

theorem lexes_rightBrace : Lexes Anything (text "\x7d") [Kind.rightBrace.token] :=
  lexes_mark rfl (by decide) rfl (by decide)

theorem lexes_comma : Lexes Anything (text ", ") [Kind.comma.token] :=
  (lexes_mark (b := 0x2c) rfl (by decide) rfl (by decide)).before lexes_space

/-- A blank ends whatever stands before it. -/
theorem delimited_space (rest : Text) : Delimited (text " " ++ rest) := delimited_cons (by decide)

theorem lexes_equals : Lexes Anything (text " = ") [Kind.equal.token] := by
  have scanned : Kind.equal.token.Scanned :=
    ⟨⟨.operator .equal, [0x3d]⟩, .operator (by decide), .operator⟩
  have sign := scanned.lexes.append lexes_space fun rest _ => delimited_space rest
  exact lexes_space.before sign

/-- A unary operator stands before any text that does not begin with an equals sign. -/
theorem Token.Scanned.lexes_unary {t : Token} (scanned : t.Scanned)
    (unary : isUnaryOperator t.kind = true) :
    Lexes (fun rest => rest.head? ≠ some 0x3d) t.lexeme [t.unlined] := by
  simp only [isUnaryOperator, Bool.or_eq_true, beq_iff_eq] at unary
  have fixed : t.kind.isFixed = true := by
    obtain bang | minus := unary
    · rw [bang]
      rfl
    · rw [minus]
      rfl
  have same := scanned.eq_token fixed
  have lexeme : t.lexeme = t.kind.token.lexeme := by rw [← same]; rfl
  rw [same, lexeme]
  obtain bang | minus := unary
  · rw [bang]
    exact lexes_of_split (l := ⟨.operator .bang, [0x21]⟩) (fun rest follows =>
      @split_of_measure _ rest _ []
        (measure_mark rfl (fun slash => absurd slash (by decide)) fun _ => follows)) rfl
  · rw [minus]
    exact (lexes_mark (b := 0x2d) rfl (by decide) rfl (by decide)).mono fun _ _ => trivial

theorem Token.Scanned.head_of_begins {t : Token} (scanned : t.Scanned)
    (begins : beginsExpression t.kind = true) : ∃ b more, t.lexeme = b :: more ∧ b ≠ 0x3d := by
  refine scanned.head_ne ⟨fun equal => ?_, fun equal => ?_⟩
  · rw [equal] at begins
    cases begins
  · rw [equal] at begins
    cases begins

/-- An expression does not begin with an equals sign. -/
theorem Expr.source_head : ∀ e : Expr, e.WellFormed Token.Scanned →
    ∃ b more, e.source = b :: more ∧ b ≠ 0x3d
  | .literal value, formed => by
    have begins := beginsPrimary_of_literal (literalOf?_token value)
    have head := formed.scanned.head_of_begins (by simp [beginsExpression, begins])
    rwa [value.token_lexeme] at head
  | .identifier name, formed => formed.2.head_of_begins (by rw [formed.1]; rfl)
  | .assign name value, formed => by
    obtain ⟨b, more, whole, other⟩ := formed.2.1.head_of_begins (by rw [formed.1]; rfl)
    exact ⟨b, _, by rw [Expr.source, whole]; rfl, other⟩
  | .logical left operator right, formed => by
    obtain ⟨b, more, whole, other⟩ := left.source_head formed.2.1
    exact ⟨b, _, by rw [Expr.source, whole]; rfl, other⟩
  | .binary left operator right, formed => by
    obtain ⟨b, more, whole, other⟩ := left.source_head formed.2.1
    exact ⟨b, _, by rw [Expr.source, whole]; rfl, other⟩
  | .unary operator right, formed => by
    obtain ⟨b, more, whole, other⟩ :=
      formed.2.1.head_of_begins (by simp [beginsExpression, formed.1])
    exact ⟨b, _, by rw [Expr.source, whole]; rfl, other⟩
  | .call callee paren given, formed => by
    obtain ⟨b, more, whole, other⟩ := callee.source_head formed.2.2.2.1
    exact ⟨b, _, by rw [Expr.source, whole]; rfl, other⟩
  | .bareCall _ _, formed => formed.elim
  | .grouping inner, _ => ⟨0x28, _, rfl, by decide⟩

/-- An operator between blanks. -/
theorem lexes_infix {s s' o : Text} {ts ts' : List Token} {t : Token} (left : Lexes Delimited s ts)
    (operator : Lexes Delimited o [t]) (right : Lexes Delimited s' ts') :
    Lexes Delimited (s ++ text " " ++ o ++ text " " ++ s') (ts ++ t :: ts') := by
  have first := left.append lexes_space fun rest _ => delimited_space rest
  have second := (first.before operator).append lexes_space fun rest _ => delimited_space rest
  simpa using second.before right

mutual

/-- The source text of an expression falls into its tokens. -/
theorem Expr.lexes_source : ∀ e : Expr, e.WellFormed Token.Scanned →
    Lexes Delimited e.source e.tokens
  | .literal value, formed => formed.lexes
  | .identifier name, formed => formed.2.lexes
  | .assign name value, formed =>
    (formed.2.1.lexes.append lexes_equals fun _ _ => delimited_cons (by decide)).before
      (value.lexes_source formed.2.2)
  | .logical left operator right, formed => by
    obtain ⟨⟨level, -, fits⟩, first, second⟩ := formed
    exact lexes_infix (left.lexes_source first) fits.2.1.lexes (right.lexes_source second)
  | .binary left operator right, formed => by
    obtain ⟨⟨level, -, fits⟩, first, second⟩ := formed
    exact lexes_infix (left.lexes_source first) fits.2.1.lexes (right.lexes_source second)
  | .unary operator right, formed => by
    obtain ⟨unary, scanned, -, inner⟩ := formed
    obtain ⟨b, more, whole, other⟩ := right.source_head inner
    refine (scanned.lexes_unary unary).append (right.lexes_source inner) fun rest _ => ?_
    rw [whole]
    simpa using other
  | .call callee paren given, formed => by
    obtain ⟨closing, scanned, -, first, inner⟩ := formed
    have same : paren.unlined = Kind.rightParen.token := by
      rw [scanned.eq_token (by rw [closing]; rfl), closing]
    have opened := (callee.lexes_source first).append lexes_leftParen
      fun _ _ => delimited_cons (by decide)
    have closed := (opened.before (Expr.lexes_sources given inner)).append lexes_rightParen
      fun _ _ => delimited_cons (by decide)
    rw [Expr.tokens, same]
    simpa [Expr.source] using closed.mono fun _ _ => trivial
  | .bareCall _ _, formed => formed.elim
  | .grouping inner, formed => by
    have closed := (lexes_leftParen.before (inner.lexes_source formed)).append lexes_rightParen
      fun _ _ => delimited_cons (by decide)
    simpa [Expr.source, Expr.tokens] using closed.mono fun _ _ => trivial

theorem Expr.lexes_sources : ∀ given : List Expr, Expr.AllWellFormed Token.Scanned given →
    Lexes Delimited (Expr.sources given) (Expr.tokensBetween given)
  | [], _ => lexes_nil
  | [last], formed => last.lexes_source formed.1
  | first :: next :: rest, formed => by
    have separated := (first.lexes_source formed.1).append lexes_comma
      fun _ _ => delimited_cons (by decide)
    simpa [Expr.sources, Expr.tokensBetween] using
      separated.before (Expr.lexes_sources (next :: rest) formed.2)

end

theorem lexes_blanks {s : Text} (white : ∀ b ∈ s, isBlank b = true) : Lexes Anything s [] := by
  induction s with
  | nil => exact lexes_nil
  | cons b rest ih =>
    exact (lexes_blank (white b (.head _))).before (ih fun c member => white c (.tail _ member))

theorem lexes_newline (depth : Nat) : Lexes Anything (Stmt.newline depth) [] := by
  refine lexes_blanks fun b member => ?_
  cases member with
  | head => decide
  | tail _ tab =>
    rw [(List.mem_replicate.mp tab).2]
    decide

/-- A reserved word and the blank after it. -/
theorem Kind.lexes_word {kind : Kind} (listed : kind ∈ Kind.reserved) :
    Lexes Anything (kind.spelling ++ text " ") [kind.token] :=
  (Kind.lexes_spelling listed).append lexes_space fun rest _ => delimited_space rest

theorem Stmt.lexes_condition {word : Kind} (listed : word ∈ Kind.reserved) {condition : Expr}
    (formed : condition.WellFormed Token.Scanned) :
    Lexes Anything (Stmt.conditionSource word condition) (Stmt.conditionTokens word condition) := by
  have opened := (Kind.lexes_word listed).before lexes_leftParen
  have closed := (opened.before (condition.lexes_source formed)).append
    (lexes_rightParen.before lexes_space) fun _ _ => delimited_cons (by decide)
  have blank : text " (" = text " " ++ text "(" := rfl
  have blank' : text ") " = text ")" ++ text " " := rfl
  simpa [Stmt.conditionSource, Stmt.conditionTokens, blank, blank'] using closed

mutual

/-- The source text of a statement falls into its tokens. -/
theorem Stmt.lexes_source : ∀ (depth : Nat) (s : Stmt), s.WellFormed Token.Scanned →
    Lexes Anything (s.sourceAt depth) s.tokens
  | _, .expression value, formed =>
    (value.lexes_source formed).append lexes_semicolon fun _ _ => delimited_cons (by decide)
  | _, .print value, formed => by
    have listed : Kind.print ∈ Kind.reserved := by decide
    exact ((Kind.lexes_word listed).before (value.lexes_source formed)).append lexes_semicolon
      fun _ _ => delimited_cons (by decide)
  | _, .declare name none, formed => by
    have listed : Kind.var ∈ Kind.reserved := by decide
    exact ((Kind.lexes_word listed).before formed.2.lexes).append lexes_semicolon
      fun _ _ => delimited_cons (by decide)
  | _, .declare name (some value), formed => by
    have listed : Kind.var ∈ Kind.reserved := by decide
    have named := ((Kind.lexes_word listed).before formed.2.1.lexes).append lexes_equals
      fun _ _ => delimited_cons (by decide)
    exact (named.before (value.lexes_source formed.2.2)).append lexes_semicolon
      fun _ _ => delimited_cons (by decide)
  | _, .block [], _ => lexes_leftBrace.before lexes_rightBrace
  | depth, .block (first :: rest), formed => by
    have inner := lexes_leftBrace.before (Stmt.lexes_lines (depth + 1) (first :: rest) formed)
    simpa [Stmt.sourceAt, Stmt.tokens] using
      (inner.before (lexes_newline depth)).before lexes_rightBrace
  | _, .bareBlock, formed => formed.elim
  | depth, .branch condition consequent none, formed => by
    have listed : Kind.if_ ∈ Kind.reserved := by decide
    exact (Stmt.lexes_condition listed formed.1).before
      (Stmt.lexes_source depth consequent formed.2.1)
  | depth, .branch condition consequent (some alternative), formed => by
    obtain ⟨test, first, -, -, second, -⟩ := formed
    have listed : Kind.if_ ∈ Kind.reserved := by decide
    have listed' : Kind.else_ ∈ Kind.reserved := by decide
    have consequent := (Stmt.lexes_condition listed test).before
      (Stmt.lexes_source depth consequent first)
    have other := (consequent.before lexes_space).before (Kind.lexes_word listed')
    simpa [Stmt.sourceAt, Stmt.tokens] using
      other.before (Stmt.lexes_source depth alternative second)
  | depth, .loop condition body, formed => by
    have listed : Kind.while_ ∈ Kind.reserved := by decide
    exact (Stmt.lexes_condition listed formed.1).before (Stmt.lexes_source depth body formed.2.1)

theorem Stmt.lexes_lines : ∀ (depth : Nat) (ss : List Stmt),
    Stmt.AllWellFormed Token.Scanned ss →
    Lexes Anything (Stmt.linesAt depth ss) (Stmt.tokensAll ss)
  | _, [], _ => lexes_nil
  | depth, first :: rest, formed =>
    ((lexes_newline depth).before (Stmt.lexes_source depth first formed.1)).before
      (Stmt.lexes_lines depth rest formed.2)

end

/-- The source text of a program falls into its tokens. -/
theorem Program.lexes_source {p : Program}
    (formed : Stmt.AllWellFormed Token.Scanned p.statements) :
    Lexes Anything p.source p.tokens := by
  obtain ⟨statements⟩ := p
  simp only [Program.source, Program.tokens]
  induction statements with
  | nil => exact lexes_nil
  | cons first rest ih =>
    have line : Lexes Anything (first.source ++ [Text.lineFeed]) first.tokens := by
      simpa [Stmt.source] using
        (Stmt.lexes_source 0 first formed.1).before (lexes_blank (by decide))
    exact line.before (ih formed.2)

end Bhasha
