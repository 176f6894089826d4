import Bhasha.Proofs.Tree.Printer
import Bhasha.Proofs.Tree.Reindented

/-!
# The indentation of source text

A statement stands in a program inside of frames: blocks, loops, and branches on either side.  The
text around it depends on the frames alone, and the statement is written at the depth of its blocks.
Directly inside a block it begins a line, after one tab for every block around it and no other.

Together with what a printer does to its depth this is all there is to say about indentation:
nothing that is printed shifts anything that is printed after it.
-/

namespace Bhasha

open Lexeme
open Text (lineFeed)

/-- A statement around another one, with a gap in the other's place. -/
inductive Stmt.Frame where
  | block (before after : List Stmt)
  | body (condition : Expr)
  | whenTrue (condition : Expr) (alternative : Option Stmt)
  | whenFalse (condition : Expr) (consequent : Stmt)

namespace Stmt

namespace Frame

/-- Puts a statement into the gap. -/
def fill (s : Stmt) : Frame → Stmt
  | .block before after => .block (before ++ s :: after)
  | .body condition => .loop condition s
  | .whenTrue condition alternative => .branch condition s alternative
  | .whenFalse condition consequent => .branch condition consequent (some s)

def isBlock : Frame → Bool
  | .block _ _ => true
  | _ => false

end Frame

/-- A statement inside of frames, the innermost of which comes first. -/
def within (s : Stmt) : List Frame → Stmt
  | [] => s
  | inner :: outer => within (inner.fill s) outer

/-- The number of blocks among frames. -/
def blocks (frames : List Frame) : Nat := frames.countP Frame.isBlock

theorem sourceAt_block {statements : List Stmt} (some : statements ≠ []) (depth : Nat) :
    (block statements).sourceAt depth =
      text "\x7b" ++ linesAt (depth + 1) statements ++ newline depth ++ text "\x7d" := by
  obtain ⟨first, rest, rfl⟩ := List.exists_cons_of_ne_nil some
  rfl

theorem linesAt_append (depth : Nat) (ss ss' : List Stmt) :
    linesAt depth (ss ++ ss') = linesAt depth ss ++ linesAt depth ss' := by
  induction ss with
  | nil => rfl
  | cons first rest ih => simp only [List.cons_append, linesAt, ih, List.append_assoc]

/-- A statement directly inside a block begins a line. -/
theorem sourceAt_inside_block (before after : List Stmt) (depth : Nat) :
    ∃ front back, ∀ s, (Frame.fill s (.block before after)).sourceAt depth =
      front ++ newline (depth + 1) ++ s.sourceAt (depth + 1) ++ back := by
  refine ⟨text "\x7b" ++ linesAt (depth + 1) before,
    linesAt (depth + 1) after ++ newline depth ++ text "\x7d", fun s => ?_⟩
  rw [Frame.fill, sourceAt_block (by simp), linesAt_append, linesAt]
  simp only [List.append_assoc]

/-- What a frame writes does not depend on the statement inside. -/
theorem sourceAt_fill (f : Frame) (depth : Nat) :
    ∃ front back, ∀ s, (f.fill s).sourceAt depth =
      front ++ s.sourceAt (depth + blocks [f]) ++ back := by
  cases f with
  | block before after =>
    obtain ⟨front, back, written⟩ := sourceAt_inside_block before after depth
    exact ⟨front ++ newline (depth + 1), back, written⟩
  | body condition =>
    exact ⟨conditionSource .while_ condition, [], fun s => (List.append_nil _).symm⟩
  | whenTrue condition alternative =>
    cases alternative with
    | none => exact ⟨conditionSource .if_ condition, [], fun s => (List.append_nil _).symm⟩
    | some alternative =>
      refine ⟨conditionSource .if_ condition,
        text " " ++ Kind.else_.spelling ++ text " " ++ alternative.sourceAt depth, fun s => ?_⟩
      change _ = conditionSource .if_ condition ++ s.sourceAt depth ++ _
      simp only [Frame.fill, sourceAt, List.append_assoc]
  | whenFalse condition consequent =>
    refine ⟨conditionSource .if_ condition ++ consequent.sourceAt depth ++ text " " ++
      Kind.else_.spelling ++ text " ", [], fun s => (List.append_nil _).symm⟩

theorem sourceAt_within (frames : List Frame) (depth : Nat) :
    ∃ front back, ∀ s, (within s frames).sourceAt depth =
      front ++ s.sourceAt (depth + blocks frames) ++ back := by
  induction frames with
  | nil => exact ⟨[], [], fun s => (List.append_nil _).symm⟩
  | cons inner outer ih =>
    -- The outer frames hold the inner one, which stands at the depth of their blocks.
    obtain ⟨front, back, around⟩ := ih
    obtain ⟨front', back', filled⟩ := sourceAt_fill inner (depth + blocks outer)
    refine ⟨front ++ front', back' ++ back, fun s => ?_⟩
    have counted : depth + blocks outer + blocks [inner] = depth + blocks (inner :: outer) := by
      simp only [blocks, List.countP_cons, List.countP_nil]
      omega
    rw [within, around, filled, counted]
    simp only [List.append_assoc]

/-- A statement directly inside a block begins a line, at the depth of all blocks around it. -/
theorem sourceAt_directly_inside (before after : List Stmt) (outer : List Frame) :
    let frames := .block before after :: outer
    ∃ front back, ∀ s, (within s frames).source =
      front ++ newline (blocks frames) ++ s.sourceAt (blocks frames) ++ back := by
  obtain ⟨front, back, around⟩ := sourceAt_within outer 0
  obtain ⟨front', back', inside⟩ := sourceAt_inside_block before after (blocks outer)
  have counted : blocks (.block before after :: outer) = blocks outer + 1 :=
    List.countP_cons_of_pos rfl
  refine ⟨front ++ front', back' ++ back, fun s => ?_⟩
  rw [within, source, around, Nat.zero_add, inside, counted]
  simp only [List.append_assoc]

theorem AllWellFormed.middle {P : Token → Prop} {before after : List Stmt} {s : Stmt}
    (formed : AllWellFormed P (before ++ s :: after)) : s.WellFormed P := by
  induction before with
  | nil => exact formed.1
  | cons first rest ih => exact ih formed.2

/-- What stands inside of frames is well formed if the whole is. -/
theorem WellFormed.of_within {P : Token → Prop} {frames : List Frame} {s : Stmt}
    (formed : (s.within frames).WellFormed P) : s.WellFormed P := by
  induction frames generalizing s with
  | nil => exact formed
  | cons inner outer ih =>
    have filled := ih formed
    cases inner with
    | block before after => exact AllWellFormed.middle filled
    | body condition => exact filled.2.1
    | whenTrue condition alternative =>
      cases alternative with
      | none => exact filled.2.1
      | some alternative => exact filled.2.1
    | whenFalse condition consequent => exact filled.2.2.2.2.1

end Stmt

/-! ## The first byte of a statement -/

/-- A scanned token does not begin with a blank. -/
theorem Token.Scanned.head_apart {t : Token} (scanned : t.Scanned) :
    ∃ b more, t.lexeme = b :: more ∧ isBlank b = false := by
  obtain ⟨l, spelled, denoted⟩ := scanned
  obtain ⟨b, more, whole, begins⟩ := spelled.begins
  refine ⟨b, more, by rw [← denoted.token?.2.1, whole], ?_⟩
  by_contra white
  have shape := begins_blank (Bool.of_not_eq_false white) begins
  cases denoted <;> cases shape

theorem Kind.scanned_operator {kind : Kind} {spelled : Text}
    (listed : (kind, spelled) ∈ Kind.operators) : kind.token.Scanned := by
  rw [Kind.token_operator _ listed]
  exact ⟨⟨.operator kind, spelled⟩, .operator listed, .operator⟩

/-- A text with a scanned token in front. -/
def BeginsWithToken (s : Text) : Prop :=
  ∃ (t : Token) (more : Text), t.Scanned ∧ s = t.lexeme ++ more

theorem Token.Scanned.begins {t : Token} (scanned : t.Scanned) : BeginsWithToken t.lexeme :=
  ⟨t, [], scanned, (List.append_nil _).symm⟩

theorem Kind.begins_operator {kind : Kind} {spelled : Text}
    (listed : (kind, spelled) ∈ Kind.operators) : BeginsWithToken spelled := by
  have begins := (Kind.scanned_operator listed).begins
  rwa [Kind.token_operator _ listed] at begins

theorem Kind.begins_reserved {kind : Kind} (listed : kind ∈ Kind.reserved) :
    BeginsWithToken kind.spelling := by
  have begins := (Kind.scanned_reserved listed).begins
  rwa [Kind.token_reserved kind listed] at begins

theorem BeginsWithToken.append {s : Text} (begins : BeginsWithToken s) (rest : Text) :
    BeginsWithToken (s ++ rest) := by
  obtain ⟨t, more, scanned, rfl⟩ := begins
  exact ⟨t, more ++ rest, scanned, List.append_assoc ..⟩

/-- Of the tabs before a token none belongs to it. -/
theorem BeginsWithToken.tabs {s : Text} (begins : BeginsWithToken s) (depth : Nat) :
    run (· == 0x09) (List.replicate depth 0x09 ++ s) = depth := by
  obtain ⟨t, more, scanned, rfl⟩ := begins
  obtain ⟨b, others, whole, apart⟩ := scanned.head_apart
  have stops : ∀ c, (t.lexeme ++ more).head? = some c → (c == 0x09) = false := by
    intro c head
    rw [whole] at head
    cases head
    rw [beq_eq_false_iff_ne]
    rintro rfl
    exact absurd apart (by decide)
  rw [run_append (fun c member => by rw [List.eq_of_mem_replicate member]; rfl) stops,
    List.length_replicate]

/-- An expression begins with a token. -/
theorem Expr.source_begins : ∀ e : Expr, e.WellFormed Token.Scanned → BeginsWithToken e.source
  | .literal value, formed => by
    have begins := formed.scanned.begins
    rwa [value.token_lexeme] at begins
  | .identifier name, formed => formed.2.begins
  | .assign name value, formed => (formed.2.1.begins.append _).append _
  | .logical left operator right, formed =>
    ((((left.source_begins formed.2.1).append _).append _).append _).append _
  | .binary left operator right, formed =>
    ((((left.source_begins formed.2.1).append _).append _).append _).append _
  | .unary operator right, formed => formed.2.1.begins.append _
  | .call callee paren given, formed =>
    (((callee.source_begins formed.2.2.2.1).append _).append _).append _
  | .grouping inner, _ => by
    have listed : (Kind.leftParen, text "(") ∈ Kind.operators := by decide
    exact ((Kind.begins_operator listed).append _).append _
  | .bareCall _ _, formed => formed.elim

theorem Stmt.condition_begins {word : Kind} (listed : word ∈ Kind.reserved) (condition : Expr) :
    BeginsWithToken (conditionSource word condition) :=
  (((Kind.begins_reserved listed).append _).append _).append _

/-- A statement begins with a token at every depth. -/
theorem Stmt.source_begins (s : Stmt) (formed : s.WellFormed Token.Scanned) (depth : Nat) :
    BeginsWithToken (s.sourceAt depth) := by
  have brace : BeginsWithToken (text "\x7b") := by
    have listed : (Kind.leftBrace, text "\x7b") ∈ Kind.operators := by decide
    exact Kind.begins_operator listed
  cases s with
  | expression value => exact (value.source_begins formed).append _
  | print value =>
    have listed : Kind.print ∈ Kind.reserved := by decide
    exact (((Kind.begins_reserved listed).append _).append _).append _
  | declare name initializer =>
    have listed : Kind.var ∈ Kind.reserved := by decide
    cases initializer with
    | none => exact (((Kind.begins_reserved listed).append _).append _).append _
    | some value =>
      exact (((((Kind.begins_reserved listed).append _).append _).append _).append _).append _
  | block statements =>
    cases statements with
    | nil => exact brace.append (text "\x7d")
    | cons first rest => exact ((brace.append _).append _).append _
  | bareBlock => exact formed.elim
  | branch condition consequent alternative =>
    have listed : Kind.if_ ∈ Kind.reserved := by decide
    have begins := condition_begins listed condition
    cases alternative with
    | none => exact begins.append _
    | some alternative => exact ((((begins.append _).append _).append _).append _).append _
  | loop condition body =>
    have listed : Kind.while_ ∈ Kind.reserved := by decide
    exact (condition_begins listed condition).append _

/-! ## Depth and lines -/

theorem Program.dump_append (earlier later : List Stmt) (s : Stmt) :
    Program.dump ⟨earlier ++ s :: later⟩ =
      Program.dump ⟨earlier⟩ ++ s.source ++ (lineFeed :: Program.dump ⟨later⟩) := by
  simp [Program.dump_eq_source, Program.source]

/-- A printer ends a statement at the depth at which it began it.  It writes what it would write at
depth zero, with a tab more for every open block behind each line break of its own; in trees that
are read from a source these are the line breaks between the tokens.  So a program is written
statement by statement, and a statement that stands directly inside a block begins a line, after as
many tabs as there are blocks around it. -/
theorem indentation_is_exact :
    (∀ (s : Stmt) (before : List Stroke) (depth : Int),
      (s.format.run ⟨before, depth⟩).2.depth = depth) ∧
    (∀ (s : Stmt) (before : List Stroke) (depth : Nat),
      s.dump = s.strokes.flatMap Stroke.text ∧
      (s.format.run ⟨before, depth⟩).2.text =
        before.flatMap Stroke.text ++ s.strokes.flatMap (Stroke.indented depth) ∧
      (s.WellFormed Token.Scanned →
        s.strokes.flatMap (Stroke.indented depth) = reindent depth s.dump)) ∧
    (∀ p : Program, p.dump = p.source ∧
      p.dump = p.statements.flatMap fun s => s.dump ++ [lineFeed]) ∧
    (∀ (earlier later before after : List Stmt) (outer : List Stmt.Frame), ∃ front back, ∀ s : Stmt,
      let frames := .block before after :: outer
      let depth := Stmt.blocks frames
      let line := List.replicate depth 0x09 ++ (s.strokes.flatMap (Stroke.indented depth) ++ back)
      Program.dump ⟨earlier ++ s.within frames :: later⟩ = front ++ lineFeed :: line ∧
      ((s.within frames).WellFormed Token.Scanned → run (· == 0x09) line = depth)) := by
  refine ⟨fun s before depth => ?_, fun s before depth => ⟨rfl, ?_, fun formed => ?_⟩, fun p => ?_,
    fun earlier later before after outer => ?_⟩
  · rw [s.format_run.1]
  · rw [s.format_prints.text_run, s.format_run.2]
  · rw [s.format_run.2, s.dump_eq_source, Stmt.reindent_source formed]
  · refine ⟨p.dump_eq_source, ?_⟩
    rw [p.dump_eq_source, Program.source]
    exact List.flatMap_congr fun s _ => by rw [s.dump_eq_source]
  · obtain ⟨front, back, written⟩ := Stmt.sourceAt_directly_inside before after outer
    refine ⟨Program.dump ⟨earlier⟩ ++ front, back ++ lineFeed :: Program.dump ⟨later⟩,
      fun s => ⟨?_, fun formed => ?_⟩⟩
    · rw [Program.dump_append, written, s.format_run.2, Stmt.newline]
      simp only [List.append_assoc, List.cons_append]
    · rw [s.format_run.2]
      exact ((s.source_begins formed.of_within _).append _).tabs _

/-- A string that goes over two lines. -/
def twoLines : Stmt := .print (.literal (.string (text "a\nb")))

/-- A block inside a loop inside a block of a branch. -/
def twoBlocks : List Stmt.Frame :=
  [.block [twoLines] [], .body (.literal (.truth true)), .block [] [twoLines],
    .whenTrue (.literal .nothing) none]

example : Program.dump ⟨[twoLines.within twoBlocks]⟩ =
    text "jodi (nil) \x7b\n\tjotokhon (thik) \x7b\n" ++
      text "\t\tlekho \"a\nb\";\n\t\tlekho \"a\nb\";\n" ++
      text "\t\x7d\n\tlekho \"a\nb\";\n\x7d\n" := by
  decide +kernel

theorem two_lines_inside_two_blocks :
    (twoLines.within twoBlocks).WellFormed Token.Scanned ∧
    (twoLines.within twoBlocks).strokes.flatMap (Stroke.indented 1) =
      reindent 1 (twoLines.within twoBlocks).dump ∧
    ∃ front back,
      let line := List.replicate 2 0x09 ++ (twoLines.strokes.flatMap (Stroke.indented 2) ++ back)
      Program.dump ⟨[twoLines.within twoBlocks]⟩ = front ++ lineFeed :: line ∧
      run (· == 0x09) line = 2 := by
  have content : 0x22 ∉ text "a\nb" := by decide
  have written : twoLines.WellFormed Token.Scanned :=
    .inr (.inr ⟨⟨.string, _, _, 0⟩, ⟨_, .string content, .string⟩, .inr rfl, rfl⟩)
  have formed : (twoLines.within twoBlocks).WellFormed Token.Scanned :=
    ⟨.inl rfl, ⟨⟨.inr (.inl ⟨true, rfl⟩), ⟨written, written, trivial⟩, rfl⟩, written, trivial⟩, rfl⟩
  obtain ⟨-, single, -, placed⟩ := indentation_is_exact
  obtain ⟨front, back, stands⟩ := placed [] [] [twoLines] [] twoBlocks.tail
  obtain ⟨whole, tabs⟩ := stands twoLines
  exact ⟨formed, (single _ [] 1).2.2 formed, front, back, whole, tabs formed⟩

end Bhasha
