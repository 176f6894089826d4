import Bhasha.Tree.Source
import Mathlib.Data.List.Basic

/-!
# Printing with a depth that changes

The canonical source text once more, as it is written by a printer that goes through a tree and
keeps count of the blocks that are open.  The count is the printer's own: a block raises it, lowers
it again before its closing brace, and nobody else sets it right.  The printer writes two kinds of
strokes, bytes that it is given and line breaks of its own, so that its line breaks stay apart from
those that a string literal holds.

Whatever the printer has written before and however deep it stands, a statement leaves the depth as
it was.  It adds the same strokes at every depth, except that each line break is followed by as many
more tabs as the printer was deeper, and the text of the strokes is the canonical source text.

Source: benglang, package `ast`: `printer` with its `depth`, `newline`, and `format` of the
statements.
-/

namespace Bhasha

open Text (lineFeed)

/-- What a printer writes at once. -/
inductive Stroke where
  | bytes (content : Text)
  /-- A line break of the printer's own, and the tabs after it. -/
  | lineBreak (tabs : Nat)
deriving DecidableEq, Repr

namespace Stroke

def text : Stroke → Text
  | .bytes content => content
  | .lineBreak tabs => lineFeed :: List.replicate tabs 0x09

/-- The text of a stroke with `extra` tabs inserted after a line break of the printer. -/
def indented (extra : Nat) : Stroke → Text
  | .bytes content => content
  | .lineBreak tabs => lineFeed :: (List.replicate extra 0x09 ++ List.replicate tabs 0x09)

/-- A stroke of a printer that stands `depth` blocks deeper. -/
def deepened (depth : Int) : Stroke → Stroke
  | .bytes content => .bytes content
  | .lineBreak tabs => .lineBreak (tabs + depth).toNat

theorem text_deepened (depth : Nat) (s : Stroke) : (s.deepened depth).text = s.indented depth := by
  cases s with
  | bytes content => rfl
  | lineBreak tabs =>
    have sum : ((tabs : Int) + depth).toNat = depth + tabs := by omega
    rw [deepened, text, sum, indented, List.replicate_append_replicate]

theorem deepened_zero (s : Stroke) : s.deepened 0 = s := by
  cases s with
  | bytes content => rfl
  | lineBreak tabs => simp [deepened]

theorem deepened_deepened (s : Stroke) (depth : Int) :
    (s.deepened 1).deepened depth = s.deepened (depth + 1) := by
  cases s with
  | bytes content => rfl
  | lineBreak tabs =>
    simp only [deepened, lineBreak.injEq]
    omega

theorem indented_deepened (s : Stroke) (depth : Nat) :
    (s.deepened 1).indented depth = s.indented (depth + 1) := by
  rw [← text_deepened, deepened_deepened]
  exact text_deepened (depth + 1) s

end Stroke

/-- A printer: what it has written and the number of blocks that are open. -/
structure Printer where
  strokes : List Stroke
  depth : Int

namespace Printer

def fresh : Printer := ⟨[], 0⟩

def text (p : Printer) : Text := p.strokes.flatMap Stroke.text

def write (content : Text) : StateM Printer Unit :=
  modify fun p => { p with strokes := p.strokes ++ [.bytes content] }

/-- Begins a line. Below depth zero it has no tabs, as at depth zero. -/
def breakLine : StateM Printer Unit :=
  modify fun p => { p with strokes := p.strokes ++ [.lineBreak p.depth.toNat] }

def enter : StateM Printer Unit := modify fun p => { p with depth := p.depth + 1 }

def leave : StateM Printer Unit := modify fun p => { p with depth := p.depth - 1 }

end Printer

namespace Stmt

open Printer

/-- Prints a condition after the word that introduces it, and the blank before what follows. -/
def formatCondition (word : Kind) (condition : Expr) : StateM Printer Unit := do
  write word.spelling
  write (text " (")
  write condition.source
  write (text ") ")

mutual

/-- Prints a statement. -/
def format : Stmt → StateM Printer Unit
  | .expression value => do
    write value.source
    write (text ";")
  | .print value => do
    write Kind.print.spelling
    write (text " ")
    write value.source
    write (text ";")
  | .declare name none => do
    write Kind.var.spelling
    write (text " ")
    write name.lexeme
    write (text ";")
  | .declare name (some value) => do
    write Kind.var.spelling
    write (text " ")
    write name.lexeme
    write (text " = ")
    write value.source
    write (text ";")
  | .block [] => write (text "\x7b\x7d")
  | .block (first :: rest) => do
    write (text "\x7b")
    enter
    formatLines (first :: rest)
    leave
    breakLine
    write (text "\x7d")
  | .bareBlock => write (text "\x7b\x7d")
  | .branch condition consequent none => do
    formatCondition .if_ condition
    consequent.format
  | .branch condition consequent (some alternative) => do
    formatCondition .if_ condition
    consequent.format
    write (text " ")
    write Kind.else_.spelling
    write (text " ")
    alternative.format
  | .loop condition body => do
    formatCondition .while_ condition
    body.format

/-- Prints statements on lines of their own. -/
def formatLines : List Stmt → StateM Printer Unit
  | [] => pure ()
  | first :: rest => do
    breakLine
    first.format
    formatLines rest

end

/-- The strokes of a statement that is printed by itself. -/
def strokes (s : Stmt) : List Stroke := (s.format.run fresh).2.strokes

/-- The text of a statement that is printed by itself. -/
def dump (s : Stmt) : Text := (s.format.run fresh).2.text

end Stmt

namespace Program

/-- Prints statements one after the other, each with a line feed behind it. -/
def format : List Stmt → StateM Printer Unit
  | [] => pure ()
  | first :: rest => do
    first.format
    Printer.write [lineFeed]
    format rest

/-- The text of a program, all of it printed by one printer. -/
def dump (p : Program) : Text := ((format p.statements).run .fresh).2.text

end Program

/-- There are strokes that `x` adds to what has been written, deepened by the depth of the printer,
and it leaves this depth as it was.  At depth `d` their text is `source d`. -/
def Prints (x : StateM Printer Unit) (source : Nat → Text) : Prop :=
  ∃ strokes : List Stroke, (∀ before depth, x.run ⟨before, depth⟩ =
      ((), ⟨before ++ strokes.map (Stroke.deepened depth), depth⟩)) ∧
    ∀ depth : Nat, strokes.flatMap (Stroke.indented depth) = source depth

namespace Prints

open Printer

variable {x y : StateM Printer Unit} {source source' : Nat → Text}

theorem nothing : Prints (pure ()) (fun _ => []) := by
  refine ⟨[], fun before depth => ?_, fun _ => rfl⟩
  rw [List.map_nil, List.append_nil]
  rfl

theorem bytes (content : Text) : Prints (write content) (fun _ => content) :=
  ⟨[.bytes content], fun _ _ => rfl, fun _ => List.append_nil content⟩

theorem lineBreak : Prints breakLine Stmt.newline := by
  refine ⟨[.lineBreak 0], fun before depth => ?_, fun depth => ?_⟩
  · have tabs : ((0 : Nat) + depth).toNat = depth.toNat := by omega
    rw [List.map_singleton, Stroke.deepened, tabs]
    rfl
  · rw [List.flatMap_singleton, Stroke.indented, List.replicate_zero, List.append_nil]
    rfl

theorem append (first : Prints x source) (next : Prints y source') :
    Prints (x >>= fun _ => y) (fun d => source d ++ source' d) := by
  obtain ⟨ss, runs, written⟩ := first
  obtain ⟨ss', runs', written'⟩ := next
  refine ⟨ss ++ ss', fun before depth => ?_, fun depth => ?_⟩
  · rw [StateT.run_bind, runs, List.map_append, ← List.append_assoc]
    exact runs' _ depth
  · rw [List.flatMap_append, written, written']

theorem congr (inner : Prints x source) (same : ∀ depth, source depth = source' depth) :
    Prints x source' := by
  rwa [← funext same]

/-- What is printed between entering a block and leaving it is one block deeper. -/
theorem inside (inner : Prints x source) (next : Prints y source') :
    Prints (enter >>= fun _ => x >>= fun _ => leave >>= fun _ => y)
      (fun d => source (d + 1) ++ source' d) := by
  obtain ⟨ss, runs, written⟩ := inner
  obtain ⟨ss', runs', written'⟩ := next
  refine ⟨ss.map (Stroke.deepened 1) ++ ss', fun before depth => ?_, fun depth => ?_⟩
  · have tabs : (ss.map (Stroke.deepened 1)).map (Stroke.deepened depth) =
        ss.map (Stroke.deepened (depth + 1)) := by
      rw [List.map_map]
      exact List.map_congr_left fun s _ => s.deepened_deepened depth
    -- `y` begins at the depth that `leave` has set, which is the first depth again.
    have restored : depth + 1 - 1 = depth := by omega
    have last := runs' (before ++ ss.map (Stroke.deepened (depth + 1))) (depth + 1 - 1)
    rw [restored, List.append_assoc] at last
    rw [List.map_append, tabs]
    change (x >>= fun _ => leave >>= fun _ => y).run ⟨before, depth + 1⟩ = _
    rw [StateT.run_bind, runs]
    change y.run ⟨_, depth + 1 - 1⟩ = _
    rw [restored]
    exact last
  · have tabs : (ss.map (Stroke.deepened 1)).flatMap (Stroke.indented depth) =
        ss.flatMap (Stroke.indented (depth + 1)) := by
      rw [List.flatMap_map]
      exact List.flatMap_congr fun s _ => s.indented_deepened depth
    rw [List.flatMap_append, tabs, written, written']

/-- The text that is added at a depth. -/
theorem text_run (prints : Prints x source) (before : List Stroke) (depth : Nat) :
    (x.run ⟨before, depth⟩).2.text = before.flatMap Stroke.text ++ source depth := by
  obtain ⟨ss, runs, written⟩ := prints
  have shifted : (ss.map (Stroke.deepened depth)).flatMap Stroke.text = source depth := by
    rw [← written, List.flatMap_map]
    exact List.flatMap_congr fun s _ => s.text_deepened depth
  rw [runs, Printer.text, List.flatMap_append, shifted]

end Prints

namespace Stmt

open Printer

theorem formatCondition_prints (word : Kind) (condition : Expr) :
    Prints (formatCondition word condition) (fun _ => conditionSource word condition) := by
  have all := (Prints.bytes word.spelling).append ((Prints.bytes (text " (")).append
    ((Prints.bytes condition.source).append (.bytes (text ") "))))
  exact all.congr fun _ => by simp [conditionSource]

mutual

/-- Printing a statement adds its canonical source text at every depth. -/
theorem format_prints : ∀ s : Stmt, Prints s.format s.sourceAt
  | .expression value => (Prints.bytes value.source).append (.bytes _)
  | .print value => by
    have all := (Prints.bytes Kind.print.spelling).append ((Prints.bytes (text " ")).append
      ((Prints.bytes value.source).append (.bytes (text ";"))))
    exact all.congr fun _ => by simp [sourceAt]
  | .declare name none => by
    have all := (Prints.bytes Kind.var.spelling).append ((Prints.bytes (text " ")).append
      ((Prints.bytes name.lexeme).append (.bytes (text ";"))))
    exact all.congr fun _ => by simp [sourceAt]
  | .declare name (some value) => by
    have tail := (Prints.bytes (text " = ")).append
      ((Prints.bytes value.source).append (.bytes (text ";")))
    have all := (Prints.bytes Kind.var.spelling).append ((Prints.bytes (text " ")).append
      ((Prints.bytes name.lexeme).append tail))
    exact all.congr fun _ => by simp [sourceAt]
  | .block [] => .bytes _
  | .block (first :: rest) => by
    have closing := Prints.lineBreak.append (.bytes (text "\x7d"))
    have lines := (formatLines_prints (first :: rest)).inside closing
    have all := (Prints.bytes (text "\x7b")).append lines
    exact all.congr fun _ => by simp [sourceAt]
  | .bareBlock => .bytes _
  | .branch condition consequent none =>
    (formatCondition_prints .if_ condition).append (format_prints consequent)
  | .branch condition consequent (some alternative) => by
    have tail := (Prints.bytes (text " ")).append ((Prints.bytes Kind.else_.spelling).append
      ((Prints.bytes (text " ")).append (format_prints alternative)))
    have all := (formatCondition_prints .if_ condition).append
      ((format_prints consequent).append tail)
    exact all.congr fun _ => by simp [sourceAt]
  | .loop condition body =>
    (formatCondition_prints .while_ condition).append (format_prints body)

theorem formatLines_prints : ∀ ss : List Stmt,
    Prints (formatLines ss) (fun depth => linesAt depth ss)
  | [] => .nothing
  | first :: rest => by
    have all := Prints.lineBreak.append ((format_prints first).append (formatLines_prints rest))
    exact all.congr fun _ => by simp [linesAt]

end

/-- A printer at any depth adds the strokes of the statement by itself, deepened, and ends at the
depth at which it began. -/
theorem format_run (s : Stmt) :
    (∀ before depth, s.format.run ⟨before, depth⟩ =
      ((), ⟨before ++ s.strokes.map (Stroke.deepened depth), depth⟩)) ∧
    ∀ depth : Nat, s.strokes.flatMap (Stroke.indented depth) = s.sourceAt depth := by
  obtain ⟨ss, runs, written⟩ := s.format_prints
  have alone : s.strokes = ss := by
    rw [strokes, fresh, runs, List.nil_append, List.map_congr_left fun s _ => s.deepened_zero,
      List.map_id']
  rw [alone]
  exact ⟨runs, written⟩

/-- The text of a statement by itself is its canonical source text. -/
theorem dump_eq_source (s : Stmt) : s.dump = s.source := s.format_prints.text_run [] 0

end Stmt

namespace Program

theorem format_prints (ss : List Stmt) :
    Prints (format ss) (fun depth => ss.flatMap fun s => s.sourceAt depth ++ [lineFeed]) := by
  induction ss with
  | nil => exact .nothing
  | cons first rest ih =>
    have all := first.format_prints.append ((Prints.bytes [lineFeed]).append ih)
    exact all.congr fun _ => by simp

/-- One printer for all statements writes the canonical source text. -/
theorem dump_eq_source (p : Program) : p.dump = p.source :=
  (format_prints p.statements).text_run [] 0

end Program

end Bhasha
