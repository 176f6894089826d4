import Bhasha.Text.Bytes
import Mathlib.Data.List.Infix

/-!
# Joining and splitting

Parts that are joined by a separator can be told apart again if the separator is in none of them.
Whatever the separator is, joining loses no part and adds nothing but separators.
-/

namespace Bhasha

namespace Text

theorem splitOn_ne_nil (separator : UInt8) (s : Text) : splitOn separator s ≠ [] := by
  cases s with
  | nil => exact List.cons_ne_nil _ _
  | cons b rest =>
    rw [splitOn]
    cases splitOn separator rest with
    | nil => exact List.cons_ne_nil _ _
    | cons part parts =>
      dsimp only
      split <;> exact List.cons_ne_nil _ _

theorem splitOn_alone {separator : UInt8} {part : Text} (apart : separator ∉ part) :
    splitOn separator part = [part] := by
  induction part with
  | nil => rfl
  | cons b rest ih =>
    rw [List.mem_cons, not_or] at apart
    rw [splitOn, ih apart.2]
    exact if_neg (Ne.symm apart.1)

theorem splitOn_append {separator : UInt8} {part : Text} (apart : separator ∉ part) (rest : Text) :
    splitOn separator (part ++ [separator] ++ rest) = part :: splitOn separator rest := by
  induction part with
  | nil =>
    rw [List.nil_append, List.singleton_append, splitOn]
    cases parted : splitOn separator rest with
    | nil => exact absurd parted (splitOn_ne_nil separator rest)
    | cons next others => exact if_pos rfl
  | cons b part ih =>
    rw [List.mem_cons, not_or] at apart
    rw [List.cons_append, List.cons_append, splitOn, ih apart.2]
    exact if_neg (Ne.symm apart.1)

/-- Parts without the separator are found again in what they are joined to. -/
theorem splitOn_joinWith {separator : UInt8} {parts : List Text}
    (apart : ∀ part ∈ parts, separator ∉ part) (nonempty : parts ≠ []) :
    splitOn separator (joinWith [separator] parts) = parts := by
  induction parts using joinWith.induct with
  | case1 => exact absurd rfl nonempty
  | case2 last => exact splitOn_alone (apart last (.head _))
  | case3 first next rest ih =>
    rw [joinWith, splitOn_append (apart first (.head _))]
    exact congrArg (first :: ·) (ih (fun part member => apart part (.tail _ member)) nofun)

/-- Texts that are joined bring no byte but theirs and the separator's. -/
theorem mem_joinWith {separator : UInt8} {parts : List Text} {b : UInt8}
    (member : b ∈ joinWith [separator] parts) : b = separator ∨ ∃ part ∈ parts, b ∈ part := by
  induction parts using joinWith.induct with
  | case1 => exact absurd member List.not_mem_nil
  | case2 last => exact .inr ⟨last, .head _, member⟩
  | case3 first next rest ih =>
    rw [joinWith, List.append_assoc, List.mem_append, List.singleton_append, List.mem_cons]
      at member
    obtain here | between | later := member
    · exact .inr ⟨first, .head _, here⟩
    · exact .inl between
    · exact (ih later).imp id fun ⟨part, listed, inside⟩ => ⟨part, .tail _ listed, inside⟩

/-- Each part stands in what the parts are joined to. -/
theorem infix_joinWith {separator part : Text} {parts : List Text} (member : part ∈ parts) :
    part <:+: joinWith separator parts := by
  induction parts using joinWith.induct with
  | case1 => exact absurd member List.not_mem_nil
  | case2 last =>
    rw [List.mem_singleton.mp member]
    exact List.infix_rfl
  | case3 first next rest ih =>
    rw [joinWith, List.append_assoc]
    obtain rfl | later := List.mem_cons.mp member
    · exact (List.prefix_append _ _).isInfix
    · exact (ih later).trans ((List.suffix_append _ _).trans (List.suffix_append _ _)).isInfix

end Text

end Bhasha
