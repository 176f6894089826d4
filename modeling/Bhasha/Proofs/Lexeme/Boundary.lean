import Bhasha.Proofs.Lexeme.LongestMatch

/-!
# Where a lexeme ends

A string, number, word or operator that is followed by a blank, a parenthesis, a comma, a semicolon
or the end of the text is cut off as it stands: no longer match begins with it.  This is what keeps
neighbours apart in a text that is put together from lexemes.
-/

namespace Bhasha.Lexeme

variable {p : UInt8 → Bool} {b : UInt8} {rest v : Text} {shape : Shape}

/-- The bytes that end every lexeme before them. -/
def isDelimiter (b : UInt8) : Bool :=
  isBlank b || b = 0x28 || b = 0x29 || b = 0x2c || b = 0x3b

/-- A text that begins with a delimiter, or is at its end. -/
def Delimited (rest : Text) : Prop := ∀ b, rest.head? = some b → isDelimiter b = true

theorem delimited_cons (delimiter : isDelimiter b = true) : Delimited (b :: rest) := by
  intro c head
  cases head
  exact delimiter

/-- A delimiter continues no word and no number, and it is no second half of an operator. -/
theorem delimiter_apart : ∀ b, isDelimiter b = true →
    continuesWord b = false ∧ Text.isDigit b = false ∧ b ≠ 0x2e ∧ b ≠ 0x2f ∧ b ≠ 0x3d :=
  forall_byte (by decide +kernel)

theorem Delimited.head_ne (delimited : Delimited rest) {c : UInt8} (other : isDelimiter c = false) :
    rest.head? ≠ some c := by
  intro head
  rw [delimited c head] at other
  cases other

theorem run_append (inside : ∀ c ∈ v, p c = true)
    (outside : ∀ c, rest.head? = some c → p c = false) : run p (v ++ rest) = v.length := by
  cases rest with
  | nil =>
    have bound := run_le_length p v
    have whole := length_le_run inside (List.prefix_refl v)
    rw [List.append_nil]
    omega
  | cons c tail =>
    exact (length_eq_run inside (outside c rfl) (by simp)).symm

/-- A lexeme that is measured to its end is cut off. -/
theorem split_of_measure {more : Text}
    (measured : measure b (more ++ rest) = (shape, more.length)) :
    split (b :: (more ++ rest)) = ⟨shape, b :: more⟩ :: split rest := by
  rw [split_cons, measured, List.take_left, List.drop_left]

theorem measure_digits {more : Text} (digit : Text.isDigit b = true)
    (others : ∀ d ∈ more, Text.isDigit d = true) (delimited : Delimited rest) :
    measure b (more ++ rest) = (.number, more.length) := by
  have ran : run Text.isDigit (more ++ rest) = more.length :=
    run_append others fun c head => (delimiter_apart c (delimited c head)).2.1
  have noPoint : ∀ tail, rest ≠ 0x2e :: tail := by
    rintro tail rfl
    exact delimited.head_ne (by decide) rfl
  rw [measure_number digit]
  unfold numberRun
  dsimp only
  rw [ran, List.drop_left]
  split
  · exact absurd rfl (noPoint _)
  · rfl

theorem measure_fraction {more places : Text} (digit : Text.isDigit b = true)
    (others : ∀ d ∈ more, Text.isDigit d = true) (some : places ≠ [])
    (allPlaces : ∀ d ∈ places, Text.isDigit d = true) (delimited : Delimited rest) :
    measure b (more ++ 0x2e :: places ++ rest) =
      (.number, (more ++ 0x2e :: places).length) := by
  have ran : run Text.isDigit (places ++ rest) = places.length :=
    run_append allPlaces fun c head => (delimiter_apart c (delimited c head)).2.1
  have positive := List.length_pos_iff.mpr some
  rw [measure_number digit, List.append_assoc, List.cons_append,
    numberRun_fraction others (by omega), ran, List.length_append, List.length_cons]
  congr 1
  omega

/-- A spelled text before a delimiter is the next lexeme. -/
theorem split_spelled (spelled : Spells shape v) (noComment : shape ≠ .comment)
    (delimited : Delimited rest) : split (v ++ rest) = ⟨shape, v⟩ :: split rest := by
  cases spelled with
  | blank white =>
    exact @split_of_measure _ rest _ [] (measure_blank (isBlank_iff.mpr white))
  | comment oneLine => exact absurd rfl noComment
  | @string content closed =>
    refine split_of_measure ?_
    have ran : run (· != 0x22) (content ++ [0x22] ++ rest) = content.length :=
      (string_content closed (List.prefix_append _ _)).symm
    rw [measure_string (by rw [ran]; simp), ran, List.length_append, List.length_singleton]
  | whole some all =>
    obtain ⟨d, more, rfl⟩ := List.exists_cons_of_ne_nil some
    exact split_of_measure
      (measure_digits (all d (.head _)) (fun d member => all d (.tail _ member)) delimited)
  | fraction some all somePlaces allPlaces =>
    obtain ⟨d, more, rfl⟩ := List.exists_cons_of_ne_nil some
    exact split_of_measure (measure_fraction (all d (.head _))
      (fun d member => all d (.tail _ member)) somePlaces allPlaces delimited)
  | word first others =>
    refine split_of_measure ?_
    rw [measure_word first, run_append others fun c head =>
      (delimiter_apart c (delimited c head)).1]
  | operator listed =>
    obtain ⟨b, single, marked, ⟨rfl, rfl⟩ | ⟨rfl, doubled⟩⟩ := operators_cases listed
    · exact @split_of_measure _ rest _ [] (measure_mark marked
        (fun _ => delimited.head_ne (by decide)) (fun _ => delimited.head_ne (by decide)))
    · exact @split_of_measure _ rest _ [0x3d] (measure_double marked doubled)

end Bhasha.Lexeme
