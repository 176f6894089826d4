import Bhasha.Proofs.Lexeme.Spelling

/-!
# The longest match

What is measured off the front of a text is the longest spelled text that stands there, and an error
only where no spelled text stands.  Cutting a text into lexemes is therefore the one way to cut it
by longest matches.
-/

namespace Bhasha.Lexeme

variable {p : UInt8 → Bool} {b : UInt8} {rest v : Text} {shape : Shape}

theorem take_run (p : UInt8 → Bool) (rest : Text) : rest.take (run p rest) = rest.takeWhile p :=
  (List.prefix_iff_eq_take.mp (List.takeWhile_prefix p)).symm

theorem run_le_length (p : UInt8 → Bool) (rest : Text) : run p rest ≤ rest.length :=
  (List.takeWhile_prefix p).length_le

/-- A start of the text inside a class is no longer than the run of the class. -/
theorem length_le_run (inside : ∀ c ∈ v, p c = true) (start : v <+: rest) :
    v.length ≤ run p rest := by
  obtain ⟨tail, rfl⟩ := start
  rw [run, List.takeWhile_append_of_pos inside, List.length_append]
  exact Nat.le_add_right _ _

/-- A start of the text inside a class that is followed by a byte outside is the whole run. -/
theorem length_eq_run {stop : UInt8} (inside : ∀ c ∈ v, p c = true) (outside : p stop = false)
    (start : v ++ [stop] <+: rest) : v.length = run p rest := by
  obtain ⟨tail, rfl⟩ := start
  rw [run, List.append_assoc, List.takeWhile_append_of_pos inside]
  simp [outside]

theorem drop_run (p : UInt8 → Bool) (rest : Text) : rest.drop (run p rest) = rest.dropWhile p := by
  conv => lhs; arg 2; rw [← List.takeWhile_append_dropWhile (p := p) (l := rest)]
  exact List.drop_left

/-- A run that ends before the text does is followed by a byte outside the class. -/
theorem run_stops (ends : run p rest < rest.length) :
    ∃ stop tail, rest.drop (run p rest) = stop :: tail ∧ p stop = false := by
  have first := List.head?_dropWhile_not p rest
  rw [← drop_run] at first
  cases after : rest.drop (run p rest) with
  | nil =>
    rw [List.drop_eq_nil_iff] at after
    omega
  | cons stop tail =>
    rw [after] at first
    exact ⟨stop, tail, rfl, by simpa using first⟩

theorem all_of_mem_takeWhile {c : UInt8} (member : c ∈ rest.takeWhile p) : p c = true :=
  List.all_eq_true.mp List.all_takeWhile c member

theorem measure_blank (white : isBlank b = true) : measure b rest = (.blank, 0) := by
  simp [measure, white]

theorem measure_comment : measure 0x2f (0x2f :: rest) =
    (.comment, run (· != Text.lineFeed) rest + 1) := by
  simp [measure, isBlank, Text.lineFeed, run]

theorem measure_string (closed : run (· != 0x22) rest < rest.length) :
    measure 0x22 rest = (.string, run (· != 0x22) rest + 1) := by
  simp [measure, isBlank, Text.lineFeed, closed]

theorem measure_unclosed (open_ : ¬ run (· != 0x22) rest < rest.length) :
    measure 0x22 rest = (.unclosed, rest.length) := by
  simp [measure, isBlank, Text.lineFeed, open_]

theorem measure_number (digit : Text.isDigit b = true) :
    measure b rest = (.number, numberRun rest) := by
  obtain ⟨blank, slash, quote, letter, mark⟩ := digit_apart b digit
  simp [measure, blank, slash, quote, digit]

theorem measure_word (letter : beginsWord b = true) :
    measure b rest = (.word, run continuesWord rest) := by
  obtain ⟨blank, slash, quote, digit, mark⟩ := letter_apart b letter
  simp [measure, blank, slash, quote, digit, letter]

theorem measure_double {kind double : Kind} (marked : mark? b = some kind)
    (doubled : withEqual? kind = some double) :
    measure b (0x3d :: rest) = (.operator double, 1) := by
  obtain ⟨blank, quote, digit, letter⟩ := mark_apart b (by simp [marked])
  simp [measure, blank, quote, digit, letter, marked, doubled]

theorem measure_mark {kind : Kind} (marked : mark? b = some kind)
    (noComment : b = 0x2f → rest.head? ≠ some 0x2f)
    (single : withEqual? kind ≠ none → rest.head? ≠ some 0x3d) :
    measure b rest = (.operator kind, 0) := by
  obtain ⟨blank, quote, digit, letter⟩ := mark_apart b (by simp [marked])
  have noSlashes : ¬ (b = 0x2f ∧ rest.head? = some 0x2f) := fun both => noComment both.1 both.2
  simp only [measure, blank, quote, digit, letter, marked, Bool.false_eq_true, if_false,
    Bool.and_eq_true, decide_eq_true_eq, noSlashes]
  split
  · rename_i double doubled next
    exact absurd next (single (by simp [doubled]))
  · rfl

/-- A byte that begins nothing. -/
theorem measure_stray (nothing : ∀ shape, ¬ Begins b shape) :
    measure b rest = (.stray, Utf8.width (b :: rest) - 1) := by
  have noBlank : isBlank b = false := Bool.eq_false_iff.mpr (nothing .blank)
  have noDigit : Text.isDigit b = false := Bool.eq_false_iff.mpr (nothing .number)
  have noLetter : beginsWord b = false := Bool.eq_false_iff.mpr (nothing .word)
  have noSlash : b ≠ 0x2f := nothing .comment
  have noQuote : b ≠ 0x22 := nothing .string
  have noMark : mark? b = none := Decidable.not_not.mp (nothing (.operator .dot))
  simp [measure, noBlank, noSlash, noQuote, noDigit, noLetter, noMark]

theorem run_le_numberRun (rest : Text) : run Text.isDigit rest ≤ numberRun rest := by
  unfold numberRun
  dsimp only
  split
  · split <;> omega
  · exact Nat.le_refl _

/-- A point with a digit behind it belongs to the number. -/
theorem numberRun_fraction {digits fraction : Text} (inside : ∀ d ∈ digits, Text.isDigit d = true)
    (places : 0 < run Text.isDigit fraction) :
    numberRun (digits ++ 0x2e :: fraction) = digits.length + 1 + run Text.isDigit fraction := by
  have whole : run Text.isDigit (digits ++ 0x2e :: fraction) = digits.length :=
    (length_eq_run inside (show Text.isDigit 0x2e = false by decide) (by simp)).symm
  simp [numberRun, whole, places]

/-- What is measured off a number is a number. -/
theorem spells_number (digit : Text.isDigit b = true) :
    Spells .number (b :: rest.take (numberRun rest)) := by
  have digits : ∀ d ∈ b :: rest.takeWhile Text.isDigit, Text.isDigit d = true := by
    intro d member
    cases member with
    | head => exact digit
    | tail _ member => exact all_of_mem_takeWhile member
  unfold numberRun
  dsimp only
  split
  · rename_i fraction found
    split
    · rename_i places
      have parts : rest = rest.takeWhile Text.isDigit ++ 0x2e :: fraction := by
        rw [← found, ← take_run, List.take_append_drop]
      have cut : rest.take (run Text.isDigit rest + 1 + run Text.isDigit fraction) =
          rest.takeWhile Text.isDigit ++ 0x2e :: fraction.takeWhile Text.isDigit := by
        rw [Nat.add_assoc, List.take_add, take_run, found, Nat.add_comm 1, List.take_succ_cons,
          take_run]
      rw [cut]
      refine .fraction (List.cons_ne_nil _ _) digits ?_ fun d => all_of_mem_takeWhile
      exact List.ne_nil_of_length_pos places
    · rw [take_run]
      exact .whole (List.cons_ne_nil _ _) digits
  · rw [take_run]
    exact .whole (List.cons_ne_nil _ _) digits

/-- A text is spelled at the front of `source`, and no longer one is. -/
def Longest (source : Text) (l : Lexeme) : Prop :=
  Spells l.shape l.text ∧ l.text <+: source ∧
    ∀ shape v, Spells shape v → v <+: source → v.length ≤ l.text.length

theorem Spells.begins_of_prefix (spelled : Spells shape v) (start : v <+: b :: rest) :
    Begins b shape ∧ ∃ more, v = b :: more ∧ more <+: rest := by
  obtain ⟨first, more, rfl, begins⟩ := spelled.begins
  obtain ⟨rfl, inside⟩ := List.cons_prefix_cons.mp start
  exact ⟨begins, more, rfl, inside⟩

theorem longest_blank (white : isBlank b = true) : Longest (b :: rest) ⟨.blank, [b]⟩ := by
  refine ⟨.blank (isBlank_iff.mp white), by simp, fun shape v spelled start => ?_⟩
  obtain ⟨begins, -⟩ := spelled.begins_of_prefix start
  cases begins_blank white begins
  cases spelled
  exact Nat.le_refl 1

theorem longest_word (letter : beginsWord b = true) :
    Longest (b :: rest) ⟨.word, b :: rest.take (run continuesWord rest)⟩ := by
  refine ⟨.word letter fun c member => ?_, by simp [List.take_prefix],
    fun shape v spelled start => ?_⟩
  · rw [take_run] at member
    exact all_of_mem_takeWhile member
  · obtain ⟨begins, more, rfl, inside⟩ := spelled.begins_of_prefix start
    cases begins_word letter begins
    cases spelled with
    | word _ others =>
      have bound := length_le_run others inside
      have within := run_le_length continuesWord rest
      simp only [List.length_cons, List.length_take]
      omega

theorem longest_comment :
    Longest (0x2f :: 0x2f :: rest)
      ⟨.comment, 0x2f :: 0x2f :: rest.take (run (· != Text.lineFeed) rest)⟩ := by
  refine ⟨.comment fun member => ?_, by simp [List.take_prefix], fun shape v spelled start => ?_⟩
  · rw [take_run] at member
    simpa using all_of_mem_takeWhile member
  · obtain ⟨begins, more, rfl, inside⟩ := spelled.begins_of_prefix start
    obtain ⟨rfl, -⟩ | ⟨kind, rfl⟩ := begins_mark (by decide) begins
    · cases spelled with
      | @comment body oneLine =>
        have start := (List.cons_prefix_cons.mp inside).2
        have plain : ∀ c ∈ body, (c != Text.lineFeed) = true :=
          fun c member => bne_iff_ne.mpr fun same => oneLine (same ▸ member)
        have bound := length_le_run plain start
        have within := run_le_length (· != Text.lineFeed) rest
        simp only [List.length_cons, List.length_take]
        omega
    · cases spelled with
      | operator listed =>
        obtain ⟨c, single, marked, ⟨same, -⟩ | ⟨same, doubled⟩⟩ := operators_cases listed
        · simp [same]
        · cases same
          simp at inside

/-- A string that is closed is closed by the first quotation mark. -/
theorem string_content {content : Text} (closed : 0x22 ∉ content)
    (start : content ++ [0x22] <+: rest) : content.length = run (· != 0x22) rest := by
  refine length_eq_run (fun c member => bne_iff_ne.mpr ?_) (by decide) start
  exact fun same => closed (same ▸ member)

theorem longest_string (closed : run (· != 0x22) rest < rest.length) :
    Longest (0x22 :: rest) ⟨.string, 0x22 :: rest.take (run (· != 0x22) rest + 1)⟩ := by
  refine ⟨?_, by simp [List.take_prefix], fun shape v spelled start => ?_⟩
  · obtain ⟨stop, tail, after, isQuote⟩ := run_stops closed
    obtain rfl : stop = 0x22 := by simpa using isQuote
    rw [List.take_add, take_run, after]
    exact .string fun member => by simpa using all_of_mem_takeWhile member
  · obtain ⟨begins, more, rfl, inside⟩ := spelled.begins_of_prefix start
    cases begins_quote begins
    cases spelled with
    | string unquoted =>
      have same := string_content unquoted inside
      simp only [List.length_cons, List.length_append, List.length_take, List.length_nil]
      omega

theorem longest_number (digit : Text.isDigit b = true) :
    Longest (b :: rest) ⟨.number, b :: rest.take (numberRun rest)⟩ := by
  refine ⟨spells_number digit, by simp [List.take_prefix], fun shape v spelled start => ?_⟩
  obtain ⟨begins, more, rfl, inside⟩ := spelled.begins_of_prefix start
  cases begins_digit digit begins
  have bound : more.length ≤ numberRun rest := by
    generalize whole : b :: more = v at spelled
    cases spelled with
    | whole some all =>
      subst whole
      exact Nat.le_trans (length_le_run (fun d member => all d (.tail _ member)) inside)
        (run_le_numberRun rest)
    | @fraction digits places some all somePlaces allPlaces =>
      obtain ⟨d, others, rfl⟩ := List.exists_cons_of_ne_nil some
      rw [List.cons_append, List.cons.injEq] at whole
      obtain ⟨rfl, rfl⟩ := whole
      obtain ⟨tail, rfl⟩ := inside
      have ran := length_le_run allPlaces (List.prefix_append places tail)
      have positive := List.length_pos_iff.mpr somePlaces
      rw [List.append_assoc, List.cons_append,
        numberRun_fraction (fun d member => all d (.tail _ member)) (by omega)]
      simp only [List.length_append, List.length_cons]
      omega
  have within := inside.length_le
  simp only [List.length_cons, List.length_take]
  omega

/-- An operator at the front of a text is no longer than what the marks there allow. -/
theorem longest_mark {kind : Kind} (marked : mark? b = some kind)
    (noComment : b = 0x2f → rest.head? ≠ some 0x2f)
    (single : withEqual? kind ≠ none → rest.head? ≠ some 0x3d) :
    Longest (b :: rest) ⟨.operator kind, [b]⟩ := by
  refine ⟨.operator (mark?_cases marked), by simp, fun shape v spelled start => ?_⟩
  obtain ⟨begins, more, rfl, inside⟩ := spelled.begins_of_prefix start
  obtain ⟨rfl, rfl⟩ | ⟨other, rfl⟩ := begins_mark (by simp [marked]) begins
  · cases spelled with
    | comment oneLine =>
      obtain ⟨tail, rfl⟩ := inside
      exact absurd rfl (noComment rfl)
  · cases spelled with
    | operator listed =>
      obtain ⟨c, first, marked', ⟨same, -⟩ | ⟨same, doubled⟩⟩ := operators_cases listed
      · simp [same]
      · cases same
        obtain ⟨tail, rfl⟩ := inside
        obtain rfl : first = kind := Option.some.inj (marked'.symm.trans marked)
        exact absurd rfl (single (by simp [doubled]))

theorem longest_double {kind double : Kind} (marked : mark? b = some kind)
    (doubled : withEqual? kind = some double) :
    Longest (b :: 0x3d :: rest) ⟨.operator double, [b, 0x3d]⟩ := by
  refine ⟨.operator (withEqual?_cases marked doubled), by simp, fun shape v spelled start => ?_⟩
  obtain ⟨begins, more, rfl, inside⟩ := spelled.begins_of_prefix start
  obtain ⟨rfl, rfl⟩ | ⟨other, rfl⟩ := begins_mark (by simp [marked]) begins
  · cases spelled with
    | comment oneLine => simp at inside
  · cases spelled with
    | operator listed =>
      obtain ⟨c, first, marked', ⟨same, -⟩ | ⟨same, -⟩⟩ := operators_cases listed
      · simp [same]
      · simp [same]

theorem operator_kind_unique :
    ∀ first ∈ Kind.operators, ∀ second ∈ Kind.operators,
      first.2 = second.2 → first.1 = second.1 := by
  decide +kernel

theorem not_operator_of_comment (spelled : Spells .comment v) (kind : Kind) :
    ¬ Spells (.operator kind) v := by
  cases spelled with
  | comment oneLine =>
    intro again
    cases again with
    | operator listed =>
      obtain ⟨c, single, marked, ⟨same, -⟩ | ⟨same, -⟩⟩ := operators_cases listed
      · simp at same
      · simp at same

/-- No text has two shapes. -/
theorem Spells.shape_unique {other : Shape} (spelled : Spells shape v) (again : Spells other v) :
    shape = other := by
  obtain ⟨b, more, whole, begins⟩ := spelled.begins
  have start : v <+: b :: more := ⟨[], by rw [whole, List.append_nil]⟩
  have begins' := (again.begins_of_prefix start).1
  cases shape with
  | blank => exact (begins_blank begins begins').symm
  | string => exact (begins_quote (begins ▸ begins')).symm
  | number => exact (begins_digit begins begins').symm
  | word => exact (begins_word begins begins').symm
  | comment =>
    obtain ⟨rfl, -⟩ | ⟨kind, rfl⟩ := begins_mark (begins ▸ by decide) begins'
    · rfl
    · exact absurd again (not_operator_of_comment spelled kind)
  | operator kind =>
    obtain ⟨rfl, -⟩ | ⟨other, rfl⟩ := begins_mark begins begins'
    · exact absurd spelled (not_operator_of_comment again kind)
    · cases spelled with
      | operator listed =>
        cases again with
        | operator listed' =>
          exact congrArg Shape.operator (operator_kind_unique _ listed _ listed' rfl)
  | unclosed => exact begins.elim
  | stray => exact begins.elim

/-- No spelled text stands at the front of `source`. -/
def Unspelled (source : Text) : Prop := ∀ shape v, Spells shape v → ¬ v <+: source

/-- The lexeme at the front of a text: the longest match where there is one, else an error. -/
inductive Next (source : Text) : Lexeme → Prop
  | longest {l : Lexeme} (h : Longest source l) : Next source l
  | unclosed (nothing : Unspelled source) (quote : source.head? = some 0x22)
      (open_ : 0x22 ∉ source.tail) : Next source ⟨.unclosed, source⟩
  | character {code : Nat} (nothing : Unspelled source) (noQuote : source.head? ≠ some 0x22)
      (scalar : Utf8.isScalar code = true) (start : Utf8.encode code <+: source) :
      Next source ⟨.stray, Utf8.encode code⟩
  | byte (present : source ≠ []) (nothing : Unspelled source) (noQuote : source.head? ≠ some 0x22)
      (invalid : ∀ code, Utf8.isScalar code = true → ¬ Utf8.encode code <+: source) :
      Next source ⟨.stray, source.take 1⟩

/-- A text cut into lexemes without gap or overlap. -/
inductive Cut : Text → List Lexeme → Prop
  | nil : Cut [] []
  | cons {l : Lexeme} {rest : Text} {others : List Lexeme} (first : Next (l.text ++ rest) l)
      (tail : Cut rest others) : Cut (l.text ++ rest) (l :: others)

theorem unspelled_of_unclosed (open_ : 0x22 ∉ rest) : Unspelled (0x22 :: rest) := by
  intro shape v spelled start
  obtain ⟨begins, more, rfl, inside⟩ := spelled.begins_of_prefix start
  cases begins_quote begins
  cases spelled with
  | string closed => exact open_ (inside.subset (by simp))

theorem unspelled_of_not_begins (nothing : ∀ shape, ¬ Begins b shape) : Unspelled (b :: rest) :=
  fun shape _ spelled start => nothing shape (spelled.begins_of_prefix start).1

theorem not_mem_of_unclosed (open_ : ¬ run (· != 0x22) rest < rest.length) : 0x22 ∉ rest := by
  intro member
  have whole : rest.takeWhile (· != 0x22) = rest :=
    (List.takeWhile_prefix _).eq_of_length_le (Nat.le_of_not_lt open_)
  rw [← whole] at member
  simpa using all_of_mem_takeWhile member

/-- A byte that begins nothing is cut off with the character it begins. -/
theorem next_stray (nothing : ∀ shape, ¬ Begins b shape) :
    Next (b :: rest) ⟨.stray, b :: rest.take (Utf8.width (b :: rest) - 1)⟩ := by
  have noQuote : b ≠ 0x22 := nothing .string
  cases found : Utf8.decode (b :: rest) with
  | none =>
    have single : Utf8.width (b :: rest) = 1 := by simp [Utf8.width, found]
    rw [single]
    exact .byte (List.cons_ne_nil _ _) (unspelled_of_not_begins nothing) (by simpa using noQuote)
      (Utf8.decode_eq_none.mp found)
  | some pair =>
    obtain ⟨code, n⟩ := pair
    obtain ⟨scalar, rfl, tail, whole⟩ := Utf8.decode_eq_some found
    have width : Utf8.width (b :: rest) = (Utf8.encode code).length := by
      simp [Utf8.width, found]
    have cut : b :: rest.take (Utf8.width (b :: rest) - 1) = Utf8.encode code := by
      have positive : 0 < (Utf8.encode code).length := by
        unfold Utf8.encode
        dsimp only
        split <;> (try split) <;> (try split) <;> simp
      rw [width, ← List.take_cons positive, ← whole, List.take_left]
    rw [cut]
    exact .character (unspelled_of_not_begins nothing) (by simpa using noQuote) scalar
      ⟨tail, whole⟩

/-- What `measure` cuts off is the lexeme at the front. -/
theorem next_measure (b : UInt8) (rest : Text) :
    Next (b :: rest) ⟨(measure b rest).1, b :: rest.take (measure b rest).2⟩ := by
  by_cases white : isBlank b = true
  · rw [measure_blank white]
    exact .longest (longest_blank white)
  by_cases quote : b = 0x22
  · subst quote
    by_cases closed : run (· != 0x22) rest < rest.length
    · rw [measure_string closed]
      exact .longest (longest_string closed)
    · rw [measure_unclosed closed, List.take_length]
      exact .unclosed (unspelled_of_unclosed (not_mem_of_unclosed closed)) rfl
        (not_mem_of_unclosed closed)
  by_cases digit : Text.isDigit b = true
  · rw [measure_number digit]
    exact .longest (longest_number digit)
  by_cases letter : beginsWord b = true
  · rw [measure_word letter]
    exact .longest (longest_word letter)
  cases marked : mark? b with
  | none =>
    have nothing : ∀ shape, ¬ Begins b shape := by
      intro shape begins
      cases shape with
      | comment =>
        cases begins
        cases marked
      | _ => simp_all [Begins]
    rw [measure_stray nothing]
    exact next_stray nothing
  | some kind =>
    by_cases comment : b = 0x2f ∧ rest.head? = some 0x2f
    · obtain ⟨rfl, next⟩ := comment
      obtain ⟨tail, rfl⟩ := List.head?_eq_some_iff.mp next
      rw [measure_comment]
      exact .longest longest_comment
    have noComment : b = 0x2f → rest.head? ≠ some 0x2f := fun slash next => comment ⟨slash, next⟩
    by_cases double : withEqual? kind ≠ none ∧ rest.head? = some 0x3d
    · obtain ⟨some, next⟩ := double
      obtain ⟨double, doubled⟩ := Option.ne_none_iff_exists'.mp some
      obtain ⟨tail, rfl⟩ := List.head?_eq_some_iff.mp next
      rw [measure_double marked doubled]
      exact .longest (longest_double marked doubled)
    have single : withEqual? kind ≠ none → rest.head? ≠ some 0x3d :=
      fun some next => double ⟨some, next⟩
    rw [measure_mark marked noComment single]
    exact .longest (longest_mark marked noComment single)

/-- Two longest matches at the front of a text are the same. -/
theorem Longest.unique {source : Text} {l l' : Lexeme} (h : Longest source l)
    (h' : Longest source l') : l = l' := by
  obtain ⟨spelled, start, longest⟩ := h
  obtain ⟨spelled', start', longest'⟩ := h'
  have same : l.text = l'.text :=
    (List.prefix_of_prefix_length_le start start' (longest' _ _ spelled start)).eq_of_length_le
      (longest _ _ spelled' start')
  rw [← same] at spelled'
  obtain ⟨shape, v⟩ := l
  obtain ⟨shape', v'⟩ := l'
  cases same
  exact congrArg (Lexeme.mk · v) (spelled.shape_unique spelled')

/-- A text has one lexeme at its front. -/
theorem Next.unique {source : Text} {l l' : Lexeme} (h : Next source l) (h' : Next source l') :
    l = l' := by
  cases h with
  | longest match_ =>
    cases h' with
    | longest match' => exact match_.unique match'
    | unclosed nothing _ _ => exact absurd match_.2.1 (nothing _ _ match_.1)
    | character nothing _ _ _ => exact absurd match_.2.1 (nothing _ _ match_.1)
    | byte _ nothing _ _ => exact absurd match_.2.1 (nothing _ _ match_.1)
  | unclosed nothing quote _ =>
    cases h' with
    | longest match' => exact absurd match'.2.1 (nothing _ _ match'.1)
    | unclosed _ _ _ => rfl
    | character _ noQuote _ _ => exact absurd quote noQuote
    | byte _ _ noQuote _ => exact absurd quote noQuote
  | character nothing noQuote scalar start =>
    cases h' with
    | longest match' => exact absurd match'.2.1 (nothing _ _ match'.1)
    | unclosed _ quote _ => exact absurd quote noQuote
    | character _ _ scalar' start' => rw [Utf8.encode_unique scalar start scalar' start']
    | byte _ _ _ invalid => exact absurd start (invalid _ scalar)
  | byte present nothing noQuote invalid =>
    cases h' with
    | longest match' => exact absurd match'.2.1 (nothing _ _ match'.1)
    | unclosed _ quote _ => exact absurd quote noQuote
    | character _ _ scalar start => exact absurd start (invalid _ scalar)
    | byte _ _ _ _ => rfl

theorem split_cons (b : UInt8) (rest : Text) :
    split (b :: rest) = ⟨(measure b rest).1, b :: rest.take (measure b rest).2⟩ ::
      split (rest.drop (measure b rest).2) := by
  rw [split]

theorem cut_split (source : Text) : Cut source (split source) := by
  fun_induction split with
  | case1 => exact .nil
  | case2 b rest shape more measured ih =>
    have first := next_measure b rest
    rw [measured] at first
    have parts : b :: rest = (b :: rest.take more) ++ rest.drop more := by
      rw [List.cons_append, List.take_append_drop]
    rw [parts] at first ⊢
    exact Cut.cons (l := ⟨shape, b :: rest.take more⟩) first ih

theorem not_next_nil {l : Lexeme} : ¬ Next [] l := by
  intro h
  cases h with
  | longest match_ =>
    obtain ⟨b, more, whole, -⟩ := match_.1.begins
    simpa [whole] using match_.2.1
  | unclosed _ quote _ => cases quote
  | character _ _ scalar start =>
    have found := Utf8.decode_encode scalar []
    rw [List.prefix_nil.mp start] at found
    cases found
  | byte present _ _ _ => exact present rfl

/-- There is one way to cut a text. -/
theorem cut_iff {source : Text} {ls : List Lexeme} : Cut source ls ↔ ls = split source := by
  refine ⟨fun h => ?_, fun same => same ▸ cut_split source⟩
  induction h with
  | nil => simp [split]
  | @cons l rest others first _ ih =>
    cases whole : l.text ++ rest with
    | nil =>
      rw [whole] at first
      exact absurd first not_next_nil
    | cons b tail =>
      rw [whole] at first
      obtain rfl := first.unique (next_measure b tail)
      have after : rest = tail.drop (measure b tail).2 := by
        have inner : tail.take (measure b tail).2 ++ rest = tail := by simpa using whole
        exact List.append_cancel_left (inner.trans (List.take_append_drop _ tail).symm)
      rw [split_cons, ih, after]

theorem numberRun_le_length (rest : Text) : numberRun rest ≤ rest.length := by
  have whole := run_le_length Text.isDigit rest
  unfold numberRun
  dsimp only
  split
  · rename_i fraction found
    have places := run_le_length Text.isDigit fraction
    have lengths := congrArg List.length found
    rw [List.length_drop, List.length_cons] at lengths
    split <;> omega
  · exact whole

/-- No lexeme reaches past the end of the text. -/
theorem measure_le_length (b : UInt8) (rest : Text) : (measure b rest).2 ≤ rest.length := by
  unfold measure
  split
  · exact Nat.zero_le _
  split
  · exact run_le_length _ _
  split
  · dsimp only
    split
    · assumption
    · exact Nat.le_refl _
  split
  · exact numberRun_le_length rest
  split
  · exact run_le_length _ _
  split
  · split
    · rename_i next
      obtain ⟨tail, rfl⟩ := List.head?_eq_some_iff.mp next
      simp
    · exact Nat.zero_le _
  · have bound := Utf8.width_le_length b rest
    rw [List.length_cons] at bound
    dsimp only
    omega

end Bhasha.Lexeme
