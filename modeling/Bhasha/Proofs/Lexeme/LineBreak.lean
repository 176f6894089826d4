import Bhasha.Proofs.Lexeme.LongestMatch

/-!
# A line feed ends a lexeme

The only lexemes that hold a line feed are the blank that it is, and strings.  So a line feed behind
a text changes no lexeme of the text, just as the end of the text would not, unless a string is
still open there.  A text with a line feed outside of strings falls into the lexemes of what stands
before and behind it, with a blank between them.
-/

namespace Bhasha

open Text (lineFeed)

/-- Every byte of a longer sequence has its highest bit set. -/
theorem Utf8.high_of_mem_encode {code : Nat} {b : UInt8} (scalar : isScalar code = true)
    (above : 0x80 ≤ code) (member : b ∈ encode code) : 0x80 ≤ b.toNat := by
  rw [isScalar_iff] at scalar
  unfold encode at member
  dsimp only at member
  rw [if_neg (by omega)] at member
  split at member
  · simp only [List.mem_cons, List.not_mem_nil, or_false] at member
    obtain rfl | rfl := member
    all_goals rw [toNat_toUInt8 (by omega)]; omega
  split at member
  · simp only [List.mem_cons, List.not_mem_nil, or_false] at member
    obtain rfl | rfl | rfl := member
    all_goals rw [toNat_toUInt8 (by omega)]; omega
  · simp only [List.mem_cons, List.not_mem_nil, or_false] at member
    obtain rfl | rfl | rfl | rfl := member
    all_goals rw [toNat_toUInt8 (by omega)]; omega

/-- The only character with a line feed among its bytes is the line feed. -/
theorem Utf8.encode_of_lineFeed {code : Nat} (scalar : isScalar code = true)
    (member : lineFeed ∈ encode code) : encode code = [lineFeed] := by
  by_cases low : code < 0x80
  · have single : encode code = [code.toUInt8] := by simp [encode, low]
    rw [single, List.mem_singleton] at member
    rw [single, member]
  · have high := high_of_mem_encode scalar (Nat.le_of_not_lt low) member
    exact absurd high (by decide)

namespace Lexeme

variable {source lower v : Text} {shape : Shape} {l : Lexeme}

theorem lineFeed_not_in_operators : ∀ entry ∈ Kind.operators, lineFeed ∉ entry.2 := by
  decide +kernel

/-- Of the spelled texts, the line feed itself and strings hold a line feed. -/
theorem Spells.lineFeed_cases (spelled : Spells shape v) (member : lineFeed ∈ v) :
    v = [lineFeed] ∨ shape = .string := by
  have noDigit : Text.isDigit lineFeed = false := by decide
  cases spelled with
  | blank white =>
    rw [List.mem_singleton] at member
    rw [member]
    exact .inl rfl
  | comment oneLine =>
    cases member with
    | tail _ member =>
      cases member with
      | tail _ member => exact absurd member oneLine
  | string closed => exact .inr rfl
  | whole _ all => simp [all _ member] at noDigit
  | fraction _ all _ allPlaces =>
    obtain inside | behind := List.mem_append.mp member
    · simp [all _ inside] at noDigit
    · cases behind with
      | tail _ inside => simp [allPlaces _ inside] at noDigit
  | word first others =>
    cases member with
    | head => cases first
    | tail _ inside => cases others _ inside
  | operator listed => exact absurd member (lineFeed_not_in_operators _ listed)

/-- A text that begins with a quotation mark and has no other. -/
def IsOpen (source : Text) : Prop := source.head? = some 0x22 ∧ 0x22 ∉ source.tail

theorem prefix_lineFeed_cases (start : v <+: source ++ lineFeed :: lower) :
    v <+: source ∨ source ++ [lineFeed] <+: v := by
  by_cases short : v.length ≤ source.length
  · exact .inl (List.prefix_of_prefix_length_le start (List.prefix_append _ _) short)
  · have broken : source ++ [lineFeed] <+: source ++ lineFeed :: lower := by simp
    refine .inr (List.prefix_of_prefix_length_le broken start ?_)
    simp only [List.length_append, List.length_singleton]
    omega

/-- A string that goes on behind a line feed is open before it. -/
theorem isOpen_of_string (spelled : Spells .string v) (beyond : source ++ [lineFeed] <+: v)
    (present : source ≠ []) : IsOpen source := by
  obtain ⟨b, tail, rfl⟩ := List.exists_cons_of_ne_nil present
  cases spelled with
  | @string content closed =>
    rw [List.cons_append] at beyond
    obtain ⟨rfl, inside⟩ := List.cons_prefix_cons.mp beyond
    refine ⟨rfl, fun member => ?_⟩
    -- the closing mark is no line feed, so the line feed belongs to the content
    have short : (tail ++ [lineFeed]).length ≤ content.length := by
      refine Nat.le_of_not_lt fun long => ?_
      have whole : tail ++ [lineFeed] = content ++ [0x22] := by
        refine inside.eq_of_length_le ?_
        simp only [List.length_append, List.length_singleton] at long ⊢
        omega
      exact absurd (List.append_inj' whole rfl).2 (by decide)
    have within := List.prefix_of_prefix_length_le inside (List.prefix_append _ _) short
    exact closed (within.subset (List.mem_append_left _ member))

/-- A spelled text at the front of a line ends on that line. -/
theorem Spells.prefix_of_lineFeed (spelled : Spells shape v) (present : source ≠ [])
    (closed : ¬ IsOpen source) (start : v <+: source ++ lineFeed :: lower) : v <+: source := by
  obtain inside | beyond := prefix_lineFeed_cases start
  · exact inside
  have member : lineFeed ∈ v := beyond.subset (by simp)
  obtain rfl | rfl := spelled.lineFeed_cases member
  · have lengths := beyond.length_le
    simp only [List.length_append, List.length_singleton] at lengths
    exact absurd (List.eq_nil_of_length_eq_zero (by omega)) present
  · exact absurd (isOpen_of_string spelled beyond present) closed

theorem Next.not_isOpen (next : Next source l) (closed : l.shape ≠ .unclosed) :
    ¬ IsOpen source := by
  intro opened
  obtain ⟨quote, open_⟩ := opened
  obtain ⟨tail, rfl⟩ := List.head?_eq_some_iff.mp quote
  have error := Next.unclosed (unspelled_of_unclosed open_) quote open_
  rw [next.unique error] at closed
  exact closed rfl

theorem Next.ne_nil (next : Next source l) : source ≠ [] := by
  rintro rfl
  exact not_next_nil next

/-- A line feed behind a text does not change its first lexeme. -/
theorem Next.before_lineFeed (next : Next source l) (closed : l.shape ≠ .unclosed) (lower : Text) :
    Next (source ++ lineFeed :: lower) l := by
  have noOpen := next.not_isOpen closed
  have present := next.ne_nil
  have head : (source ++ lineFeed :: lower).head? = source.head? := by
    obtain ⟨b, tail, rfl⟩ := List.exists_cons_of_ne_nil present
    rfl
  have ends : ∀ {shape v}, Spells shape v → v <+: source ++ lineFeed :: lower → v <+: source :=
    fun spelled start => spelled.prefix_of_lineFeed present noOpen start
  cases next with
  | longest match_ =>
    obtain ⟨spelled, start, most⟩ := match_
    exact .longest ⟨spelled, start.trans (List.prefix_append _ _),
      fun shape v spelled' start' => most shape v spelled' (ends spelled' start')⟩
  | unclosed _ _ _ => exact absurd rfl closed
  | character nothing noQuote scalar start =>
    exact .character (fun shape v spelled start' => nothing shape v spelled (ends spelled start'))
      (by rwa [head]) scalar (start.trans (List.prefix_append _ _))
  | byte _ nothing noQuote invalid =>
    have first : (source ++ lineFeed :: lower).take 1 = source.take 1 := by
      obtain ⟨b, tail, rfl⟩ := List.exists_cons_of_ne_nil present
      rfl
    rw [← first]
    refine .byte (by simp) (fun shape v spelled start' => nothing shape v spelled
      (ends spelled start')) (by rwa [head]) fun code scalar start' => ?_
    -- a sequence that is cut short by the end of the text is cut short by the line feed
    obtain inside | beyond := prefix_lineFeed_cases start'
    · exact invalid code scalar inside
    · have single := Utf8.encode_of_lineFeed scalar (beyond.subset (by simp))
      have lengths := beyond.length_le
      rw [single] at lengths
      simp only [List.length_append, List.length_singleton] at lengths
      exact present (List.eq_nil_of_length_eq_zero (by omega))

theorem Cut.join_lineFeed {ls : List Lexeme} (cut : Cut source ls)
    (closed : ∀ l ∈ ls, l.shape ≠ .unclosed) (lower : Text) :
    Cut (source ++ lineFeed :: lower) (ls ++ ⟨.blank, [lineFeed]⟩ :: split lower) := by
  induction cut with
  | nil =>
    exact Cut.cons (l := ⟨.blank, [lineFeed]⟩) (.longest (longest_blank (by decide)))
      (cut_split lower)
  | @cons l rest others first _ ih =>
    have next := first.before_lineFeed (closed l (.head _)) lower
    rw [List.append_assoc] at next ⊢
    exact Cut.cons next (ih fun l' member => closed l' (.tail _ member))

/-- A text falls into lexemes on both sides of a line feed apart, unless a string is open there. -/
theorem split_lineFeed {upper : Text} (closed : ∀ l ∈ split upper, l.shape ≠ .unclosed)
    (lower : Text) :
    split (upper ++ lineFeed :: lower) =
      split upper ++ ⟨.blank, [lineFeed]⟩ :: split lower :=
  (cut_iff.mp ((cut_split upper).join_lineFeed closed lower)).symm

end Lexeme

end Bhasha
