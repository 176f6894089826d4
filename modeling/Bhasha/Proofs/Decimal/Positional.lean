import Bhasha.Decimal.Layout
import Bhasha.Proofs.Decimal.Shortest
import Bhasha.Proofs.Token.Meaning

/-!
# The positional form is read back

The positional form of a number is digits, or digits with a point between them, and it is read as
the number it was written for.  This holds for every number that a source can contain: the finite
numbers from zero on, and infinity.
-/

namespace Bhasha

open Lexeme

namespace Decimal

theorem digitsValue_from (start : Nat) (digits : Text) :
    digits.foldl (fun n d => 10 * n + (d.toNat - 0x30)) start =
      start * 10 ^ digits.length + Text.digitsValue digits := by
  induction digits generalizing start with
  | nil => simp [Text.digitsValue]
  | cons d rest ih =>
    unfold Text.digitsValue
    rw [List.foldl_cons, ih, List.foldl_cons, ih, List.length_cons, pow_succ]
    ring

theorem digitsValue_append (left right : Text) :
    Text.digitsValue (left ++ right) =
      Text.digitsValue left * 10 ^ right.length + Text.digitsValue right := by
  rw [Text.digitsValue, List.foldl_append, digitsValue_from]
  rfl

theorem digitsValue_zeros (n : Nat) : Text.digitsValue (zeros n) = 0 := by
  induction n with
  | zero => rfl
  | succ n ih =>
    have split : zeros (n + 1) = zeros n ++ [0x30] := List.replicate_succ'
    rw [split, digitsValue_append, ih]
    rfl

theorem isDigit_of_mem_zeros {n : Nat} {d : UInt8} (member : d ∈ zeros n) :
    Text.isDigit d = true := by
  rw [(List.mem_replicate.mp member).2]
  decide

theorem toNat_digit {c : Char} (digit : c.isDigit = true) :
    0x30 ≤ c.toNat ∧ c.toNat ≤ 0x39 ∧ c.toNat.toUInt8.toNat = c.toNat := by
  simp only [Char.isDigit, Bool.and_eq_true, decide_eq_true_eq, UInt32.le_iff_toNat_le] at digit
  have low : 0x30 ≤ c.toNat := digit.1
  have high : c.toNat ≤ 0x39 := digit.2
  exact ⟨low, high, Utf8.toNat_toUInt8 (by omega)⟩

theorem isDigit_of_mem_ofNat {n : Nat} {d : UInt8} (member : d ∈ Text.ofNat n) :
    Text.isDigit d = true := by
  obtain ⟨c, inside, rfl⟩ := List.mem_map.mp member
  obtain ⟨low, high, same⟩ :=
    toNat_digit (Nat.isDigit_of_mem_toDigits (by norm_num) (by norm_num) inside)
  simp [Text.isDigit, UInt8.le_iff_toNat_le, same, low, high]

theorem digitsValue_map {cs : List Char} (digits : ∀ c ∈ cs, c.isDigit = true) (start : Nat) :
    (cs.map fun c => c.toNat.toUInt8).foldl (fun n d => 10 * n + (d.toNat - 0x30)) start =
      Nat.ofDigitChars 10 cs start := by
  induction cs generalizing start with
  | nil => rfl
  | cons c rest ih =>
    rw [List.map_cons, List.foldl_cons, ih fun c member => digits c (.tail _ member),
      Nat.ofDigitChars_cons, (toNat_digit (digits c (.head _))).2.2]
    rfl

/-- The digits of a number have its value. -/
theorem digitsValue_ofNat (n : Nat) : Text.digitsValue (Text.ofNat n) = n := by
  have digits : ∀ c ∈ Nat.toDigits 10 n, c.isDigit = true :=
    fun c => Nat.isDigit_of_mem_toDigits (by norm_num) (by norm_num)
  exact (digitsValue_map digits 0).trans Nat.ofDigitChars_ten_toDigits

/-- Digits without their trailing zeros. -/
def stripped (digits : Text) : Text := (digits.reverse.dropWhile (· = 0x30)).reverse

theorem stripped_zeros (digits : Text) : ∃ n, digits = stripped digits ++ zeros n := by
  refine ⟨(digits.reverse.takeWhile (· = 0x30)).length, ?_⟩
  have same : digits.reverse.takeWhile (· = 0x30) =
      zeros (digits.reverse.takeWhile (· = 0x30)).length := by
    refine List.eq_replicate_iff.mpr ⟨rfl, fun d member => ?_⟩
    simpa using all_of_mem_takeWhile member
  have parts := congrArg List.reverse
    (List.takeWhile_append_dropWhile (p := (· = 0x30)) (l := digits.reverse))
  rw [List.reverse_append, List.reverse_reverse, same, zeros, List.reverse_replicate] at parts
  exact parts.symm

/-- The value of digits with a point among, before or behind them. -/
def Places.value (p : Places) : ℚ :=
  Text.digitsValue p.digits * (10 : ℚ) ^ (p.point - p.digits.length)

/-- Digits that can be written out. -/
structure Places.Proper (p : Places) : Prop where
  digits : ∀ d ∈ p.digits, Text.isDigit d = true
  some : p.digits ≠ []

theorem Places.value_ofNumeral (n : Numeral) : (Places.ofNumeral n).value = n.value := by
  obtain ⟨k, parts⟩ := stripped_zeros (Text.ofNat n.digits)
  have total : n.digits = Text.digitsValue (stripped (Text.ofNat n.digits)) * 10 ^ k := by
    conv => lhs; rw [← digitsValue_ofNat n.digits, parts]
    rw [digitsValue_append, digitsValue_zeros, zeros, List.length_replicate, Nat.add_zero]
  have length : ((Text.ofNat n.digits).length : ℤ) =
      (stripped (Text.ofNat n.digits)).length + k := by
    conv => lhs; rw [parts]
    simp [zeros]
  rw [Numeral.value, total, Places.value]
  change (Text.digitsValue (stripped (Text.ofNat n.digits)) : ℚ) *
    10 ^ (((Text.ofNat n.digits).length : ℤ) + n.power -
      (stripped (Text.ofNat n.digits)).length) = _
  rw [length, show ((stripped (Text.ofNat n.digits)).length : ℤ) + k + n.power -
    (stripped (Text.ofNat n.digits)).length = k + n.power by ring,
    zpow_add₀ (by norm_num), zpow_natCast]
  push_cast
  ring

theorem Places.proper_ofNumeral {n : Numeral} (positive : 0 < n.digits) :
    (Places.ofNumeral n).Proper := by
  obtain ⟨k, parts⟩ := stripped_zeros (Text.ofNat n.digits)
  refine ⟨fun d member => isDigit_of_mem_ofNat (n := n.digits) ?_, fun empty => ?_⟩
  · rw [parts]
    exact List.mem_append_left _ member
  · change stripped (Text.ofNat n.digits) = [] at empty
    have value := digitsValue_ofNat n.digits
    rw [parts, empty, List.nil_append, digitsValue_zeros] at value
    omega

/-- What reading a text as a number comes to: it is spelled as a number, and its value is that of a
ratio. -/
def ReadsRatio (s : Text) (q : ℚ) : Prop :=
  Spells .number s ∧ ∃ n d, 0 < d ∧ numberValue s = ofRatio n d ∧ (n : ℚ) / d = q

theorem readsRatio_whole {digits : Text} (some : digits ≠ [])
    (all : ∀ d ∈ digits, Text.isDigit d = true) :
    ReadsRatio digits (Text.digitsValue digits) := by
  refine ⟨.whole some all, Text.digitsValue digits, 1, Nat.one_pos, ?_, by simp⟩
  rw [numberValue_whole all, Decimal.read, List.append_nil]
  rfl

theorem readsRatio_fraction {digits places : Text} (some : digits ≠ [])
    (all : ∀ d ∈ digits, Text.isDigit d = true) (somePlaces : places ≠ [])
    (allPlaces : ∀ d ∈ places, Text.isDigit d = true) :
    ReadsRatio (digits ++ 0x2e :: places)
      (Text.digitsValue (digits ++ places) * (10 : ℚ) ^ (-(places.length : ℤ))) := by
  refine ⟨.fraction some all somePlaces allPlaces, Text.digitsValue (digits ++ places),
    10 ^ places.length, by positivity, numberValue_fraction all, ?_⟩
  rw [zpow_neg, zpow_natCast, div_eq_mul_inv]
  push_cast
  rfl

theorem Places.positional_small {p : Places} (proper : p.Proper) (small : p.point ≤ 0) :
    ReadsRatio (text "0." ++ zeros (-p.point).toNat ++ p.digits) p.value := by
  have places : ∀ d ∈ zeros (-p.point).toNat ++ p.digits, Text.isDigit d = true := by
    intro d member
    obtain zero | digit := List.mem_append.mp member
    · exact isDigit_of_mem_zeros zero
    · exact proper.digits d digit
  have zero : ∀ d ∈ [0x30], Text.isDigit d = true := by
    intro d member
    rw [List.mem_singleton.mp member]
    decide
  have read := readsRatio_fraction (List.cons_ne_nil _ _) zero
    (List.append_ne_nil_of_right_ne_nil _ proper.some) places
  have value : Text.digitsValue ([0x30] ++ (zeros (-p.point).toNat ++ p.digits)) =
      Text.digitsValue p.digits := by
    rw [digitsValue_append, digitsValue_append, digitsValue_zeros, show Text.digitsValue [0x30] = 0
      from rfl]
    simp
  have exponent : -((zeros (-p.point).toNat ++ p.digits).length : ℤ) =
      p.point - p.digits.length := by
    rw [List.length_append, zeros, List.length_replicate]
    omega
  rw [value, exponent] at read
  exact read

theorem Places.positional_large {p : Places} (proper : p.Proper)
    (large : (p.digits.length : ℤ) ≤ p.point) :
    ReadsRatio (p.digits ++ zeros (p.point.toNat - p.digits.length)) p.value := by
  have digits : ∀ d ∈ p.digits ++ zeros (p.point.toNat - p.digits.length),
      Text.isDigit d = true := by
    intro d member
    obtain digit | zero := List.mem_append.mp member
    · exact proper.digits d digit
    · exact isDigit_of_mem_zeros zero
  have read := readsRatio_whole (List.append_ne_nil_of_left_ne_nil proper.some _) digits
  have exponent : p.point - p.digits.length = ((p.point.toNat - p.digits.length : Nat) : ℤ) := by
    omega
  rw [digitsValue_append, digitsValue_zeros, zeros, List.length_replicate, Nat.add_zero] at read
  rw [Places.value, exponent, zpow_natCast]
  exact_mod_cast read

theorem Places.positional_middle {p : Places} (proper : p.Proper) (positive : 0 < p.point)
    (within : p.point < p.digits.length) :
    ReadsRatio (p.digits.take p.point.toNat ++ [0x2e] ++ p.digits.drop p.point.toNat) p.value := by
  have front : p.digits.take p.point.toNat ≠ [] := by
    rw [Ne, List.take_eq_nil_iff]
    rintro (zero | empty)
    · omega
    · exact proper.some empty
  have back : p.digits.drop p.point.toNat ≠ [] := by
    rw [Ne, List.drop_eq_nil_iff]
    omega
  have read := readsRatio_fraction front
    (fun d member => proper.digits d (List.mem_of_mem_take member))
    back (fun d member => proper.digits d (List.mem_of_mem_drop member))
  have exponent : -((p.digits.drop p.point.toNat).length : ℤ) = p.point - p.digits.length := by
    rw [List.length_drop]
    omega
  rw [List.take_append_drop, exponent] at read
  rw [List.append_assoc]
  exact read

/-- The positional form has the value of its places. -/
theorem Places.positional_reads {p : Places} (proper : p.Proper) :
    ReadsRatio p.positional p.value := by
  unfold Places.positional
  split
  · rename_i small
    exact positional_small proper small
  · rename_i positive
    dsimp only
    split
    · rename_i large
      exact positional_large proper (by omega)
    · rename_i within
      exact positional_middle proper (by omega) (by omega)

/-- The positional form of a positive finite magnitude is read as its bits. -/
theorem positional_ofFinite {m s : Nat} (canonical : Canonical m s) (positive : 0 < m) :
    Spells .number (Places.ofFinite m s).positional ∧
      numberValue (Places.ofFinite m s).positional = ⟨(s * 2 ^ 52 + m).toUInt64⟩ := by
  have owned := owns_shortest canonical positive
  have digits : 0 < (shortest m s).digits := by
    by_contra none
    have low := owned.1
    have atLeast : (1 : ℚ) ≤ m := by exact_mod_cast positive
    rw [Numeral.value, Nat.eq_zero_of_not_pos none, Nat.cast_zero, zero_mul] at low
    have := mul_pos (show (0 : ℚ) < m - reach m s by linarith [reach_le_half m s]) (unit_pos s)
    linarith
  have places : Places.ofFinite m s = .ofNumeral (shortest m s) := if_neg positive.ne'
  obtain ⟨spelled, n, d, denominator, read, value⟩ :=
    Places.positional_reads (Places.proper_ofNumeral digits)
  rw [Places.value_ofNumeral] at value
  rw [places]
  rw [← value] at owned
  exact ⟨spelled, read.trans (ofRatio_of_owns canonical positive denominator owned)⟩

end Decimal

namespace Binary64

open Decimal

/-- The numbers that sources contain: those from zero on, infinity included. -/
def Readable (x : Binary64) : Prop := x.bits.toNat ≤ infinityBits

theorem magnitude_of_lt {x : Binary64} (finite : x.bits.toNat < infinityBits) :
    ∃ m s, x.magnitude = .finite m s ∧ Canonical m s ∧ s * 2 ^ 52 + m = x.bits.toNat := by
  unfold infinityBits at finite
  have division := Nat.div_add_mod x.bits.toNat (2 ^ 52)
  have fraction : x.bits.toNat % 2 ^ 52 < 2 ^ 52 := Nat.mod_lt _ (by norm_num)
  have exponent : x.exponentField = x.bits.toNat / 2 ^ 52 := by
    simp only [exponentField, Nat.pow_eq]
    omega
  have small : x.bits.toNat / 2 ^ 52 < 2047 := by omega
  unfold magnitude fractionField
  simp only [exponent, Nat.pow_eq]
  rw [if_neg (by omega)]
  split
  · rename_i zero
    refine ⟨_, 0, rfl, ⟨by omega, Nat.zero_le _, .inl rfl⟩, ?_⟩
    rw [Nat.zero_mul, Nat.zero_add]
    omega
  · exact ⟨_, _, rfl, ⟨by omega, by omega, .inr (by omega)⟩, by omega⟩

theorem isNegative_of_readable {x : Binary64} (readable : x.Readable) : x.isNegative = false := by
  unfold Readable infinityBits at readable
  simp only [isNegative, Nat.pow_eq, decide_eq_false_iff_not]
  omega

/-- Ratios past the largest number are read as infinity. -/
theorem ofRatio_of_large {n d : Nat} (denominator : 0 < d) (large : 2 ^ 1024 * d ≤ n) :
    ofRatio n d = infinity := by
  have numerator : 0 < n :=
    lt_of_lt_of_le (Nat.mul_pos (Nat.pow_pos (by norm_num)) denominator) large
  have high := (floorLog2_bounds numerator denominator).2
  have low : (2 : ℚ) ^ ((1024 : Nat) : ℤ) ≤ n / d := by
    rw [zpow_natCast, le_div_iff₀ (by exact_mod_cast denominator)]
    exact_mod_cast large
  have floor := (zpow_lt_zpow_iff_right₀ (by norm_num : (1 : ℚ) < 2)).mp (low.trans_lt high)
  have scale : 2046 ≤ scaleOf n d := by
    unfold scaleOf
    omega
  rw [ofRatio, if_neg numerator.ne', if_pos scale]

theorem positional_infinity :
    Spells .number infinity.positional ∧ numberValue infinity.positional = infinity := by
  have written : infinity.positional = [0x31] ++ zeros 309 := rfl
  have digits : ∀ d ∈ [0x31] ++ zeros 309, Text.isDigit d = true := by
    intro d member
    cases member with
    | head => decide
    | tail _ zero => exact isDigit_of_mem_zeros zero
  have value : Text.digitsValue ([0x31] ++ zeros 309) = 10 ^ 309 := by
    rw [digitsValue_append, digitsValue_zeros, zeros, List.length_replicate,
      show Text.digitsValue [0x31] = 1 from rfl, Nat.one_mul, Nat.add_zero]
  rw [written, numberValue_whole digits, Decimal.read, List.append_nil, value]
  exact ⟨.whole (List.cons_ne_nil _ _) digits, ofRatio_of_large Nat.one_pos (by decide +kernel)⟩

theorem positional_zero :
    Spells .number (Places.ofFinite 0 0).positional ∧
      numberValue (Places.ofFinite 0 0).positional = zero := by
  have digits : ∀ d ∈ [0x30], Text.isDigit d = true := List.forall_mem_singleton.mpr rfl
  exact ⟨.whole (List.cons_ne_nil _ _) digits, by decide +kernel⟩

/-- A readable number is written as a number, and read back as itself. -/
theorem positional_reads {x : Binary64} (readable : x.Readable) :
    Spells .number x.positional ∧ numberValue x.positional = x := by
  rcases Nat.lt_or_eq_of_le readable with finite | infinite
  · obtain ⟨m, s, magnitude, canonical, bits⟩ := magnitude_of_lt finite
    have written : x.positional = (Places.ofFinite m s).positional := by
      simp [positional, layout, magnitude, isNegative_of_readable readable]
    have same : x = ⟨(s * 2 ^ 52 + m).toUInt64⟩ := by
      rw [bits]
      exact congrArg Binary64.mk UInt64.ofNat_toNat.symm
    rw [written]
    rcases Nat.eq_zero_or_pos m with rfl | positive
    · obtain ⟨-, -, zero | normal⟩ := canonical
      · rw [same, zero]
        exact positional_zero
      · omega
    · rw [same]
      exact positional_ofFinite canonical positive
  · have same : x = infinity := congrArg Binary64.mk (UInt64.toNat_inj.mp infinite)
    rw [same]
    exact positional_infinity

/-- Reading gives readable numbers only. -/
theorem readable_ofRatio (n d : Nat) : (ofRatio n d).Readable := by
  unfold ofRatio
  split
  · exact Nat.zero_le _
  · dsimp only
    split
    · exact Nat.le_refl _
    · unfold Readable
      have bound := Nat.min_le_right (scaleOf n d * Nat.pow 2 52 + significandAt n d (scaleOf n d))
        infinityBits
      exact (UInt64.toNat_ofNat_of_lt' (Nat.lt_of_le_of_lt bound (by decide))).trans_le bound

end Binary64

end Bhasha
