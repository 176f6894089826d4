import Bhasha.Proofs.Decimal.Nearest
import Mathlib.Algebra.Order.AbsoluteValue.Basic
import Mathlib.Data.Nat.Cast.Order.Field
import Mathlib.Tactic.GCongr

/-!
# The shortest decimal is read back

A basin holds exactly the decimals that its magnitude owns.  The search for the shortest of them
ends at seventeen digits at the latest: on that grid the nearer neighbour of the centre is never as
far away as half a unit, and next to a power of two never as far as a quarter.
-/

namespace Bhasha.Decimal

/-- The value of a numeral. -/
def Numeral.value (n : Numeral) : ℚ := n.digits * (10 : ℚ) ^ n.power

theorem ten_zpow (p : ℤ) :
    (10 : ℚ) ^ p = ((10 ^ p.toNat : Nat) : ℚ) / (10 ^ (-p).toNat : Nat) := by
  have split : p = (p.toNat : ℤ) - (-p).toNat := by omega
  conv => lhs; rw [split]
  rw [zpow_sub₀ (by norm_num), zpow_natCast, zpow_natCast]
  push_cast
  rfl

theorem Numeral.value_eq (n : Numeral) :
    n.value = ((n.digits * 10 ^ n.power.toNat : Nat) : ℚ) / (10 ^ (-n.power).toNat : Nat) := by
  rw [value, ten_zpow]
  push_cast
  ring

/-- A quarter of a unit, as the basins count. -/
theorem unit_quarter (s : Nat) :
    unit s = 4 * (((2 ^ (s - 1076) : Nat) : ℚ) / (2 ^ (1076 - s) : Nat)) := by
  have split : (s : ℤ) - 1074 = ((s - 1076 : Nat) : ℤ) - (1076 - s : Nat) + 2 := by omega
  rw [unit, split, zpow_add₀ (by norm_num), two_zpow_sub]
  push_cast
  ring

variable {m s : Nat}

theorem basin_denominator_pos (m s : Nat) : 0 < (Basin.of m s).denominator :=
  Nat.pow_pos (by norm_num)

theorem basin_centre (m s : Nat) :
    ((Basin.of m s).centre : ℚ) / (Basin.of m s).denominator = m * unit s := by
  rw [unit_quarter]
  simp only [Basin.of, Nat.pow_eq]
  push_cast
  ring

theorem basin_high (m s : Nat) :
    ((Basin.of m s).high : ℚ) / (Basin.of m s).denominator = (m + 1 / 2) * unit s := by
  rw [unit_quarter]
  simp only [Basin.of, Nat.pow_eq]
  push_cast
  ring

theorem basin_low (positive : 0 < m) :
    ((Basin.of m s).low : ℚ) / (Basin.of m s).denominator = (m - reach m s) * unit s := by
  rw [unit_quarter, reach]
  simp only [Basin.of, Nat.pow_eq, Bool.and_eq_true, decide_eq_true_eq]
  split
  · rw [Nat.cast_mul, Nat.cast_sub (by omega)]
    push_cast
    ring
  · rw [Nat.cast_mul, Nat.cast_sub (by omega)]
    push_cast
    ring

/-- A basin holds the decimals that its magnitude owns. -/
theorem holds_iff (positive : 0 < m) (n : Numeral) :
    (Basin.of m s).holds n = true ↔ Owns m s n.value := by
  have some := basin_denominator_pos m s
  have lift : 0 < 10 ^ (-n.power).toNat := by positivity
  have even : (Basin.of m s).closed = true ↔ m % 2 = 0 := by simp [Basin.of]
  unfold Owns Basin.holds
  rw [← basin_low positive, ← basin_high, n.value_eq, ratio_le_iff some lift,
    ratio_le_iff lift some, ratio_lt_iff some lift, ratio_lt_iff lift some, ← even]
  simp only [Nat.pow_eq]
  split
  · rename_i closed
    simp [closed]
  · rename_i open_
    simp [open_]
    omega

/-- The nearer neighbour of a ratio among the integers. -/
theorem nearer_integer {a b : Nat} (positive : 0 < b) :
    let twice := 2 * (a % b)
    |((if twice < b || (twice = b && a / b % 2 = 0) then a / b else a / b + 1 : Nat) : ℚ) - a / b| ≤
      1 / 2 := by
  have bQ : (0 : ℚ) < b := by exact_mod_cast positive
  have remainder := Nat.mod_lt a positive
  have parts : (a : ℚ) / b = (a / b : Nat) + (a % b : Nat) / b := by
    have division : (a : ℚ) = b * (a / b : Nat) + (a % b : Nat) := by
      exact_mod_cast (Nat.div_add_mod a b).symm
    conv => lhs; rw [division]
    field_simp
  generalize (a / b : Nat) = q at *
  generalize a % b = t at *
  rw [parts, abs_le]
  have below : (t : ℚ) / b ≤ 1 := by
    rw [div_le_one bQ]
    exact_mod_cast remainder.le
  have above : (0 : ℚ) ≤ t / b := by positivity
  split
  · rename_i near
    have : (t : ℚ) / b ≤ 1 / 2 := by
      rw [div_le_div_iff₀ bQ (by norm_num)]
      simp only [Bool.or_eq_true, Bool.and_eq_true, decide_eq_true_eq] at near
      exact_mod_cast (show t * 2 ≤ 1 * b by omega)
    constructor <;> linarith
  · rename_i far
    have : 1 / 2 ≤ (t : ℚ) / b := by
      rw [div_le_div_iff₀ (by norm_num) bQ]
      simp only [Bool.or_eq_true, Bool.and_eq_true, decide_eq_true_eq] at far
      exact_mod_cast (show 1 * b ≤ t * 2 by omega)
    push_cast
    constructor <;> linarith

theorem value_near {x : Nat} {power : ℤ} {c : ℚ} (close : |(x : ℚ) - c / 10 ^ power| ≤ 1 / 2) :
    |(⟨x, power⟩ : Numeral).value - c| ≤ 10 ^ power / 2 := by
  have ten : (0 : ℚ) < 10 ^ power := zpow_pos (by norm_num) _
  have scaled : (⟨x, power⟩ : Numeral).value - c = (x - c / 10 ^ power) * 10 ^ power := by
    rw [Numeral.value]
    field_simp
  have bound := mul_le_mul_of_nonneg_right close ten.le
  rw [scaled, abs_mul, abs_of_pos ten]
  linarith

/-- The first neighbour of the centre is at most half a step of the grid away. -/
theorem neighbours_head (b : Basin) (some : 0 < b.denominator) (power : ℤ) :
    ∃ first others, b.neighbours power = first :: others ∧
      |first.value - b.centre / b.denominator| ≤ 10 ^ power / 2 := by
  have lift : 0 < 10 ^ (-power).toNat := by positivity
  have drop : 0 < 10 ^ power.toNat := by positivity
  have ten : (0 : ℚ) < 10 ^ power := zpow_pos (by norm_num) _
  have onGrid : ((b.centre * 10 ^ (-power).toNat : Nat) : ℚ) /
      (b.denominator * 10 ^ power.toNat : Nat) =
      b.centre / b.denominator / 10 ^ power := by
    have bQ : (0 : ℚ) < b.denominator := by exact_mod_cast some
    rw [ten_zpow]
    push_cast
    field_simp
  have near := nearer_integer (a := b.centre * 10 ^ (-power).toNat) (Nat.mul_pos some drop)
  rw [onGrid] at near
  unfold Basin.neighbours
  simp only [Nat.pow_eq] at near ⊢
  generalize (b.centre * 10 ^ (-power).toNat) / (b.denominator * 10 ^ power.toNat) = q at *
  split
  · rename_i nearer
    rw [if_pos nearer] at near
    exact ⟨_, _, rfl, value_near near⟩
  · rename_i farther
    rw [if_neg farther] at near
    exact ⟨_, _, rfl, value_near near⟩

/-- A decimal closer to the centre than a ten-quadrillionth of it is owned. -/
theorem owns_of_close (canonical : Canonical m s) {x : ℚ}
    (close : |x - m * unit s| ≤ m * unit s / 10 ^ 16 / 2) : Owns m s x := by
  have u := unit_pos s
  have atMost : (m : ℚ) + 1 ≤ 2 ^ 53 := by exact_mod_cast canonical.significand
  have near : m * unit s / 10 ^ 16 / 2 < reach m s * unit s := by
    have tight : (m : ℚ) / 10 ^ 16 / 2 < reach m s := by
      unfold reach
      split
      · rename_i power
        rw [power.1]
        norm_num
      · linarith
    calc m * unit s / 10 ^ 16 / 2 = m / 10 ^ 16 / 2 * unit s := by ring
      _ < reach m s * unit s := mul_lt_mul_of_pos_right tight u
  have half : reach m s * unit s ≤ 1 / 2 * unit s :=
    mul_le_mul_of_nonneg_right (reach_le_half m s) u.le
  obtain ⟨low, high⟩ := abs_le.mp close
  have strictLow : (m - reach m s) * unit s < x := by linarith
  have strictHigh : x < (m + 1 / 2) * unit s := by linarith
  exact ⟨strictLow.le, strictHigh.le, .inr ⟨strictLow, strictHigh⟩⟩

/-- The power found lifts the ratio to one, provided some power within the fuel does. -/
theorem liftingPower_spec {n d fuel : Nat} (enough : d ≤ 10 ^ fuel * n) :
    d ≤ 10 ^ liftingPower n d fuel * n := by
  induction fuel generalizing n with
  | zero => exact enough
  | succ fuel ih =>
    unfold liftingPower
    split
    · rename_i reached
      simpa using reached
    · have lifted := @ih (10 * n) (by rw [pow_succ] at enough; linarith)
      rw [pow_succ]
      linarith

theorem ten_pow_length_le {q : Nat} (positive : 0 < q) :
    (10 : ℚ) ^ (((Nat.toDigits 10 q).length : ℤ) - 1) ≤ q := by
  have some : 0 < (Nat.toDigits 10 q).length := Nat.length_toDigits_pos
  obtain ⟨k, length⟩ : ∃ k, (Nat.toDigits 10 q).length = k + 1 :=
    ⟨(Nat.toDigits 10 q).length - 1, by omega⟩
  have bound : 10 ^ k ≤ q := by
    by_contra small
    rcases Nat.eq_zero_or_pos k with rfl | more
    · omega
    · have short := (Nat.length_toDigits_le_iff (by norm_num) more).mpr (Nat.lt_of_not_le small)
      omega
  rw [length]
  push_cast
  rw [add_sub_cancel_right, zpow_natCast]
  exact_mod_cast bound

theorem two_pow_le_ten_pow {k n : Nat} (enough : k ≤ 3 * n) : 2 ^ k ≤ 10 ^ n :=
  calc 2 ^ k ≤ 2 ^ (3 * n) := Nat.pow_le_pow_right (by norm_num) enough
    _ = (2 ^ 3) ^ n := by rw [Nat.pow_mul]
    _ ≤ 10 ^ n := Nat.pow_le_pow_left (by norm_num) n

/-- The decade of a positive magnitude is not above its value. -/
theorem ten_pow_decade_le (positive : 0 < m) :
    (10 : ℚ) ^ (Basin.of m s).decade ≤ m * unit s := by
  have some := basin_denominator_pos m s
  rw [← basin_centre]
  unfold Basin.decade
  split
  · rename_i whole
    calc _ ≤ (((Basin.of m s).centre / (Basin.of m s).denominator : Nat) : ℚ) :=
          ten_pow_length_le (Nat.div_pos whole some)
      _ ≤ _ := Nat.cast_div_le
  · have enough : (Basin.of m s).denominator ≤ 10 ^ 400 * (Basin.of m s).centre := by
      have atLeast : 0 < (Basin.of m s).centre :=
        Nat.mul_pos (Nat.mul_pos (by norm_num) positive) (Nat.pow_pos (by norm_num))
      calc (Basin.of m s).denominator = 2 ^ (1076 - s) := rfl
        _ ≤ 10 ^ 400 := two_pow_le_ten_pow (by omega)
        _ ≤ 10 ^ 400 * (Basin.of m s).centre := Nat.le_mul_of_pos_right _ atLeast
    have lifted := liftingPower_spec enough
    rw [zpow_neg, zpow_natCast, inv_eq_one_div]
    have cross := (ratio_le_iff (a := 1) (b := 10 ^ liftingPower (Basin.of m s).centre
      (Basin.of m s).denominator 400) (by positivity) some).mpr (by linarith)
    exact_mod_cast cross

/-- The search ends with a decimal of the basin if one of its grids has one first. -/
theorem search_holds (b : Basin) {fuel count last : Nat} (from_ : count ≤ last)
    (before : last < count + fuel)
    (found : ∃ first others, b.neighbours (b.decade - last + 1) = first :: others ∧
      b.holds first = true) :
    b.holds (b.search count fuel) = true := by
  induction fuel generalizing count with
  | zero => omega
  | succ fuel ih =>
    unfold Basin.search
    split
    · rename_i n here
      exact List.find?_some here
    · rename_i none
      refine ih ?_ (by omega)
      by_contra last_
      obtain rfl : count = last := by omega
      obtain ⟨first, others, grid, holds⟩ := found
      rw [grid, List.find?_cons_of_pos holds] at none
      cases none

/-- The shortest decimal of a magnitude is owned by it. -/
theorem owns_shortest (canonical : Canonical m s) (positive : 0 < m) :
    Owns m s (shortest m s).value := by
  rw [← holds_iff positive]
  refine @search_holds _ mostDigits 1 mostDigits (by decide) (by decide) ?_
  obtain ⟨first, others, grid, close⟩ := neighbours_head (Basin.of m s) (basin_denominator_pos m s)
    ((Basin.of m s).decade - mostDigits + 1)
  refine ⟨first, others, grid, (holds_iff positive first).mpr (owns_of_close canonical ?_)⟩
  rw [basin_centre] at close
  have decade := ten_pow_decade_le (s := s) positive
  have step : (10 : ℚ) ^ ((Basin.of m s).decade - mostDigits + 1) =
      10 ^ (Basin.of m s).decade / 10 ^ 16 := by
    have exponent : (Basin.of m s).decade - (mostDigits : ℤ) + 1 =
        (Basin.of m s).decade - (16 : Nat) := by
      unfold mostDigits
      push_cast
      ring
    rw [exponent, zpow_sub₀ (by norm_num), zpow_natCast]
  rw [step] at close
  refine close.trans ?_
  gcongr

end Bhasha.Decimal
