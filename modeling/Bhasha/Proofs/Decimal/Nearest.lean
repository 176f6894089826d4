import Bhasha.Decimal.Rounding
import Bhasha.Decimal.Shortest
import Mathlib.Algebra.Order.Field.Power
import Mathlib.Data.Rat.Cast.Order
import Mathlib.Tactic.FieldSimp
import Mathlib.Tactic.Linarith
import Mathlib.Tactic.NormNum
import Mathlib.Tactic.Positivity
import Mathlib.Tactic.Ring

/-!
# Reading the ratios around a number

A finite magnitude owns the ratios that lie nearer to it than to its neighbours.  Reading any ratio
that a magnitude owns gives the bits of that magnitude: the ratio fixes the scale, or the next
smaller scale where the magnitude is a power of two, and in both the significand rounds to the same
bits.
-/

namespace Bhasha.Decimal

/-- The distance between the numbers of one scale. -/
def unit (scale : Nat) : ℚ := (2 : ℚ) ^ ((scale : ℤ) - 1074)

theorem unit_pos (scale : Nat) : 0 < unit scale := zpow_pos (by norm_num) _

theorem unit_succ (scale : Nat) : unit (scale + 1) = 2 * unit scale := by
  have shift : ((scale + 1 : Nat) : ℤ) - 1074 = ((scale : ℤ) - 1074) + 1 := by
    push_cast
    ring
  rw [unit, unit, shift, zpow_add_one₀ (by norm_num)]
  ring

/-- Rounding gives the integer within one half, and the even one of two. -/
theorem roundDiv_eq {a b r : Nat} (positive : 0 < b) (low : 2 * (r * b) ≤ 2 * a + b)
    (high : 2 * a ≤ 2 * (r * b) + b)
    (tie : r % 2 = 0 ∨ 2 * (r * b) < 2 * a + b ∧ 2 * a < 2 * (r * b) + b) :
    roundDiv a b = r := by
  have division := Nat.div_add_mod a b
  have remainder := Nat.mod_lt a positive
  unfold roundDiv
  dsimp only
  generalize a / b = q at *
  generalize a % b = t at *
  have atMost : r ≤ q + 1 := by
    by_contra above
    have : (q + 2) * b ≤ r * b := Nat.mul_le_mul_right b (by omega)
    have : (q + 2) * b = b * q + 2 * b := by ring
    omega
  have atLeast : q ≤ r := by
    by_contra below
    have : (r + 1) * b ≤ q * b := Nat.mul_le_mul_right b (by omega)
    have : (r + 1) * b = r * b + b := by ring
    have : q * b = b * q := by ring
    omega
  obtain rfl | rfl : r = q ∨ r = q + 1 := by omega
  · have : r * b = b * r := by ring
    split
    · rfl
    · split <;> omega
  · have : (q + 1) * b = b * q + b := by ring
    split
    · omega
    · split <;> omega

theorem two_zpow_sub (a b : Nat) : (2 : ℚ) ^ ((a : ℤ) - b) = (2 ^ a : Nat) / (2 ^ b : Nat) := by
  rw [zpow_sub₀ (by norm_num), zpow_natCast, zpow_natCast]
  push_cast
  rfl

theorem ratio_le_iff {a b c d : Nat} (left : 0 < b) (right : 0 < d) :
    (a : ℚ) / b ≤ c / d ↔ a * d ≤ c * b := by
  rw [div_le_div_iff₀ (by exact_mod_cast left) (by exact_mod_cast right)]
  exact_mod_cast Iff.rfl

theorem ratio_lt_iff {a b c d : Nat} (left : 0 < b) (right : 0 < d) :
    (a : ℚ) / b < c / d ↔ a * d < c * b := by
  rw [div_lt_div_iff₀ (by exact_mod_cast left) (by exact_mod_cast right)]
  exact_mod_cast Iff.rfl

/-- The power of two at or below a ratio. -/
theorem floorLog2_bounds {n d : Nat} (numerator : 0 < n) (denominator : 0 < d) :
    (2 : ℚ) ^ floorLog2 n d ≤ n / d ∧ (n : ℚ) / d < 2 ^ (floorLog2 n d + 1) := by
  have lowN : 2 ^ n.log2 ≤ n := Nat.log2_self_le numerator.ne'
  have highN : n < 2 ^ (n.log2 + 1) := Nat.lt_log2_self
  have lowD : 2 ^ d.log2 ≤ d := Nat.log2_self_le denominator.ne'
  have highD : d < 2 ^ (d.log2 + 1) := Nat.lt_log2_self
  unfold floorLog2
  dsimp only [Nat.pow_eq]
  split
  · rename_i reached
    have next : ((n.log2 : ℤ) - d.log2) + 1 = ((n.log2 + 1 : Nat) : ℤ) - d.log2 := by
      push_cast
      ring
    rw [next, two_zpow_sub, two_zpow_sub]
    refine ⟨(ratio_le_iff (by positivity) denominator).mpr (by linarith), ?_⟩
    refine (ratio_lt_iff denominator (by positivity)).mpr ?_
    exact Nat.mul_lt_mul_of_lt_of_le highN lowD (by positivity)
  · rename_i short
    have here : (n.log2 : ℤ) - d.log2 - 1 = (n.log2 : ℤ) - (d.log2 + 1 : Nat) := by
      push_cast
      ring
    have next : (n.log2 : ℤ) - d.log2 - 1 + 1 = (n.log2 : ℤ) - d.log2 := by ring
    rw [next, here, two_zpow_sub, two_zpow_sub]
    refine ⟨(ratio_le_iff (by positivity) denominator).mpr ?_, ?_⟩
    · exact Nat.mul_le_mul lowN highD.le
    · refine (ratio_lt_iff denominator (by positivity)).mpr ?_
      linarith

/-- A ratio between two powers of two has the lower one for its floor. -/
theorem floorLog2_eq {n d : Nat} {e : ℤ} (numerator : 0 < n) (denominator : 0 < d)
    (low : (2 : ℚ) ^ e ≤ n / d) (high : (n : ℚ) / d < 2 ^ (e + 1)) : floorLog2 n d = e := by
  obtain ⟨low', high'⟩ := floorLog2_bounds numerator denominator
  have above := (zpow_lt_zpow_iff_right₀ (by norm_num : (1 : ℚ) < 2)).mp (low'.trans_lt high)
  have below := (zpow_lt_zpow_iff_right₀ (by norm_num : (1 : ℚ) < 2)).mp (low.trans_lt high')
  omega

/-- The significand that a ratio gets at a scale. -/
def significandAt (n d scale : Nat) : Nat :=
  if scale ≤ 1074 then roundDiv (n * Nat.pow 2 (1074 - scale)) d
  else roundDiv n (d * Nat.pow 2 (scale - 1074))

theorem ofRatio_of_scale {n d : Nat} (numerator : 0 < n) (bounded : scaleOf n d < 2046) :
    ofRatio n d = ⟨(min (scaleOf n d * Nat.pow 2 52 + significandAt n d (scaleOf n d))
      Binary64.infinityBits).toUInt64⟩ := by
  rw [ofRatio, if_neg numerator.ne', if_neg (by omega)]
  rfl

theorem unit_eq (scale : Nat) :
    unit scale = ((2 ^ (scale - 1074) : Nat) : ℚ) / (2 ^ (1074 - scale) : Nat) := by
  have split : (scale : ℤ) - 1074 = ((scale - 1074 : Nat) : ℤ) - (1074 - scale : Nat) := by omega
  rw [unit, split, two_zpow_sub]

theorem significandAt_eq_roundDiv (n d scale : Nat) :
    significandAt n d scale = roundDiv (n * 2 ^ (1074 - scale)) (d * 2 ^ (scale - 1074)) := by
  unfold significandAt
  split
  · rename_i small
    rw [Nat.sub_eq_zero_of_le small, pow_zero, Nat.mul_one, Nat.pow_eq]
  · rename_i large
    rw [Nat.sub_eq_zero_of_le (Nat.le_of_not_le large), pow_zero, Nat.mul_one, Nat.pow_eq]

/-- The significand is the integer nearest to the ratio in units of the scale. -/
theorem significandAt_eq {n d scale r : Nat} (denominator : 0 < d)
    (low : ((r : ℚ) - 1 / 2) * unit scale ≤ n / d) (high : (n : ℚ) / d ≤ (r + 1 / 2) * unit scale)
    (tie : r % 2 = 0 ∨
      ((r : ℚ) - 1 / 2) * unit scale < n / d ∧ (n : ℚ) / d < (r + 1 / 2) * unit scale) :
    significandAt n d scale = r := by
  rw [significandAt_eq_roundDiv]
  rw [unit_eq] at low high tie
  have someUp : 0 < 2 ^ (scale - 1074) := by positivity
  have someDown : 0 < 2 ^ (1074 - scale) := by positivity
  generalize 2 ^ (scale - 1074) = up at *
  generalize 2 ^ (1074 - scale) = down at *
  have upQ : (0 : ℚ) < up := by exact_mod_cast someUp
  have downQ : (0 : ℚ) < down := by exact_mod_cast someDown
  have dQ : (0 : ℚ) < d := by exact_mod_cast denominator
  have lower : ((r : ℚ) - 1 / 2) * (up / down) = (2 * r * up - up) / (2 * down) := by
    field_simp
  have upper : ((r : ℚ) + 1 / 2) * (up / down) = (2 * r * up + up) / (2 * down) := by
    field_simp
  rw [lower, div_le_div_iff₀ (by positivity) dQ] at low
  rw [upper, div_le_div_iff₀ dQ (by positivity)] at high
  rw [lower, upper, div_lt_div_iff₀ (by positivity) dQ, div_lt_div_iff₀ dQ (by positivity)] at tie
  refine roundDiv_eq (by positivity) ?_ ?_ (tie.imp id fun strict => ⟨?_, ?_⟩)
  · have : (2 * (r * (d * up)) : ℚ) ≤ 2 * (n * down) + d * up := by linarith
    exact_mod_cast this
  · have : (2 * (n * down) : ℚ) ≤ 2 * (r * (d * up)) + d * up := by linarith
    exact_mod_cast this
  · have : (2 * (r * (d * up)) : ℚ) < 2 * (n * down) + d * up := by linarith
    exact_mod_cast this
  · have : (2 * (n * down) : ℚ) < 2 * (r * (d * up)) + d * up := by linarith
    exact_mod_cast this

/-- A significand with a scale that some number has. -/
structure Canonical (m s : Nat) : Prop where
  significand : m < 2 ^ 53
  scale : s ≤ 2045
  normal : s = 0 ∨ 2 ^ 52 ≤ m

/-- How far a magnitude reaches downwards, in units of its scale: below a power of two the
neighbours stand twice as close. -/
def reach (m s : Nat) : ℚ := if m = 2 ^ 52 ∧ 0 < s then 1 / 4 else 1 / 2

/-- The ratios nearer to a magnitude than to its neighbours, with both ends when it is even. -/
def Owns (m s : Nat) (q : ℚ) : Prop :=
  (m - reach m s) * unit s ≤ q ∧ q ≤ (m + 1 / 2) * unit s ∧
    (m % 2 = 0 ∨ (m - reach m s) * unit s < q ∧ q < (m + 1 / 2) * unit s)

theorem unit_mul_pow (s k : Nat) : 2 ^ k * unit s = (2 : ℚ) ^ ((s : ℤ) - 1074 + k) := by
  rw [unit, zpow_add₀ (by norm_num), zpow_natCast, mul_comm]

/-- The scale of a ratio that lies between two powers of two. -/
theorem scaleOf_eq {n d s : Nat} (numerator : 0 < n) (denominator : 0 < d)
    (low : 2 ^ 52 * unit s ≤ (n : ℚ) / d) (high : (n : ℚ) / d < 2 ^ 53 * unit s) :
    scaleOf n d = s := by
  rw [unit_mul_pow] at low high
  have floor : floorLog2 n d = (s : ℤ) - 1074 + 52 := by
    refine floorLog2_eq numerator denominator low ?_
    convert high using 2
    push_cast
    ring
  rw [scaleOf, floor]
  omega

/-- Ratios below the smallest normal number have the smallest scale. -/
theorem scaleOf_eq_zero {n d : Nat} (numerator : 0 < n) (denominator : 0 < d)
    (high : (n : ℚ) / d < 2 ^ 53 * unit 0) : scaleOf n d = 0 := by
  have floor := (floorLog2_bounds numerator denominator).1.trans_lt high
  rw [unit_mul_pow, zpow_lt_zpow_iff_right₀ (by norm_num : (1 : ℚ) < 2)] at floor
  rw [scaleOf]
  omega

theorem reach_le_half (m s : Nat) : reach m s ≤ 1 / 2 := by
  unfold reach
  split <;> norm_num

/-- The bits of a ratio whose scale and significand are known. -/
theorem ofRatio_eq {n d scale r bits : Nat} (numerator : 0 < n) (atScale : scaleOf n d = scale)
    (rounded : significandAt n d scale = r) (total : scale * 2 ^ 52 + r = bits)
    (scaled : scale ≤ 2045) (finite : bits < Binary64.infinityBits) :
    ofRatio n d = ⟨bits.toUInt64⟩ := by
  rw [ofRatio_of_scale numerator (by omega), atScale, rounded, Nat.pow_eq, total,
    Nat.min_eq_left finite.le]

/-- Reading a ratio gives the magnitude that owns it. -/
theorem ofRatio_of_owns {n d m s : Nat} (canonical : Canonical m s) (positive : 0 < m)
    (denominator : 0 < d) (owned : Owns m s ((n : ℚ) / d)) :
    ofRatio n d = ⟨(s * 2 ^ 52 + m).toUInt64⟩ := by
  obtain ⟨low, high, tie⟩ := owned
  obtain ⟨significand, scale, normal⟩ := canonical
  have u := unit_pos s
  have atLeast : (1 : ℚ) ≤ m := by exact_mod_cast positive
  have atMost : (m : ℚ) + 1 ≤ 2 ^ 53 := by exact_mod_cast significand
  have near := reach_le_half m s
  have half : ((m : ℚ) - 1 / 2) * unit s ≤ (m - reach m s) * unit s :=
    mul_le_mul_of_nonneg_right (by linarith) u.le
  have numerator : 0 < n := by
    have : (0 : ℚ) < n / d := lt_of_lt_of_le (mul_pos (by linarith) u) low
    by_contra none
    obtain rfl : n = 0 := by omega
    simp at this
  have below : (n : ℚ) / d < 2 ^ 53 * unit s :=
    lt_of_le_of_lt high (mul_lt_mul_of_pos_right (by linarith) u)
  have finite : s * 2 ^ 52 + m < Binary64.infinityBits := by
    unfold Binary64.infinityBits
    omega
  have rounded : significandAt n d s = m :=
    significandAt_eq denominator (half.trans low) high
      (tie.imp id fun strict => ⟨lt_of_le_of_lt half strict.1, strict.2⟩)
  by_cases big : 2 ^ 52 * unit s ≤ (n : ℚ) / d
  · exact ofRatio_eq numerator (scaleOf_eq numerator denominator big below) rounded rfl scale finite
  cases s with
  | zero =>
    have low := scaleOf_eq_zero numerator denominator below
    exact ofRatio_eq numerator low rounded rfl scale finite
  | succ k =>
    have isNormal : 2 ^ 52 ≤ m := by omega
    have isPower : m = 2 ^ 52 := by
      by_contra other
      have : (2 : ℚ) ^ 52 + 1 ≤ m := by exact_mod_cast (show 2 ^ 52 + 1 ≤ m by omega)
      have : 2 ^ 52 * unit (k + 1) ≤ (m - 1 / 2) * unit (k + 1) :=
        mul_le_mul_of_nonneg_right (by linarith) u.le
      exact big (this.trans (half.trans low))
    subst isPower
    have quarter : reach (2 ^ 52) (k + 1) = 1 / 4 := if_pos ⟨rfl, by omega⟩
    have v := unit_pos k
    rw [quarter, unit_succ] at low
    rw [unit_succ] at big
    push_cast at low
    have atScale : scaleOf n d = k :=
      scaleOf_eq numerator denominator (by linarith) (by linarith)
    have carried : significandAt n d k = 2 ^ 53 :=
      significandAt_eq denominator (by push_cast; linarith) (by push_cast; linarith)
        (.inl (by norm_num))
    exact ofRatio_eq numerator atScale carried (by ring) (by omega) finite

end Bhasha.Decimal
