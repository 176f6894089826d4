import Bhasha.Text.Utf8

/-!
# Decoding is the inverse of encoding

Decoding finds a code point at the start of a text exactly when the text starts with the encoding of
that code point and the code point is one that UTF-8 can hold.  So a text starts with at most one
encoded code point, and the width of its first piece is the length of that encoding, or one where
there is none.
-/

namespace Bhasha.Utf8

theorem toNat_toUInt8 {n : Nat} (small : n < 256) : n.toUInt8.toNat = n :=
  UInt8.toNat_ofNat_of_lt' small

theorem eq_toUInt8 {b : UInt8} {n : Nat} (same : b.toNat = n) : n.toUInt8 = b := by
  rw [← same]
  exact UInt8.ofNat_toNat

theorem isScalar_iff {code : Nat} :
    isScalar code = true ↔ code < 0xd800 ∨ 0xe000 ≤ code ∧ code ≤ 0x10ffff := by
  simp [isScalar]

theorem isContinuation_iff {b : UInt8} :
    isContinuation b = true ↔ 0x80 ≤ b.toNat ∧ b.toNat ≤ 0xbf := by
  simp [isContinuation, UInt8.le_iff_toNat_le]

theorem allowsSecondOfThree_iff {first second : UInt8} :
    allowsSecondOfThree first second = true ↔
      0x80 ≤ second.toNat ∧ second.toNat ≤ 0xbf ∧
      (first.toNat = 0xe0 → 0xa0 ≤ second.toNat) ∧ (first.toNat = 0xed → second.toNat ≤ 0x9f) := by
  unfold allowsSecondOfThree isContinuation
  split
  · rename_i low
    simp [low, UInt8.le_iff_toNat_le]
    omega
  · rename_i low
    have notLow : first.toNat ≠ 0xe0 := fun same => low (UInt8.toNat_inj.mp same)
    split
    · rename_i high
      simp [high, UInt8.le_iff_toNat_le]
      omega
    · rename_i high
      have notHigh : first.toNat ≠ 0xed := fun same => high (UInt8.toNat_inj.mp same)
      simp [notLow, notHigh, UInt8.le_iff_toNat_le]

theorem allowsSecondOfFour_iff {first second : UInt8} :
    allowsSecondOfFour first second = true ↔
      0x80 ≤ second.toNat ∧ second.toNat ≤ 0xbf ∧
      (first.toNat = 0xf0 → 0x90 ≤ second.toNat) ∧ (first.toNat = 0xf4 → second.toNat ≤ 0x8f) := by
  unfold allowsSecondOfFour isContinuation
  split
  · rename_i low
    simp [low, UInt8.le_iff_toNat_le]
    omega
  · rename_i low
    have notLow : first.toNat ≠ 0xf0 := fun same => low (UInt8.toNat_inj.mp same)
    split
    · rename_i high
      simp [high, UInt8.le_iff_toNat_le]
      omega
    · rename_i high
      have notHigh : first.toNat ≠ 0xf4 := fun same => high (UInt8.toNat_inj.mp same)
      simp [notLow, notHigh, UInt8.le_iff_toNat_le]

theorem decode_one {a : UInt8} (first : a.toNat < 0x80) (rest : Text) :
    decode (a :: rest) = some (a.toNat, 1) := by
  simp [decode, UInt8.lt_iff_toNat_lt, first]

theorem decode_two {a b : UInt8} (low : 0xc2 ≤ a.toNat) (high : a.toNat ≤ 0xdf)
    (second : isContinuation b = true) (rest : Text) :
    decode (a :: b :: rest) = some (64 * (a.toNat % 32) + b.toNat % 64, 2) := by
  have notOne : ¬ a.toNat < 0x80 := by omega
  simp [decode, UInt8.lt_iff_toNat_lt, UInt8.le_iff_toNat_le, notOne, low, high, second, payload]

theorem decode_three {a b c : UInt8} (low : 0xe0 ≤ a.toNat) (high : a.toNat ≤ 0xef)
    (second : allowsSecondOfThree a b = true) (third : isContinuation c = true) (rest : Text) :
    decode (a :: b :: c :: rest) =
      some (4096 * (a.toNat % 16) + 64 * (b.toNat % 64) + c.toNat % 64, 3) := by
  have notOne : ¬ a.toNat < 0x80 := by omega
  have notTwo : ¬ a.toNat ≤ 0xdf := by omega
  simp [decode, UInt8.lt_iff_toNat_lt, UInt8.le_iff_toNat_le, notOne, notTwo, low, high, second,
    third, payload]

theorem decode_four {a b c d : UInt8} (low : 0xf0 ≤ a.toNat) (high : a.toNat ≤ 0xf4)
    (second : allowsSecondOfFour a b = true) (third : isContinuation c = true)
    (fourth : isContinuation d = true) (rest : Text) :
    decode (a :: b :: c :: d :: rest) =
      some (262144 * (a.toNat % 8) + 4096 * (b.toNat % 64) + 64 * (c.toNat % 64) + d.toNat % 64,
        4) := by
  have notOne : ¬ a.toNat < 0x80 := by omega
  have notTwo : ¬ a.toNat ≤ 0xdf := by omega
  have notThree : ¬ a.toNat ≤ 0xef := by omega
  simp [decode, UInt8.lt_iff_toNat_lt, UInt8.le_iff_toNat_le, notOne, notTwo, notThree, low, high,
    second, third, fourth, payload]

/-- The start of a text is read back from what encoding wrote. -/
theorem decode_encode {code : Nat} (scalar : isScalar code = true) (rest : Text) :
    decode (encode code ++ rest) = some (code, (encode code).length) := by
  rw [isScalar_iff] at scalar
  have last := toNat_toUInt8 (show 0x80 + code % 64 < 256 by omega)
  have third := toNat_toUInt8 (show 0x80 + code / 64 % 64 < 256 by omega)
  have second := toNat_toUInt8 (show 0x80 + code / 4096 % 64 < 256 by omega)
  unfold encode
  dsimp only
  split
  · have byte := toNat_toUInt8 (show code < 256 by omega)
    exact (decode_one (by omega) rest).trans (by rw [byte]; rfl)
  · split
    · have first := toNat_toUInt8 (show 0xc0 + code / 64 < 256 by omega)
      refine (decode_two (by omega) (by omega) (isContinuation_iff.mpr (by omega)) rest).trans ?_
      rw [first, last]
      exact congrArg some (Prod.ext (by dsimp only; omega) rfl)
    · split
      · have first := toNat_toUInt8 (show 0xe0 + code / 4096 < 256 by omega)
        refine (decode_three (by omega) (by omega) (allowsSecondOfThree_iff.mpr (by omega))
          (isContinuation_iff.mpr (by omega)) rest).trans ?_
        rw [first, third, last]
        exact congrArg some (Prod.ext (by dsimp only; omega) rfl)
      · have first := toNat_toUInt8 (show 0xf0 + code / 262144 < 256 by omega)
        refine (decode_four (by omega) (by omega) (allowsSecondOfFour_iff.mpr (by omega))
          (isContinuation_iff.mpr (by omega)) (isContinuation_iff.mpr (by omega)) rest).trans ?_
        rw [first, second, third, last]
        exact congrArg some (Prod.ext (by dsimp only; omega) rfl)

/-- The four forms of a well-formed sequence, with the code point of each. -/
theorem decode_cases {s : Text} {code n : Nat} (found : decode s = some (code, n)) :
    (∃ a rest, s = a :: rest ∧ a.toNat < 0x80 ∧ code = a.toNat ∧ n = 1) ∨
    (∃ a b rest, s = a :: b :: rest ∧ 0xc2 ≤ a.toNat ∧ a.toNat ≤ 0xdf ∧ isContinuation b = true ∧
      code = 64 * (a.toNat % 32) + b.toNat % 64 ∧ n = 2) ∨
    (∃ a b c rest, s = a :: b :: c :: rest ∧ 0xe0 ≤ a.toNat ∧ a.toNat ≤ 0xef ∧
      allowsSecondOfThree a b = true ∧ isContinuation c = true ∧
      code = 4096 * (a.toNat % 16) + 64 * (b.toNat % 64) + c.toNat % 64 ∧ n = 3) ∨
    (∃ a b c d rest, s = a :: b :: c :: d :: rest ∧ 0xf0 ≤ a.toNat ∧ a.toNat ≤ 0xf4 ∧
      allowsSecondOfFour a b = true ∧ isContinuation c = true ∧ isContinuation d = true ∧
      code = 262144 * (a.toNat % 8) + 4096 * (b.toNat % 64) + 64 * (c.toNat % 64) + d.toNat % 64 ∧
      n = 4) := by
  unfold decode at found
  simp only [UInt8.lt_iff_toNat_lt, UInt8.le_iff_toNat_le, Bool.and_eq_true, decide_eq_true_eq]
    at found
  split at found
  · cases found
  · rename_i a rest
    split at found
    · rename_i one
      cases found
      exact .inl ⟨a, rest, rfl, one, rfl, rfl⟩
    · split at found
      · rename_i two
        split at found
        · rename_i b tail
          split at found
          · rename_i second
            cases found
            exact .inr (.inl ⟨a, b, tail, rfl, two.1, two.2, second, rfl, rfl⟩)
          · cases found
        · cases found
      · split at found
        · rename_i three
          split at found
          · rename_i b c tail
            split at found
            · rename_i others
              cases found
              exact .inr (.inr (.inl ⟨a, b, c, tail, rfl, three.1, three.2, others.1, others.2, rfl,
                rfl⟩))
            · cases found
          · cases found
        · split at found
          · rename_i four
            split at found
            · rename_i b c d tail
              split at found
              · rename_i others
                cases found
                exact .inr (.inr (.inr ⟨a, b, c, d, tail, rfl, four.1, four.2, others.1.1,
                  others.1.2, others.2, rfl, rfl⟩))
              · cases found
            · cases found
          · cases found

/-- A code point is only found where its encoding stands. -/
theorem decode_eq_some {s : Text} {code n : Nat} (found : decode s = some (code, n)) :
    isScalar code = true ∧ n = (encode code).length ∧ encode code <+: s := by
  rw [isScalar_iff]
  obtain ⟨a, rest, rfl, one, same, rfl⟩ | ⟨a, b, rest, rfl, low, high, second, same, rfl⟩ |
    ⟨a, b, c, rest, rfl, low, high, second, third, same, rfl⟩ |
    ⟨a, b, c, d, rest, rfl, low, high, second, third, fourth, same, rfl⟩ := decode_cases found
  · have written : encode code = [a] := by
      simp only [encode, if_pos (show code < 0x80 by omega), eq_toUInt8 same.symm]
    rw [written]
    exact ⟨by omega, rfl, by simp⟩
  · rw [isContinuation_iff] at second
    have written : encode code = [a, b] := by
      simp only [encode, if_neg (show ¬ code < 0x80 by omega), if_pos (show code < 0x800 by omega),
        eq_toUInt8 (show a.toNat = 0xc0 + code / 64 by omega),
        eq_toUInt8 (show b.toNat = 0x80 + code % 64 by omega)]
    rw [written]
    exact ⟨by omega, rfl, by simp⟩
  · rw [allowsSecondOfThree_iff] at second
    rw [isContinuation_iff] at third
    have written : encode code = [a, b, c] := by
      simp only [encode, if_neg (show ¬ code < 0x80 by omega),
        if_neg (show ¬ code < 0x800 by omega), if_pos (show code < 0x10000 by omega),
        eq_toUInt8 (show a.toNat = 0xe0 + code / 4096 by omega),
        eq_toUInt8 (show b.toNat = 0x80 + code / 64 % 64 by omega),
        eq_toUInt8 (show c.toNat = 0x80 + code % 64 by omega)]
    rw [written]
    exact ⟨by omega, rfl, by simp⟩
  · rw [allowsSecondOfFour_iff] at second
    rw [isContinuation_iff] at third fourth
    have written : encode code = [a, b, c, d] := by
      simp only [encode, if_neg (show ¬ code < 0x80 by omega),
        if_neg (show ¬ code < 0x800 by omega), if_neg (show ¬ code < 0x10000 by omega),
        eq_toUInt8 (show a.toNat = 0xf0 + code / 262144 by omega),
        eq_toUInt8 (show b.toNat = 0x80 + code / 4096 % 64 by omega),
        eq_toUInt8 (show c.toNat = 0x80 + code / 64 % 64 by omega),
        eq_toUInt8 (show d.toNat = 0x80 + code % 64 by omega)]
    rw [written]
    exact ⟨by omega, rfl, by simp⟩

/-- Nothing is found exactly where no encoding stands. -/
theorem decode_eq_none {s : Text} :
    decode s = none ↔ ∀ code, isScalar code = true → ¬ encode code <+: s := by
  constructor
  · rintro none code scalar ⟨rest, rfl⟩
    rw [decode_encode scalar] at none
    cases none
  · intro absent
    cases found : decode s with
    | none => rfl
    | some pair =>
      obtain ⟨scalar, -, start⟩ := decode_eq_some found
      exact absurd start (absent pair.1 scalar)

/-- A text starts with the encoding of at most one code point. -/
theorem encode_unique {s : Text} {code other : Nat} (scalar : isScalar code = true)
    (start : encode code <+: s) (scalar' : isScalar other = true) (start' : encode other <+: s) :
    code = other := by
  obtain ⟨rest, rfl⟩ := start
  obtain ⟨rest', same⟩ := start'
  have found := decode_encode scalar' rest'
  rw [same, decode_encode scalar] at found
  exact (Prod.mk.inj (Option.some.inj found)).1

theorem width_le_length (b : UInt8) (rest : Text) : width (b :: rest) ≤ (b :: rest).length := by
  unfold width
  split
  · rename_i code n found
    obtain ⟨-, rfl, start⟩ := decode_eq_some found
    exact start.length_le
  · exact Nat.le_add_left 1 rest.length

end Bhasha.Utf8
