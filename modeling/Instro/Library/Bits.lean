import Mathlib.Data.Int.Bitwise
import Mathlib.Data.Nat.Bitwise
import Mathlib.Tactic.Ring

/-!
# Bit fields

Integers of any size and sign under the bitwise operators, and a field of bits cut out of one number
and inserted into another.
-/

namespace Instro.Library

/-- The mask of `width` bits from bit `lsb` on. -/
def bitMask (lsb width : Nat) : Nat := ((1 <<< width) - 1) <<< lsb

/-- The field of a number. -/
def extractBits (lsb width n : Nat) : Nat := (n &&& bitMask lsb width) >>> lsb

/-- The number with the low bits of an integer in its field. -/
def insertBits (lsb width : Nat) (n : Nat) (value : ℤ) : ℤ :=
  Int.lor (Int.land n (Int.lnot (bitMask lsb width)))
    (Int.land (value <<< lsb) (bitMask lsb width))

variable {lsb width n i : Nat} {value : ℤ}

theorem testBit_bitMask :
    (bitMask lsb width).testBit i = decide (lsb ≤ i ∧ i < lsb + width) := by
  unfold bitMask
  rw [Nat.testBit_shiftLeft, Nat.one_shiftLeft, Nat.testBit_two_pow_sub_one, ← Bool.decide_and]
  apply decide_eq_decide.mpr
  omega

theorem testBit_extractBits :
    (extractBits lsb width n).testBit i = (decide (i < width) && n.testBit (lsb + i)) := by
  unfold extractBits
  rw [Nat.testBit_shiftRight, Nat.testBit_and, testBit_bitMask, Bool.and_comm]
  congr 1
  apply decide_eq_decide.mpr
  omega

/-- The bits of an integer below `width` are those of its remainder. -/
theorem testBit_emod_two_pow :
    (value % 2 ^ width).toNat.testBit i = (decide (i < width) && value.testBit i) := by
  cases value with
  | ofNat m =>
    have hmod : ((m : ℤ) % 2 ^ width).toNat = m % 2 ^ width := by
      rw [← Nat.cast_ofNat, ← Nat.cast_pow, ← Int.natCast_mod, Int.toNat_natCast]
    show ((m : ℤ) % 2 ^ width).toNat.testBit i = _
    rw [hmod, Nat.testBit_mod_two_pow]
    rfl
  | negSucc m =>
    have hlt : m % 2 ^ width < 2 ^ width := Nat.mod_lt _ (Nat.two_pow_pos width)
    have hmod : (Int.negSucc m % 2 ^ width).toNat = 2 ^ width - (m % 2 ^ width + 1) := by
      have hcast : (Int.negSucc m : ℤ) % 2 ^ width =
          ((2 ^ width - (m % 2 ^ width + 1) : Nat) : ℤ) := by
        rw [← Nat.cast_ofNat, ← Nat.cast_pow]
        exact Int.subNatNat_of_le hlt
      rw [hcast, Int.toNat_natCast]
    rw [hmod, Nat.testBit_two_pow_sub_succ hlt, Nat.testBit_mod_two_pow]
    show _ = (decide (i < width) && !m.testBit i)
    cases decide (i < width) <;> simp

theorem testBit_shiftLeft :
    (value <<< lsb).testBit i = (decide (lsb ≤ i) && value.testBit (i - lsb)) := by
  cases value with
  | ofNat m =>
    show (m <<< lsb).testBit i = _
    rw [Nat.testBit_shiftLeft]
    rfl
  | negSucc m =>
    have hpos : 0 < 2 ^ lsb := Nat.two_pow_pos lsb
    have hshift : Int.negSucc m <<< lsb = Int.negSucc (2 ^ lsb * m + (2 ^ lsb - 1)) := by
      rw [Int.shiftLeft_eq, Int.negSucc_eq, Int.negSucc_eq]
      push_cast [Nat.one_le_two_pow]
      ring
    rw [hshift]
    show (!(2 ^ lsb * m + (2 ^ lsb - 1)).testBit i) = (decide (lsb ≤ i) && !m.testBit (i - lsb))
    rw [Nat.testBit_two_pow_mul_add m (by omega), Nat.testBit_two_pow_sub_one]
    by_cases hi : i < lsb
    · simp [hi]
    · simp [hi, Nat.not_lt.mp hi]

/-- Insertion leaves a number: its field is the low bits of the integer, and the other bits stay. -/
theorem insertBits_spec (lsb width n : Nat) (value : ℤ) :
    ∃ m : Nat, insertBits lsb width n value = m ∧
      ∀ i, m.testBit i = if lsb ≤ i ∧ i < lsb + width then
        (value % 2 ^ width).toNat.testBit (i - lsb) else n.testBit i := by
  obtain ⟨k, hk⟩ : ∃ k : Nat, Int.land (value <<< lsb) (bitMask lsb width) = k := by
    cases value <<< lsb with
    | ofNat m => exact ⟨_, rfl⟩
    | negSucc m => exact ⟨_, rfl⟩
  have hbits (i : Nat) : (k : ℤ).testBit i =
      (decide (lsb ≤ i ∧ i < lsb + width) && value.testBit (i - lsb)) := by
    rw [← hk, Int.testBit_land, testBit_shiftLeft]
    show (_ && (bitMask lsb width).testBit i) = _
    rw [testBit_bitMask]
    by_cases hi : lsb ≤ i
    · simp [hi, Bool.and_comm]
    · simp [hi]
  refine ⟨Nat.ldiff n (bitMask lsb width) ||| k, ?_, fun i => ?_⟩
  · unfold insertBits
    rw [hk]
    rfl
  · have hki : k.testBit i = _ := hbits i
    rw [Nat.testBit_or, Nat.testBit_ldiff, testBit_bitMask, hki]
    by_cases hi : lsb ≤ i ∧ i < lsb + width
    · rw [if_pos hi, testBit_emod_two_pow]
      have hlt : i - lsb < width := by omega
      simp [hi, hlt]
    · rw [if_neg hi]
      simp [hi]

/-- The field of the number is the low bits of the integer. -/
theorem extractBits_of_insertBits {m : Nat} (h : insertBits lsb width n value = m) :
    (extractBits lsb width m : ℤ) = value % 2 ^ width := by
  obtain ⟨m', hm', hbits⟩ := insertBits_spec lsb width n value
  obtain rfl : m' = m := Int.ofNat_inj.mp (hm'.symm.trans h)
  have hfield : extractBits lsb width m' = (value % 2 ^ width).toNat := by
    apply Nat.eq_of_testBit_eq
    intro i
    rw [testBit_extractBits, hbits]
    by_cases hi : i < width
    · rw [if_pos (by omega), Nat.add_sub_cancel_left]
      simp [hi]
    · simp [hi, testBit_emod_two_pow]
  rw [hfield, Int.toNat_of_nonneg (Int.emod_nonneg _ (pow_ne_zero width two_ne_zero))]

/-- A number stays within its bits if the field is. -/
theorem insertBits_lt {k m : Nat} (h : insertBits lsb width n value = m) (hn : n < 2 ^ k)
    (hfield : lsb + width ≤ k) : m < 2 ^ k := by
  obtain ⟨m', hm', hbits⟩ := insertBits_spec lsb width n value
  obtain rfl : m' = m := Int.ofNat_inj.mp (hm'.symm.trans h)
  apply Nat.lt_pow_two_of_testBit
  intro i hi
  rw [hbits, if_neg (by omega)]
  exact Nat.testBit_lt_two_pow (hn.trans_le (Nat.pow_le_pow_right (by omega) hi))

/-! ## Fields on their own -/

theorem toNat_emod_two_pow_lt (value : ℤ) (width : Nat) :
    (value % 2 ^ width).toNat < 2 ^ width := by
  have hpos : (0 : ℤ) < 2 ^ width := Int.pow_pos (by decide)
  have hlt := Int.emod_lt_of_pos value hpos
  have hcast : ((2 ^ width : Nat) : ℤ) = 2 ^ width := by
    push_cast
    rfl
  omega

/-- The low bits of an integer are its remainder. -/
theorem toNat_land_bitMask (value : ℤ) (width : Nat) :
    (Int.land value (bitMask 0 width)).toNat = (value % 2 ^ width).toNat := by
  have hbits : ∀ i, (Int.land value (bitMask 0 width)).toNat.testBit i =
      (decide (i < width) && value.testBit i) := by
    intro i
    have hmask := @testBit_bitMask 0 width i
    rw [Nat.zero_add] at hmask
    cases value with
    | ofNat m =>
      show (m &&& bitMask 0 width).testBit i = (_ && m.testBit i)
      rw [Nat.testBit_and, hmask, Bool.and_comm]
      simp
    | negSucc m =>
      show (Nat.ldiff (bitMask 0 width) m).testBit i = (_ && !m.testBit i)
      rw [Nat.testBit_ldiff, hmask]
      simp
  apply Nat.eq_of_testBit_eq
  intro i
  rw [hbits, testBit_emod_two_pow]

theorem extractBits_lt (lsb width n : Nat) : extractBits lsb width n < 2 ^ width := by
  apply Nat.lt_pow_two_of_testBit
  intro i hi
  rw [testBit_extractBits, decide_eq_false (not_lt.mpr hi), Bool.false_and]

theorem extractBits_zero_of_lt (h : n < 2 ^ width) : extractBits 0 width n = n := by
  apply Nat.eq_of_testBit_eq
  intro i
  rw [testBit_extractBits, Nat.zero_add]
  by_cases hi : i < width
  · simp [hi]
  · rw [Nat.testBit_lt_two_pow (h.trans_le (Nat.pow_le_pow_right two_pos (not_lt.mp hi)))]
    simp

/-- A field put into its place is cut out again. -/
theorem extractBits_shiftLeft (h : n < 2 ^ width) : extractBits lsb width (n <<< lsb) = n := by
  apply Nat.eq_of_testBit_eq
  intro i
  rw [testBit_extractBits, Nat.testBit_shiftLeft, Nat.add_sub_cancel_left]
  by_cases hi : i < width
  · simp [hi]
  · rw [Nat.testBit_lt_two_pow (h.trans_le (Nat.pow_le_pow_right two_pos (not_lt.mp hi)))]
    simp

/-- A field cut out and put back is the number under the mask. -/
theorem shiftLeft_extractBits (lsb width n : Nat) :
    extractBits lsb width n <<< lsb = n &&& bitMask lsb width := by
  apply Nat.eq_of_testBit_eq
  intro i
  rw [Nat.testBit_shiftLeft, testBit_extractBits, Nat.testBit_and, testBit_bitMask]
  by_cases hi : lsb ≤ i
  · have hwidth : i - lsb < width ↔ i < lsb + width := by omega
    rw [Nat.add_sub_cancel' hi]
    simp [hi, hwidth, Bool.and_comm]
  · simp [hi]

theorem shiftLeft_lt {k : Nat} (h : n < 2 ^ width) (hk : lsb + width ≤ k) : n <<< lsb < 2 ^ k := by
  rw [Nat.shiftLeft_eq]
  calc n * 2 ^ lsb < 2 ^ width * 2 ^ lsb := Nat.mul_lt_mul_of_pos_right h (Nat.two_pow_pos lsb)
    _ = 2 ^ (lsb + width) := by rw [← pow_add, Nat.add_comm]
    _ ≤ 2 ^ k := Nat.pow_le_pow_right two_pos hk

theorem and_bitMask_of_lt {k : Nat} (h : n < 2 ^ k) : n &&& bitMask 0 k = n := by
  rw [← shiftLeft_extractBits, extractBits_zero_of_lt h]
  rfl

/-- Flipping a bit leaves the bits below it and flips the bits above. -/
theorem xor_two_pow (n k : Nat) : n ^^^ 2 ^ k = 2 ^ k * (n / 2 ^ k ^^^ 1) + n % 2 ^ k := by
  have hdiv : (n ^^^ 2 ^ k) / 2 ^ k = n / 2 ^ k ^^^ 1 := by
    rw [Nat.xor_div_two_pow, Nat.div_self (Nat.two_pow_pos k)]
  have hmod : (n ^^^ 2 ^ k) % 2 ^ k = n % 2 ^ k := by
    rw [Nat.xor_mod_two_pow, Nat.mod_self, Nat.xor_zero]
  rw [← hdiv, ← hmod, Nat.div_add_mod]

end Instro.Library
