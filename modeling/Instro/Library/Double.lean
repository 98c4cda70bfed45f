import Instro.Library.FloatCodec

/-!
# Rounding to a format

The float of a format nearest to a rational. What is beyond the largest float by half a step or more
becomes infinite. For the format of 64 bits this is the rounding of Python's `float`.
-/

namespace Instro.Library

namespace FloatFormat

variable {fmt : FloatFormat}

/-- The float nearest to `q`, of two equally near ones the one with the even significand. -/
def round (fmt : FloatFormat) (q : ℚ) : PyFloat :=
  if fmt.limit ≤ |q| then .inf (q < 0) else fmt.ofBits (fmt.bits (.finite q))

theorem round_of_isFloat (hfmt : fmt.Proper) {q : ℚ} (h : fmt.IsFloat (.finite q)) :
    fmt.round q = .finite q := by
  unfold round
  rw [if_neg (not_le.mpr h.lt_limit)]
  exact ofBits_bits hfmt h

/-! ## What rounding gives is a float -/

theorem roundHalfEven_le {q : ℚ} {n : ℤ} (h : q ≤ n) : Instro.Library.roundHalfEven q ≤ n := by
  have hfloor : ⌊q⌋ ≤ n := by
    have := Int.floor_le q
    exact_mod_cast this.trans h
  by_cases hn : ⌊q⌋ = n
  · have hzero : q - ⌊q⌋ < 1 / 2 := by
      rw [hn]
      linarith
    unfold Instro.Library.roundHalfEven
    rw [if_pos hzero]
    exact hn.le
  · have hless : ⌊q⌋ + 1 ≤ n := by omega
    unfold Instro.Library.roundHalfEven
    split_ifs <;> omega

/-- Half a step below an integer nothing rounds up to it. -/
theorem roundHalfEven_lt {q : ℚ} {n : ℤ} (h : q < n - 1 / 2) : Instro.Library.roundHalfEven q < n := by
  have hfloor : (⌊q⌋ : ℚ) ≤ q := Int.floor_le q
  have hbelow : ⌊q⌋ < n := by
    have : (⌊q⌋ : ℚ) < n := by linarith
    exact_mod_cast this
  by_cases hn : ⌊q⌋ = n - 1
  · have hlow : q - ⌊q⌋ < 1 / 2 := by
      rw [hn]
      push_cast
      linarith
    unfold Instro.Library.roundHalfEven
    rw [if_pos hlow]
    exact hbelow
  · unfold Instro.Library.roundHalfEven
    split_ifs <;> omega

/-- A value below the power after its exponent has at most a significand of that power. -/
theorem roundHalfEven_scaled_le {q : ℚ} {e : ℤ} (h : q < 2 ^ (e + 1)) :
    roundHalfEven (q / 2 ^ (e - fmt.fractionBits)) ≤ (2 ^ (fmt.fractionBits + 1) : ℤ) := by
  apply roundHalfEven_le
  rw [div_le_iff₀ (zpow_pos two_pos _)]
  push_cast
  rw [← zpow_natCast, ← zpow_add₀ two_ne_zero]
  convert h.le using 2
  push_cast
  ring

theorem limit_lt : fmt.limit < 2 ^ ((fmt.bias : ℤ) + 1) := by
  have hstep : (0 : ℚ) < 2 ^ ((fmt.bias : ℤ) - fmt.fractionBits - 1) := zpow_pos two_pos _
  have hcast : (2 : ℚ) ^ ((fmt.bias : ℤ) + 1) = 2 ^ (fmt.bias + 1) := by
    rw [← zpow_natCast]
    push_cast
    rfl
  unfold limit
  rw [hcast]
  linarith

/-- The limit in steps of the largest floats. -/
theorem limit_eq : fmt.limit =
    ((2 ^ (fmt.fractionBits + 1) : ℤ) - 1 / 2) * 2 ^ ((fmt.bias : ℤ) - fmt.fractionBits) := by
  have hhalf : (2 : ℚ) ^ ((fmt.bias : ℤ) - fmt.fractionBits - 1) =
      1 / 2 * 2 ^ ((fmt.bias : ℤ) - fmt.fractionBits) := by
    rw [zpow_sub₀ two_ne_zero, zpow_one]
    ring
  have hwhole : (2 : ℚ) ^ (fmt.bias + 1) =
      2 ^ (fmt.fractionBits + 1) * 2 ^ ((fmt.bias : ℤ) - fmt.fractionBits) := by
    rw [← zpow_natCast, ← zpow_natCast, ← zpow_add₀ two_ne_zero]
    congr 1
    push_cast
    ring
  unfold limit
  rw [hhalf, hwhole]
  push_cast
  ring

/-- With the largest exponent what is below the limit does not round up to the next power. -/
theorem roundHalfEven_scaled_lt {q : ℚ} (h : q < fmt.limit) :
    roundHalfEven (q / 2 ^ ((fmt.bias : ℤ) - fmt.fractionBits)) <
      (2 ^ (fmt.fractionBits + 1) : ℤ) := by
  apply roundHalfEven_lt
  rw [div_lt_iff₀ (zpow_pos two_pos _), ← limit_eq]
  exact h

/-- The magnitude of what does not round to infinity stays below the bits of infinity. -/
theorem magnitudeBits_lt (hfmt : fmt.Proper) {q : ℚ} (hq : 0 ≤ q) (hlimit : q < fmt.limit) :
    fmt.magnitudeBits q < fmt.specialBits := by
  obtain ⟨hbias, hbias_pos⟩ := hfmt.bias_spec
  have hmin : fmt.minExponent = 1 - fmt.bias := rfl
  have hpow := Nat.two_pow_pos fmt.fractionBits
  have hcast : ((2 ^ fmt.fractionBits : ℕ) : ℤ) = 2 ^ fmt.fractionBits := by
    push_cast
    rfl
  have hspecial : fmt.specialBits = (2 * fmt.bias + 1) * 2 ^ fmt.fractionBits := by
    unfold specialBits
    rw [← hbias]
    rfl
  -- room for the significand above the exponents
  have hroom : ∀ k ≤ 2 * fmt.bias + 1,
      (2 * fmt.bias + 1 - k) * 2 ^ fmt.fractionBits + k * 2 ^ fmt.fractionBits =
        (2 * fmt.bias + 1) * 2 ^ fmt.fractionBits := by
    intro k hk
    rw [← Nat.add_mul, Nat.sub_add_cancel hk]
  rw [hspecial]
  by_cases hzero : q = 0
  · unfold magnitudeBits
    rw [if_pos hzero]
    positivity
  have hpos : 0 < q := lt_of_le_of_ne hq (Ne.symm hzero)
  unfold magnitudeBits
  rw [if_neg hzero]
  dsimp only
  generalize hexp : max (Int.log 2 q) fmt.minExponent = e
  by_cases htop : e < fmt.bias
  · have hbelow : q < 2 ^ (e + 1) := by
      have hlog := Int.lt_zpow_succ_log_self one_lt_two q
      rw [Nat.cast_ofNat] at hlog
      exact hlog.trans_le (zpow_le_zpow_right₀ one_le_two (by omega))
    have hround := @roundHalfEven_scaled_le fmt q e hbelow
    have hexponent : (e - fmt.minExponent).toNat ≤ 2 * fmt.bias + 1 - 3 := by omega
    have hsum := Nat.mul_le_mul_right (2 ^ fmt.fractionBits) hexponent
    have htotal := hroom 3 (by omega)
    rw [pow_succ] at hround
    omega
  · have hlog : Int.log 2 q < fmt.bias + 1 := by
      apply (Int.lt_zpow_iff_log_lt one_lt_two hpos).mp
      rw [Nat.cast_ofNat]
      exact hlimit.trans limit_lt
    obtain rfl : e = fmt.bias := by omega
    have hround := roundHalfEven_scaled_lt hlimit
    have hexponent : ((fmt.bias : ℤ) - fmt.minExponent).toNat = 2 * fmt.bias + 1 - 2 := by omega
    have htotal := hroom 2 (by omega)
    rw [pow_succ] at hround
    rw [hexponent]
    omega

/-- Rounding gives a float of the format. -/
theorem isFloat_round (hfmt : fmt.Proper) (q : ℚ) : fmt.IsFloat (fmt.round q) := by
  unfold round
  split_ifs with hlimit
  · trivial
  · apply isFloat_ofBits hfmt
    have hmagnitude := magnitudeBits_lt hfmt (abs_nonneg q) (not_le.mp hlimit)
    have hspecial : fmt.specialBits ≤ 2 ^ (fmt.exponentBits + fmt.fractionBits) := by
      unfold specialBits
      rw [pow_add]
      exact Nat.mul_le_mul_right _ (Nat.sub_le _ _)
    have hpow : 2 ^ (1 + fmt.exponentBits + fmt.fractionBits) =
        2 * 2 ^ (fmt.exponentBits + fmt.fractionBits) := by ring
    show fmt.signBit (q < 0) + fmt.magnitudeBits |q| < _
    unfold signBit
    split_ifs <;> omega

theorem binary64_proper : binary64.Proper := ⟨by decide, by decide⟩

/-- Integers of up to 53 bits are doubles. -/
theorem isFloat_intCast {n : ℤ} (h : |n| ≤ 2 ^ 53) : binary64.IsFloat (.finite n) := by
  have hbias : binary64.bias = 1023 := by decide
  have hmin : binary64.minExponent = -1022 := by decide
  have hbits : binary64.fractionBits = 52 := rfl
  have habs : |(n : ℚ)| = (n.natAbs : ℚ) := by
    rw [← Int.cast_abs, Int.abs_eq_natAbs, Int.cast_natCast]
  have hle : n.natAbs ≤ 2 ^ 53 := by
    rw [Int.abs_eq_natAbs] at h
    omega
  by_cases hzero : n.natAbs = 0
  · obtain rfl : n = 0 := by omega
    exact isFloat_zero binary64_proper
  by_cases hlast : n.natAbs = 2 ^ 53
  · refine ⟨2 ^ 52, 1, ?_, by decide, ?_, .inr ⟨?_, le_rfl⟩⟩
    · rw [habs, hlast]
      norm_num
    · rw [hbits, hbias]
      norm_num
    · rw [hbits, hmin]
      norm_num
  · -- the leading bit is moved to its place
    have hlow := Nat.pow_log_le_self 2 hzero
    have hhigh := Nat.lt_pow_succ_log_self one_lt_two n.natAbs
    have hlog : Nat.log 2 n.natAbs < 53 := Nat.log_lt_of_lt_pow hzero (by omega)
    have hshift : 2 ^ Nat.log 2 n.natAbs * 2 ^ (52 - Nat.log 2 n.natAbs) = 2 ^ 52 := by
      rw [← pow_add]
      congr 1
      omega
    have hpow : 0 < 2 ^ (52 - Nat.log 2 n.natAbs) := Nat.two_pow_pos _
    refine ⟨n.natAbs * 2 ^ (52 - Nat.log 2 n.natAbs), (Nat.log 2 n.natAbs : ℤ) - 52, ?_, ?_, ?_,
      .inr ⟨?_, ?_⟩⟩
    · have hback : (((52 - Nat.log 2 n.natAbs : ℕ) : ℤ) + ((Nat.log 2 n.natAbs : ℤ) - 52)) = 0 := by
        omega
      rw [habs, Nat.cast_mul, Nat.cast_pow, Nat.cast_ofNat, mul_assoc, ← zpow_natCast,
        ← zpow_add₀ two_ne_zero, hback, zpow_zero, mul_one]
    · rw [hbits]
      calc n.natAbs * 2 ^ (52 - Nat.log 2 n.natAbs)
          < 2 ^ (Nat.log 2 n.natAbs + 1) * 2 ^ (52 - Nat.log 2 n.natAbs) :=
            Nat.mul_lt_mul_of_pos_right hhigh hpow
        _ = 2 ^ (52 + 1) := by rw [pow_succ, mul_right_comm, hshift, ← pow_succ]
    · rw [hbits, hbias]
      omega
    · rw [hbits, hmin]
      omega
    · rw [hbits, ← hshift]
      exact Nat.mul_le_mul_right _ hlow

end FloatFormat

/-- The rounding of `float`. -/
def double : Rounding where
  round := FloatFormat.binary64.round
  round_int _ h := FloatFormat.round_of_isFloat FloatFormat.binary64_proper
    (FloatFormat.isFloat_intCast h)

end Instro.Library
