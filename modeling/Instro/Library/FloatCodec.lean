import Instro.Library.FloatFormat

/-!
# Floats and their bit patterns

The floats of a format are the signed zeros and infinities, NaN, and the rationals with a significand
of `fractionBits + 1` bits and an exponent in range. Each has one bit pattern, but for NaN, which has
many.
-/

namespace Instro.Library

namespace FloatFormat

variable (fmt : FloatFormat)

/-- The floats of a format: a significand, with its leading bit unless the exponent is the least, times
a power of two. -/
def IsFloat : PyFloat → Prop
  | .finite q => ∃ (m : ℕ) (k : ℤ), |q| = m * 2 ^ k ∧ m < 2 ^ (fmt.fractionBits + 1) ∧
      k + fmt.fractionBits ≤ fmt.bias ∧
      (k + fmt.fractionBits = fmt.minExponent ∨
        fmt.minExponent ≤ k + fmt.fractionBits ∧ 2 ^ fmt.fractionBits ≤ m)
  | _ => True

/-! ## Magnitudes -/

/-- A significand of so many bits bounds the exponent. -/
theorem log_scaled_le {m p : ℕ} {k : ℤ} (hpos : 0 < m) (hhigh : m < 2 ^ (p + 1)) :
    Int.log 2 ((m : ℚ) * 2 ^ k) ≤ p + k := by
  have hk : (0 : ℚ) < 2 ^ k := zpow_pos two_pos k
  have hm : (0 : ℚ) < m := by exact_mod_cast hpos
  have hbelow : (m : ℚ) * 2 ^ k < ((2 : ℕ) : ℚ) ^ (p + k + 1 : ℤ) := by
    have hsum : (p + k + 1 : ℤ) = ((p + 1 : ℕ) : ℤ) + k := by push_cast; ring
    rw [hsum, Nat.cast_ofNat, zpow_add₀ two_ne_zero, zpow_natCast]
    apply mul_lt_mul_of_pos_right _ hk
    exact_mod_cast hhigh
  have hlog := (Int.lt_zpow_iff_log_lt one_lt_two (mul_pos hm hk)).mp hbelow
  omega

/-- With its leading bit it determines the exponent. -/
theorem log_scaled {m p : ℕ} {k : ℤ} (hlow : 2 ^ p ≤ m) (hhigh : m < 2 ^ (p + 1)) :
    Int.log 2 ((m : ℚ) * 2 ^ k) = p + k := by
  have hk : (0 : ℚ) < 2 ^ k := zpow_pos two_pos k
  have hpos : 0 < m := (Nat.two_pow_pos p).trans_le hlow
  have hm : (0 : ℚ) < m := by exact_mod_cast hpos
  have habove : ((2 : ℕ) : ℚ) ^ (p + k : ℤ) ≤ m * 2 ^ k := by
    rw [Nat.cast_ofNat, zpow_add₀ two_ne_zero, zpow_natCast]
    apply mul_le_mul_of_nonneg_right _ hk.le
    exact_mod_cast hlow
  apply le_antisymm (log_scaled_le hpos hhigh)
  exact (Int.zpow_le_iff_le_log one_lt_two (mul_pos hm hk)).mp habove

/-- The bits of a scaled significand: the exponent counts from the least one, and the leading bit
carries into it. -/
theorem magnitudeBits_scaled {m : ℕ} {k : ℤ} (hpos : 0 < m) (hhigh : m < 2 ^ (fmt.fractionBits + 1))
    (hk : k + fmt.fractionBits = fmt.minExponent ∨
      fmt.minExponent ≤ k + fmt.fractionBits ∧ 2 ^ fmt.fractionBits ≤ m) :
    fmt.magnitudeBits (m * 2 ^ k) =
      (k + fmt.fractionBits - fmt.minExponent).toNat * 2 ^ fmt.fractionBits + m := by
  have hkpos : (0 : ℚ) < 2 ^ k := zpow_pos two_pos k
  have hne : (m : ℚ) * 2 ^ k ≠ 0 := mul_ne_zero (by exact_mod_cast hpos.ne') hkpos.ne'
  have hexponent : max (Int.log 2 ((m : ℚ) * 2 ^ k)) fmt.minExponent = k + fmt.fractionBits := by
    rcases hk with hk | ⟨hk, hlow⟩
    · have hlog := log_scaled_le (k := k) hpos hhigh
      omega
    · have hlog := log_scaled (k := k) hlow hhigh
      omega
  have hround : roundHalfEven ((m : ℚ) * 2 ^ k / 2 ^ k) = m := by
    rw [mul_div_cancel_right₀ _ hkpos.ne']
    exact roundHalfEven_intCast m
  unfold magnitudeBits
  rw [if_neg hne]
  dsimp only
  rw [hexponent, add_sub_cancel_right, hround, Int.toNat_natCast]

/-! ## Fields -/

/-- The magnitude with these exponent and fraction bits. -/
def magnitude (exponent fraction : ℕ) : ℚ :=
  if exponent = 0 then fraction * 2 ^ (fmt.minExponent - fmt.fractionBits)
  else (2 ^ fmt.fractionBits + fraction) * 2 ^ (exponent - fmt.bias - fmt.fractionBits : ℤ)

/-- The float with these sign, exponent and fraction bits. -/
def ofFields (negative : Bool) (exponent fraction : ℕ) : PyFloat :=
  if exponent = 2 ^ fmt.exponentBits - 1 then
    if fraction = 0 then .inf negative else .nan
  else if fmt.magnitude exponent fraction = 0 then .zero negative
  else .finite (if negative then -fmt.magnitude exponent fraction else fmt.magnitude exponent fraction)

/-- The bit pattern with these fields. -/
def pattern (negative : Bool) (exponent fraction : ℕ) : ℕ :=
  fmt.signBit negative + (exponent * 2 ^ fmt.fractionBits + fraction)

variable {fmt} {negative : Bool} {exponent fraction : ℕ}

theorem magnitude_nonneg (fmt : FloatFormat) (exponent fraction : ℕ) : 0 ≤ fmt.magnitude exponent fraction := by
  unfold magnitude
  split_ifs
  · exact mul_nonneg (Nat.cast_nonneg _) (zpow_pos two_pos _).le
  · exact mul_nonneg (by positivity) (zpow_pos two_pos _).le

theorem pattern_low_lt (he : exponent < 2 ^ fmt.exponentBits) (hf : fraction < 2 ^ fmt.fractionBits) :
    exponent * 2 ^ fmt.fractionBits + fraction < 2 ^ (fmt.exponentBits + fmt.fractionBits) := by
  calc exponent * 2 ^ fmt.fractionBits + fraction
      < exponent * 2 ^ fmt.fractionBits + 2 ^ fmt.fractionBits := Nat.add_lt_add_left hf _
    _ = (exponent + 1) * 2 ^ fmt.fractionBits := by ring
    _ ≤ 2 ^ fmt.exponentBits * 2 ^ fmt.fractionBits := Nat.mul_le_mul_right _ he
    _ = 2 ^ (fmt.exponentBits + fmt.fractionBits) := (pow_add 2 _ _).symm

theorem pattern_eq (negative : Bool) (exponent fraction : ℕ) :
    fmt.pattern negative exponent fraction =
      fraction + 2 ^ fmt.fractionBits * (exponent + 2 ^ fmt.exponentBits * negative.toNat) := by
  unfold pattern signBit
  rw [pow_add]
  cases negative with
  | true =>
    show 2 ^ fmt.exponentBits * 2 ^ fmt.fractionBits + _ = _ + _ * (_ + _ * 1)
    ring
  | false =>
    show 0 + _ = _ + _ * (_ + _ * 0)
    ring

theorem ofBits_pattern (he : exponent < 2 ^ fmt.exponentBits)
    (hf : fraction < 2 ^ fmt.fractionBits) :
    fmt.ofBits (fmt.pattern negative exponent fraction) = fmt.ofFields negative exponent fraction := by
  have hhigh : fmt.pattern negative exponent fraction / 2 ^ fmt.fractionBits =
      exponent + 2 ^ fmt.exponentBits * negative.toNat := by
    rw [pattern_eq, Nat.add_mul_div_left _ _ (Nat.two_pow_pos _), Nat.div_eq_of_lt hf, Nat.zero_add]
  have hfraction : fmt.pattern negative exponent fraction % 2 ^ fmt.fractionBits = fraction := by
    rw [pattern_eq, Nat.add_mul_mod_self_left, Nat.mod_eq_of_lt hf]
  have hexponent : (exponent + 2 ^ fmt.exponentBits * negative.toNat) % 2 ^ fmt.exponentBits =
      exponent := by
    rw [Nat.add_mul_mod_self_left, Nat.mod_eq_of_lt he]
  have hsign : fmt.pattern negative exponent fraction / 2 ^ (fmt.exponentBits + fmt.fractionBits) =
      negative.toNat := by
    rw [Nat.add_comm, pow_add, ← Nat.div_div_eq_div_mul, hhigh,
      Nat.add_mul_div_left _ _ (Nat.two_pow_pos _), Nat.div_eq_of_lt he, Nat.zero_add]
  have hnegative : decide (negative.toNat % 2 = 1) = negative := by
    cases negative <;> rfl
  unfold ofBits ofFields magnitude
  dsimp only
  rw [hsign, hhigh, hexponent, hfraction, hnegative]

/-- Every word is a bit pattern. -/
theorem exists_pattern {w : ℕ} (hw : w < 2 ^ (1 + fmt.exponentBits + fmt.fractionBits)) :
    ∃ negative exponent fraction, exponent < 2 ^ fmt.exponentBits ∧
      fraction < 2 ^ fmt.fractionBits ∧ w = fmt.pattern negative exponent fraction := by
  refine ⟨decide (w / 2 ^ fmt.fractionBits / 2 ^ fmt.exponentBits = 1),
    w / 2 ^ fmt.fractionBits % 2 ^ fmt.exponentBits, w % 2 ^ fmt.fractionBits,
    Nat.mod_lt _ (Nat.two_pow_pos _), Nat.mod_lt _ (Nat.two_pow_pos _), ?_⟩
  have hsign : w / 2 ^ fmt.fractionBits / 2 ^ fmt.exponentBits < 2 := by
    rw [Nat.div_div_eq_div_mul, Nat.div_lt_iff_lt_mul (by positivity), ← pow_add]
    calc w < 2 ^ (1 + fmt.exponentBits + fmt.fractionBits) := hw
      _ = 2 * 2 ^ (fmt.fractionBits + fmt.exponentBits) := by ring
  have hbit : (decide (w / 2 ^ fmt.fractionBits / 2 ^ fmt.exponentBits = 1)).toNat =
      w / 2 ^ fmt.fractionBits / 2 ^ fmt.exponentBits := by
    generalize w / 2 ^ fmt.fractionBits / 2 ^ fmt.exponentBits = b at hsign ⊢
    obtain rfl | rfl : b = 0 ∨ b = 1 := by omega
    · rfl
    · rfl
  rw [pattern_eq, hbit, Nat.mod_add_div, Nat.mod_add_div]

/-! ## Round trips -/

/-- There are numbers of more than one exponent, and NaN. -/
structure Proper (fmt : FloatFormat) : Prop where
  two_le_exponentBits : 2 ≤ fmt.exponentBits
  fractionBits_pos : 0 < fmt.fractionBits

/-- The exponents run from one less than the bias below zero to the bias, which is positive. -/
theorem Proper.bias_spec (h : fmt.Proper) :
    2 * fmt.bias + 2 = 2 ^ fmt.exponentBits ∧ 1 ≤ fmt.bias := by
  have htwo := h.two_le_exponentBits
  have hlow : 2 ^ 1 ≤ 2 ^ (fmt.exponentBits - 1) := Nat.pow_le_pow_right two_pos (by omega)
  have hpow : 2 ^ fmt.exponentBits = 2 * 2 ^ (fmt.exponentBits - 1) := by
    rw [← pow_succ', Nat.sub_add_cancel (by omega)]
  unfold bias
  omega

/-- A magnitude as a scaled significand. -/
theorem magnitude_eq (fmt : FloatFormat) (exponent fraction : ℕ) :
    ∃ (m : ℕ) (k : ℤ), fmt.magnitude exponent fraction = m * 2 ^ k ∧
      (exponent = 0 ∧ m = fraction ∧ k + fmt.fractionBits = fmt.minExponent ∨
        0 < exponent ∧ m = 2 ^ fmt.fractionBits + fraction ∧
          k + fmt.fractionBits = fmt.minExponent + (exponent - 1)) := by
  unfold magnitude minExponent
  by_cases he : exponent = 0
  · rw [if_pos he]
    exact ⟨fraction, _, rfl, .inl ⟨he, rfl, by ring⟩⟩
  · rw [if_neg he]
    refine ⟨2 ^ fmt.fractionBits + fraction, exponent - fmt.bias - fmt.fractionBits, ?_,
      .inr ⟨Nat.pos_of_ne_zero he, rfl, ?_⟩⟩
    · push_cast
      rfl
    · ring

theorem magnitudeBits_magnitude (hf : fraction < 2 ^ fmt.fractionBits) :
    fmt.magnitudeBits (fmt.magnitude exponent fraction) =
      exponent * 2 ^ fmt.fractionBits + fraction := by
  have hfpos := Nat.two_pow_pos fmt.fractionBits
  have hpow : 2 ^ (fmt.fractionBits + 1) = 2 * 2 ^ fmt.fractionBits := pow_succ' 2 _
  obtain ⟨m, k, hmagnitude, ⟨rfl, rfl, hk⟩ | ⟨he, rfl, hk⟩⟩ := magnitude_eq fmt exponent fraction
  · rw [hmagnitude]
    by_cases hzero : m = 0
    · subst hzero
      unfold magnitudeBits
      simp
    · rw [magnitudeBits_scaled fmt (Nat.pos_of_ne_zero hzero) (by omega) (.inl hk), hk, sub_self]
      simp
  · rw [hmagnitude, magnitudeBits_scaled fmt (by omega) (by omega) (.inr ⟨by omega, by omega⟩), hk]
    have hexponent : (fmt.minExponent + ((exponent : ℤ) - 1) - fmt.minExponent).toNat =
        exponent - 1 := by omega
    obtain ⟨e, rfl⟩ := Nat.exists_eq_succ_of_ne_zero he.ne'
    rw [hexponent, Nat.succ_sub_one, Nat.succ_mul]
    ring

theorem bits_neg_sign {q : ℚ} (hq : 0 < q) (negative : Bool) :
    fmt.bits (.finite (if negative then -q else q)) = fmt.signBit negative + fmt.magnitudeBits q := by
  unfold bits
  cases negative with
  | true =>
    show fmt.signBit (decide (-q < 0)) + fmt.magnitudeBits |-q| = _
    rw [abs_neg, abs_of_pos hq, decide_eq_true (neg_neg_of_pos hq)]
  | false =>
    show fmt.signBit (decide (q < 0)) + fmt.magnitudeBits |q| = _
    rw [abs_of_pos hq, decide_eq_false (not_lt.mpr hq.le)]

/-- The bits of a float with its fields are the pattern of the fields. -/
theorem bits_ofFields (hf : fraction < 2 ^ fmt.fractionBits)
    (hnan : fmt.ofFields negative exponent fraction ≠ .nan) :
    fmt.bits (fmt.ofFields negative exponent fraction) = fmt.pattern negative exponent fraction := by
  unfold pattern
  unfold ofFields at hnan ⊢
  by_cases hspecial : exponent = 2 ^ fmt.exponentBits - 1
  · rw [if_pos hspecial] at hnan ⊢
    by_cases hfraction : fraction = 0
    · rw [if_pos hfraction, hspecial, hfraction]
      rfl
    · exact absurd (if_neg hfraction) hnan
  · rw [if_neg hspecial]
    by_cases hzero : fmt.magnitude exponent fraction = 0
    · rw [if_pos hzero, ← magnitudeBits_magnitude hf, hzero]
      cases negative with
      | true =>
        unfold magnitudeBits
        rw [if_pos rfl]
        rfl
      | false =>
        unfold PyFloat.zero bits
        simp
    · have hpos := lt_of_le_of_ne (magnitude_nonneg fmt exponent fraction) (Ne.symm hzero)
      rw [if_neg hzero, bits_neg_sign hpos, magnitudeBits_magnitude hf]

/-- **A bit pattern of a number gives it back.** -/
theorem bits_ofBits {w : ℕ} (hw : w < 2 ^ (1 + fmt.exponentBits + fmt.fractionBits))
    (hnan : fmt.ofBits w ≠ .nan) : fmt.bits (fmt.ofBits w) = w := by
  obtain ⟨negative, exponent, fraction, he, hf, rfl⟩ := exists_pattern hw
  rw [ofBits_pattern he hf] at hnan ⊢
  exact bits_ofFields hf hnan

theorem isFloat_zero (hfmt : fmt.Proper) : fmt.IsFloat (.finite 0) := by
  obtain ⟨hbias, hbias_pos⟩ := hfmt.bias_spec
  have hmin : fmt.minExponent = 1 - fmt.bias := rfl
  exact ⟨0, fmt.minExponent - fmt.fractionBits, by simp, by positivity, by omega, .inl (by ring)⟩

theorem isFloat_ofFields (hfmt : fmt.Proper) (he : exponent < 2 ^ fmt.exponentBits)
    (hf : fraction < 2 ^ fmt.fractionBits) :
    fmt.IsFloat (fmt.ofFields negative exponent fraction) := by
  obtain ⟨hbias, hbias_pos⟩ := hfmt.bias_spec
  have hpow : 2 ^ (fmt.fractionBits + 1) = 2 * 2 ^ fmt.fractionBits := pow_succ' 2 _
  have hmin : fmt.minExponent = 1 - fmt.bias := rfl
  have habs : ∀ q : ℚ, 0 ≤ q → |if negative then -q else q| = q := by
    intro q hq
    cases negative with
    | true => exact (abs_neg q).trans (abs_of_nonneg hq)
    | false => exact abs_of_nonneg hq
  unfold ofFields
  by_cases hspecial : exponent = 2 ^ fmt.exponentBits - 1
  · rw [if_pos hspecial]
    by_cases hfraction : fraction = 0
    · rw [if_pos hfraction]
      trivial
    · rw [if_neg hfraction]
      trivial
  rw [if_neg hspecial]
  by_cases hzero : fmt.magnitude exponent fraction = 0
  · rw [if_pos hzero]
    cases negative with
    | true => trivial
    | false => exact isFloat_zero hfmt
  · rw [if_neg hzero]
    have hexponent := habs _ (magnitude_nonneg fmt exponent fraction)
    obtain ⟨m, k, hmagnitude, ⟨rfl, rfl, hk⟩ | ⟨hpos, rfl, hk⟩⟩ := magnitude_eq fmt exponent fraction
    · exact ⟨m, k, hexponent.trans hmagnitude, by omega, by omega, .inl hk⟩
    · exact ⟨_, k, hexponent.trans hmagnitude, by omega, by omega, .inr ⟨by omega, by omega⟩⟩

theorem ofFields_zero (hfmt : fmt.Proper) (negative : Bool) :
    fmt.ofFields negative 0 0 = .zero negative := by
  obtain ⟨hbias, hbias_pos⟩ := hfmt.bias_spec
  have hmagnitude : fmt.magnitude 0 0 = 0 := by
    unfold magnitude
    simp
  unfold ofFields
  rw [if_neg (by omega), if_pos hmagnitude]

theorem ofFields_finite {q : ℚ} (hq : q ≠ 0) (he : exponent ≠ 2 ^ fmt.exponentBits - 1)
    (hmagnitude : fmt.magnitude exponent fraction = |q|) :
    fmt.ofFields (q < 0) exponent fraction = .finite q := by
  unfold ofFields
  rw [if_neg he, hmagnitude, if_neg (abs_ne_zero.mpr hq)]
  by_cases hneg : q < 0
  · rw [decide_eq_true hneg, if_pos rfl, abs_of_neg hneg, neg_neg]
  · rw [decide_eq_false hneg, if_neg Bool.false_ne_true, abs_of_nonneg (not_lt.mp hneg)]

/-- Every float of the format has fields. -/
theorem IsFloat.exists_fields (hfmt : fmt.Proper) {x : PyFloat} (h : fmt.IsFloat x) :
    ∃ negative exponent fraction, exponent < 2 ^ fmt.exponentBits ∧
      fraction < 2 ^ fmt.fractionBits ∧ x = fmt.ofFields negative exponent fraction := by
  obtain ⟨hbias, hbias_pos⟩ := hfmt.bias_spec
  have hmin : fmt.minExponent = 1 - fmt.bias := rfl
  have hfpos := Nat.two_pow_pos fmt.fractionBits
  have hpow : 2 ^ (fmt.fractionBits + 1) = 2 * 2 ^ fmt.fractionBits := pow_succ' 2 _
  cases x with
  | nan =>
    have hone : 1 < 2 ^ fmt.fractionBits := Nat.one_lt_two_pow hfmt.fractionBits_pos.ne'
    refine ⟨false, 2 ^ fmt.exponentBits - 1, 1, by omega, hone, ?_⟩
    unfold ofFields
    rw [if_pos rfl, if_neg one_ne_zero]
  | inf negative =>
    refine ⟨negative, 2 ^ fmt.exponentBits - 1, 0, by omega, hfpos, ?_⟩
    unfold ofFields
    rw [if_pos rfl, if_pos rfl]
  | negZero => exact ⟨true, 0, 0, by omega, hfpos, (ofFields_zero hfmt true).symm⟩
  | finite q =>
    obtain ⟨m, k, habs, hhigh, hmax, hk⟩ := h
    by_cases hq : q = 0
    · subst hq
      exact ⟨false, 0, 0, by omega, hfpos, (ofFields_zero hfmt false).symm⟩
    by_cases hsmall : m < 2 ^ fmt.fractionBits
    · -- no leading bit: the exponent is the least
      refine ⟨q < 0, 0, m, by omega, hsmall, (ofFields_finite hq (by omega) ?_).symm⟩
      have hleast : fmt.minExponent - fmt.fractionBits = k := by omega
      unfold magnitude
      rw [if_pos rfl, habs, hleast]
    · refine ⟨q < 0, (k + fmt.fractionBits - fmt.minExponent).toNat + 1, m - 2 ^ fmt.fractionBits,
        by omega, by omega, (ofFields_finite hq (by omega) ?_).symm⟩
      have hscale : (((k + fmt.fractionBits - fmt.minExponent).toNat + 1 : ℕ) : ℤ) - fmt.bias -
          fmt.fractionBits = k := by omega
      have hsignificand : (2 : ℚ) ^ fmt.fractionBits + ((m - 2 ^ fmt.fractionBits : ℕ) : ℚ) = m := by
        rw [Nat.cast_sub (not_lt.mp hsmall)]
        push_cast
        ring
      unfold magnitude
      rw [if_neg (Nat.succ_ne_zero _), habs, hscale, hsignificand]

theorem pattern_lt (he : exponent < 2 ^ fmt.exponentBits) (hf : fraction < 2 ^ fmt.fractionBits)
    (negative : Bool) :
    fmt.pattern negative exponent fraction < 2 ^ (1 + fmt.exponentBits + fmt.fractionBits) := by
  have hlow := pattern_low_lt he hf
  have hpow : 2 ^ (1 + fmt.exponentBits + fmt.fractionBits) =
      2 * 2 ^ (fmt.exponentBits + fmt.fractionBits) := by ring
  unfold pattern signBit
  split_ifs
  · omega
  · omega

/-- The bits of every float of the format are the pattern of its fields. -/
theorem IsFloat.exists_pattern (hfmt : fmt.Proper) {x : PyFloat} (h : fmt.IsFloat x) :
    ∃ negative exponent fraction, exponent < 2 ^ fmt.exponentBits ∧
      fraction < 2 ^ fmt.fractionBits ∧ x = fmt.ofFields negative exponent fraction ∧
      fmt.bits x = fmt.pattern negative exponent fraction := by
  by_cases hnan : x = .nan
  · subst hnan
    obtain ⟨hbias, -⟩ := hfmt.bias_spec
    have hquiet := Nat.two_pow_pos (fmt.fractionBits - 1)
    have hlow : 2 ^ (fmt.fractionBits - 1) < 2 ^ fmt.fractionBits :=
      Nat.pow_lt_pow_right one_lt_two (Nat.sub_lt hfmt.fractionBits_pos one_pos)
    refine ⟨false, 2 ^ fmt.exponentBits - 1, 2 ^ (fmt.fractionBits - 1), by omega, hlow, ?_,
      (Nat.zero_add _).symm⟩
    unfold ofFields
    rw [if_pos rfl, if_neg hquiet.ne']
  · obtain ⟨negative, exponent, fraction, he, hf, rfl⟩ := h.exists_fields hfmt
    exact ⟨negative, exponent, fraction, he, hf, rfl, bits_ofFields hf hnan⟩

/-- **A float of the format is the one its bit pattern gives.** -/
theorem ofBits_bits (hfmt : fmt.Proper) {x : PyFloat} (h : fmt.IsFloat x) :
    fmt.ofBits (fmt.bits x) = x := by
  obtain ⟨negative, exponent, fraction, he, hf, hx, hbits⟩ := h.exists_pattern hfmt
  rw [hbits, ofBits_pattern he hf, hx]

theorem bits_lt (hfmt : fmt.Proper) {x : PyFloat} (h : fmt.IsFloat x) :
    fmt.bits x < 2 ^ (1 + fmt.exponentBits + fmt.fractionBits) := by
  obtain ⟨negative, exponent, fraction, he, hf, -, hbits⟩ := h.exists_pattern hfmt
  rw [hbits]
  exact pattern_lt he hf negative

theorem isFloat_ofBits (hfmt : fmt.Proper) {w : ℕ}
    (hw : w < 2 ^ (1 + fmt.exponentBits + fmt.fractionBits)) : fmt.IsFloat (fmt.ofBits w) := by
  obtain ⟨negative, exponent, fraction, he, hf, rfl⟩ := exists_pattern hw
  rw [ofBits_pattern he hf]
  exact isFloat_ofFields hfmt he hf

/-- A finite float of the format does not round to infinity. -/
theorem IsFloat.lt_limit {q : ℚ} (h : fmt.IsFloat (.finite q)) : |q| < fmt.limit := by
  obtain ⟨m, k, habs, hhigh, hmax, -⟩ := h
  have hstep : (0 : ℚ) < 2 ^ ((fmt.bias : ℤ) - fmt.fractionBits - 1) := zpow_pos two_pos _
  have hm : (m : ℚ) ≤ 2 ^ (fmt.fractionBits + 1) - 1 := by
    have hle : (m : ℚ) + 1 ≤ 2 ^ (fmt.fractionBits + 1) := by exact_mod_cast hhigh
    linarith
  have hk : (2 : ℚ) ^ k ≤ 2 * 2 ^ ((fmt.bias : ℤ) - fmt.fractionBits - 1) := by
    calc (2 : ℚ) ^ k ≤ 2 ^ (1 + ((fmt.bias : ℤ) - fmt.fractionBits - 1)) :=
          zpow_le_zpow_right₀ one_le_two (by omega)
      _ = 2 * 2 ^ ((fmt.bias : ℤ) - fmt.fractionBits - 1) := by
          rw [zpow_add₀ two_ne_zero, zpow_one]
  have htop : (2 : ℚ) ^ (fmt.bias + 1) =
      2 ^ (fmt.fractionBits + 1) * (2 * 2 ^ ((fmt.bias : ℤ) - fmt.fractionBits - 1)) := by
    have hsum : ((fmt.bias + 1 : ℕ) : ℤ) =
        ((fmt.fractionBits + 1 : ℕ) : ℤ) + (1 + ((fmt.bias : ℤ) - fmt.fractionBits - 1)) := by
      push_cast
      ring
    rw [← zpow_natCast, hsum, zpow_add₀ two_ne_zero, zpow_natCast, zpow_add₀ two_ne_zero, zpow_one]
  have hbound := mul_le_mul hm hk (zpow_pos two_pos k).le ((Nat.cast_nonneg m).trans hm)
  unfold limit
  rw [habs, htop]
  linarith

/-- A float of the format packs into its bit pattern. -/
theorem IsFloat.pack_eq (hfmt : fmt.Proper) {x : PyFloat} (h : fmt.IsFloat x) :
    fmt.pack x = .ok (toBytes fmt.width (fmt.bits x)) := by
  unfold pack
  cases hvalue : x.value? with
  | none => rfl
  | some q =>
    have hfloat : fmt.IsFloat (.finite q) := by
      rcases PyFloat.eq_of_value hvalue with rfl | ⟨-, rfl⟩
      · exact h
      · exact isFloat_zero hfmt
    exact if_neg (not_le.mpr hfloat.lt_limit)

/-! ## Packing -/

/-- The float of the format that a double is packed as. -/
def packed (fmt : FloatFormat) (x : PyFloat) : PyFloat := fmt.unpack (toBytes fmt.width (fmt.bits x))

/-- The float of the format that a double is cast to. -/
def cast (fmt : FloatFormat) (x : PyFloat) : PyFloat := fmt.unpack (toBytes fmt.width (fmt.castBits x))

theorem bytes_of_pack {x : PyFloat} {bytes : List UInt8} (h : fmt.pack x = .ok bytes) :
    bytes = toBytes fmt.width (fmt.bits x) := by
  unfold pack at h
  cases hvalue : x.value? with
  | none =>
    rw [hvalue] at h
    exact (Except.ok.inj h).symm
  | some q =>
    rw [hvalue] at h
    dsimp only at h
    split_ifs at h
    exact (Except.ok.inj h).symm

end FloatFormat

end Instro.Library
