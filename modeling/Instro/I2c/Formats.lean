import Instro.I2c.Types

/-!
# Data formats there and back

What a data format packs it extracts again, and what it makes of a transfer it turns back into that
transfer's field. The numbers of a field are the representatives of the residues of its width: the
two directions meet at the remainder.
-/

namespace Instro.I2c

open Instro.Library

namespace DataFormat

/-! ## Sign extension -/

section SignExtend

variable {value bitWidth : Nat}

/-- Below the sign bit a number stands for itself. -/
theorem signExtend_of_lt (h : value < 2 ^ bitWidth) : signExtend value (bitWidth + 1) = value := by
  have hlow : extractBits 0 (bitWidth + 1) value = value := by
    apply extractBits_zero_of_lt
    omega
  have hxor : value ^^^ 2 ^ bitWidth = 2 ^ bitWidth + value := by
    rw [xor_two_pow, Nat.div_eq_of_lt h, Nat.mod_eq_of_lt h]
    simp
  show ((extractBits 0 (bitWidth + 1) value ^^^ 1 <<< bitWidth : Nat) : ℤ) -
    (1 <<< bitWidth : Nat) = _
  rw [hlow, Nat.one_shiftLeft, hxor]
  omega

/-- From the sign bit on it stands for what it lacks to the next power of two. -/
theorem signExtend_of_le (h : 2 ^ bitWidth ≤ value) (h' : value < 2 ^ (bitWidth + 1)) :
    signExtend value (bitWidth + 1) = value - 2 ^ (bitWidth + 1) := by
  have hdouble : 2 ^ (bitWidth + 1) = 2 * 2 ^ bitWidth := pow_succ' 2 bitWidth
  have hdiv : value / 2 ^ bitWidth = 1 := Nat.div_eq_of_lt_le (by omega) (by omega)
  have hmod := Nat.div_add_mod value (2 ^ bitWidth)
  rw [hdiv, Nat.mul_one] at hmod
  have hxor : value ^^^ 2 ^ bitWidth = value % 2 ^ bitWidth := by
    rw [xor_two_pow, hdiv]
    simp
  show ((extractBits 0 (bitWidth + 1) value ^^^ 1 <<< bitWidth : Nat) : ℤ) -
    (1 <<< bitWidth : Nat) = _
  rw [extractBits_zero_of_lt h', Nat.one_shiftLeft, hxor]
  have hdoubleInt : (2 : ℤ) ^ (bitWidth + 1) = 2 * (2 ^ bitWidth : Nat) := by
    exact_mod_cast hdouble
  omega

end SignExtend

/-! ## The range of a field -/

/-- The numbers a field holds. A signed field has a sign bit. -/
def InRange (format : DataFormat) (data : ℤ) : Prop :=
  if format.signed then
    0 < format.logicalWidth ∧ -2 ^ (format.logicalWidth - 1) ≤ data ∧
      data < 2 ^ (format.logicalWidth - 1)
  else 0 ≤ data ∧ data < 2 ^ format.logicalWidth

variable {format : DataFormat} {data data' : ℤ} {t : Nat}

theorem inRange_of_signed (hsigned : format.signed) :
    format.InRange data ↔ 0 < format.logicalWidth ∧ -2 ^ (format.logicalWidth - 1) ≤ data ∧
      data < 2 ^ (format.logicalWidth - 1) := by
  unfold InRange
  rw [if_pos hsigned]

theorem inRange_of_unsigned (hsigned : ¬ format.signed) :
    format.InRange data ↔ 0 ≤ data ∧ data < 2 ^ format.logicalWidth := by
  unfold InRange
  rw [if_neg hsigned]

theorem two_pow_logicalWidth (h : 0 < format.logicalWidth) :
    (2 : ℤ) ^ format.logicalWidth = 2 * 2 ^ (format.logicalWidth - 1) := by
  rw [← pow_succ', Nat.sub_add_cancel h]

/-- A range holds one number of each residue. -/
theorem eq_of_emod_eq (hdata : format.InRange data) (hdata' : format.InRange data')
    (h : data % 2 ^ format.logicalWidth = data' % 2 ^ format.logicalWidth) : data = data' := by
  have hclose : |data - data'| < 2 ^ format.logicalWidth := by
    apply abs_lt.mpr
    by_cases hsigned : format.signed
    · rw [inRange_of_signed hsigned] at hdata hdata'
      rw [two_pow_logicalWidth hdata.1]
      constructor <;> omega
    · rw [inRange_of_unsigned hsigned] at hdata hdata'
      constructor <;> omega
  have hdvd : (2 : ℤ) ^ format.logicalWidth ∣ data - data' :=
    Int.dvd_of_emod_eq_zero (Int.emod_eq_emod_iff_emod_sub_eq_zero.mp h)
  have hzero : data - data' = 0 := Int.eq_zero_of_abs_lt_dvd hdvd hclose
  omega

/-! ## Packing -/

/-- The checks of `packData` are those of the range. -/
theorem inRange_iff : format.InRange data ↔ (format.signed → 0 < format.logicalWidth) ∧
    (if format.signed then -((1 <<< (format.logicalWidth - 1) : Nat) : ℤ) else 0) ≤ data ∧
      data ≤ if format.signed then ((1 <<< (format.logicalWidth - 1) : Nat) : ℤ) - 1
        else ((1 <<< format.logicalWidth : Nat) : ℤ) - 1 := by
  have hshift (k : Nat) : ((1 <<< k : Nat) : ℤ) = 2 ^ k := by
    rw [Nat.one_shiftLeft]
    push_cast
    rfl
  rw [hshift, hshift]
  by_cases hsigned : format.signed
  · rw [inRange_of_signed hsigned, if_pos hsigned, if_pos hsigned]
    constructor
    · rintro ⟨hpos, hlow, hhigh⟩
      exact ⟨fun _ => hpos, hlow, by omega⟩
    · rintro ⟨hpos, hlow, hhigh⟩
      exact ⟨hpos hsigned, hlow, by omega⟩
  · rw [inRange_of_unsigned hsigned, if_neg hsigned, if_neg hsigned]
    constructor
    · rintro ⟨hlow, hhigh⟩
      exact ⟨fun h => absurd h hsigned, hlow, by omega⟩
    · rintro ⟨-, hlow, hhigh⟩
      exact ⟨hlow, by omega⟩

/-- A number of the range becomes its residue, in the place of the field. -/
theorem packData_of_inRange (h : format.dataLsb + format.logicalWidth ≤ format.transferBits)
    (hdata : format.InRange data) :
    format.packData data = .ok ((data % 2 ^ format.logicalWidth).toNat <<< format.dataLsb) := by
  obtain ⟨hwidth, hbounds⟩ := inRange_iff.mp hdata
  have hresidue := toNat_emod_two_pow_lt data format.logicalWidth
  refine ensure_bind_eq_ok.mpr ⟨hwidth, ensure_bind_eq_ok.mpr ⟨hbounds, ?_⟩⟩
  show Except.ok (_ &&& bitMask 0 format.transferBits) = _
  rw [toNat_land_bitMask, and_bitMask_of_lt (shiftLeft_lt hresidue h)]

theorem packData_of_not_inRange (hdata : ¬ format.InRange data) :
    format.packData data = .error .valueError := by
  by_cases hwidth : format.signed → 0 < format.logicalWidth
  · have hbounds := fun hbounds => hdata (inRange_iff.mpr ⟨hwidth, hbounds⟩)
    show (ensure (format.signed → 0 < format.logicalWidth) _ >>= _) = _
    rw [ensure_pos hwidth]
    show (ensure _ _ >>= _) = _
    rw [ensure_neg hbounds]
    rfl
  · show (ensure (format.signed → 0 < format.logicalWidth) _ >>= _) = _
    rw [ensure_neg hwidth]
    rfl

/-! ## Extracting -/

/-- What is extracted is the number of the range with the residue that the field spells. -/
theorem extractData_spec (hwidth : format.signed → 0 < format.logicalWidth) (t : Nat) :
    format.InRange (format.extractData t) ∧
      format.extractData t % 2 ^ format.logicalWidth =
        extractBits format.dataLsb format.logicalWidth t := by
  have hlt := extractBits_lt format.dataLsb format.logicalWidth t
  unfold extractData
  generalize extractBits format.dataLsb format.logicalWidth t = raw at hlt ⊢
  have hltInt : (raw : ℤ) < 2 ^ format.logicalWidth := by exact_mod_cast hlt
  have hself : (raw : ℤ) % 2 ^ format.logicalWidth = raw :=
    Int.emod_eq_of_lt (Int.natCast_nonneg raw) hltInt
  by_cases hsigned : format.signed
  · have hpos := hwidth hsigned
    have hdouble := two_pow_logicalWidth hpos
    have hsucc := Nat.sub_add_cancel hpos
    rw [inRange_of_signed hsigned, if_pos hsigned]
    by_cases hsign : raw < 2 ^ (format.logicalWidth - 1)
    · have hvalue := signExtend_of_lt hsign
      rw [hsucc] at hvalue
      have hsignInt : (raw : ℤ) < 2 ^ (format.logicalWidth - 1) := by exact_mod_cast hsign
      rw [hvalue]
      exact ⟨⟨hpos, by omega, hsignInt⟩, hself⟩
    · have hvalue := signExtend_of_le (not_lt.mp hsign) (by rwa [hsucc])
      rw [hsucc] at hvalue
      have hsignInt : (2 : ℤ) ^ (format.logicalWidth - 1) ≤ raw := by
        exact_mod_cast not_lt.mp hsign
      rw [hvalue]
      exact ⟨⟨hpos, by omega, by omega⟩, by rw [Int.sub_emod_right, hself]⟩
  · rw [inRange_of_unsigned hsigned, if_neg hsigned]
    exact ⟨⟨Int.natCast_nonneg raw, hltInt⟩, hself⟩

/-- The sign of a number is the top bit of its field. -/
theorem extractData_nonneg_iff (hsigned : format.signed) (hwidth : 0 < format.logicalWidth) :
    0 ≤ format.extractData t ↔ t.testBit (format.dataLsb + format.logicalWidth - 1) = false := by
  have hlt := extractBits_lt format.dataLsb format.logicalWidth t
  have hbit : t.testBit (format.dataLsb + format.logicalWidth - 1) =
      (extractBits format.dataLsb format.logicalWidth t).testBit (format.logicalWidth - 1) := by
    rw [testBit_extractBits, decide_eq_true (by omega), Bool.true_and, Nat.add_sub_assoc hwidth]
  have hsucc := Nat.sub_add_cancel hwidth
  rw [hbit]
  unfold extractData
  rw [if_pos hsigned]
  generalize extractBits format.dataLsb format.logicalWidth t = raw at hlt ⊢
  by_cases hsign : raw < 2 ^ (format.logicalWidth - 1)
  · have hvalue := signExtend_of_lt hsign
    rw [hsucc] at hvalue
    rw [hvalue, Nat.testBit_lt_two_pow hsign]
    simp
  · have hvalue := signExtend_of_le (not_lt.mp hsign) (by rwa [hsucc])
    rw [hsucc] at hvalue
    have hltInt : (raw : ℤ) < 2 ^ format.logicalWidth := by exact_mod_cast hlt
    rw [hvalue, Nat.testBit_of_two_pow_le_and_two_pow_add_one_gt (not_lt.mp hsign) (by rwa [hsucc])]
    constructor
    · intro h
      omega
    · nofun

/-- What is packed is extracted again. -/
theorem extractData_packed (hdata : format.InRange data) :
    format.extractData ((data % 2 ^ format.logicalWidth).toNat <<< format.dataLsb) = data := by
  have hwidth : format.signed → 0 < format.logicalWidth := (inRange_iff.mp hdata).1
  have hnonneg := Int.emod_nonneg data (pow_ne_zero format.logicalWidth two_ne_zero)
  have hresidue := toNat_emod_two_pow_lt data format.logicalWidth
  obtain ⟨hrange, hmod⟩ := extractData_spec hwidth
    ((data % 2 ^ format.logicalWidth).toNat <<< format.dataLsb)
  apply eq_of_emod_eq hrange hdata
  rw [hmod, extractBits_shiftLeft hresidue, Int.toNat_of_nonneg hnonneg]

/-- What is extracted packs to the field. -/
theorem packData_extractData (h : format.dataLsb + format.logicalWidth ≤ format.transferBits)
    (hwidth : format.signed → 0 < format.logicalWidth) :
    format.packData (format.extractData t) =
      .ok (t &&& bitMask format.dataLsb format.logicalWidth) := by
  obtain ⟨hrange, hmod⟩ := extractData_spec hwidth t
  rw [packData_of_inRange h hrange, hmod, Int.toNat_natCast, shiftLeft_extractBits]

/-! ## Physical values -/

/-- A scaling is linear, with a gain to divide by. -/
def LinearScaling (format : DataFormat) : Prop :=
  ∀ scaling, format.scaling = some scaling → ∃ gain offset g o, scaling = .linear gain offset ∧
    gain.value? = some g ∧ g ≠ 0 ∧ offset.value? = some o

/-- Exact arithmetic undoes a linear scaling. -/
theorem toRaw_of_toPhysical {scaling : ScalingFunction} (hlinear : format.LinearScaling)
    (hscaling : format.scaling = some scaling) (raw : ℤ) :
    ∃ x, scaling.toPhysical exact raw = .ok x ∧ scaling.toRaw exact x = .ok raw := by
  obtain ⟨gain, offset, g, o, rfl, hgain, hg, hoffset⟩ := hlinear scaling hscaling
  have hfloat : (PyFloat.finite raw).value? = some (raw : ℚ) := rfl
  have hx := PyFloat.value?_add hoffset (PyFloat.value?_mul hgain hfloat)
  obtain ⟨z, hz, hvalue⟩ := PyFloat.value?_div (PyFloat.value?_sub hx hoffset) hgain hg
  have hraw : (o + g * raw - o) / g = raw := by
    rw [add_sub_cancel_left, mul_div_cancel_left₀ (raw : ℚ) hg]
  refine ⟨_, rfl, bind_eq_ok.mpr ⟨z, hz, ?_⟩⟩
  rw [PyFloat.round_of_value hvalue, hraw, roundHalfEven_intCast]

/-- The way of a transfer through `float_from_raw` and `raw_from_float`. -/
def throughFloat (format : DataFormat) (t : Nat) : Except PyException Nat := do
  let x ← format.floatFromRaw exact t
  format.rawFromFloat exact x

/-- A scaled transfer is packed as it was extracted. -/
theorem throughFloat_of_scaling {scaling : ScalingFunction} (hlinear : format.LinearScaling)
    (hscaling : format.scaling = some scaling) (t : Nat) :
    format.throughFloat t = format.packData (format.extractData t) := by
  obtain ⟨x, hx, hraw⟩ := toRaw_of_toPhysical hlinear hscaling (format.extractData t)
  unfold throughFloat floatFromRaw rawFromFloat
  rw [hscaling]
  show (scaling.toPhysical exact _ >>= _) = _
  rw [hx]
  show (scaling.toRaw exact x >>= _) = _
  rw [hraw]
  rfl

/-- Without a scaling a number is packed if it passes for an unsigned one. -/
theorem throughFloat_of_none (hscaling : format.scaling = none) (t : Nat) :
    format.throughFloat t = (do
      ensure (0 ≤ format.extractData t ∧
        format.extractData t ≤ (1 <<< format.logicalWidth) - 1) .valueError
      format.packData (format.extractData t)) := by
  have hfloat : format.floatFromRaw exact t = .ok (.finite (format.extractData t)) := by
    unfold floatFromRaw
    rw [hscaling]
    rfl
  unfold throughFloat
  rw [hfloat]
  show format.rawFromFloat exact (.finite (format.extractData t)) = _
  unfold rawFromFloat
  rw [hscaling]
  show (Except.ok (roundHalfEven (format.extractData t)) >>= _) = _
  rw [roundHalfEven_intCast]
  rfl

/-- The transfers that come back: the field of a signed format has a sign bit, and a sign bit that
is set has a scaling. -/
def ReadsBack (format : DataFormat) (t : Nat) : Prop :=
  format.signed → 0 < format.logicalWidth ∧
    (format.scaling = none → t.testBit (format.dataLsb + format.logicalWidth - 1) = false)

/-- What passes for an unsigned number of the width. -/
theorem unsigned_bounds (hwidth : format.signed → 0 < format.logicalWidth)
    (hsign : format.signed →
      t.testBit (format.dataLsb + format.logicalWidth - 1) = false) :
    0 ≤ format.extractData t ∧
      format.extractData t ≤ ((1 <<< format.logicalWidth : Nat) : ℤ) - 1 := by
  obtain ⟨hrange, -⟩ := extractData_spec hwidth t
  have hshift : ((1 <<< format.logicalWidth : Nat) : ℤ) = 2 ^ format.logicalWidth := by
    rw [Nat.one_shiftLeft]
    push_cast
    rfl
  by_cases hsigned : format.signed
  · have hpos := hwidth hsigned
    have hnonneg := (extractData_nonneg_iff hsigned hpos).mpr (hsign hsigned)
    have hdouble := two_pow_logicalWidth hpos
    rw [inRange_of_signed hsigned] at hrange
    omega
  · rw [inRange_of_unsigned hsigned] at hrange
    omega

/-- A transfer comes back as its field exactly if it reads back. -/
theorem throughFloat_eq_ok_iff (h : format.dataLsb + format.logicalWidth ≤ format.transferBits)
    (hlinear : format.LinearScaling) (t : Nat) :
    format.throughFloat t = .ok (t &&& bitMask format.dataLsb format.logicalWidth) ↔
      format.ReadsBack t := by
  by_cases hwidth : format.signed → 0 < format.logicalWidth
  · have hpack := packData_extractData (t := t) h hwidth
    cases hscaling : format.scaling with
    | some scaling =>
      rw [throughFloat_of_scaling hlinear hscaling, hpack]
      refine iff_of_true rfl fun hsigned => ⟨hwidth hsigned, fun hnone => ?_⟩
      rw [hscaling] at hnone
      cases hnone
    | none =>
      rw [throughFloat_of_none hscaling, ensure_bind_eq_ok, hpack]
      constructor
      · rintro ⟨⟨hnonneg, -⟩, -⟩ hsigned
        exact ⟨hwidth hsigned, fun _ =>
          (extractData_nonneg_iff hsigned (hwidth hsigned)).mp hnonneg⟩
      · intro hreads
        exact ⟨unsigned_bounds hwidth fun hsigned => (hreads hsigned).2 hscaling, rfl⟩
  · have hempty : format.packData (format.extractData t) = .error .valueError := by
      apply packData_of_not_inRange
      exact fun hrange => hwidth (inRange_iff.mp hrange).1
    refine iff_of_false ?_ fun hreads => hwidth fun hsigned => (hreads hsigned).1
    cases hscaling : format.scaling with
    | some scaling =>
      rw [throughFloat_of_scaling hlinear hscaling, hempty]
      nofun
    | none =>
      rw [throughFloat_of_none hscaling, ensure_bind_eq_ok, hempty]
      nofun

/-- **Formats round trip up to the sign bit.** Every number of the field's range is packed so that
it is extracted again, every other number raises, and a transfer comes back from its physical value
as its field exactly if it reads back. -/
theorem format_round_trip (format : DataFormat)
    (h : format.dataLsb + format.logicalWidth ≤ format.transferBits)
    (hlinear : format.LinearScaling) :
    (∀ data, format.InRange data →
      ∃ t, format.packData data = .ok t ∧ format.extractData t = data) ∧
    (∀ data, ¬ format.InRange data → ∃ e, format.packData data = .error e) ∧
    ∀ t, format.throughFloat t = .ok (t &&& bitMask format.dataLsb format.logicalWidth) ↔
      format.ReadsBack t :=
  ⟨fun _ hdata => ⟨_, packData_of_inRange h hdata, extractData_packed hdata⟩,
    fun _ hdata => ⟨_, packData_of_not_inRange hdata⟩,
    fun t => throughFloat_eq_ok_iff h hlinear t⟩

/-- A signed word of twelve bits in sixteen, in quarters from ten on. -/
def quarters : DataFormat where
  transferBits := 16
  dataWidthBits := some 12
  dataLsb := 4
  signed := true
  scaling := some (.linear (.finite (1 / 4)) (.finite 10))

theorem format_round_trip_quarters :
    (∀ data, quarters.InRange data →
      ∃ t, quarters.packData data = .ok t ∧ quarters.extractData t = data) ∧
    (∀ data, ¬ quarters.InRange data → ∃ e, quarters.packData data = .error e) ∧
    ∀ t, quarters.throughFloat t = .ok (t &&& bitMask 4 12) ↔ quarters.ReadsBack t :=
  format_round_trip quarters (by decide) fun _ hscaling =>
    ⟨.finite (1 / 4), .finite 10, 1 / 4, 10, (Option.some.inj hscaling).symm, rfl, by norm_num, rfl⟩

/-- A signed byte without a scaling. -/
def signedByte : DataFormat where
  transferBits := 8
  signed := true

/-- The byte of minus one is read as a float that is not written back. -/
theorem minus_one_not_written :
    signedByte.dataLsb + signedByte.logicalWidth ≤ signedByte.transferBits ∧
      signedByte.scaling = none ∧ signedByte.packData (-1) = .ok 0xFF ∧
      signedByte.floatFromRaw exact 0xFF = .ok (.finite (-1)) ∧
      signedByte.rawFromFloat exact (.finite (-1)) = .error .valueError ∧
      signedByte.throughFloat 0xFF ≠ .ok (0xFF &&& bitMask 0 8) := by
  decide +kernel

end DataFormat

end Instro.I2c
