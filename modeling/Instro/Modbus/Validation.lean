import Instro.Library.Bounds
import Instro.Modbus.Write
import Mathlib.Tactic.NormNum

/-!
# What the write checks accept

Each check of `write`, and each mirrored check of a value map, as a condition on the value.
-/

namespace Instro.Modbus

open Instro.Library

/-! ## Accepted registers -/

/-- The checks of a register definition. -/
structure Checks (fl : Rounding) (reg : RegisterDef) : Prop where
  scale : reg.checkScale = .ok ()
  wordSwap : reg.checkWordSwap = .ok ()
  longSwap : reg.checkLongSwap = .ok ()
  addressSpan : reg.checkAddressSpan = .ok ()
  writeFields : reg.checkWriteFields = .ok ()
  limitOrder : reg.checkLimitOrder = .ok ()
  minRange : reg.checkLimitRange fl "write_min" reg.writeMin = .ok ()
  maxRange : reg.checkLimitRange fl "write_max" reg.writeMax = .ok ()
  valueMap : reg.checkValueMap fl = .ok ()
  bitmap : reg.checkBitmap = .ok ()

theorem accepted_iff {fl : Rounding} {reg : RegisterDef} : reg.Accepted fl ↔ Checks fl reg := by
  unfold RegisterDef.Accepted RegisterDef.validateRegisterTypeConstraints
  simp only [bind_eq_ok]
  constructor
  · rintro ⟨⟨⟩, h1, ⟨⟩, h2, ⟨⟩, h3, ⟨⟩, h4, ⟨⟩, h5, ⟨⟩, h6, ⟨⟩, h7, ⟨⟩, h8, ⟨⟩, h9, h10⟩
    exact ⟨h1, h2, h3, h4, h5, h6, h7, h8, h9, h10⟩
  · rintro ⟨h1, h2, h3, h4, h5, h6, h7, h8, h9, h10⟩
    exact ⟨(), h1, (), h2, (), h3, (), h4, (), h5, (), h6, (), h7, (), h8, (), h9, h10⟩

/-- A coil has no scale. -/
theorem Accepted.scale_of_coil {fl : Rounding} {reg : RegisterDef} (h : reg.Accepted fl)
    (hcoil : reg.registerType = .coil) : reg.scale = none := by
  have hnot := ensure_eq_ok.mp (accepted_iff.mp h).scale
  cases hs : reg.scale with
  | none => rfl
  | some s => exact absurd ⟨.inl hcoil, by rw [hs]; rfl⟩ hnot

/-- A register with a value map is a holding register. -/
theorem Accepted.holding_of_map {fl : Rounding} {reg : RegisterDef} (h : reg.Accepted fl)
    {m : ValueMap} (hmap : reg.writeValueMap = some m) : reg.registerType = .holding := by
  refine (ensure_eq_ok.mp (accepted_iff.mp h).writeFields).resolve_left ?_
  simp [hmap]

section Requests

variable {fl : Rounding} {reg : RegisterDef} {regAlias : String} {value rawValue : PyValue}
  {request : Request}

theorem validateWriteValue_eq_ok :
    validateWriteValue reg regAlias value = .ok () ↔
      ¬(reg.registerType = .input ∨ reg.registerType = .discrete) ∧
        checkWriteLimits reg regAlias value = .ok () ∧
        checkValueType reg regAlias value = .ok () := by
  unfold validateWriteValue
  rw [ensure_bind_eq_ok, bind_eq_ok]
  constructor
  · rintro ⟨h, ⟨⟩, hlimits, htype⟩
    exact ⟨h, hlimits, htype⟩
  · rintro ⟨h, hlimits, htype⟩
    exact ⟨h, (), hlimits, htype⟩

theorem requestFor_eq_ok :
    requestFor fl reg regAlias value = .ok request ↔
      validateWriteValue reg regAlias value = .ok () ∧ ∃ raw, rawValueOf fl reg value = .ok raw ∧
        ∃ raw', validateRawValueRange fl reg regAlias raw = .ok raw' ∧
          requestOf fl reg raw' = .ok request := by
  unfold requestFor
  simp only [bind_eq_ok]
  constructor
  · rintro ⟨⟨⟩, h⟩
    exact h
  · rintro h
    exact ⟨(), h⟩

theorem isBoolRegister_of_holding (hholding : reg.registerType = .holding)
    (hdt : reg.dataType ≠ .bool) : reg.isBoolRegister = false := by
  simp [RegisterDef.isBoolRegister, hholding, hdt]

/-- On a boolean register only the two booleans are accepted, as `bool` or as `int`. -/
theorem bool_of_checkValueType (hbool : reg.isBoolRegister = true)
    (h : checkValueType reg regAlias value = .ok ()) :
    ∃ b : Bool, value.number = .int b.toNat := by
  unfold checkValueType at h
  rw [if_pos hbool, ensure_eq_ok] at h
  rcases h with h | rfl | rfl
  · cases value with
    | bool b => exact ⟨b, rfl⟩
    | num x => cases h
  · exact ⟨false, rfl⟩
  · exact ⟨true, rfl⟩

theorem truthy_bool (b : Bool) : (Number.int b.toNat).truthy = b := by
  cases b <;> rfl

theorem roundScaled_of_none (h : reg.scale = none) :
    roundScaled fl reg regAlias rawValue = .ok rawValue := by
  unfold roundScaled
  rw [h]

/-- Without a scale the range check passes the value through. -/
theorem validateRawValueRange_of_none (h : reg.scale = none) {raw' : PyValue}
    (hraw : validateRawValueRange fl reg regAlias rawValue = .ok raw') : raw' = rawValue := by
  unfold validateRawValueRange at hraw
  cases hrange : integerRanges reg.dataType with
  | none =>
    rw [hrange] at hraw
    exact (Except.ok.inj hraw).symm
  | some range =>
    rw [hrange] at hraw
    obtain ⟨r, hr, hraw⟩ := bind_eq_ok.mp hraw
    rw [roundScaled_of_none h] at hr
    obtain rfl := Except.ok.inj hr
    obtain ⟨n, -, hraw⟩ := bind_eq_ok.mp hraw
    exact (Except.ok.inj (ensure_bind_eq_ok.mp hraw).2).symm

theorem rawValueOf_of_none (h : reg.scale = none) : rawValueOf fl reg value = .ok value := by
  unfold rawValueOf
  rw [h]

theorem rawValueOf_of_some {s : LinearScale} (h : reg.scale = some s) {raw : PyValue}
    (hraw : rawValueOf fl reg value = .ok raw) :
    ∃ x, s.toRaw fl value.number = .ok x ∧ raw = .num (.float x) := by
  unfold rawValueOf at hraw
  rw [h] at hraw
  obtain ⟨x, hx, hraw⟩ := bind_eq_ok.mp hraw
  exact ⟨x, raiseAs_eq_ok.mp hx, (Except.ok.inj hraw).symm⟩

/-- On an integer register with a scale the raw value is the integer it is close to. -/
theorem validateRawValueRange_eq_ok {s : LinearScale} (h : reg.scale = some s)
    {dtMin dtMax : ℤ} (hrange : integerRanges reg.dataType = some (dtMin, dtMax)) {x : PyFloat}
    {raw' : PyValue} :
    validateRawValueRange fl reg regAlias (.num (.float x)) = .ok raw' ↔
      ∃ n, x.round = .ok n ∧ isFractional fl x = .ok false ∧ dtMin ≤ n ∧ n ≤ dtMax ∧
        raw' = .num (.int n) := by
  unfold validateRawValueRange roundScaled
  rw [hrange, h]
  constructor
  · intro hraw
    obtain ⟨r, hr, hraw⟩ := bind_eq_ok.mp hraw
    obtain ⟨fractional, hfractional, hr⟩ := bind_eq_ok.mp hr
    obtain ⟨hfalse, hr⟩ := ensure_bind_eq_ok.mp hr
    obtain ⟨n, hn, hr⟩ := bind_eq_ok.mp hr
    obtain rfl := Except.ok.inj hr
    obtain ⟨m, hm, hraw⟩ := bind_eq_ok.mp hraw
    obtain rfl : n = m := Except.ok.inj (raiseAs_eq_ok.mp hm)
    obtain ⟨⟨hlo, hhi⟩, hraw⟩ := ensure_bind_eq_ok.mp hraw
    exact ⟨n, raiseAs_eq_ok.mp hn, hfalse ▸ raiseAs_eq_ok.mp hfractional, hlo, hhi,
      (Except.ok.inj hraw).symm⟩
  · rintro ⟨n, hround, hfrac, hlo, hhi, rfl⟩
    refine bind_eq_ok.mpr ⟨.num (.int n), ?_, bind_eq_ok.mpr ⟨n, rfl,
      ensure_bind_eq_ok.mpr ⟨⟨hlo, hhi⟩, rfl⟩⟩⟩
    exact bind_eq_ok.mpr ⟨false, raiseAs_eq_ok.mpr hfrac, ensure_bind_eq_ok.mpr ⟨rfl,
      bind_eq_ok.mpr ⟨n, raiseAs_eq_ok.mpr hround, rfl⟩⟩⟩

/-- A boolean register emits its truth value, an integer register its integer. -/
theorem requestOf_coil (hcoil : reg.registerType = .coil) :
    requestOf fl reg rawValue = .ok (.writeCoil reg.startingAddress rawValue.number.truthy) := by
  unfold requestOf
  rw [hcoil]

theorem requestOf_holding (hholding : reg.registerType = .holding)
    (h : requestOf fl reg rawValue = .ok request) :
    ∃ words, encodeValue fl reg.byteSwap reg.wordSwap reg.longSwap rawValue reg.dataType =
      .ok words ∧ request = holdingRequest reg.startingAddress words := by
  unfold requestOf at h
  rw [hholding] at h
  obtain ⟨words, hwords, h⟩ := bind_eq_ok.mp h
  exact ⟨words, raiseAs_eq_ok.mp hwords, (Except.ok.inj h).symm⟩

/-! ## Write limits -/

/-- The write limits of a register. -/
def RegisterDef.limits (reg : RegisterDef) : Bounds := ⟨reg.writeMin, reg.writeMax⟩

theorem checkWriteLimits_eq_ok :
    checkWriteLimits reg regAlias value = .ok () ↔ reg.limits.Admits value.number := by
  unfold checkWriteLimits Bounds.Admits RegisterDef.limits
  cases reg.writeMin <;> cases reg.writeMax <;> simp

theorem checkEntryLimits_eq_ok {label : String} {x : Number} :
    reg.checkEntryLimits label x = .ok () ↔ reg.limits.Admits x := by
  unfold RegisterDef.checkEntryLimits Bounds.Admits RegisterDef.limits
  cases reg.writeMin <;> cases reg.writeMax <;> simp

/-! ## Integer registers -/

/-- An integer of the range. -/
def HasInteger (dtMin dtMax : ℤ) (x : Number) : Prop :=
  ∃ n : ℤ, x.value? = some (n : ℚ) ∧ dtMin ≤ n ∧ n ≤ dtMax

/-- The raw value is close to an integer of the range. -/
def ScalesToInteger (fl : Rounding) (s : LinearScale) (dtMin dtMax : ℤ) (x : Number) : Prop :=
  ∃ raw n, s.toRaw fl x = .ok raw ∧ isFractional fl raw = .ok false ∧ raw.round = .ok n ∧
    dtMin ≤ n ∧ n ≤ dtMax

/-- The number becomes a raw integer of the range. -/
def FitsInteger (fl : Rounding) (reg : RegisterDef) (dtMin dtMax : ℤ) (x : Number) : Prop :=
  match reg.scale with
  | none => HasInteger dtMin dtMax x
  | some s => ScalesToInteger fl s dtMin dtMax x

/-- A number that is equal to its integer part rounds to it. -/
theorem toInt_eq_iff {x : Number} {n : ℤ} :
    x.toInt = .ok n ∧ (x.isFloat = false ∨ x.eq (.int n) = true) ↔ x.value? = some (n : ℚ) := by
  cases x with
  | int m =>
    constructor
    · rintro ⟨h, -⟩
      obtain rfl : m = n := Except.ok.inj h
      rfl
    · intro h
      obtain rfl : m = n := by exact_mod_cast Option.some.inj h
      exact ⟨rfl, .inl rfl⟩
  | float x =>
    constructor
    · rintro ⟨h, heq⟩
      obtain ⟨q, hq, -⟩ := PyFloat.value_of_toInt h
      have heq' := heq.resolve_left (by simp [Number.isFloat])
      rw [Number.eq_of_values (x := .float x) (y := .int n) hq rfl] at heq'
      exact hq.trans (congrArg some (of_decide_eq_true heq'))
    · intro h
      refine ⟨?_, .inr ?_⟩
      · show x.toInt = _
        rw [PyFloat.toInt_of_value h, truncate_intCast]
      · rw [Number.eq_of_values (x := .float x) (y := .int n) h rfl]
        exact decide_eq_true rfl

theorem round_of_integer {x : Number} {n : ℤ} (h : x.value? = some (n : ℚ)) :
    x.round = .ok n := by
  cases x with
  | int m =>
    obtain rfl : m = n := by exact_mod_cast Option.some.inj h
    rfl
  | float x => rw [Number.round, PyFloat.round_of_value h, roundHalfEven_intCast]

theorem checkIntegerEntry_eq_ok {dtMin dtMax : ℤ} {label : String} {x : Number} :
    reg.checkIntegerEntry fl dtMin dtMax label x = .ok () ↔
      FitsInteger fl reg dtMin dtMax x := by
  unfold RegisterDef.checkIntegerEntry FitsInteger
  cases hscale : reg.scale with
  | none =>
    constructor
    · intro h
      cases x with
      | int n =>
        obtain ⟨m, hm, h⟩ := bind_eq_ok.mp h
        obtain rfl : n = m := Except.ok.inj (raiseAs_eq_ok.mp hm)
        exact ⟨n, rfl, ensure_eq_ok.mp h⟩
      | float x =>
        obtain ⟨n, hn, h⟩ := bind_eq_ok.mp h
        obtain ⟨heq, h⟩ := ensure_bind_eq_ok.mp h
        have hvalue := toInt_eq_iff.mp ⟨raiseAs_eq_ok.mp hn, .inr heq⟩
        obtain ⟨m, hm, h⟩ := bind_eq_ok.mp h
        obtain rfl : n = m :=
          Except.ok.inj ((round_of_integer hvalue).symm.trans (raiseAs_eq_ok.mp hm))
        exact ⟨n, hvalue, ensure_eq_ok.mp h⟩
    · rintro ⟨n, hvalue, hrange⟩
      have hround := round_of_integer hvalue
      cases x with
      | int m => exact bind_eq_ok.mpr ⟨n, raiseAs_eq_ok.mpr hround, ensure_eq_ok.mpr hrange⟩
      | float x =>
        obtain ⟨hn, heq⟩ := toInt_eq_iff.mpr hvalue
        have heq' := heq.resolve_left (by simp [Number.isFloat])
        exact bind_eq_ok.mpr ⟨n, raiseAs_eq_ok.mpr hn, ensure_bind_eq_ok.mpr ⟨heq',
          bind_eq_ok.mpr ⟨n, raiseAs_eq_ok.mpr hround, ensure_eq_ok.mpr hrange⟩⟩⟩
  | some s =>
    constructor
    · intro h
      obtain ⟨raw, hraw, h⟩ := bind_eq_ok.mp h
      obtain ⟨fractional, hfrac, h⟩ := bind_eq_ok.mp h
      obtain ⟨hfalse, h⟩ := ensure_bind_eq_ok.mp h
      obtain ⟨n, hn, h⟩ := bind_eq_ok.mp h
      exact ⟨raw, n, raiseAs_eq_ok.mp hraw, hfalse ▸ raiseAs_eq_ok.mp hfrac, raiseAs_eq_ok.mp hn,
        ensure_eq_ok.mp h⟩
    · rintro ⟨raw, n, hraw, hfrac, hn, hrange⟩
      exact bind_eq_ok.mpr ⟨raw, raiseAs_eq_ok.mpr hraw, bind_eq_ok.mpr ⟨false,
        raiseAs_eq_ok.mpr hfrac, ensure_bind_eq_ok.mpr ⟨rfl, bind_eq_ok.mpr ⟨n,
          raiseAs_eq_ok.mpr hn, ensure_eq_ok.mpr hrange⟩⟩⟩⟩

/-- An integer register takes the numbers that fit it, and no `bool`. -/
theorem checkValueType_integer (hbool : reg.isBoolRegister = false) {dtMin dtMax : ℤ}
    (hrange : integerRanges reg.dataType = some (dtMin, dtMax)) :
    checkValueType reg regAlias value = .ok () ↔ value.isBool = false ∧
      (reg.scale = none → HasInteger dtMin dtMax value.number) := by
  unfold checkValueType
  rw [if_neg (by simp [hbool]), hrange]
  show (ensure _ _ >>= fun _ => _) = _ ↔ _
  rw [ensure_bind_eq_ok]
  refine and_congr_right fun _ => ?_
  cases hscale : reg.scale with
  | some s => exact iff_of_true rfl nofun
  | none =>
    constructor
    · intro h _
      obtain ⟨n, hn, h⟩ := bind_eq_ok.mp h
      obtain ⟨hint, h⟩ := ensure_bind_eq_ok.mp h
      exact ⟨n, toInt_eq_iff.mp ⟨raiseAs_eq_ok.mp hn, hint⟩, ensure_eq_ok.mp h⟩
    · intro h
      obtain ⟨n, hvalue, hn⟩ := h rfl
      obtain ⟨hint, hor⟩ := toInt_eq_iff.mpr hvalue
      exact bind_eq_ok.mpr ⟨n, raiseAs_eq_ok.mpr hint, ensure_bind_eq_ok.mpr ⟨hor,
        ensure_eq_ok.mpr hn⟩⟩

/-- An integer that fits is packed. -/
theorem requestOf_of_round (hholding : reg.registerType = .holding) {k : Nat} {signed : Bool}
    (hformat : integerFormat reg.dataType = some (k, signed)) {dtMin dtMax : ℤ}
    (hrange : integerRanges reg.dataType = some (dtMin, dtMax)) {n : ℤ}
    (hround : rawValue.number.round = .ok n) (hn : dtMin ≤ n ∧ n ≤ dtMax) :
    ∃ request, requestOf fl reg rawValue = .ok request := by
  have hwords := encodeValue_of_format fl reg.byteSwap reg.wordSwap reg.longSwap hformat hround
    ((fits_of_range hrange hformat).mpr hn)
  unfold requestOf
  rw [hholding]
  exact ⟨_, bind_eq_ok.mpr ⟨_, raiseAs_eq_ok.mpr hwords, rfl⟩⟩

/-- Without a scale an integer of the data type passes the range check. -/
theorem validateRawValueRange_of_integer (hscale : reg.scale = none) {dtMin dtMax : ℤ}
    (hrange : integerRanges reg.dataType = some (dtMin, dtMax)) {n : ℤ}
    (hvalue : value.number.value? = some (n : ℚ)) (hn : dtMin ≤ n ∧ n ≤ dtMax) :
    validateRawValueRange fl reg regAlias value = .ok value := by
  obtain ⟨hint, -⟩ := toInt_eq_iff.mpr hvalue
  unfold validateRawValueRange
  rw [hrange]
  exact bind_eq_ok.mpr ⟨value, roundScaled_of_none hscale, bind_eq_ok.mpr ⟨n,
    raiseAs_eq_ok.mpr hint, ensure_bind_eq_ok.mpr ⟨hn, rfl⟩⟩⟩

/-- What is packed for a holding register of an integer type, and when. -/
theorem requestFor_integer_iff (hholding : reg.registerType = .holding) {k : Nat} {signed : Bool}
    (hformat : integerFormat reg.dataType = some (k, signed)) {dtMin dtMax : ℤ}
    (hrange : integerRanges reg.dataType = some (dtMin, dtMax)) :
    (∃ request, requestFor fl reg regAlias value = .ok request) ↔
      reg.limits.Admits value.number ∧ value.isBool = false ∧
        FitsInteger fl reg dtMin dtMax value.number := by
  have hbool := isBoolRegister_of_holding hholding fun hdt => by
    rw [hdt] at hformat
    cases hformat
  have hnotInput : ¬(reg.registerType = .input ∨ reg.registerType = .discrete) := by
    simp [hholding]
  unfold FitsInteger
  constructor
  · rintro ⟨request, h⟩
    obtain ⟨hvalid, raw, hraw, raw', hraw', -⟩ := requestFor_eq_ok.mp h
    obtain ⟨-, hlimits, htype⟩ := validateWriteValue_eq_ok.mp hvalid
    obtain ⟨hnot, hint⟩ := (checkValueType_integer hbool hrange).mp htype
    refine ⟨checkWriteLimits_eq_ok.mp hlimits, hnot, ?_⟩
    cases hscale : reg.scale with
    | none => exact hint hscale
    | some s =>
      obtain ⟨x, hx, rfl⟩ := rawValueOf_of_some hscale hraw
      obtain ⟨n, hn, hfrac, hlo, hhi, -⟩ := (validateRawValueRange_eq_ok hscale hrange).mp hraw'
      exact ⟨x, n, hx, hfrac, hn, hlo, hhi⟩
  · rintro ⟨hlimits, hnot, hfits⟩
    have hvalid : validateWriteValue reg regAlias value = .ok () := by
      refine validateWriteValue_eq_ok.mpr ⟨hnotInput, checkWriteLimits_eq_ok.mpr hlimits,
        (checkValueType_integer hbool hrange).mpr ⟨hnot, fun hscale => ?_⟩⟩
      rw [hscale] at hfits
      exact hfits
    cases hscale : reg.scale with
    | none =>
      rw [hscale] at hfits
      obtain ⟨n, hvalue, hn⟩ := hfits
      obtain ⟨request, hrequest⟩ :=
        requestOf_of_round hholding hformat hrange (round_of_integer hvalue) hn
      exact ⟨request, requestFor_eq_ok.mpr ⟨hvalid, value, rawValueOf_of_none hscale, value,
        validateRawValueRange_of_integer hscale hrange hvalue hn, hrequest⟩⟩
    | some s =>
      rw [hscale] at hfits
      obtain ⟨x, n, hx, hfrac, hround, hn⟩ := hfits
      have hint : (PyValue.num (.int n)).number.round = .ok n := rfl
      obtain ⟨request, hrequest⟩ := requestOf_of_round hholding hformat hrange hint hn
      refine ⟨request, requestFor_eq_ok.mpr ⟨hvalid, .num (.float x), ?_, .num (.int n),
        (validateRawValueRange_eq_ok hscale hrange).mpr ⟨n, hround, hfrac, hn.1, hn.2, rfl⟩,
        hrequest⟩⟩
      unfold rawValueOf
      rw [hscale]
      exact bind_eq_ok.mpr ⟨x, raiseAs_eq_ok.mpr hx, rfl⟩

/-! ## Boolean and float registers -/

/-- The raw number of a value, as the float that is packed. -/
def rawFloat (fl : Rounding) (reg : RegisterDef) (x : Number) : Except PyException PyFloat :=
  match reg.scale with
  | none => x.toFloat fl
  | some s => s.toRaw fl x

/-- The number converts to a raw float that its data type can hold: a `float32` register holds no
finite float that would round beyond the largest one. -/
def FitsFloat (fl : Rounding) (reg : RegisterDef) (x : Number) : Prop :=
  ∃ raw, rawFloat fl reg x = .ok raw ∧
    (reg.dataType = .float32 → ∀ q, raw.value? = some q → |q| < 2 ^ 128 - 2 ^ 103)

/-- The raw value of a register that is not of an integer type is packed as it is. -/
theorem validateRawValueRange_of_not_integer (hrange : integerRanges reg.dataType = none) :
    validateRawValueRange fl reg regAlias rawValue = .ok rawValue := by
  unfold validateRawValueRange
  rw [hrange]

theorem toRaw_bool (fl : Rounding) (s : LinearScale) (b : Bool) :
    ∃ x, s.toRaw fl (.int b.toNat) = .ok x := by
  have hint : fl ((b.toNat : ℤ) : ℚ) = .finite b.toNat :=
    fl.round_int b.toNat (by cases b <;> norm_num)
  have hfloat : (Number.int b.toNat).toFloat fl = .ok (.finite b.toNat) := by
    show PyFloat.ofInt fl b.toNat = _
    unfold PyFloat.ofInt
    rw [hint]
    rfl
  have hdiv : ∃ x, PyFloat.div fl (PyFloat.sub fl (.finite b.toNat) s.offset) s.gain = .ok x := by
    unfold PyFloat.div
    rw [if_neg (by simp [s.gain_ne_zero])]
    exact ⟨_, rfl⟩
  obtain ⟨x, hx⟩ := hdiv
  exact ⟨x, bind_eq_ok.mpr ⟨_, hfloat, hx⟩⟩

/-- A holding register of type `bool` takes the two booleans. -/
theorem requestFor_bool_iff (hholding : reg.registerType = .holding)
    (hbool : reg.dataType = .bool) :
    (∃ request, requestFor fl reg regAlias value = .ok request) ↔
      reg.limits.Admits value.number ∧
        (value.isBool = true ∨ value = .num (.int 0) ∨ value = .num (.int 1)) := by
  have hregister : reg.isBoolRegister = true := by simp [RegisterDef.isBoolRegister, hbool]
  have htype : checkValueType reg regAlias value = .ok () ↔
      (value.isBool = true ∨ value = .num (.int 0) ∨ value = .num (.int 1)) := by
    unfold checkValueType
    rw [if_pos hregister, ensure_eq_ok]
  have hnone : integerRanges reg.dataType = none := by rw [hbool]; rfl
  constructor
  · rintro ⟨request, h⟩
    obtain ⟨hvalid, -⟩ := requestFor_eq_ok.mp h
    obtain ⟨-, hlimits, hvalue⟩ := validateWriteValue_eq_ok.mp hvalid
    exact ⟨checkWriteLimits_eq_ok.mp hlimits, htype.mp hvalue⟩
  · rintro ⟨hlimits, hvalue⟩
    have hvalid : validateWriteValue reg regAlias value = .ok () :=
      validateWriteValue_eq_ok.mpr ⟨by simp [hholding], checkWriteLimits_eq_ok.mpr hlimits,
        htype.mpr hvalue⟩
    have hraw : ∃ raw, rawValueOf fl reg value = .ok raw := by
      obtain ⟨b, hb⟩ := bool_of_checkValueType hregister (htype.mpr hvalue)
      unfold rawValueOf
      cases reg.scale with
      | none => exact ⟨value, rfl⟩
      | some s =>
        obtain ⟨x, hx⟩ := toRaw_bool fl s b
        rw [hb]
        exact ⟨_, bind_eq_ok.mpr ⟨x, raiseAs_eq_ok.mpr hx, rfl⟩⟩
    obtain ⟨raw, hraw⟩ := hraw
    have hrequest : ∃ request, requestOf fl reg raw = .ok request := by
      unfold requestOf encode
      rw [hholding, hbool]
      exact ⟨_, rfl⟩
    obtain ⟨request, hrequest⟩ := hrequest
    exact ⟨request, requestFor_eq_ok.mpr ⟨hvalid, raw, hraw, raw,
      validateRawValueRange_of_not_integer hnone, hrequest⟩⟩

/-- The raw float of a value is its raw value as a float. -/
theorem rawFloat_eq_ok {x : PyFloat} :
    rawFloat fl reg value.number = .ok x ↔
      ∃ raw, rawValueOf fl reg value = .ok raw ∧ raw.number.toFloat fl = .ok x := by
  unfold rawFloat rawValueOf
  cases reg.scale with
  | none =>
    constructor
    · intro h
      exact ⟨value, rfl, h⟩
    · rintro ⟨raw, hraw, h⟩
      obtain rfl := Except.ok.inj hraw
      exact h
  | some s =>
    constructor
    · intro h
      exact ⟨_, bind_eq_ok.mpr ⟨x, raiseAs_eq_ok.mpr h, rfl⟩, rfl⟩
    · rintro ⟨raw, hraw, h⟩
      obtain ⟨y, hy, hraw⟩ := bind_eq_ok.mp hraw
      obtain rfl := Except.ok.inj hraw
      obtain rfl : y = x := Except.ok.inj h
      exact raiseAs_eq_ok.mp hy

/-- A float register packs the floats of its format. -/
theorem requestOf_float_iff (hholding : reg.registerType = .holding)
    (hfloat : reg.dataType.isFloat = true) :
    (∃ request, requestOf fl reg rawValue = .ok request) ↔
      ∃ x, rawValue.number.toFloat fl = .ok x ∧
        (reg.dataType = .float32 → ∀ q, x.value? = some q → |q| < 2 ^ 128 - 2 ^ 103) := by
  have hencode : (∃ request, requestOf fl reg rawValue = .ok request) ↔
      ∃ words, encodeValue fl reg.byteSwap reg.wordSwap reg.longSwap rawValue reg.dataType =
        .ok words := by
    constructor
    · rintro ⟨request, h⟩
      obtain ⟨words, hwords, -⟩ := requestOf_holding hholding h
      exact ⟨words, hwords⟩
    · rintro ⟨words, hwords⟩
      unfold requestOf
      rw [hholding]
      exact ⟨_, bind_eq_ok.mpr ⟨words, raiseAs_eq_ok.mpr hwords, rfl⟩⟩
  rw [hencode]
  cases hdt : reg.dataType with
  | float32 =>
    rw [← binary32_limit]
    constructor
    · rintro ⟨words, hwords⟩
      obtain ⟨x, hx, hwords⟩ := bind_eq_ok.mp hwords
      obtain ⟨bytes, hbytes, -⟩ := bind_eq_ok.mp hwords
      exact ⟨x, hx, fun _ => FloatFormat.binary32.pack_isOk_iff.mp ⟨bytes, hbytes⟩⟩
    · rintro ⟨x, hx, hlimit⟩
      obtain ⟨bytes, hbytes⟩ := FloatFormat.binary32.pack_isOk_iff.mpr (hlimit rfl)
      exact ⟨_, bind_eq_ok.mpr ⟨x, hx, bind_eq_ok.mpr ⟨bytes, hbytes, rfl⟩⟩⟩
  | float64 =>
    constructor
    · rintro ⟨words, hwords⟩
      obtain ⟨x, hx, -⟩ := bind_eq_ok.mp hwords
      exact ⟨x, hx, nofun⟩
    · rintro ⟨x, hx, -⟩
      exact ⟨_, bind_eq_ok.mpr ⟨x, hx, rfl⟩⟩
  | _ => rw [hdt] at hfloat; cases hfloat

/-- A holding register of a float type takes the numbers whose raw float can be packed. -/
theorem requestFor_float_iff (hholding : reg.registerType = .holding)
    (hfloat : reg.dataType.isFloat = true) :
    (∃ request, requestFor fl reg regAlias value = .ok request) ↔
      reg.limits.Admits value.number ∧ value.isBool = false ∧ FitsFloat fl reg value.number := by
  have hregister := isBoolRegister_of_holding hholding fun hdt => by
    rw [hdt] at hfloat
    cases hfloat
  have hnone : integerRanges reg.dataType = none := by
    cases hdt : reg.dataType <;> rw [hdt] at hfloat <;> first | rfl | cases hfloat
  have htype : checkValueType reg regAlias value = .ok () ↔ value.isBool = false := by
    unfold checkValueType
    rw [if_neg (by simp [hregister]), hnone]
    exact ensure_eq_ok
  unfold FitsFloat
  constructor
  · rintro ⟨request, h⟩
    obtain ⟨hvalid, raw, hraw, raw', hraw', hrequest⟩ := requestFor_eq_ok.mp h
    obtain ⟨-, hlimits, hvalue⟩ := validateWriteValue_eq_ok.mp hvalid
    rw [validateRawValueRange_of_not_integer hnone] at hraw'
    obtain rfl := Except.ok.inj hraw'
    obtain ⟨x, hx, hfits⟩ := (requestOf_float_iff hholding hfloat).mp ⟨request, hrequest⟩
    exact ⟨checkWriteLimits_eq_ok.mp hlimits, htype.mp hvalue, x,
      rawFloat_eq_ok.mpr ⟨raw, hraw, hx⟩, hfits⟩
  · rintro ⟨hlimits, hvalue, x, hrawFloat, hfits⟩
    obtain ⟨raw, hraw, hx⟩ := rawFloat_eq_ok.mp hrawFloat
    obtain ⟨request, hrequest⟩ := (requestOf_float_iff hholding hfloat).mpr ⟨x, hx, hfits⟩
    have hvalid : validateWriteValue reg regAlias value = .ok () :=
      validateWriteValue_eq_ok.mpr ⟨by simp [hholding], checkWriteLimits_eq_ok.mpr hlimits,
        htype.mpr hvalue⟩
    exact ⟨request, requestFor_eq_ok.mpr ⟨hvalid, raw, hraw, raw,
      validateRawValueRange_of_not_integer hnone, hrequest⟩⟩

end Requests

end Instro.Modbus
