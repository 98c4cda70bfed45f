import Instro.Modbus.Bijection
import Instro.Modbus.RoundTrip

/-!
# What a register holds

A request is decoded as `read` decodes it. What comes out is the number that the register holds for the
value: an integer register without a scale and a bit hold the value itself, a float register the nearest
float of its format, and a register with a scale what its raw number scales to.
-/

namespace Instro.Modbus

open Instro.Library

theorem width_of_floatFormat {dt : DataType} {fmt : FloatFormat} {k : ℕ}
    (h : floatFormat dt = some (fmt, k)) : fmt.width = k := by
  cases dt <;> cases h <;> rfl

theorem eq_bool_of_formats {dt : DataType} (hinteger : integerFormat dt = none)
    (hfloat : floatFormat dt = none) : dt = .bool := by
  cases dt <;> simp [integerFormat, floatFormat] at hinteger hfloat ⊢

/-- The number of the data type that stands for a raw number. -/
def nearest (fl : Rounding) (dataType : DataType) (raw : Number) : Except PyException Number :=
  match integerFormat dataType, floatFormat dataType with
  | some _, _ => do
    let n ← raw.round
    return .int n
  | none, some (fmt, _) => do
    let x ← raw.toFloat fl
    return .float (fmt.packed x)
  | none, none => .ok (.int raw.truthy.toNat)

theorem nearest_of_round {fl : Rounding} {dt : DataType} {format : ℕ × Bool}
    (hformat : integerFormat dt = some format) {raw : Number} {n : ℤ} (hround : raw.round = .ok n) :
    nearest fl dt raw = .ok (.int n) := by
  unfold nearest
  rw [hformat]
  exact bind_eq_ok.mpr ⟨n, hround, rfl⟩

namespace RegisterDef

variable (fl : Rounding) (reg : RegisterDef)

/-- The raw number of a physical one. -/
def rawNumber (x : Number) : Except PyException Number :=
  match reg.scale with
  | some s => do
    let raw ← s.toRaw fl x
    return .float raw
  | none => .ok x

/-- The physical number that the register holds for a number. -/
def held (x : Number) : Except PyException Number := do
  let raw ← reg.rawNumber fl x
  let stored ← nearest fl reg.dataType raw
  applyScaling fl stored reg

end RegisterDef

/-- A device that holds what the request has written reads the physical number. -/
def Decodes (fl : Rounding) (reg : RegisterDef) (request : Request) (x : Number) : Prop :=
  ∀ mem : Memory, mem.Holds request →
    ∃ raw, readRegisterRaw mem reg = .ok raw ∧ applyScaling fl raw reg = .ok x

section Requests

variable {fl : Rounding} {reg : RegisterDef} {regAlias : String} {value : PyValue} {request : Request}
  {mem : Memory}

theorem rawNumber_of_rawValueOf {raw : PyValue} (h : rawValueOf fl reg value = .ok raw) :
    reg.rawNumber fl value.number = .ok raw.number := by
  unfold RegisterDef.rawNumber
  cases hscale : reg.scale with
  | none =>
    rw [rawValueOf_of_none hscale] at h
    obtain rfl := Except.ok.inj h
    rfl
  | some s =>
    obtain ⟨x, hx, rfl⟩ := rawValueOf_of_some hscale h
    exact bind_eq_ok.mpr ⟨x, hx, rfl⟩

theorem decodeRegisters_packed (byteSwap wordSwap longSwap : Bool) {dt : DataType} {fmt : FloatFormat}
    {k : ℕ} (h : floatFormat dt = some (fmt, k)) (w : ℕ) :
    decodeRegisters byteSwap wordSwap longSwap
        (registersOfBytes (swapOut byteSwap wordSwap longSwap (toBytes k w))) dt =
      .ok (.float (fmt.unpack (toBytes k w))) := by
  obtain ⟨-, -, heven⟩ := proper_of_floatFormat h
  have hbytes : swapIn byteSwap wordSwap longSwap (bytesOfRegisters
      (registersOfBytes (swapOut byteSwap wordSwap longSwap (toBytes k w)))) = toBytes k w := by
    rw [bytesOfRegisters_registersOfBytes (by simpa using heven), swapIn_swapOut]
  rw [decodeRegisters_of_floatFormat h (by rw [hbytes, length_toBytes]), hbytes]

/-- A float register reads back the float that was packed. -/
theorem readRegisterRaw_of_floatFormat (hholding : reg.registerType = .holding) {fmt : FloatFormat}
    {k : ℕ} (hfmt : floatFormat reg.dataType = some (fmt, k)) {w : ℕ}
    (hmem : mem.Holds (holdingRequest reg.startingAddress
      (registersOfBytes (swapOut reg.byteSwap reg.wordSwap reg.longSwap (toBytes k w))))) :
    readRegisterRaw mem reg = .ok (.float (fmt.unpack (toBytes k w))) := by
  have hwidth : k = 2 * reg.registerCount := by
    unfold RegisterDef.registerCount
    cases hdt : reg.dataType <;> rw [hdt] at hfmt <;> cases hfmt <;> rfl
  have hlen : (registersOfBytes (swapOut reg.byteSwap reg.wordSwap reg.longSwap
      (toBytes k w))).length = reg.registerCount := by
    rw [length_registersOfBytes (by simp [hwidth]), length_swapOut, length_toBytes, hwidth]
    omega
  rw [holds_holdingRequest, hlen] at hmem
  unfold readRegisterRaw
  rw [hholding]
  show decodeRegisters _ _ _ (readItems _ _ _) _ = _
  rw [hmem]
  exact decodeRegisters_packed _ _ _ hfmt w

/-- The words of a float are those of the bits of its format. -/
theorem words_of_floatFormat (byteSwap wordSwap longSwap : Bool) {dt : DataType}
    {fmt : FloatFormat} {k : ℕ} (h : floatFormat dt = some (fmt, k)) {words : List ℕ}
    (hwords : encodeValue fl byteSwap wordSwap longSwap value dt = .ok words) :
    ∃ x, value.number.toFloat fl = .ok x ∧ words =
      registersOfBytes (swapOut byteSwap wordSwap longSwap (toBytes k (fmt.bits x))) := by
  cases dt with
  | float32 =>
    obtain ⟨⟩ := h
    obtain ⟨x, hx, hwords⟩ := bind_eq_ok.mp hwords
    obtain ⟨bytes, hbytes, hwords⟩ := bind_eq_ok.mp hwords
    obtain rfl := Except.ok.inj hwords
    rw [FloatFormat.bytes_of_pack hbytes]
    exact ⟨x, hx, rfl⟩
  | float64 =>
    obtain ⟨⟩ := h
    obtain ⟨x, hx, hwords⟩ := bind_eq_ok.mp hwords
    exact ⟨x, hx, (Except.ok.inj hwords).symm⟩
  | _ => cases h

/-- What is encoded of a raw value is read back as the number of the data type. -/
theorem read_of_encodeValue (hholding : reg.registerType = .holding) {raw : PyValue} {words : List ℕ}
    (hrange : ∀ {dtMin dtMax n}, integerRanges reg.dataType = some (dtMin, dtMax) →
      raw.number.round = .ok n → dtMin ≤ n ∧ n ≤ dtMax)
    (hwords : encodeValue fl reg.byteSwap reg.wordSwap reg.longSwap raw reg.dataType = .ok words) :
    ∃ stored, nearest fl reg.dataType raw.number = .ok stored ∧
      ∀ mem : Memory, mem.Holds (holdingRequest reg.startingAddress words) →
        readRegisterRaw mem reg = .ok stored := by
  cases hformat : integerFormat reg.dataType with
  | some format =>
    obtain ⟨k, signed⟩ := format
    obtain ⟨⟨dtMin, dtMax⟩, hdt⟩ := range_of_format hformat
    have hround : ∃ n, raw.number.round = .ok n := by
      unfold encodeValue at hwords
      rw [hformat] at hwords
      obtain ⟨n, hround, -⟩ := bind_eq_ok.mp hwords
      exact ⟨n, hround⟩
    obtain ⟨n, hround⟩ := hround
    have hfits := (fits_of_range hdt hformat).mpr (hrange hdt hround)
    rw [encodeValue_of_format _ _ _ _ hformat hround hfits] at hwords
    obtain rfl := Except.ok.inj hwords
    exact ⟨.int n, nearest_of_round hformat hround,
      fun mem hmem => readRegisterRaw_of_format hholding hformat hfits hmem⟩
  | none =>
    unfold nearest
    rw [hformat]
    cases hfmt : floatFormat reg.dataType with
    | some format =>
      obtain ⟨fmt, k⟩ := format
      obtain rfl := width_of_floatFormat hfmt
      obtain ⟨x, hx, rfl⟩ := words_of_floatFormat _ _ _ hfmt hwords
      exact ⟨.float (fmt.packed x), bind_eq_ok.mpr ⟨x, hx, rfl⟩,
        fun mem hmem => readRegisterRaw_of_floatFormat hholding hfmt hmem⟩
    | none =>
      have hbool := eq_bool_of_formats hformat hfmt
      rw [hbool] at hwords
      obtain rfl := Except.ok.inj hwords
      exact ⟨.int raw.number.truthy.toNat, rfl,
        fun mem hmem => readRegisterRaw_of_bool hholding hbool hmem⟩

/-- The integer that is packed is in the range of its data type. -/
theorem round_in_range {raw raw' : PyValue} (hraw : rawValueOf fl reg value = .ok raw)
    (hraw' : validateRawValueRange fl reg regAlias raw = .ok raw')
    (htype : checkValueType reg regAlias value = .ok ()) (hholding : reg.registerType = .holding)
    {dtMin dtMax n : ℤ} (hrange : integerRanges reg.dataType = some (dtMin, dtMax))
    (hround : raw'.number.round = .ok n) : dtMin ≤ n ∧ n ≤ dtMax := by
  cases hscale : reg.scale with
  | none =>
    rw [rawValueOf_of_none hscale] at hraw
    obtain rfl := Except.ok.inj hraw
    obtain rfl := validateRawValueRange_of_none hscale hraw'
    have hbool := isBoolRegister_of_holding hholding fun hdt => by
      rw [hdt] at hrange
      cases hrange
    obtain ⟨-, hinteger⟩ := (checkValueType_integer hbool hrange).mp htype
    obtain ⟨m, hm, hin⟩ := hinteger hscale
    obtain rfl := Except.ok.inj (hround.symm.trans (round_of_integer hm))
    exact hin
  | some s =>
    obtain ⟨x, -, rfl⟩ := rawValueOf_of_some hscale hraw
    obtain ⟨m, -, -, hlo, hhi, rfl⟩ := (validateRawValueRange_eq_ok hscale hrange).mp hraw'
    obtain rfl : m = n := Except.ok.inj hround
    exact ⟨hlo, hhi⟩

/-- The check of the raw value leaves its nearest number as it is. -/
theorem nearest_of_validateRawValueRange {raw raw' : PyValue} (hraw : rawValueOf fl reg value = .ok raw)
    (hraw' : validateRawValueRange fl reg regAlias raw = .ok raw') :
    nearest fl reg.dataType raw'.number = nearest fl reg.dataType raw.number := by
  cases hscale : reg.scale with
  | none => rw [validateRawValueRange_of_none hscale hraw']
  | some s =>
    cases hrange : integerRanges reg.dataType with
    | none =>
      rw [validateRawValueRange_of_not_integer hrange] at hraw'
      rw [Except.ok.inj hraw']
    | some range =>
      obtain ⟨dtMin, dtMax⟩ := range
      obtain ⟨x, -, rfl⟩ := rawValueOf_of_some hscale hraw
      obtain ⟨n, hround, -, -, -, rfl⟩ := (validateRawValueRange_eq_ok hscale hrange).mp hraw'
      obtain ⟨format, hformat⟩ : ∃ format, integerFormat reg.dataType = some format := by
        cases hdt : reg.dataType <;> rw [hdt] at hrange <;> first | exact ⟨_, rfl⟩ | cases hrange
      have hraw : (Number.float x).round = .ok n := hround
      exact (nearest_of_round hformat rfl).trans (nearest_of_round hformat hraw).symm

/-- **A request is decoded to what the register holds for the value.** -/
theorem decodes_iff (hholding : reg.registerType = .holding)
    (h : requestFor fl reg regAlias value = .ok request) {x : Number} :
    Decodes fl reg request x ↔ reg.held fl value.number = .ok x := by
  obtain ⟨hvalid, raw, hraw, raw', hraw', hrequest⟩ := requestFor_eq_ok.mp h
  obtain ⟨-, -, htype⟩ := validateWriteValue_eq_ok.mp hvalid
  obtain ⟨words, hwords, rfl⟩ := requestOf_holding hholding hrequest
  obtain ⟨stored, hstored, hread⟩ :=
    read_of_encodeValue hholding (round_in_range hraw hraw' htype hholding) hwords
  have hheld : reg.held fl value.number = applyScaling fl stored reg := by
    unfold RegisterDef.held
    rw [rawNumber_of_rawValueOf hraw]
    show (nearest fl reg.dataType raw.number >>= fun stored => applyScaling fl stored reg) = _
    rw [← nearest_of_validateRawValueRange hraw hraw', hstored]
    rfl
  rw [hheld]
  constructor
  · intro hdecodes
    obtain ⟨mem, hmem⟩ := exists_holds (holdingRequest reg.startingAddress words)
    obtain ⟨got, hgot, hscaled⟩ := hdecodes mem hmem
    obtain rfl := Except.ok.inj ((hread mem hmem).symm.trans hgot)
    exact hscaled
  · intro hscaled mem hmem
    exact ⟨stored, hread mem hmem, hscaled⟩

/-! ## Numbers that are held as they are -/

/-- An integer register without a scale holds the integer. -/
theorem held_integer (hscale : reg.scale = none) {range : ℤ × ℤ}
    (hrange : integerRanges reg.dataType = some range) {x : Number} {n : ℤ}
    (hx : x.value? = some (n : ℚ)) : reg.held fl x = .ok (.int n) := by
  obtain ⟨format, hformat⟩ : ∃ format, integerFormat reg.dataType = some format := by
    cases hdt : reg.dataType <;> rw [hdt] at hrange <;> first | exact ⟨_, rfl⟩ | cases hrange
  unfold RegisterDef.held RegisterDef.rawNumber
  rw [hscale]
  refine bind_eq_ok.mpr ⟨x, rfl, bind_eq_ok.mpr ⟨.int n, ?_, applyScaling_of_none hscale _⟩⟩
  exact nearest_of_round hformat (round_of_integer hx)

/-- A bit without a scale is held as the bit. -/
theorem held_bool (hscale : reg.scale = none) (hbool : reg.dataType = .bool) (b : Bool) :
    reg.held fl (.int b.toNat) = .ok (.int b.toNat) := by
  unfold RegisterDef.held RegisterDef.rawNumber
  rw [hscale, hbool]
  refine bind_eq_ok.mpr ⟨_, rfl, bind_eq_ok.mpr ⟨.int b.toNat, ?_, applyScaling_of_none hscale _⟩⟩
  show Except.ok (Number.int (Number.int b.toNat).truthy.toNat) = _
  rw [truthy_bool]

end Requests

end Instro.Modbus
