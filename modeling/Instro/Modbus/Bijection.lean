import Instro.Library.FloatCodec
import Instro.Modbus.Codec

/-!
# The register codec is a bijection

The values of a data type and the lists of as many registers as it spans correspond, whichever swaps
are configured: what is decoded encodes to the same registers, and what is encoded decodes to the same
value. Only the payload of a NaN is lost.
-/

namespace Instro.Modbus

open Instro.Library

/-- The full range of a data type: its integers, or the floats of its format. -/
def InRange (dt : DataType) : Number → Prop
  | .int n => ∃ dtMin dtMax, integerRanges dt = some (dtMin, dtMax) ∧ dtMin ≤ n ∧ n ≤ dtMax
  | .float x => dt = .float32 ∧ FloatFormat.binary32.IsFloat x ∨
      dt = .float64 ∧ FloatFormat.binary64.IsFloat x

theorem binary32_proper : FloatFormat.binary32.Proper := ⟨by decide, by decide⟩

theorem binary64_proper : FloatFormat.binary64.Proper := ⟨by decide, by decide⟩

section Codec

variable (fl : Rounding) {byteSwap wordSwap longSwap : Bool} {registers : List Nat}

/-- The registers that carry these bytes. -/
theorem swapOut_registers (h : ∀ r ∈ registers, r < 2 ^ 16) :
    registersOfBytes (swapOut byteSwap wordSwap longSwap
      (swapIn byteSwap wordSwap longSwap (bytesOfRegisters registers))) = registers := by
  rw [swapOut_swapIn, registersOfBytes_bytesOfRegisters h]

/-- The bytes of the registers that carry them. -/
theorem swapIn_registers {bytes : List UInt8} (h : bytes.length % 2 = 0) :
    swapIn byteSwap wordSwap longSwap
      (bytesOfRegisters (registersOfBytes (swapOut byteSwap wordSwap longSwap bytes))) = bytes := by
  rw [bytesOfRegisters_registersOfBytes (by rwa [length_swapOut]), swapIn_swapOut]

/-! ## Integers -/

section Integers

variable {dt : DataType} {k : Nat} {signed : Bool}

theorem decoded_integer (hformat : integerFormat dt = some (k, signed)) (hk : 0 < k)
    (hlength : 2 * registers.length = k) (h : ∀ r ∈ registers, r < 2 ^ 16) :
    ∃ n, decodeRegisters byteSwap wordSwap longSwap registers dt = .ok (.int n) ∧
      IntFits k signed n ∧
      encodeValue fl byteSwap wordSwap longSwap (.num (.int n)) dt = .ok registers := by
  have hbytes : (swapIn byteSwap wordSwap longSwap (bytesOfRegisters registers)).length = k := by
    rw [length_swapIn, length_bytesOfRegisters, hlength]
  have hfits := intFits_intOfBytes hk signed hbytes
  refine ⟨_, ?_, hfits, ?_⟩
  · unfold decodeRegisters
    rw [hformat]
    exact if_pos hbytes
  · have hword := intToBytes_intOfBytes signed
      (swapIn byteSwap wordSwap longSwap (bytesOfRegisters registers))
    rw [hbytes] at hword
    rw [encodeValue_of_format fl _ _ _ hformat rfl hfits, hword, swapOut_registers h]

end Integers

/-! ## Floats -/

theorem toBytes_bits_ofBits {fmt : FloatFormat} {bytes : List UInt8}
    (hwidth : 8 * bytes.length = 1 + fmt.exponentBits + fmt.fractionBits)
    (hnan : fmt.unpack bytes ≠ .nan) : toBytes bytes.length (fmt.bits (fmt.unpack bytes)) = bytes := by
  have hlt := ofBytes_lt bytes
  have hpow : 256 ^ bytes.length = 2 ^ (1 + fmt.exponentBits + fmt.fractionBits) := by
    rw [← hwidth, pow_mul]
    norm_num
  unfold FloatFormat.unpack at hnan ⊢
  rw [FloatFormat.bits_ofBits (hpow ▸ hlt) hnan, toBytes_ofBytes]

theorem unpack_toBytes {fmt : FloatFormat} (hfmt : fmt.Proper) {k : ℕ}
    (hwidth : 8 * k = 1 + fmt.exponentBits + fmt.fractionBits) {x : PyFloat} (hx : fmt.IsFloat x) :
    fmt.unpack (toBytes k (fmt.bits x)) = x := by
  have hlt := FloatFormat.bits_lt hfmt hx
  have hpow : 256 ^ k = 2 ^ (1 + fmt.exponentBits + fmt.fractionBits) := by
    rw [← hwidth, pow_mul]
    norm_num
  unfold FloatFormat.unpack
  rw [ofBytes_toBytes, hpow, Nat.mod_eq_of_lt hlt, FloatFormat.ofBits_bits hfmt hx]

/-- The bytes of a float in a data type, and the format they are in. -/
def floatFormat : DataType → Option (FloatFormat × ℕ)
  | .float32 => some (.binary32, 4)
  | .float64 => some (.binary64, 8)
  | _ => none

section Floats

variable {dt : DataType} {fmt : FloatFormat} {k : ℕ}

theorem proper_of_floatFormat (hformat : floatFormat dt = some (fmt, k)) :
    fmt.Proper ∧ 8 * k = 1 + fmt.exponentBits + fmt.fractionBits ∧ k % 2 = 0 := by
  cases dt <;> cases hformat
  · exact ⟨binary32_proper, rfl, rfl⟩
  · exact ⟨binary64_proper, rfl, rfl⟩

theorem encodeValue_of_floatFormat (hformat : floatFormat dt = some (fmt, k)) {x : PyFloat}
    (hx : fmt.IsFloat x) :
    encodeValue fl byteSwap wordSwap longSwap (.num (.float x)) dt =
      .ok (registersOfBytes (swapOut byteSwap wordSwap longSwap (toBytes k (fmt.bits x)))) := by
  cases dt <;> cases hformat
  · have hpack : FloatFormat.binary32.pack x = .ok (toBytes 4 (FloatFormat.binary32.bits x)) :=
      hx.pack_eq binary32_proper
    unfold encodeValue
    exact bind_eq_ok.mpr ⟨x, rfl, bind_eq_ok.mpr ⟨_, hpack, rfl⟩⟩
  · unfold encodeValue
    exact bind_eq_ok.mpr ⟨x, rfl, rfl⟩

theorem decodeRegisters_of_floatFormat (hformat : floatFormat dt = some (fmt, k))
    (hbytes : (swapIn byteSwap wordSwap longSwap (bytesOfRegisters registers)).length = k) :
    decodeRegisters byteSwap wordSwap longSwap registers dt =
      .ok (.float (fmt.unpack (swapIn byteSwap wordSwap longSwap (bytesOfRegisters registers)))) := by
  unfold decodeRegisters
  cases dt <;> cases hformat
  · exact if_pos hbytes
  · exact if_pos hbytes

theorem decoded_float (hformat : floatFormat dt = some (fmt, k)) (hlength : 2 * registers.length = k)
    (h : ∀ r ∈ registers, r < 2 ^ 16) :
    ∃ x, decodeRegisters byteSwap wordSwap longSwap registers dt = .ok (.float x) ∧ fmt.IsFloat x ∧
      (x ≠ .nan → encodeValue fl byteSwap wordSwap longSwap (.num (.float x)) dt = .ok registers) := by
  obtain ⟨hfmt, hwidth, -⟩ := proper_of_floatFormat hformat
  have hbytes : (swapIn byteSwap wordSwap longSwap (bytesOfRegisters registers)).length = k := by
    rw [length_swapIn, length_bytesOfRegisters, hlength]
  have hlt := ofBytes_lt (swapIn byteSwap wordSwap longSwap (bytesOfRegisters registers))
  have hfloat : fmt.IsFloat (fmt.unpack _) := FloatFormat.isFloat_ofBits hfmt <| by
    rw [← hwidth, pow_mul, ← hbytes]
    exact hlt
  refine ⟨_, decodeRegisters_of_floatFormat hformat hbytes, hfloat, fun hnan => ?_⟩
  have hword := toBytes_bits_ofBits (hbytes.symm ▸ hwidth) hnan
  rw [hbytes] at hword
  rw [encodeValue_of_floatFormat fl hformat hfloat, hword, swapOut_registers h]

theorem encoded_float (hformat : floatFormat dt = some (fmt, k)) {x : PyFloat} (hx : fmt.IsFloat x) :
    decodeRegisters byteSwap wordSwap longSwap
        (registersOfBytes (swapOut byteSwap wordSwap longSwap (toBytes k (fmt.bits x)))) dt =
      .ok (.float x) := by
  obtain ⟨hfmt, hwidth, heven⟩ := proper_of_floatFormat hformat
  have hsame := @swapIn_registers byteSwap wordSwap longSwap (toBytes k (fmt.bits x))
    (by rwa [length_toBytes])
  rw [decodeRegisters_of_floatFormat hformat (by rw [hsame, length_toBytes]), hsame,
    unpack_toBytes hfmt hwidth hx]

end Floats

end Codec

/-- A data type but `bool` has a format, of twice as many bytes as registers. -/
theorem format_of_ne_bool {reg : RegisterDef} (hbool : reg.dataType ≠ .bool) :
    (∃ k signed, integerFormat reg.dataType = some (k, signed) ∧ 2 * reg.registerCount = k ∧ 0 < k) ∨
      ∃ fmt k, floatFormat reg.dataType = some (fmt, k) ∧ 2 * reg.registerCount = k := by
  unfold RegisterDef.registerCount
  generalize reg.dataType = dt at hbool ⊢
  cases dt with
  | bool => exact absurd rfl hbool
  | float32 => exact .inr ⟨_, _, rfl, rfl⟩
  | float64 => exact .inr ⟨_, _, rfl, rfl⟩
  | _ => exact .inl ⟨_, _, rfl, rfl, by decide⟩

theorem inRange_int_iff {dt : DataType} {k : ℕ} {signed : Bool}
    (hformat : integerFormat dt = some (k, signed)) {v : Number} :
    InRange dt v ↔ ∃ n, v = .int n ∧ IntFits k signed n := by
  obtain ⟨⟨dtMin, dtMax⟩, hrange⟩ := range_of_format hformat
  cases v with
  | int n =>
    constructor
    · rintro ⟨dtMin', dtMax', hrange', hn⟩
      cases hrange.symm.trans hrange'
      exact ⟨n, rfl, (fits_of_range hrange hformat).mpr hn⟩
    · rintro ⟨m, h, hfits⟩
      cases h
      exact ⟨dtMin, dtMax, hrange, (fits_of_range hrange hformat).mp hfits⟩
  | float x =>
    constructor
    · rintro (⟨rfl, -⟩ | ⟨rfl, -⟩)
      · cases hformat
      · cases hformat
    · rintro ⟨n, h, -⟩
      cases h

theorem inRange_float_iff {dt : DataType} {fmt : FloatFormat} {k : ℕ}
    (hformat : floatFormat dt = some (fmt, k)) {v : Number} :
    InRange dt v ↔ ∃ x, v = .float x ∧ fmt.IsFloat x := by
  cases v with
  | int n =>
    constructor
    · rintro ⟨dtMin, dtMax, hrange, -⟩
      cases dt <;> cases hformat <;> cases hrange
    · rintro ⟨x, h, -⟩
      cases h
  | float x =>
    constructor
    · rintro (⟨rfl, hx⟩ | ⟨rfl, hx⟩)
      · cases hformat
        exact ⟨x, rfl, hx⟩
      · cases hformat
        exact ⟨x, rfl, hx⟩
    · rintro ⟨y, h, hx⟩
      cases h
      cases dt <;> cases hformat
      · exact .inl ⟨rfl, hx⟩
      · exact .inr ⟨rfl, hx⟩

theorem length_packed {byteSwap wordSwap longSwap : Bool} (bytes : List UInt8) {count : ℕ}
    (h : 2 * count = bytes.length) :
    (registersOfBytes (swapOut byteSwap wordSwap longSwap bytes)).length = count := by
  rw [length_registersOfBytes (by rw [length_swapOut]; omega), length_swapOut]
  omega

/-- **The register codec is a bijection.** For every data type but `bool`, and every configuration of
swaps, registers decode to a value in range that encodes to them, unless it is NaN, and a value in
range encodes to registers that decode to it. -/
theorem codec_bijective (fl : Rounding) (reg : RegisterDef) (hbool : reg.dataType ≠ .bool) :
    (∀ registers : List Nat, registers.length = reg.registerCount → (∀ r ∈ registers, r < 2 ^ 16) →
      ∃ v, decodeRegisters reg.byteSwap reg.wordSwap reg.longSwap registers reg.dataType = .ok v ∧
        InRange reg.dataType v ∧
        (v ≠ .float .nan → encodeValue fl reg.byteSwap reg.wordSwap reg.longSwap (.num v)
          reg.dataType = .ok registers)) ∧
    ∀ v, InRange reg.dataType v →
      ∃ registers : List Nat, registers.length = reg.registerCount ∧ (∀ r ∈ registers, r < 2 ^ 16) ∧
        encodeValue fl reg.byteSwap reg.wordSwap reg.longSwap (.num v) reg.dataType =
          .ok registers ∧
        decodeRegisters reg.byteSwap reg.wordSwap reg.longSwap registers reg.dataType = .ok v := by
  rcases format_of_ne_bool hbool with ⟨k, signed, hformat, hcount, hk⟩ | ⟨fmt, k, hformat, hcount⟩
  · constructor
    · intro registers hlength hregisters
      obtain ⟨n, hdecode, hfits, hencode⟩ :=
        decoded_integer fl hformat hk (hlength ▸ hcount) hregisters
      exact ⟨.int n, hdecode, (inRange_int_iff hformat).mpr ⟨n, rfl, hfits⟩, fun _ => hencode⟩
    · intro v hv
      obtain ⟨n, rfl, hfits⟩ := (inRange_int_iff hformat).mp hv
      refine ⟨_, length_packed (intToBytes k n) (by rw [length_intToBytes, hcount]),
        registersOfBytes_lt, encodeValue_of_format fl _ _ _ hformat rfl hfits,
        decodeRegisters_of_format _ _ _ hformat (by omega) hfits⟩
  · constructor
    · intro registers hlength hregisters
      obtain ⟨x, hdecode, hfloat, hencode⟩ := decoded_float fl hformat (hlength ▸ hcount) hregisters
      refine ⟨.float x, hdecode, (inRange_float_iff hformat).mpr ⟨x, rfl, hfloat⟩, fun hnan => ?_⟩
      exact hencode fun hx => hnan (congrArg Number.float hx)
    · intro v hv
      obtain ⟨x, rfl, hfloat⟩ := (inRange_float_iff hformat).mp hv
      refine ⟨_, length_packed (toBytes k (fmt.bits x)) (by rw [length_toBytes, hcount]),
        registersOfBytes_lt, encodeValue_of_floatFormat fl hformat hfloat,
        encoded_float hformat hfloat⟩

/-- A register of data type `float64` with all swaps. -/
def swappedFloat64 : RegisterDef where
  name := "energy"
  startingAddress := 100
  registerType := .holding
  dataType := .float64
  byteSwap := true
  wordSwap := true
  longSwap := true
  scale := none
  bitmap := none
  poll := false
  writeMin := none
  writeMax := none
  writeValueMap := none
  readGroup := none

theorem codec_bijective_swappedFloat64 :
    ∃ registers : List Nat, registers.length = 4 ∧ (∀ r ∈ registers, r < 2 ^ 16) ∧
      encodeValue exact true true true (.num (.float .negZero)) .float64 = .ok registers ∧
      decodeRegisters true true true registers .float64 = .ok (.float .negZero) :=
  (codec_bijective exact swappedFloat64 (by decide)).2 (.float .negZero) (.inr ⟨rfl, trivial⟩)

end Instro.Modbus
