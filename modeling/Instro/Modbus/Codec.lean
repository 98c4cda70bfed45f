import Instro.Library.FloatFormat
import Instro.Modbus.Types

/-!
# The register codec

`_encode_value` packs a value big-endian, swaps longs, words and bytes, and cuts the bytes into
registers; `_decode_registers` undoes the swaps in the opposite order. Each swap is its own inverse,
so the registers of a packed value carry exactly its bytes.
-/

namespace Instro.Modbus

open Instro.Library

/-! ## Swaps -/

section Swaps

variable {α : Type}

/-- Reverse each chunk of two. -/
def swapBytes : List α → List α
  | a :: b :: rest => b :: a :: swapBytes rest
  | rest => rest

/-- Exchange the halves of each full chunk of four. -/
def swapWords : List α → List α
  | a :: b :: c :: d :: rest => c :: d :: a :: b :: swapWords rest
  | rest => rest

/-- Exchange the halves of eight bytes. -/
def swapLongs (bytes : List α) : List α :=
  if bytes.length = 8 then bytes.drop 4 ++ bytes.take 4 else bytes

@[simp] theorem swapBytes_swapBytes : ∀ bytes : List α, swapBytes (swapBytes bytes) = bytes
  | [] => rfl
  | [_] => rfl
  | a :: b :: rest => congrArg (fun l => a :: b :: l) (swapBytes_swapBytes rest)

@[simp] theorem swapWords_swapWords : ∀ bytes : List α, swapWords (swapWords bytes) = bytes
  | [] => rfl
  | [_] => rfl
  | [_, _] => rfl
  | [_, _, _] => rfl
  | a :: b :: c :: d :: rest =>
    congrArg (fun l => a :: b :: c :: d :: l) (swapWords_swapWords rest)

@[simp] theorem length_swapBytes : ∀ bytes : List α, (swapBytes bytes).length = bytes.length
  | [] => rfl
  | [_] => rfl
  | _ :: _ :: rest => congrArg (· + 2) (length_swapBytes rest)

@[simp] theorem length_swapWords : ∀ bytes : List α, (swapWords bytes).length = bytes.length
  | [] => rfl
  | [_] => rfl
  | [_, _] => rfl
  | [_, _, _] => rfl
  | _ :: _ :: _ :: _ :: rest => congrArg (· + 4) (length_swapWords rest)

@[simp] theorem length_swapLongs (bytes : List α) : (swapLongs bytes).length = bytes.length := by
  unfold swapLongs
  split_ifs with h
  · rw [List.length_append, List.length_drop, List.length_take]
    omega
  · rfl

@[simp] theorem swapLongs_swapLongs (bytes : List α) : swapLongs (swapLongs bytes) = bytes := by
  by_cases h : bytes.length = 8
  · have hlen : (bytes.drop 4).length = 4 := by
      rw [List.length_drop]
      omega
    have hswap : swapLongs bytes = bytes.drop 4 ++ bytes.take 4 := if_pos h
    have hagain : swapLongs (swapLongs bytes) =
        (swapLongs bytes).drop 4 ++ (swapLongs bytes).take 4 :=
      if_pos ((length_swapLongs bytes).trans h)
    rw [hagain, hswap, List.drop_left' hlen, List.take_left' hlen, List.take_append_drop]
  · have hswap : swapLongs bytes = bytes := if_neg h
    rw [hswap, hswap]

end Swaps

/-! ## Registers -/

/-- The registers of an even number of bytes. -/
def registersOfBytes : List UInt8 → List Nat
  | a :: b :: rest => ofBytes [a, b] :: registersOfBytes rest
  | [a] => [ofBytes [a]]
  | [] => []

def bytesOfRegisters (registers : List Nat) : List UInt8 :=
  registers.flatMap (toBytes 2)

theorem toBytes_ofBytes_pair (a b : UInt8) : toBytes 2 (ofBytes [a, b]) = [a, b] := by
  have ha : a.toNat < 256 := a.toNat_lt
  have hb : b.toNat < 256 := b.toNat_lt
  have hword : ofBytes [a, b] = a.toNat * 256 + b.toNat := by
    simp [ofBytes]
  have hdiv : (a.toNat * 256 + b.toNat) / 256 = a.toNat := by omega
  have hhigh : UInt8.ofNat ((a.toNat * 256 + b.toNat) / 256) = a := by
    rw [hdiv, UInt8.ofNat_toNat]
  have hlow : UInt8.ofNat (a.toNat * 256 + b.toNat) = b := by
    rw [← UInt8.toNat_inj, UInt8.toNat_ofNat']
    omega
  rw [hword]
  show [UInt8.ofNat (_ / 256 ^ 1), UInt8.ofNat (_ / 256 ^ 0)] = _
  rw [pow_one, pow_zero, Nat.div_one, hhigh, hlow]

theorem bytesOfRegisters_registersOfBytes : ∀ {bytes : List UInt8}, bytes.length % 2 = 0 →
    bytesOfRegisters (registersOfBytes bytes) = bytes
  | [], _ => rfl
  | [_], h => absurd h (by simp)
  | a :: b :: rest, h => by
    have hrest : rest.length % 2 = 0 := by
      rw [List.length_cons, List.length_cons] at h
      omega
    show toBytes 2 (ofBytes [a, b]) ++ bytesOfRegisters (registersOfBytes rest) = _
    rw [toBytes_ofBytes_pair, bytesOfRegisters_registersOfBytes hrest]
    rfl

theorem length_bytesOfRegisters (words : List Nat) :
    (bytesOfRegisters words).length = 2 * words.length := by
  unfold bytesOfRegisters
  rw [List.length_flatMap]
  simp [Nat.mul_comm]

/-- Registers are words of 16 bits. -/
theorem registersOfBytes_lt : ∀ {bytes : List UInt8}, ∀ r ∈ registersOfBytes bytes, r < 2 ^ 16
  | [], _, h => absurd h List.not_mem_nil
  | [a], r, h => by
    obtain rfl := List.mem_singleton.mp h
    exact (ofBytes_lt [a]).trans_le (Nat.pow_le_pow_right (by decide) one_le_two)
  | a :: b :: rest, r, h => by
    rcases List.mem_cons.mp h with rfl | h
    · exact (ofBytes_lt [a, b]).trans_eq (by norm_num)
    · exact registersOfBytes_lt r h

theorem registersOfBytes_bytesOfRegisters {registers : List Nat} (h : ∀ r ∈ registers, r < 2 ^ 16) :
    registersOfBytes (bytesOfRegisters registers) = registers := by
  induction registers with
  | nil => rfl
  | cons r registers ih =>
    have hr : ofBytes (toBytes 2 r) = r :=
      (ofBytes_toBytes 2 r).trans (Nat.mod_eq_of_lt (h r List.mem_cons_self))
    have hrest := ih fun r' hr' => h r' (List.mem_cons_of_mem r hr')
    show ofBytes (toBytes 2 r) :: registersOfBytes (bytesOfRegisters registers) = _
    rw [hr, hrest]

theorem length_registersOfBytes : ∀ {bytes : List UInt8}, bytes.length % 2 = 0 →
    (registersOfBytes bytes).length = bytes.length / 2
  | [], _ => rfl
  | [_], h => absurd h (by simp)
  | _ :: _ :: rest, h => by
    have hrest : rest.length % 2 = 0 := by
      rw [List.length_cons, List.length_cons] at h
      omega
    have ih := length_registersOfBytes hrest
    simp only [registersOfBytes, List.length_cons, ih]
    omega

/-! ## `struct` -/

/-- The integer formats: the bytes, and whether they are signed. -/
def integerFormat : DataType → Option (Nat × Bool)
  | .uint16 => some (2, false)
  | .int16 => some (2, true)
  | .uint32 => some (4, false)
  | .int32 => some (4, true)
  | .uint64 => some (8, false)
  | .int64 => some (8, true)
  | .float32 => none
  | .float64 => none
  | .bool => none

/-- `struct.pack` of an integer raises where it does not fit. -/
def packInt (k : Nat) (signed : Bool) (n : ℤ) : Except PyException (List UInt8) :=
  if IntFits k signed n then .ok (intToBytes k n) else .error .structError

/-- The ranges of the integer data types are those of their formats. -/
theorem fits_of_range {dt : DataType} {dtMin dtMax : ℤ} {k : Nat} {signed : Bool}
    (hrange : integerRanges dt = some (dtMin, dtMax))
    (hformat : integerFormat dt = some (k, signed))
    {n : ℤ} : IntFits k signed n ↔ dtMin ≤ n ∧ n ≤ dtMax := by
  cases dt <;> simp only [integerRanges, integerFormat, Option.some.injEq, Prod.mk.injEq,
    reduceCtorEq] at hrange hformat <;> obtain ⟨rfl, rfl⟩ := hrange <;>
    obtain ⟨rfl, rfl⟩ := hformat <;> simp [IntFits] <;> omega

theorem range_of_format {dt : DataType} {format : Nat × Bool}
    (hformat : integerFormat dt = some format) : ∃ range, integerRanges dt = some range := by
  cases dt <;> first | exact ⟨_, rfl⟩ | cases hformat

theorem eq_bool_of_format {dt : DataType} (hformat : integerFormat dt = none)
    (hfloat : dt.isFloat = false) : dt = .bool := by
  cases dt <;> simp [integerFormat, DataType.isFloat] at hformat hfloat ⊢

/-! ## Values -/

section Codec

variable (fl : Rounding) (byteSwap wordSwap longSwap : Bool)

/-- The bytes on the wire of packed bytes: longs, then words, then bytes are swapped. -/
def swapOut (bytes : List UInt8) : List UInt8 :=
  let bytes := if longSwap then swapLongs bytes else bytes
  let bytes := if wordSwap ∧ 4 ≤ bytes.length then swapWords bytes else bytes
  if byteSwap then swapBytes bytes else bytes

/-- The packed bytes of bytes from the wire: bytes, then words, then longs are swapped. -/
def swapIn (bytes : List UInt8) : List UInt8 :=
  let bytes := if byteSwap then swapBytes bytes else bytes
  let bytes := if wordSwap ∧ 4 ≤ bytes.length then swapWords bytes else bytes
  if longSwap then swapLongs bytes else bytes

/-- `_encode_value` -/
def encodeValue (value : PyValue) (dataType : DataType) : Except PyException (List Nat) :=
  match integerFormat dataType with
  | some (k, signed) => do
    let n ← value.number.round
    let bytes ← packInt k signed n
    return registersOfBytes (swapOut byteSwap wordSwap longSwap bytes)
  | none =>
    match dataType with
    | .float32 => do
      let x ← value.number.toFloat fl
      let bytes ← FloatFormat.binary32.pack x
      return registersOfBytes (swapOut byteSwap wordSwap longSwap bytes)
    | .float64 => do
      let x ← value.number.toFloat fl
      -- a double is packed as it is
      let bytes := toBytes 8 (FloatFormat.binary64.bits x)
      return registersOfBytes (swapOut byteSwap wordSwap longSwap bytes)
    | _ => return [if value.number.truthy then 1 else 0]

/-- `_decode_registers` -/
def decodeRegisters (registers : List Nat) (dataType : DataType) : Except PyException Number :=
  let bytes := swapIn byteSwap wordSwap longSwap (bytesOfRegisters registers)
  match integerFormat dataType with
  | some (k, signed) =>
    if bytes.length = k then .ok (.int (intOfBytes signed bytes)) else .error .structError
  | none =>
    match dataType with
    | .float32 =>
      if bytes.length = 4 then .ok (.float (FloatFormat.binary32.unpack bytes))
      else .error .structError
    | .float64 =>
      if bytes.length = 8 then .ok (.float (FloatFormat.binary64.unpack bytes))
      else .error .structError
    | _ =>
      match registers with
      | register :: _ => .ok (.int (if register ≠ 0 then 1 else 0))
      | [] => .error .indexError

@[simp] theorem length_swapOut (bytes : List UInt8) :
    (swapOut byteSwap wordSwap longSwap bytes).length = bytes.length := by
  unfold swapOut
  cases byteSwap <;> cases wordSwap <;> cases longSwap <;> by_cases h : 4 ≤ bytes.length <;>
    simp [h]

@[simp] theorem length_swapIn (bytes : List UInt8) :
    (swapIn byteSwap wordSwap longSwap bytes).length = bytes.length := by
  unfold swapIn
  cases byteSwap <;> cases wordSwap <;> cases longSwap <;> by_cases h : 4 ≤ bytes.length <;>
    simp [h]

/-- What the swaps of reading do, those of writing undo. -/
theorem swapOut_swapIn (bytes : List UInt8) :
    swapOut byteSwap wordSwap longSwap (swapIn byteSwap wordSwap longSwap bytes) = bytes := by
  unfold swapIn swapOut
  cases byteSwap <;> cases wordSwap <;> cases longSwap <;> by_cases h : 4 ≤ bytes.length <;>
    simp [h]

/-- What the swaps of writing do, those of reading undo. -/
theorem swapIn_swapOut (bytes : List UInt8) :
    swapIn byteSwap wordSwap longSwap (swapOut byteSwap wordSwap longSwap bytes) = bytes := by
  unfold swapIn swapOut
  cases byteSwap <;> cases wordSwap <;> cases longSwap <;> by_cases h : 4 ≤ bytes.length <;>
    simp [h]

theorem encodeValue_of_format {dt : DataType} {k : Nat} {signed : Bool}
    (hformat : integerFormat dt = some (k, signed)) {value : PyValue} {n : ℤ}
    (hround : value.number.round = .ok n) (hfits : IntFits k signed n) :
    encodeValue fl byteSwap wordSwap longSwap value dt =
      .ok (registersOfBytes (swapOut byteSwap wordSwap longSwap (intToBytes k n))) := by
  have hpack : packInt k signed n = .ok (intToBytes k n) := if_pos hfits
  unfold encodeValue
  rw [hformat]
  exact bind_eq_ok.mpr ⟨n, hround, bind_eq_ok.mpr ⟨_, hpack, rfl⟩⟩

/-- The registers of an integer in its format decode to the integer. -/
theorem decodeRegisters_of_format {dt : DataType} {k : Nat} {signed : Bool}
    (hformat : integerFormat dt = some (k, signed)) (heven : k % 2 = 0) {n : ℤ}
    (hfits : IntFits k signed n) :
    decodeRegisters byteSwap wordSwap longSwap
        (registersOfBytes (swapOut byteSwap wordSwap longSwap (intToBytes k n))) dt =
      .ok (.int n) := by
  unfold decodeRegisters
  have hbytes : bytesOfRegisters
      (registersOfBytes (swapOut byteSwap wordSwap longSwap (intToBytes k n))) =
        swapOut byteSwap wordSwap longSwap (intToBytes k n) :=
    bytesOfRegisters_registersOfBytes (by simpa using heven)
  rw [hbytes, swapIn_swapOut, hformat]
  simp only [length_intToBytes, intOfBytes_intToBytes hfits, if_true]

end Codec

end Instro.Modbus
