import Instro.Library.Bytes
import Instro.Library.PyNumber
import Mathlib.Data.Int.Log

/-!
# Binary interchange formats

The bit patterns of floats in a format of some exponent and fraction bits, and their bytes. Packing
a double into a narrower format raises when the rounded value is beyond the largest float of it.
-/

namespace Instro.Library

structure FloatFormat where
  exponentBits : Nat
  fractionBits : Nat

namespace FloatFormat

def binary32 : FloatFormat := ⟨8, 23⟩

def binary64 : FloatFormat := ⟨11, 52⟩

variable (fmt : FloatFormat)

def bias : Nat := 2 ^ (fmt.exponentBits - 1) - 1

/-- The exponent of the subnormal floats. -/
def minExponent : ℤ := 1 - fmt.bias

/-- The least magnitude that rounds to infinity: half a step beyond the largest float. -/
def limit : ℚ := 2 ^ (fmt.bias + 1) - 2 ^ ((fmt.bias : ℤ) - fmt.fractionBits - 1)

/-- The exponent and fraction bits of the float nearest to `q ≥ 0`. A carry out of the fraction
runs into the exponent. -/
def magnitudeBits (q : ℚ) : Nat :=
  if q = 0 then 0
  else
    let exponent := max (Int.log 2 q) fmt.minExponent
    (exponent - fmt.minExponent).toNat * 2 ^ fmt.fractionBits +
      (roundHalfEven (q / 2 ^ (exponent - fmt.fractionBits))).toNat

def signBit (negative : Bool) : Nat :=
  if negative then 2 ^ (fmt.exponentBits + fmt.fractionBits) else 0

/-- The exponent of the infinities and NaN. -/
def specialBits : Nat := (2 ^ fmt.exponentBits - 1) * 2 ^ fmt.fractionBits

def bits : PyFloat → Nat
  | .finite q => fmt.signBit (q < 0) + fmt.magnitudeBits |q|
  | .negZero => fmt.signBit true
  | .inf negative => fmt.signBit negative + fmt.specialBits
  | .nan => fmt.specialBits + 2 ^ (fmt.fractionBits - 1)

def ofBits (w : Nat) : PyFloat :=
  let negative : Bool := w / 2 ^ (fmt.exponentBits + fmt.fractionBits) % 2 = 1
  let exponent := w / 2 ^ fmt.fractionBits % 2 ^ fmt.exponentBits
  let fraction := w % 2 ^ fmt.fractionBits
  if exponent = 2 ^ fmt.exponentBits - 1 then
    if fraction = 0 then .inf negative else .nan
  else
    let q : ℚ :=
      if exponent = 0 then fraction * 2 ^ (fmt.minExponent - fmt.fractionBits)
      else (2 ^ fmt.fractionBits + fraction) * 2 ^ (exponent - fmt.bias - fmt.fractionBits : ℤ)
    if q = 0 then .zero negative else .finite (if negative then -q else q)

/-- The number of bytes of a float. -/
def width : Nat := (1 + fmt.exponentBits + fmt.fractionBits) / 8

/-- `struct.pack` of a double into the format. -/
def pack (x : PyFloat) : Except PyException (List UInt8) :=
  match x.value? with
  | some q =>
    if fmt.limit ≤ |q| then .error .overflowError else .ok (toBytes fmt.width (fmt.bits x))
  | none => .ok (toBytes fmt.width (fmt.bits x))

def unpack (bs : List UInt8) : PyFloat := fmt.ofBits (ofBytes bs)

/-- The bits of a double cast to the format: beyond the largest float it becomes infinite. -/
def castBits (x : PyFloat) : Nat :=
  match x.value? with
  | some q => if fmt.limit ≤ |q| then fmt.bits (.inf x.isNegative) else fmt.bits x
  | none => fmt.bits x

/-- A float packs unless it is finite and rounds to infinity in the format. -/
theorem pack_isOk_iff {x : PyFloat} :
    (∃ bytes, fmt.pack x = .ok bytes) ↔ ∀ q, x.value? = some q → |q| < fmt.limit := by
  unfold pack
  cases h : x.value? with
  | none => exact iff_of_true ⟨_, rfl⟩ nofun
  | some q =>
    constructor
    · rintro ⟨bytes, hbytes⟩ q' hq'
      obtain rfl := Option.some.inj hq'
      by_contra hlimit
      have herror := hbytes.symm.trans (if_pos (not_lt.mp hlimit))
      cases herror
    · intro hq
      exact ⟨toBytes fmt.width (fmt.bits x), if_neg (not_le.mpr (hq q rfl))⟩

end FloatFormat

/-- The largest float of 32 bits is below `2 ^ 128`, and half a step above it is the limit. -/
theorem binary32_limit : FloatFormat.binary32.limit = 2 ^ 128 - 2 ^ 103 := by
  unfold FloatFormat.limit FloatFormat.bias FloatFormat.binary32
  norm_num

end Instro.Library
