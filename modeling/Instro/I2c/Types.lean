import Instro.Library.Bits
import Instro.Library.Bytes
import Instro.Library.Checked
import Instro.Library.PyNumber

/-!
# I2C system definition

Registers with their data formats and bit fields, and the devices of a bus. A dictionary is a list
of entries, looked up by the first one with the key.
-/

namespace Instro.I2c

open Instro.Library

inductive Endianness
  | little
  | big
  deriving DecidableEq

/-- The low `k` bytes of a number. -/
def Endianness.encode (e : Endianness) (k n : Nat) : List UInt8 :=
  match e with
  | .big => toBytes k n
  | .little => (toBytes k n).reverse

/-- `int.from_bytes` -/
def Endianness.decode (e : Endianness) (bs : List UInt8) : Nat :=
  match e with
  | .big => ofBytes bs
  | .little => ofBytes bs.reverse

/-- `int.to_bytes` -/
def Endianness.toBytes (e : Endianness) (k : Nat) (n : ℤ) : Except PyException (List UInt8) := do
  ensure (0 ≤ n ∧ n < 256 ^ k) .overflowError
  return e.encode k n.toNat

/-- A subscript of a dictionary. -/
def lookupKey {α : Type} (entries : List (String × α)) (key : String) : Except PyException α :=
  match entries.lookup key with
  | some a => .ok a
  | none => .error .keyError

/-! ## Data formats -/

inductive ScalingFunction
  | linear (gain offset : PyFloat)
  | custom (toPhysicalFn : ℤ → Except PyException PyFloat)
    (toRawFn : Option (PyFloat → Except PyException ℤ))

def ScalingFunction.toPhysical (fl : Rounding) (scaling : ScalingFunction) (raw : ℤ) :
    Except PyException PyFloat :=
  match scaling with
  | .linear gain offset => do
    let x ← PyFloat.ofInt fl raw
    return offset.add fl (gain.mul fl x)
  | .custom toPhysicalFn _ => toPhysicalFn raw

def ScalingFunction.toRaw (fl : Rounding) (scaling : ScalingFunction) (physical : PyFloat) :
    Except PyException ℤ :=
  match scaling with
  | .linear gain offset => do
    let x ← (physical.sub fl offset).div fl gain
    x.round
  | .custom _ none => .error .notImplementedError
  | .custom _ (some toRawFn) => toRawFn physical

structure DataFormat where
  transferBits : Nat
  dataWidthBits : Option Nat := none
  dataLsb : Nat := 0
  signed : Bool := false
  scaling : Option ScalingFunction := none

namespace DataFormat

variable (format : DataFormat)

def dataWidthBytes : Except PyException Nat := do
  ensure (format.transferBits % 8 = 0) .valueError
  return format.transferBits / 8

/-- A width of zero counts as absent. -/
def logicalWidth : Nat :=
  match format.dataWidthBits with
  | none | some 0 => format.transferBits
  | some width => width

def signExtend (value bitWidth : Nat) : ℤ :=
  if bitWidth = 0 then 0
  else
    let signBit := 1 <<< (bitWidth - 1)
    ((extractBits 0 bitWidth value ^^^ signBit : Nat) : ℤ) - signBit

def extractData (transferRaw : Nat) : ℤ :=
  let raw := extractBits format.dataLsb format.logicalWidth transferRaw
  if format.signed then signExtend raw format.logicalWidth else raw

/-- The `&` with a mask leaves no negative number. -/
def packData (dataRaw : ℤ) : Except PyException Nat := do
  let width := format.logicalWidth
  -- `1 << (width - 1)` raises when there is no bit
  ensure (format.signed → 0 < width) .valueError
  let minv : ℤ := if format.signed then -(1 <<< (width - 1)) else 0
  let maxv : ℤ := if format.signed then (1 <<< (width - 1)) - 1 else (1 <<< width) - 1
  ensure (minv ≤ dataRaw ∧ dataRaw ≤ maxv) .valueError
  let container := (Int.land dataRaw (bitMask 0 width)).toNat <<< format.dataLsb
  return container &&& bitMask 0 format.transferBits

def floatFromRaw (fl : Rounding) (transferRaw : Nat) : Except PyException PyFloat :=
  match format.scaling with
  | some scaling => scaling.toPhysical fl (format.extractData transferRaw)
  | none => PyFloat.ofInt fl (format.extractData transferRaw)

def rawFromFloat (fl : Rounding) (physical : PyFloat) : Except PyException Nat :=
  match format.scaling with
  | some scaling => do
    let data ← scaling.toRaw fl physical
    format.packData data
  | none => do
    let width := format.logicalWidth
    let iv ← physical.round
    ensure (0 ≤ iv ∧ iv ≤ (1 <<< width) - 1) .valueError
    format.packData iv

end DataFormat

/-! ## Registers and devices -/

/-- `mask` is `bitMask lsb widthBits`. -/
structure FieldDef where
  lsb : Nat
  widthBits : Nat := 1

structure RegisterDef where
  regAlias : String
  register : Nat
  defaultValue : ℤ := 0
  format : DataFormat := { transferBits := 8 }
  endianness : Endianness := .big
  fields : List (String × FieldDef) := []

def RegisterDef.dataWidthBytes (reg : RegisterDef) : Except PyException Nat :=
  reg.format.dataWidthBytes

def RegisterDef.field (reg : RegisterDef) (fieldName : String) : Except PyException FieldDef :=
  lookupKey reg.fields fieldName

structure RegisterDevice where
  name : String
  address : Nat
  addrWidthBytes : Nat := 1
  registers : List (String × RegisterDef) := []

def RegisterDevice.register (device : RegisterDevice) (registerAlias : String) :
    Except PyException RegisterDef :=
  lookupKey device.registers registerAlias

/-- A batch command is the values of its enum members. -/
structure CommandDevice where
  name : String
  address : Nat
  dataFormat : DataFormat
  batchCommands : List (String × List ℤ) := []
  endianness : Endianness := .big

def CommandDevice.dataWidthBytes (device : CommandDevice) : Except PyException Nat :=
  device.dataFormat.dataWidthBytes

inductive Device
  | register (device : RegisterDevice)
  | command (device : CommandDevice)

structure SystemDefinition where
  devices : List (String × Device)

def SystemDefinition.device (system : SystemDefinition) (periph : String) :
    Except PyException Device :=
  lookupKey system.devices periph

end Instro.I2c
