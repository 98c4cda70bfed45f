import Instro.Library.Exchange
import Instro.Modbus.Codec
import Mathlib.Data.List.AList

/-!
# The Modbus device

`write` resolves a label, validates, scales and encodes the value and sends one request; `read`
decodes and scales what the device holds. The client is a parameter: it answers each request.
-/

namespace Instro.Modbus

open Instro.Library

/-- A write request of the client. -/
inductive Request
  | writeRegister (address value : Nat)
  | writeRegisters (address : Nat) (values : List Nat)
  | writeCoil (address : Nat) (value : Bool)
  deriving DecidableEq, Repr

/-- What `write` raises, with what the message shows. -/
inductive WriteError
  | unknownRegister (regAlias : String)
  | noWriteValueMap (regAlias label : String)
  | unknownLabel (regAlias label : String) (available : List String)
  | readOnly (regAlias : String) (registerType : RegisterType)
  | belowWriteMin (regAlias : String) (value : PyValue) (writeMin : Number)
  | aboveWriteMax (regAlias : String) (value : PyValue) (writeMax : Number)
  | notBool (regAlias : String) (value : PyValue)
  | boolOnInteger (regAlias : String) (dataType : DataType)
  | floatOnInteger (regAlias : String) (dataType : DataType) (value : Number) (truncated : ℤ)
  | outOfRange (regAlias : String) (value : ℤ) (dataType : DataType)
  | boolOnFloat (regAlias : String) (dataType : DataType)
  | scaledFractional (regAlias : String) (raw : PyFloat) (dataType : DataType)
  | scaledOutOfRange (regAlias : String) (raw : ℤ) (dataType : DataType)
  | readOnlyType (registerType : RegisterType)
  | interpreter (e : PyException)
  | shuttingDown
  | notConnected
  | client (message : String)
  deriving DecidableEq

/-- The connection of a device. `respond` is what the client makes of a request. -/
structure Link where
  shuttingDown : Bool
  client : Option (Request → Except WriteError Unit)

abbrev ModbusM := Exchange Request WriteError

/-- `_modbus_op`: refuse while shutting down or not connected, else run the operation. -/
def modbusOp (link : Link) (request : Request) : ModbusM Unit := do
  .check (ensure (link.shuttingDown = false) .shuttingDown)
  match link.client with
  | none => .check (.error .notConnected)
  | some respond => .send respond request

/-- What a caller passes to `write`: a value, or a label of the value map. -/
inductive WriteArgument
  | value (v : PyValue)
  | label (s : String)

structure Command where
  channel : String
  value : PyValue

structure ModbusDevice where
  name : String
  config : ModbusConfig

/-! ## Validation -/

section Validation

variable (fl : Rounding) (reg : RegisterDef) (regAlias : String)

/-- A label stands for the value the register's map gives it. -/
def resolveValue : WriteArgument → Except WriteError PyValue
  | .value v => .ok v
  | .label s =>
    match reg.writeValueMap with
    | none => .error (.noWriteValueMap regAlias s)
    | some m =>
      match m.get s with
      | none => .error (.unknownLabel regAlias s (m.entries.map Prod.fst))
      | some v => .ok (.num v)

/-- The two negative comparisons against `write_min` and `write_max`. -/
def checkWriteLimits (value : PyValue) : Except WriteError Unit := do
  if let some writeMin := reg.writeMin then
    ensure (value.number.lt writeMin = false) (.belowWriteMin regAlias value writeMin)
  if let some writeMax := reg.writeMax then
    ensure (writeMax.lt value.number = false) (.aboveWriteMax regAlias value writeMax)

/-- The branches of `_validate_write_value` by the kind of the register. -/
def checkValueType (value : PyValue) : Except WriteError Unit :=
  if reg.isBoolRegister then
    ensure (value.isBool = true ∨ value = .num (.int 0) ∨ value = .num (.int 1))
      (.notBool regAlias value)
  else
    match integerRanges reg.dataType with
    | some (minVal, maxVal) => do
      ensure (value.isBool = false) (.boolOnInteger regAlias reg.dataType)
      if reg.scale.isNone then
        let n ← raiseAs .interpreter value.number.toInt
        ensure (value.number.isFloat = false ∨ value.number.eq (.int n) = true)
          (.floatOnInteger regAlias reg.dataType value.number n)
        ensure (minVal ≤ n ∧ n ≤ maxVal) (.outOfRange regAlias n reg.dataType)
    | none => ensure (value.isBool = false) (.boolOnFloat regAlias reg.dataType)

/-- `_validate_write_value` -/
def validateWriteValue (value : PyValue) : Except WriteError Unit := do
  ensure (¬(reg.registerType = .input ∨ reg.registerType = .discrete))
    (.readOnly regAlias reg.registerType)
  checkWriteLimits reg regAlias value
  checkValueType reg regAlias value

/-- The raw value of a physical value. -/
def rawValueOf (value : PyValue) : Except WriteError PyValue :=
  match reg.scale with
  | some s => do
    let raw ← raiseAs .interpreter (s.toRaw fl value.number)
    return .num (.float raw)
  | none => .ok value

/-- A scaled raw value of an integer register becomes the integer it is close to. -/
def roundScaled (rawValue : PyValue) : Except WriteError PyValue :=
  match reg.scale, rawValue with
  | some _, .num (.float x) => do
    let fractional ← raiseAs .interpreter (isFractional fl x)
    ensure (fractional = false) (.scaledFractional regAlias x reg.dataType)
    let n ← raiseAs .interpreter x.round
    return .num (.int n)
  | _, _ => .ok rawValue

/-- `_validate_raw_value_range` -/
def validateRawValueRange (rawValue : PyValue) : Except WriteError PyValue :=
  match integerRanges reg.dataType with
  | none => .ok rawValue
  | some (minVal, maxVal) => do
    let rawValue ← roundScaled fl reg regAlias rawValue
    let n ← raiseAs .interpreter rawValue.number.toInt
    ensure (minVal ≤ n ∧ n ≤ maxVal)
      (if reg.scale.isSome then .scaledOutOfRange regAlias n reg.dataType
        else .outOfRange regAlias n reg.dataType)
    return rawValue

/-- The registers of a value in the layout of the register. -/
def encode (rawValue : PyValue) : Except WriteError (List Nat) :=
  raiseAs .interpreter
    (encodeValue fl reg.byteSwap reg.wordSwap reg.longSwap rawValue reg.dataType)

end Validation

/-! ## Writing -/

/-- The request for encoded registers: one register, or several. -/
def holdingRequest (address : Nat) : List Nat → Request
  | [word] => .writeRegister address word
  | words => .writeRegisters address words

/-- `_write_register_raw` -/
def writeRegisterRaw (fl : Rounding) (link : Link) (reg : RegisterDef) (value : PyValue) :
    ModbusM Unit :=
  match reg.registerType with
  | .holding => do
    let encoded ← .check (encode fl reg value)
    modbusOp link (holdingRequest reg.startingAddress encoded)
  | .coil => modbusOp link (.writeCoil reg.startingAddress value.number.truthy)
  | .input | .discrete => .check (.error (.readOnlyType reg.registerType))

namespace ModbusDevice

variable (fl : Rounding) (dev : ModbusDevice)

def getRegister (regAlias : String) : Except WriteError RegisterDef :=
  raiseAs (fun _ => .unknownRegister regAlias) (dev.config.getRegister regAlias)

def write (link : Link) (regAlias : String) (arg : WriteArgument) : ModbusM Command := do
  let reg ← .check (dev.getRegister regAlias)
  let value ← .check (resolveValue reg regAlias arg)
  .check (validateWriteValue reg regAlias value)
  let rawValue ← .check (rawValueOf fl reg value)
  let rawValue ← .check (validateRawValueRange fl reg regAlias rawValue)
  writeRegisterRaw fl link reg rawValue
  return ⟨s!"{dev.name}.{regAlias}.cmd", value⟩

end ModbusDevice

/-! ## Reading -/

/-- What a device holds, by address. -/
structure Memory where
  holding : Nat → Nat
  input : Nat → Nat
  coils : Nat → Bool
  discrete : Nat → Bool

/-- `count` items from an address on. -/
def readItems {α : Type} (items : Nat → α) (address count : Nat) : List α :=
  (List.range count).map fun i => items (address + i)

/-- `_read_register_raw` -/
def readRegisterRaw (mem : Memory) (reg : RegisterDef) : Except PyException Number :=
  match reg.registerType with
  | .holding =>
    decodeRegisters reg.byteSwap reg.wordSwap reg.longSwap
      (readItems mem.holding reg.startingAddress reg.registerCount) reg.dataType
  | .input =>
    decodeRegisters reg.byteSwap reg.wordSwap reg.longSwap
      (readItems mem.input reg.startingAddress reg.registerCount) reg.dataType
  | .coil => .ok (.int (mem.coils reg.startingAddress).toNat)
  | .discrete => .ok (.int (mem.discrete reg.startingAddress).toNat)

/-- `_apply_scaling` -/
def applyScaling (fl : Rounding) (raw : Number) (reg : RegisterDef) : Except PyException Number :=
  match reg.scale with
  | some s => do
    let x ← s.toPhysical fl raw
    return .float x
  | none => .ok raw

theorem applyScaling_of_none {fl : Rounding} {reg : RegisterDef} (h : reg.scale = none)
    (raw : Number) : applyScaling fl raw reg = .ok raw := by
  unfold applyScaling
  rw [h]

theorem applyScaling_of_some {fl : Rounding} {reg : RegisterDef} {s : LinearScale}
    (h : reg.scale = some s) {raw : Number} {x : PyFloat} (hx : s.toPhysical fl raw = .ok x) :
    applyScaling fl raw reg = .ok (.float x) := by
  unfold applyScaling
  rw [h]
  dsimp only
  rw [hx]
  rfl

/-- The channels of one measurement, one value each. -/
abbrev Channels := AList fun _ : String => Number

/-- `_build_register_channels` -/
def buildRegisterChannels (name : String) (reg : RegisterDef) (rawValue scaledValue : Number) :
    Except PyException Channels :=
  let channels : Channels := (∅ : Channels).insert s!"{name}.{reg.name}" scaledValue
  match reg.bitmap with
  | none | some [] => .ok channels
  | some bits => do
    let intValue ← rawValue.toInt
    return bits.foldl
      (fun channels bit =>
        channels.insert s!"{name}.{bit.name}" (.int (intValue / 2 ^ bit.bitIndex.val % 2)))
      channels

def ModbusDevice.read (fl : Rounding) (dev : ModbusDevice) (mem : Memory) (regAlias : String) :
    Except PyException Channels := do
  let reg ← dev.config.getRegister regAlias
  let rawValue ← readRegisterRaw mem reg
  let scaledValue ← applyScaling fl rawValue reg
  buildRegisterChannels dev.name reg rawValue scaledValue

end Instro.Modbus
