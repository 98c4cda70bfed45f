import Instro.Library.Checked
import Instro.Library.PyNumber

/-!
# Modbus register definitions

The configuration of a register and the checks it passes when the configuration is loaded. A
configured number is an `int` or a `float`: booleans have been turned into integers by then.
-/

namespace Instro.Modbus

open Instro.Library

inductive RegisterType
  | holding
  | input
  | coil
  | discrete
  deriving DecidableEq, Repr

inductive DataType
  | uint16
  | int16
  | uint32
  | int32
  | uint64
  | int64
  | float32
  | float64
  | bool
  deriving DecidableEq, Repr

/-- `INTEGER_RANGES`: every integer data type and its raw values. -/
def integerRanges : DataType → Option (ℤ × ℤ)
  | .uint16 => some (0, 65535)
  | .int16 => some (-32768, 32767)
  | .uint32 => some (0, 4294967295)
  | .int32 => some (-2147483648, 2147483647)
  | .uint64 => some (0, 18446744073709551615)
  | .int64 => some (-9223372036854775808, 9223372036854775807)
  | .float32 => none
  | .float64 => none
  | .bool => none

def DataType.isFloat (dt : DataType) : Bool := dt = .float32 ∨ dt = .float64

/-- Linear scaling: physical = offset + gain * raw. -/
structure LinearScale where
  gain : PyFloat
  offset : PyFloat
  gain_ne_zero : gain.isZero = false

def LinearScale.toPhysical (fl : Rounding) (s : LinearScale) (raw : Number) :
    Except PyException PyFloat := do
  let x ← raw.toFloat fl
  return PyFloat.add fl s.offset (PyFloat.mul fl s.gain x)

def LinearScale.toRaw (fl : Rounding) (s : LinearScale) (physical : Number) :
    Except PyException PyFloat := do
  let x ← physical.toFloat fl
  PyFloat.div fl (PyFloat.sub fl x s.offset) s.gain

/-- `abs(x - round(x)) > 1e-6` -/
def isFractional (fl : Rounding) (x : PyFloat) : Except PyException Bool := do
  let n ← x.round
  let m ← PyFloat.ofInt fl n
  return Number.lt (.float (fl (1 / 1000000))) (.float (PyFloat.sub fl x m).abs)

structure BitDef where
  name : String
  bitIndex : Fin 16

/-- The labels a value can be written by, in the order of the configuration. -/
structure ValueMap where
  entries : List (String × Number)
  nodup : (entries.map Prod.fst).Nodup

def ValueMap.get (m : ValueMap) (label : String) : Option Number := m.entries.lookup label

structure RegisterDef where
  name : String
  startingAddress : Fin 65536
  registerType : RegisterType
  dataType : DataType
  byteSwap : Bool
  wordSwap : Bool
  longSwap : Bool
  scale : Option LinearScale
  bitmap : Option (List BitDef)
  poll : Bool
  writeMin : Option Number
  writeMax : Option Number
  writeValueMap : Option ValueMap
  readGroup : Option String

namespace RegisterDef

/-- The number of 16-bit registers the data type spans. -/
def registerCount (reg : RegisterDef) : Nat :=
  match reg.dataType with
  | .uint16 | .int16 => 1
  | .uint32 | .int32 | .float32 => 2
  | .uint64 | .int64 | .float64 => 4
  | .bool => 1

/-- The register takes booleans: a coil, or a register of data type `bool`. -/
def isBoolRegister (reg : RegisterDef) : Bool :=
  reg.dataType = .bool ∨ reg.registerType = .coil

end RegisterDef

/-- Why a configuration is refused, with what the message shows. -/
inductive ConfigError
  | scaleNotAllowed (registerType : RegisterType)
  | wordSwapNotApplicable (dataType : DataType)
  | longSwapNotApplicable (dataType : DataType)
  | exceedsAddressSpace (start last : Nat)
  | notWritable (fields : List String) (registerType : RegisterType)
  | writeMinAboveWriteMax (writeMin writeMax : Number)
  | limitOutOfRange (field : String) (value : Number) (raw : Option PyFloat) (dataType : DataType)
  | duplicateMapValue (value : Number) (first second : String)
  | mapEntryNotBool (label : String) (value : Number)
  | mapEntryFractional (label : String) (value : Number) (raw : Option PyFloat)
      (dataType : DataType)
  | mapEntryOutOfRange (label : String) (value : Number) (raw : Option ℤ) (dataType : DataType)
  | mapEntryBelowMin (label : String) (value writeMin : Number)
  | mapEntryAboveMax (label : String) (value writeMax : Number)
  | bitmapDataType (dataType : DataType)
  | bitmapRegisterType (registerType : RegisterType)
  | duplicateBitIndices (indices : List Nat)
  | boolInValueMap (label : String) (value : Bool)
  | duplicateNames (names : List String)
  | interpreter (e : PyException)

/-! ## `_validate_register_type_constraints` -/

namespace RegisterDef

variable (fl : Rounding) (reg : RegisterDef)

def checkScale : Except ConfigError Unit :=
  ensure (¬((reg.registerType = .coil ∨ reg.registerType = .discrete) ∧ reg.scale.isSome))
    (.scaleNotAllowed reg.registerType)

def checkWordSwap : Except ConfigError Unit :=
  ensure (¬(reg.wordSwap ∧
      (reg.dataType = .uint16 ∨ reg.dataType = .int16 ∨ reg.dataType = .bool)))
    (.wordSwapNotApplicable reg.dataType)

def checkLongSwap : Except ConfigError Unit :=
  ensure (¬(reg.longSwap ∧
      ¬(reg.dataType = .uint64 ∨ reg.dataType = .int64 ∨ reg.dataType = .float64)))
    (.longSwapNotApplicable reg.dataType)

def checkAddressSpan : Except ConfigError Unit :=
  let endAddress := reg.startingAddress.val + reg.registerCount - 1
  ensure (endAddress ≤ 65535) (.exceedsAddressSpace reg.startingAddress endAddress)

def checkWriteFields : Except ConfigError Unit :=
  let writeFields :=
    (if reg.writeMin.isSome ∨ reg.writeMax.isSome then ["write_min/write_max"] else []) ++
      (if reg.writeValueMap.isSome then ["write_value_map"] else [])
  ensure (writeFields = [] ∨ reg.registerType = .holding)
    (.notWritable writeFields reg.registerType)

def checkLimitOrder : Except ConfigError Unit :=
  match reg.writeMin, reg.writeMax with
  | some writeMin, some writeMax =>
    ensure (writeMax.lt writeMin = false) (.writeMinAboveWriteMax writeMin writeMax)
  | _, _ => .ok ()

/-- A write limit converts into the range of the data type. -/
def checkLimitRange (field : String) (limit : Option Number) : Except ConfigError Unit :=
  match integerRanges reg.dataType, limit with
  | some (dtMin, dtMax), some value =>
    match reg.scale with
    | some s => do
      let raw ← raiseAs .interpreter (s.toRaw fl value)
      ensure (Number.lt (.float raw) (.int dtMin) = false ∧
          Number.lt (.int dtMax) (.float raw) = false)
        (.limitOutOfRange field value (some raw) reg.dataType)
    | none =>
      ensure (value.lt (.int dtMin) = false ∧ Number.lt (.int dtMax) value = false)
        (.limitOutOfRange field value none reg.dataType)
  | _, _ => .ok ()

/-- The value of a label on an integer register becomes a raw value of the data type. -/
def checkIntegerEntry (dtMin dtMax : ℤ) (label : String) (raw : Number) :
    Except ConfigError Unit :=
  match reg.scale with
  | none => do
    if raw.isFloat then
      let n ← raiseAs .interpreter raw.toInt
      ensure (raw.eq (.int n)) (.mapEntryFractional label raw none reg.dataType)
    let n ← raiseAs .interpreter raw.round
    ensure (dtMin ≤ n ∧ n ≤ dtMax) (.mapEntryOutOfRange label raw none reg.dataType)
  | some s => do
    let rawCheck ← raiseAs .interpreter (s.toRaw fl raw)
    let fractional ← raiseAs .interpreter (isFractional fl rawCheck)
    ensure (fractional = false) (.mapEntryFractional label raw (some rawCheck) reg.dataType)
    let n ← raiseAs .interpreter rawCheck.round
    ensure (dtMin ≤ n ∧ n ≤ dtMax) (.mapEntryOutOfRange label raw (some n) reg.dataType)

def checkEntryType (label : String) (raw : Number) : Except ConfigError Unit :=
  if reg.isBoolRegister then
    -- an `int` that is 0 or 1; a float is refused even if it is 1.0
    ensure (raw = .int 0 ∨ raw = .int 1) (.mapEntryNotBool label raw)
  else
    match integerRanges reg.dataType with
    | some (dtMin, dtMax) => checkIntegerEntry fl reg dtMin dtMax label raw
    | none => .ok ()

def checkEntryLimits (label : String) (raw : Number) : Except ConfigError Unit := do
  if let some writeMin := reg.writeMin then
    ensure (raw.lt writeMin = false) (.mapEntryBelowMin label raw writeMin)
  if let some writeMax := reg.writeMax then
    ensure (writeMax.lt raw = false) (.mapEntryAboveMax label raw writeMax)

/-- `seen`: the values of the labels before, latest first. -/
def checkEntries (seen : List (String × Number)) :
    List (String × Number) → Except ConfigError Unit
  | [] => .ok ()
  | (label, raw) :: entries => do
    if let some (first, _) := seen.find? fun (_, value) => value.eq raw then
      throw (.duplicateMapValue raw first label)
    reg.checkEntryType fl label raw
    reg.checkEntryLimits label raw
    checkEntries ((label, raw) :: seen) entries

def checkValueMap : Except ConfigError Unit :=
  match reg.writeValueMap with
  | some m => checkEntries fl reg [] m.entries
  | none => .ok ()

def checkBitmap : Except ConfigError Unit :=
  match reg.bitmap with
  | none => .ok ()
  | some bits => do
    ensure (reg.dataType = .uint16) (.bitmapDataType reg.dataType)
    ensure (reg.registerType = .holding ∨ reg.registerType = .input)
      (.bitmapRegisterType reg.registerType)
    let indices := bits.map fun b => b.bitIndex.val
    ensure indices.Nodup
      (.duplicateBitIndices ((indices.filter (1 < indices.count ·)).dedup.mergeSort (· ≤ ·)))

/-- Cross-field validation: scale, swap flags, address span, write limits, value map, bitmap. -/
def validateRegisterTypeConstraints : Except ConfigError Unit := do
  reg.checkScale
  reg.checkWordSwap
  reg.checkLongSwap
  reg.checkAddressSpan
  reg.checkWriteFields
  reg.checkLimitOrder
  reg.checkLimitRange fl "write_min" reg.writeMin
  reg.checkLimitRange fl "write_max" reg.writeMax
  reg.checkValueMap fl
  reg.checkBitmap

/-- The register definition validates. -/
def Accepted : Prop := reg.validateRegisterTypeConstraints fl = .ok ()

end RegisterDef

/-! ## The value map before coercion -/

/-- `_reject_bool_in_value_map_for_non_bool_registers` -/
def rejectBoolInValueMap (reg : RegisterDef) (valueMap : List (String × PyValue)) :
    Except ConfigError Unit :=
  if reg.dataType = .bool ∨ reg.registerType = .coil then .ok ()
  else
    valueMap.forM fun (label, raw) =>
      match raw with
      | .bool b => .error (.boolInValueMap label b)
      | .num _ => .ok ()

/-- The register with the value map read from a configuration, if it validates. -/
def RegisterDef.withValueMap (fl : Rounding) (reg : RegisterDef)
    (valueMap : List (String × PyValue)) (hmap : (valueMap.map Prod.fst).Nodup) :
    Except ConfigError RegisterDef := do
  rejectBoolInValueMap reg valueMap
  let entries := valueMap.map fun (label, raw) => (label, raw.number)
  have hentries : (entries.map Prod.fst).Nodup := by
    rw [List.map_map]
    exact hmap
  let reg' := { reg with writeValueMap := some ⟨entries, hentries⟩ }
  reg'.validateRegisterTypeConstraints fl
  return reg'

/-! ## The configuration -/

structure ModbusConfig where
  registers : List RegisterDef

namespace ModbusConfig

variable (config : ModbusConfig)

/-- The channel names of the registers and of their bits. -/
def channelNames : List String :=
  config.registers.map (·.name) ++
    config.registers.flatMap fun reg => (reg.bitmap.getD []).map (·.name)

def validateUniqueBitmapNames : Except ConfigError Unit :=
  let names := config.channelNames
  ensure names.Nodup (.duplicateNames ((names.filter (1 < names.count ·)).dedup.mergeSort (· ≤ ·)))

/-- `_register_index`: a later register of the same name replaces an earlier one. -/
def getRegister (name : String) : Except PyException RegisterDef :=
  match config.registers.reverse.find? fun reg => reg.name = name with
  | some reg => .ok reg
  | none => .error .keyError

end ModbusConfig

end Instro.Modbus
