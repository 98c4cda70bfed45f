import Instro.Library.Checked
import Instro.Library.PyNumber

/-!
# EtherNet/IP tag definitions

The configuration of the tags and the checks it passes when it is loaded, and the checks of a tag on
a value that a caller writes.
-/

namespace Instro.EthernetIp

open Instro.Library

inductive DataType
  | bool
  | sint
  | int
  | dint
  | lint
  | usint
  | uint
  | udint
  | ulint
  | real
  | lreal
  deriving DecidableEq, Repr

/-- `INTEGER_RANGES`: every integer data type and its values. -/
def integerRanges : DataType → Option (ℤ × ℤ)
  | .sint => some (-128, 127)
  | .int => some (-32768, 32767)
  | .dint => some (-2147483648, 2147483647)
  | .lint => some (-9223372036854775808, 9223372036854775807)
  | .usint => some (0, 255)
  | .uint => some (0, 65535)
  | .udint => some (0, 4294967295)
  | .ulint => some (0, 18446744073709551615)
  | .bool => none
  | .real => none
  | .lreal => none

def DataType.isFloat (dt : DataType) : Bool := dt = .real ∨ dt = .lreal

/-- `STREAMABLE_DATA_TYPES` -/
def DataType.isStreamable (dt : DataType) : Bool :=
  dt = .bool ∨ (integerRanges dt).isSome ∨ dt.isFloat

structure TagDef where
  tagAlias : String
  tagName : String
  dataType : DataType
  poll : Bool
  writeMin : Option Number
  writeMax : Option Number

/-- What a caller passes to `write_tag`: a value, or text by mistake. -/
inductive WriteArgument
  | value (v : PyValue)
  | text (s : String)
  deriving DecidableEq

/-- Why a tag refuses a value, with what the message shows. -/
inductive TagError
  | notBool (tagAlias : String) (value : WriteArgument)
  | boolOnInteger (tagAlias : String) (dataType : DataType)
  | floatOnInteger (tagAlias : String) (dataType : DataType) (value : PyFloat)
  | textOnInteger (tagAlias : String) (dataType : DataType)
  | outOfRange (tagAlias : String) (value : ℤ) (dataType : DataType)
  | boolOnFloat (tagAlias : String) (dataType : DataType)
  | textOnFloat (tagAlias : String) (dataType : DataType)
  | belowWriteMin (tagAlias : String) (value writeMin : Number)
  | aboveWriteMax (tagAlias : String) (value writeMax : Number)
  deriving DecidableEq

/-- Why a configuration is refused, with what the message shows. -/
inductive ConfigError
  | limitsOnBool (dataType : DataType)
  | writeMinAboveWriteMax (writeMin writeMax : Number)
  | limitOutOfRange (field : String) (value : Number) (dataType : DataType)
  | wrongProtocol (protocol : String)
  | duplicateTagAliases (aliases : List String)
  | duplicateTagNames (names : List String)

namespace TagDef

variable (tag : TagDef)

/-! ## Checks on a written value -/

/-- `_validate_numeric_write_limits` -/
def validateNumericWriteLimits (value : Number) : Except TagError Unit := do
  if let some writeMin := tag.writeMin then
    ensure (value.lt writeMin = false) (.belowWriteMin tag.tagAlias value writeMin)
  if let some writeMax := tag.writeMax then
    ensure (writeMax.lt value = false) (.aboveWriteMax tag.tagAlias value writeMax)

def validateIntegerRawValue (minVal maxVal : ℤ) : WriteArgument → Except TagError ℤ
  | .value (.bool _) => .error (.boolOnInteger tag.tagAlias tag.dataType)
  | .value (.num (.float x)) => .error (.floatOnInteger tag.tagAlias tag.dataType x)
  | .text _ => .error (.textOnInteger tag.tagAlias tag.dataType)
  | .value (.num (.int n)) => do
    ensure (minVal ≤ n ∧ n ≤ maxVal) (.outOfRange tag.tagAlias n tag.dataType)
    return n

/-- `validate_write_value`. It gives back the value, which is a boolean or a number by then. -/
def validateWriteValue (arg : WriteArgument) : Except TagError PyValue :=
  match integerRanges tag.dataType with
  | some (minVal, maxVal) => do
    let n ← tag.validateIntegerRawValue minVal maxVal arg
    tag.validateNumericWriteLimits (.int n)
    return .num (.int n)
  | none =>
    if tag.dataType = .bool then
      match arg with
      | .value (.bool b) => .ok (.bool b)
      | .value (.num (.int n)) => do
        ensure (n = 0 ∨ n = 1) (.notBool tag.tagAlias arg)
        return .num (.int n)
      | _ => .error (.notBool tag.tagAlias arg)
    else
      match arg with
      | .value (.bool _) => .error (.boolOnFloat tag.tagAlias tag.dataType)
      | .text _ => .error (.textOnFloat tag.tagAlias tag.dataType)
      | .value (.num x) => do
        tag.validateNumericWriteLimits x
        return .num x

/-! ## Checks on the definition -/

def checkLimitsSupported : Except ConfigError Unit :=
  ensure (¬((tag.writeMin.isSome ∨ tag.writeMax.isSome) ∧
      ¬((integerRanges tag.dataType).isSome ∨ tag.dataType.isFloat)))
    (.limitsOnBool tag.dataType)

def checkLimitOrder : Except ConfigError Unit :=
  match tag.writeMin, tag.writeMax with
  | some writeMin, some writeMax =>
    ensure (writeMax.lt writeMin = false) (.writeMinAboveWriteMax writeMin writeMax)
  | _, _ => .ok ()

/-- `_validate_numeric_write_limit_ranges`, for one of the limits. -/
def checkLimitRange (field : String) (limit : Option Number) : Except ConfigError Unit :=
  match integerRanges tag.dataType, limit with
  | some (minVal, maxVal), some value =>
    ensure (value.lt (.int minVal) = false ∧ Number.lt (.int maxVal) value = false)
      (.limitOutOfRange field value tag.dataType)
  | _, _ => .ok ()

/-- `_validate_tag_constraints` -/
def validateTagConstraints : Except ConfigError Unit := do
  tag.checkLimitsSupported
  tag.checkLimitOrder
  tag.checkLimitRange "write_min" tag.writeMin
  tag.checkLimitRange "write_max" tag.writeMax

/-- The tag definition validates. -/
def Accepted : Prop := tag.validateTagConstraints = .ok ()

end TagDef

/-! ## The configuration -/

structure EtherNetIPConfig where
  protocol : String
  tags : List TagDef

namespace EtherNetIPConfig

variable (config : EtherNetIPConfig)

/-- Tags included in background polling. -/
def polledTags : List TagDef := config.tags.filter (·.poll)

def validateProtocol : Except ConfigError Unit :=
  ensure (config.protocol = "ethernetip") (.wrongProtocol config.protocol)

/-- The names that occur more than once, sorted. -/
def duplicates (names : List String) : List String :=
  (names.filter (1 < names.count ·)).dedup.mergeSort (· ≤ ·)

def validateUniqueTagAliases : Except ConfigError Unit :=
  let aliases := config.tags.map (·.tagAlias)
  ensure aliases.Nodup (.duplicateTagAliases (duplicates aliases))

def validateUniqueTagNames : Except ConfigError Unit :=
  let tagNames := config.tags.map (·.tagName)
  ensure tagNames.Nodup (.duplicateTagNames (duplicates tagNames))

/-- Every tag definition validates, then the configuration as a whole. -/
def validate : Except ConfigError Unit := do
  config.tags.forM TagDef.validateTagConstraints
  config.validateProtocol
  config.validateUniqueTagAliases
  config.validateUniqueTagNames

/-- `get_tag`: a later tag of the same alias replaces an earlier one. -/
def getTag (tagAlias : String) : Option TagDef :=
  config.tags.reverse.find? fun tag => tag.tagAlias = tagAlias

end EtherNetIPConfig

end Instro.EthernetIp
