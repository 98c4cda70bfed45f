import Instro.EthernetIp.Types
import Instro.Library.FloatFormat

/-!
# PLC values

A value as the PLC backend gives it, as the Rust session passes it on, and as Python sees it. Python
never sees a string value.
-/

namespace Instro.EthernetIp

open Instro.Library

/-- The values that are not structured. Floats are their bits. -/
inductive Scalar
  | bool (b : Bool)
  | sint (n : Int8)
  | int (n : Int16)
  | dint (n : Int32)
  | lint (n : Int64)
  | usint (n : UInt8)
  | uint (n : UInt16)
  | udint (n : UInt32)
  | ulint (n : UInt64)
  | real (bits : UInt32)
  | lreal (bits : UInt64)
  | string (s : String)
  deriving DecidableEq

/-- A structured value of the backend; symbol id 0 stands for none. -/
structure UdtData where
  symbolId : Int32
  data : List UInt8
  deriving DecidableEq

/-- The value type of the backend. -/
inductive BackendValue
  | scalar (s : Scalar)
  | udt (u : UdtData)
  deriving DecidableEq

structure StructuredValue where
  symbolId : Option Int32
  data : List UInt8
  deriving DecidableEq

/-- The value type of the session. -/
inductive Value
  | scalar (s : Scalar)
  | struct (v : StructuredValue)
  deriving DecidableEq

def StructuredValue.ofUdt (udt : UdtData) : StructuredValue :=
  ⟨if udt.symbolId ≠ 0 then some udt.symbolId else none, udt.data⟩

def Value.ofBackend : BackendValue → Value
  | .scalar s => .scalar s
  | .udt u => .struct (.ofUdt u)

def Value.toBackend : Value → BackendValue
  | .scalar s => .scalar s
  | .struct v => .udt ⟨v.symbolId.getD 0, v.data⟩

def Value.isString : Value → Bool
  | .scalar (.string _) => true
  | _ => false

/-- `PlcValue`: a value that Python can hold. -/
structure PlcValue where
  value : Value
  not_string : value.isString = false
  deriving DecidableEq

inductive PlcKind
  | bool
  | sint
  | int
  | dint
  | lint
  | usint
  | uint
  | udint
  | ulint
  | real
  | lreal
  | structured
  deriving DecidableEq, Repr

/-- The payload of a value in Python. -/
inductive Payload
  | value (v : PyValue)
  | structured (v : StructuredValue)
  deriving DecidableEq

/-- The kind that is expected of a tag. -/
def TagDef.expectedPlcKind (tag : TagDef) : PlcKind :=
  match tag.dataType with
  | .bool => .bool
  | .sint => .sint
  | .int => .int
  | .dint => .dint
  | .lint => .lint
  | .usint => .usint
  | .uint => .uint
  | .udint => .udint
  | .ulint => .ulint
  | .real => .real
  | .lreal => .lreal

namespace PlcValue

/-- A scalar that is not a string. -/
def scalar (s : Scalar) (h : (Value.scalar s).isString = false) : PlcValue := ⟨.scalar s, h⟩

/-- `py_kind` -/
def kind : PlcValue → PlcKind
  | ⟨.scalar (.bool _), _⟩ => .bool
  | ⟨.scalar (.sint _), _⟩ => .sint
  | ⟨.scalar (.int _), _⟩ => .int
  | ⟨.scalar (.dint _), _⟩ => .dint
  | ⟨.scalar (.lint _), _⟩ => .lint
  | ⟨.scalar (.usint _), _⟩ => .usint
  | ⟨.scalar (.uint _), _⟩ => .uint
  | ⟨.scalar (.udint _), _⟩ => .udint
  | ⟨.scalar (.ulint _), _⟩ => .ulint
  | ⟨.scalar (.real _), _⟩ => .real
  | ⟨.scalar (.lreal _), _⟩ => .lreal
  | ⟨.struct _, _⟩ => .structured

/-- `value_payload_to_py` -/
def payload : PlcValue → Payload
  | ⟨.scalar (.bool b), _⟩ => .value (.bool b)
  | ⟨.scalar (.sint n), _⟩ => .value (.num (.int n.toInt))
  | ⟨.scalar (.int n), _⟩ => .value (.num (.int n.toInt))
  | ⟨.scalar (.dint n), _⟩ => .value (.num (.int n.toInt))
  | ⟨.scalar (.lint n), _⟩ => .value (.num (.int n.toInt))
  | ⟨.scalar (.usint n), _⟩ => .value (.num (.int n.toNat))
  | ⟨.scalar (.uint n), _⟩ => .value (.num (.int n.toNat))
  | ⟨.scalar (.udint n), _⟩ => .value (.num (.int n.toNat))
  | ⟨.scalar (.ulint n), _⟩ => .value (.num (.int n.toNat))
  | ⟨.scalar (.real bits), _⟩ => .value (.num (.float (FloatFormat.binary32.ofBits bits.toNat)))
  | ⟨.scalar (.lreal bits), _⟩ => .value (.num (.float (FloatFormat.binary64.ofBits bits.toNat)))
  | ⟨.struct v, _⟩ => .structured v

/-- The constructors of integer values take the integers of their width. -/
def ofInteger (dataType : DataType) (n : ℤ) : Except PyException PlcValue := do
  if let some (minVal, maxVal) := integerRanges dataType then
    ensure (minVal ≤ n ∧ n ≤ maxVal) .overflowError
  match dataType with
  | .sint => return scalar (.sint (.ofInt n)) rfl
  | .int => return scalar (.int (.ofInt n)) rfl
  | .dint => return scalar (.dint (.ofInt n)) rfl
  | .lint => return scalar (.lint (.ofInt n)) rfl
  | .usint => return scalar (.usint (.ofNat n.toNat)) rfl
  | .uint => return scalar (.uint (.ofNat n.toNat)) rfl
  | .udint => return scalar (.udint (.ofNat n.toNat)) rfl
  | .ulint => return scalar (.ulint (.ofNat n.toNat)) rfl
  | .bool | .real | .lreal => throw .typeError

def real (x : PyFloat) : PlcValue := scalar (.real (.ofNat (FloatFormat.binary32.castBits x))) rfl

def lreal (x : PyFloat) : PlcValue := scalar (.lreal (.ofNat (FloatFormat.binary64.castBits x))) rfl

end PlcValue

/-- `rust_value_to_py`: string values are not exposed. -/
def rustValueToPy (value : Value) : Except PyException PlcValue :=
  if h : value.isString = true then .error .typeError
  else .ok ⟨value, Bool.eq_false_iff.mpr h⟩

end Instro.EthernetIp
