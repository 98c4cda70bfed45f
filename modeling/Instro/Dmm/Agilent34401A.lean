import Instro.Library.PyBytes
import Instro.Library.PyConversions

/-!
# The Agilent 34401A

The driver keeps a range and a resolution, and puts them into every measurement command it builds. After
each measurement it asks the meter for its error.
-/

namespace Instro.Dmm

open Instro.Library

inductive MeasurementFunction
  | dcVoltage
  | acVoltage
  | twoWireResistance
  | fourWireResistance
  | dcCurrent
  | acCurrent
  deriving DecidableEq

def MeasurementFunction.value : MeasurementFunction → String
  | .dcVoltage => "DC_VOLTAGE"
  | .acVoltage => "AC_VOLTAGE"
  | .twoWireResistance => "TWO_WIRE_RESISTANCE"
  | .fourWireResistance => "FOUR_WIRE_RESISTANCE"
  | .dcCurrent => "DC_CURRENT"
  | .acCurrent => "AC_CURRENT"

/-- What a call raises. -/
inductive Raised
  /-- `ValueError` -/
  | valueError (message : String)
  /-- `NotImplementedError` -/
  | notImplementedError (message : String)
  /-- `RuntimeError`, "Agilent 34401A reported error: {err}" -/
  | reported (err : Text)
  /-- `None` has no function. -/
  | attributeError
  /-- The transport raises, or what it has read is not ASCII. -/
  | visa
  | python (e : PyException)
  deriving DecidableEq

/-- `f"{x:.{digits}e}"`, with one digit after the point or more. -/
def scientific (digits : ℕ) (x : PyFloat) : Text :=
  match x.value? with
  | some q =>
    let power := if q = 0 then 0 else Int.log 10 |q|
    let scaled := (roundHalfEven (|q| * 10 ^ ((digits : ℤ) - power))).toNat
    -- rounding up may give one digit more
    let (scaled, power) := if scaled = 10 ^ (digits + 1) then (10 ^ digits, power + 1) else (scaled, power)
    signText x.isNegative ++ PyText.ofNat (scaled / 10 ^ digits) ++ '.' ::
      padded digits (scaled % 10 ^ digits) ++ 'e' :: (if power < 0 then '-' else '+') ::
        padded 2 power.natAbs
  | none => x.fixed digits

example : scientific 6 (.finite (1 / 1000)) = "1.000000e-03".toList ∧
    scientific 6 (.finite (99999995 / 10)) = "1.000000e+07".toList := by decide +kernel

structure Agilent34401A where
  range : Option PyFloat
  resolution : Option PyFloat
  deriving DecidableEq

namespace Agilent34401A

/-- After `__init__`. -/
def new : Agilent34401A := ⟨none, none⟩

/-- What a measurement of the function is called. -/
def baseCmd : MeasurementFunction → Text
  | .dcVoltage => "MEAS:VOLT:DC".toList
  | .dcCurrent => "MEAS:CURR:DC".toList
  | .twoWireResistance => "MEAS:RES".toList
  | .fourWireResistance => "MEAS:FRES".toList
  | .acVoltage => "MEAS:VOLT:AC".toList
  | .acCurrent => "MEAS:CURR:AC".toList

variable (driver : Agilent34401A)

/-- `_build_meas_cmd` -/
def buildMeasCmd (base : Text) : Text :=
  match driver.range, driver.resolution with
  | none, _ => base ++ ['?']
  | some range, none => base ++ '?' :: ' ' :: scientific 6 range
  | some range, some resolution =>
    base ++ '?' :: ' ' :: scientific 6 range ++ ',' :: scientific 6 resolution

/-- The command of a measurement. -/
def measurement (function : MeasurementFunction) : Text := driver.buildMeasCmd (baseCmd function)

/-- `res_map` -/
def resMap (fl : Rounding) (n : ℤ) : Option PyFloat :=
  if n = 4 then some (fl (1 / 1000))
  else if n = 5 then some (fl (1 / 10000))
  else if n = 6 then some (fl (1 / 100000))
  else none

def setDigits (fl : Rounding) (n : ℤ) : Except Raised Agilent34401A :=
  match resMap fl n with
  | some resolution => .ok { driver with resolution := some resolution }
  | none => .error (.valueError "Agilent 34401A supports 4, 5, or 6 digit resolution.")

/-- `_store_range` -/
def storeRange (value : Option PyFloat) : Agilent34401A := { driver with range := value }

end Agilent34401A

/-! ## Answers -/

/-- What the transport reads after a query: bytes without the terminator, or it raises. -/
abbrev Answer := Option (List UInt8)

/-- `VisaDriver.query` with what is read. -/
def Answer.text : Answer → Except Raised Text
  | none => .error .visa
  | some bytes =>
    if bytes.all fun b => b.toNat < 0x80 then .ok (PyBytes.latin1 bytes) else .error .visa

def isSign (c : Char) : Bool := c = '-' || c = '+'

/-- `int(code_str) if code_str.lstrip("-+").isdigit() else -1` -/
def codeVal (code : Text) : Except PyException ℤ :=
  let digits := code.dropWhile isSign
  if digits ≠ [] ∧ digits.all PyText.isDigit then
    match code.takeWhile isSign with
    | [] | ['+'] => do return (← PyText.toInt digits : ℕ)
    | ['-'] => do return -(← PyText.toInt digits : ℕ)
    | _ => .error .valueError
  else .ok (-1)

/-- `_check_errors`, from what the meter answers. -/
def checkErrors (err : Text) : Except Raised Unit :=
  match codeVal ((PyText.strip err).takeWhile (· ≠ ',')) with
  | .error e => .error (.python e)
  | .ok code => if code = 0 then .ok () else .error (.reported (PyText.strip err))

/-- `_query_checked_float`, from what the meter answers to the measurement and for its error. -/
def reading (py : PyText) (value : Text) (errors : Answer) : Except Raised PyFloat :=
  match errors.text with
  | .error e => .error e
  | .ok err =>
    match checkErrors err with
    | .error e => .error e
    | .ok () => (py.toFloat value).mapError .python

example : checkErrors "+0,\"No error\"\n".toList = .ok () ∧
    checkErrors "-113,\"Undefined header\"".toList =
      .error (.reported "-113,\"Undefined header\"".toList) := by decide +kernel

end Instro.Dmm
