import Instro.Library.AtomicSteps
import Instro.Psu.SimulatedDriver

/-!
# The driver line by line

The calls of the simulator's driver in the steps between which other threads may run: a line is written, or
a response read.
-/

namespace Instro.Psu.Simulated

open Instro.Library
open Instro.Psu.Bk914x (Method Value)

abbrev Lines (α : Type) := AtomicSteps Link (Except Raised α)

section Lines

variable (fl : Rounding) (py : PyText) (gauss : ℕ → PyFloat → PyFloat → PyFloat)

def queryLines (command : Text) : Lines Text :=
  (AtomicSteps.atomically (write fl py gauss command)).andThen fun _ => .atomically read

def checkErrorsLines : Lines Unit :=
  (queryLines fl py gauss ":SYST:ERR?".toList).andThen fun err =>
    if errorCode err = ['0'] then .done (.ok ()) else .done (.error (.reported err))

def writeCheckedLines (command : Text) : Lines Value :=
  ((AtomicSteps.atomically (write fl py gauss command)).andThen fun _ =>
    checkErrorsLines fl py gauss).andThen fun _ => .done (.ok .none)

def queryCheckedLines (command : Text) : Lines Text :=
  (queryLines fl py gauss command).andThen fun value =>
    (checkErrorsLines fl py gauss).andThen fun _ => .done (.ok value)

def queryFloatLines (command : Text) : Lines Value :=
  ((queryCheckedLines fl py gauss command).andThen fun value =>
    .atomically (Procedure.lift (σ := Link) (α := Text) ((py.toFloat value).mapError Raised.python))).andThen
    fun x => .done (.ok (.float x))

def queryBoolLines (command : Text) (decode : Text → Bool) : Lines Value :=
  ((queryCheckedLines fl py gauss command).andThen fun resp => .done (.ok (decode resp))).andThen
    fun b => .done (.ok (.bool b))

/-- The lines of a method on a channel. -/
def lines (channel : ℤ) : Method → Lines Value
  | .setVoltage voltage =>
    writeCheckedLines fl py gauss (header "SOUR" channel ":VOLT " ++ voltage.fixed 3)
  | .getVoltage => queryFloatLines fl py gauss (header "MEAS" channel ":VOLT?")
  | .setCurrentLimit limit =>
    writeCheckedLines fl py gauss (header "SOUR" channel ":CURR " ++ limit.fixed 3)
  | .getCurrent => queryFloatLines fl py gauss (header "MEAS" channel ":CURR?")
  | .outputEnable enable =>
    writeCheckedLines fl py gauss (header "OUTP" channel ":STAT " ++ onOff enable)
  | .getOutputStatus =>
    queryBoolLines fl py gauss (header "OUTP" channel ":STAT?") fun resp =>
      PyText.strip resp = "1".toList
  | .setOvervoltageProtectionLevel voltage =>
    writeCheckedLines fl py gauss (header "SOUR" channel ":VOLT:PROT " ++ voltage.fixed 3)
  | .getOvervoltageProtectionLevel =>
    queryFloatLines fl py gauss (header "SOUR" channel ":VOLT:PROT:LEV?")
  | .setOvervoltageProtectionEnabled enabled =>
    writeCheckedLines fl py gauss (header "SOUR" channel ":VOLT:PROT:STAT " ++ onOff enabled)
  | .getOvervoltageProtectionEnabled =>
    queryBoolLines fl py gauss (header "SOUR" channel ":VOLT:PROT:STAT?") fun resp =>
      PyText.strip resp = "1".toList
  | .setOvervoltageProtectionDelay _ =>
    .done (.error (.featureNotSupported "set_overvoltage_protection_delay"))
  | .getOvervoltageProtectionDelay =>
    .done (.error (.featureNotSupported "get_overvoltage_protection_delay"))
  | .setOvercurrentProtectionLevel current =>
    writeCheckedLines fl py gauss (header "SOUR" channel ":CURR:PROT " ++ current.fixed 3)
  | .getOvercurrentProtectionLevel =>
    queryFloatLines fl py gauss (header "SOUR" channel ":CURR:PROT:LEV?")
  | .setOvercurrentProtectionEnabled enabled =>
    writeCheckedLines fl py gauss (header "SOUR" channel ":CURR:PROT:STAT " ++ onOff enabled)
  | .getOvercurrentProtectionEnabled =>
    queryBoolLines fl py gauss (header "SOUR" channel ":CURR:PROT:STAT?") fun resp =>
      PyText.strip resp = "1".toList
  | .setRemoteSenseEnabled enabled =>
    writeCheckedLines fl py gauss
      (header "SYST" channel ":SENS " ++ if enabled then "REM".toList else "LOC".toList)
  | .getRemoteSenseEnabled =>
    queryBoolLines fl py gauss (header "SYST" channel ":SENS?") fun resp =>
      py.upper (PyText.strip resp) = "REM".toList

end Lines

/-! ## What the lines come to -/

section Realizes

open AtomicSteps

variable {fl : Rounding} {py : PyText} {gauss : ℕ → PyFloat → PyFloat → PyFloat}

theorem realizes_query (command : Text) :
    (queryLines fl py gauss command).Realizes (query fl py gauss command) :=
  (realizes_atomically _).andThen fun _ => realizes_atomically _

theorem realizes_checkErrors :
    (checkErrorsLines fl py gauss).Realizes (checkErrors fl py gauss) := by
  refine (realizes_query _).andThen fun err => ?_
  split_ifs
  · exact realizes_pure ()
  · exact realizes_error _

theorem realizes_writeChecked (command : Text) :
    (writeCheckedLines fl py gauss command).Realizes
      ((fun _ => Value.none) <$> writeChecked fl py gauss command) :=
  ((realizes_atomically _).andThen fun _ => realizes_checkErrors).andThen fun _ => realizes_pure _

theorem realizes_queryChecked (command : Text) :
    (queryCheckedLines fl py gauss command).Realizes (queryChecked fl py gauss command) :=
  (realizes_query command).andThen fun value =>
    realizes_checkErrors.andThen fun _ => realizes_pure value

theorem realizes_queryFloat (command : Text) :
    (queryFloatLines fl py gauss command).Realizes
      (Value.float <$> queryCheckedFloat fl py gauss command) :=
  ((realizes_queryChecked command).andThen fun _ => realizes_atomically _).andThen
    fun _ => realizes_pure _

theorem realizes_queryBool (command : Text) (decode : Text → Bool) :
    (queryBoolLines fl py gauss command decode).Realizes
      (Value.bool <$> do
        let resp ← queryChecked fl py gauss command
        return decode resp) :=
  ((realizes_queryChecked command).andThen fun _ => realizes_pure _).andThen fun _ => realizes_pure _

/-- Taken without interruption, the lines of a method are the method. -/
theorem realizes_run (channel : ℤ) (method : Method) :
    (lines fl py gauss channel method).Realizes (run fl py gauss channel method) := by
  cases method with
  | setVoltage | setCurrentLimit | outputEnable | setOvervoltageProtectionLevel
  | setOvervoltageProtectionEnabled | setOvercurrentProtectionLevel
  | setOvercurrentProtectionEnabled | setRemoteSenseEnabled => exact realizes_writeChecked _
  | getVoltage | getCurrent | getOvervoltageProtectionLevel | getOvercurrentProtectionLevel =>
    exact realizes_queryFloat _
  | getOutputStatus | getOvervoltageProtectionEnabled | getOvercurrentProtectionEnabled
  | getRemoteSenseEnabled => exact realizes_queryBool _ _
  | setOvervoltageProtectionDelay | getOvervoltageProtectionDelay => exact realizes_error _

end Realizes

end Instro.Psu.Simulated
