import Instro.Library.PyNumber

/-!
# Types of the scopes
-/

namespace Instro.Scope

open Instro.Library

inductive AcquisitionState
  | RUNNING
  | STOPPED
  deriving DecidableEq

def AcquisitionState.value : AcquisitionState → String
  | RUNNING => "RUNNING"
  | STOPPED => "STOPPED"

inductive ScopeMeasurementType
  | VPP
  | VMAX
  | VMIN
  | VAVG
  | VRMS
  | FREQUENCY
  | PERIOD
  | DUTY_CYCLE
  deriving DecidableEq

def ScopeMeasurementType.value : ScopeMeasurementType → String
  | VPP => "VPP"
  | VMAX => "VMAX"
  | VMIN => "VMIN"
  | VAVG => "VAVG"
  | VRMS => "VRMS"
  | FREQUENCY => "FREQUENCY"
  | PERIOD => "PERIOD"
  | DUTY_CYCLE => "DUTY_CYCLE"

/-- Times in nanoseconds from the trigger, and the voltages. -/
structure WaveformData where
  times : List ℤ
  voltages : List PyFloat
  deriving DecidableEq

end Instro.Scope
