import Instro.Instrument.Packaging
import Instro.Library.EventLoop
import Instro.Library.Procedure
import Instro.Scope.Types

/-!
# The acquisition of a scope

`InstroScope` remembers whether a single acquisition is armed, and when the last one was complete. A fetch
or a measurement waits for an acquisition that is armed, and is stamped with the time of the last.
-/

namespace Instro.Scope

open Instro.Library
open Instro.Daq (Measurement channelName mergeTags)
open Instro.Instrument (Command Data Labels)

/-- The calls of `ScopeDriverBase` that these methods make. -/
inductive DriverCall
  | run
  | stop
  | single
  | getAcquisitionState
  | digitize (timeout : PyFloat)
  | fetchWaveform (channel : ℤ)
  | setupMeasurement (measurementType : ScopeMeasurementType) (channel : ℤ)
  | measure (measurementType : ScopeMeasurementType) (channel : ℤ)
  | checkErrors
  deriving DecidableEq

/-- A call of the driver that has been made. It returns, or it raises. -/
structure Made where
  call : DriverCall
  returned : Bool
  deriving DecidableEq

inductive Raised
  /-- What the driver raises. -/
  | driver (message : String)
  | python (e : PyException)

structure InstroScope where
  labels : Labels
  acquisitionArmed : Bool
  lastAcquisitionTs : Option ℤ

/-- The scope, and how often the clock has been read. -/
structure Bench where
  scope : InstroScope
  reads : ℕ

abbrev Act := Procedure Bench Made Raised

/-- What the driver answers to a call. -/
abbrev Answer (β : Type) := Except String β

/-- What a fetch or a measurement returns, with its `timestamp`. -/
structure Stamped where
  timestamp : ℤ
  measurement : Measurement

def Answer.returns {β : Type} (answer : Answer β) : Bool := answer.toOption.isSome

def driver {β : Type} (call : DriverCall) (answer : Answer β) : Act β :=
  Procedure.call ⟨call, answer.returns⟩ (answer.mapError .driver)

/-- A call of the driver, and `_check_errors`. -/
def checked {β : Type} (call : DriverCall) (answer : Answer β) (errors : Answer Unit) : Act β := do
  let val ← driver call answer
  driver .checkErrors errors
  return val

def Bench.tick (bench : Bench) : Bench := { bench with reads := bench.reads + 1 }

def Bench.setScope (bench : Bench) (f : InstroScope → InstroScope) : Bench :=
  { bench with scope := f bench.scope }

/-- The acquisition that is armed is complete. -/
def InstroScope.record (timestamp : ℤ) (scope : InstroScope) : InstroScope :=
  { scope with lastAcquisitionTs := some timestamp, acquisitionArmed := false }

section Methods

variable (fl : Rounding) (clock : ℕ → ℤ) (kwargs : Dict String String)

/-- `time.time_ns()` -/
def timeNs : Act ℤ := do
  let bench ← Procedure.get
  Procedure.modify Bench.tick
  return clock bench.reads

/-- A call of the driver, the time behind it, and the check for errors. -/
def timed {β : Type} (call : DriverCall) (answer : Answer β) (errors : Answer Unit) :
    Act (β × ℤ) := do
  let val ← driver call answer
  let timestamp ← timeNs clock
  driver .checkErrors errors
  return (val, timestamp)

def command (descriptor : String) (value : String) (timestamp : ℤ) : Act Command := do
  let bench ← Procedure.get
  Procedure.lift ((bench.scope.labels.packageCommand fl descriptor (.text value) timestamp
    kwargs).mapError .python)

def run (answer errors : Answer Unit) : Act Command := do
  let (_, timestamp) ← timed clock .run answer errors
  command fl kwargs "acquisition_control.cmd" "RUN" timestamp

def stopAcquisition (answer errors : Answer Unit) : Act Command := do
  let (_, timestamp) ← timed clock .stop answer errors
  Procedure.modify (·.setScope fun scope =>
    if scope.acquisitionArmed then scope.record timestamp else scope)
  command fl kwargs "acquisition_control.cmd" "STOP" timestamp

def single (answer errors : Answer Unit) : Act Command := do
  let (_, timestamp) ← timed clock .single answer errors
  Procedure.modify (·.setScope fun scope => { scope with acquisitionArmed := true })
  command fl kwargs "acquisition_control.cmd" "SINGLE" timestamp

def getAcquisitionState (answer : Answer AcquisitionState) (errors : Answer Unit) : Act Command := do
  let (val, timestamp) ← timed clock .getAcquisitionState answer errors
  Procedure.modify (·.setScope fun scope =>
    if scope.acquisitionArmed ∧ val = .STOPPED then scope.record timestamp else scope)
  command fl kwargs "acquisition_state.cmd" val.value timestamp

/-- `_wait_for_acquisition` -/
def waitForAcquisition (timeout : PyFloat) (digitize : Answer Unit) : Act Unit := do
  let bench ← Procedure.get
  if bench.scope.acquisitionArmed then do
    driver (.digitize timeout) digitize
    let timestamp ← timeNs clock
    Procedure.modify (·.setScope (·.record timestamp))

/-- `self._last_acquisition_ts if self._last_acquisition_ts is not None else time.time_ns()` -/
def acquisitionTimestamp : Act ℤ := do
  let bench ← Procedure.get
  match bench.scope.lastAcquisitionTs with
  | some timestamp => return timestamp
  | none => timeNs clock

/-- An acquisition that is armed is waited for, the driver reads its data, and the time is taken. -/
def acquired {β : Type} (timeout : PyFloat) (digitize : Answer Unit) (call : DriverCall)
    (answer : Answer β) (errors : Answer Unit) : Act (β × ℤ) := do
  waitForAcquisition clock timeout digitize
  let val ← checked call answer errors
  let timestamp ← acquisitionTimestamp clock
  return (val, timestamp)

/-- The measurement of a waveform. Its times are offset to the time of the acquisition. -/
def packageWaveform (labels : Labels) (channel : ℤ) (waveform : WaveformData) (timestamp : ℤ) :
    Measurement where
  channelData := .singleton
    (channelName labels.name (labels.descriptor channel "waveform" "waveform")) waveform.voltages
  timestamps := waveform.times.map (timestamp + ·)
  tags := some (mergeTags
    (labels.defaultTags.set "t_acquisition" (String.ofList (intText timestamp))) kwargs)

def fetchWaveform (channel : ℤ) (timeout : PyFloat) (digitize : Answer Unit)
    (answer : Answer WaveformData) (errors : Answer Unit) : Act Stamped := do
  let (waveform, timestamp) ←
    acquired clock timeout digitize (.fetchWaveform channel) answer errors
  let bench ← Procedure.get
  return ⟨timestamp, packageWaveform kwargs bench.scope.labels channel waveform timestamp⟩

/-- The measurement of a value, with its time. -/
def packageValue (measurementType : ScopeMeasurementType) (channel : ℤ) (val : PyFloat)
    (timestamp : ℤ) : Act Stamped := do
  let bench ← Procedure.get
  let suffix := measurementType.value.toLower
  let descriptor := bench.scope.labels.descriptor channel suffix suffix
  let measurement ← Procedure.lift ((bench.scope.labels.packageMeasurement fl descriptor
    (.num (.float val)) timestamp kwargs).mapError .python)
  return ⟨timestamp, measurement⟩

def measure (measurementType : ScopeMeasurementType) (channel : ℤ) (timeout : PyFloat)
    (setup digitize : Answer Unit) (answer : Answer PyFloat) (errors : Answer Unit) :
    Act Stamped := do
  driver (.setupMeasurement measurementType channel) setup
  let (val, timestamp) ←
    acquired clock timeout digitize (.measure measurementType channel) answer errors
  packageValue fl kwargs measurementType channel val timestamp

end Methods

/-! ## Calls and runs -/

/-- A call of a method, with what the driver answers in it. -/
inductive Method
  | run (answer errors : Answer Unit)
  | stopAcquisition (answer errors : Answer Unit)
  | single (answer errors : Answer Unit)
  | getAcquisitionState (answer : Answer AcquisitionState) (errors : Answer Unit)
  | fetchWaveform (channel : ℤ) (timeout : PyFloat) (digitize : Answer Unit)
    (answer : Answer WaveformData) (errors : Answer Unit)
  | measure (measurementType : ScopeMeasurementType) (channel : ℤ) (timeout : PyFloat)
    (setup digitize : Answer Unit) (answer : Answer PyFloat) (errors : Answer Unit)

structure Call where
  method : Method
  kwargs : Dict String String

inductive Value
  | command (command : Command)
  | stamped (stamped : Stamped)

def Call.perform (fl : Rounding) (clock : ℕ → ℤ) (call : Call) : Act Value :=
  match call.method with
  | .run answer errors => .command <$> run fl clock call.kwargs answer errors
  | .stopAcquisition answer errors =>
    .command <$> stopAcquisition fl clock call.kwargs answer errors
  | .single answer errors => .command <$> single fl clock call.kwargs answer errors
  | .getAcquisitionState answer errors =>
    .command <$> getAcquisitionState fl clock call.kwargs answer errors
  | .fetchWaveform channel timeout digitize answer errors =>
    .stamped <$> fetchWaveform clock call.kwargs channel timeout digitize answer errors
  | .measure measurementType channel timeout setup digitize answer errors =>
    .stamped <$> measure fl clock call.kwargs measurementType channel timeout setup digitize answer
      errors

end Instro.Scope
