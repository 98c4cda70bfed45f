import Instro.Daq.HWTimestamper
import Instro.Library.EventLoop
import Instro.Library.Handles
import Instro.Mcc.Driver

/-!
# The scan buffer

`start` allocates a Windows buffer for the scan, after its checks and before `daq_in_scan`; `stop` and
`close` free it. What the library returns and what the device reports are part of the events.
-/

namespace Instro.Mcc

open Instro.Library

inductive TerminalConfig
  | diff
  | rse
  | nrse
  deriving DecidableEq

inductive ChannelType
  | analog
  | analogDiff
  | analogSe
  deriving DecidableEq

/-- What the driver asks of `DaqDeviceInfo`. -/
structure DeviceInfo where
  daqiSupported : Bool
  supportedChannelTypes : List ChannelType
  /-- `ScanOptions.SCALEDATA in supported_scan_options` -/
  scaledata : Bool
  resolution : ℕ

structure HWTimingConfig where
  sampleRate : PyFloat
  samplesPerChannel : ℕ

/-- An analog channel: its number, if `int` reads one, and its cached range. -/
structure AiChannel where
  number : Option ℕ
  terminalConfig : Option TerminalConfig
  range : Option ℕ

inductive McError
  | attributeError
  | ulError
  | python (e : PyException)
  deriving DecidableEq

/-- The allocators of the library. -/
inductive BufferKind
  | scaled
  | bits16
  | bits32
  | bits64
  deriving DecidableEq

structure ScanDriver where
  info : Option DeviceInfo
  channels : List AiChannel
  hwTimingConfig : Option HWTimingConfig
  bufferMultiplier : ℕ
  memhandle : ℕ
  bufferSize : ℕ
  counters : Driver
  actualSamplePeriod : ℤ
  timestamper : Option Daq.HWTimestamper

/-- After `__init__`. -/
def ScanDriver.init (bufferMultiplier : ℕ) : ScanDriver where
  info := none
  channels := []
  hwTimingConfig := none
  bufferMultiplier := bufferMultiplier
  memhandle := 0
  bufferSize := 0
  counters := .start
  actualSamplePeriod := 0
  timestamper := none

/-- The driver, and the memory of the library. -/
structure ScanSystem where
  driver : ScanDriver
  memory : Handles

/-- What an allocation comes to. The handle 0 is none. -/
inductive Allocation
  | raises
  | returns (handle : ℕ)

/-- What `daq_in_scan` comes to. -/
inductive ScanResult
  | raises
  | returns (actualRate : ℤ)

/-- `open` finds a device or raises. `configure` stands for the methods that change the channels or
the timing. -/
inductive ScanEvent
  | «open» (info : Option DeviceInfo)
  | configure (channels : List AiChannel) (hwTimingConfig : Option HWTimingConfig)
  | start (allocation : Allocation) (scan : ScanResult)
  | stop
  | close

inductive ScanAction
  | allocated (kind : BufferKind) (size buffer : ℕ)
  | freed (buffer : ℕ)
  /-- `win_buf_free` raised and the driver went on. -/
  | freeRefused (handle : ℕ)
  | raised (e : McError)
  | warned
  deriving DecidableEq

/-! ## Starting -/

/-- `_get_analog_channel_type` -/
def getAnalogChannelType : Option TerminalConfig → Except McError ChannelType
  | none => .ok .analog
  | some .diff => .ok .analogDiff
  | some .rse => .ok .analogSe
  | some .nrse => .error (.python .valueError)

/-- `_build_channel_lists`: the number, type and range of each channel. -/
def buildChannelLists (channels : List AiChannel) :
    Except McError (List (ℕ × ChannelType × ℕ)) :=
  channels.mapM fun channel => do
    let number ← channel.number.elim (throw (.python .valueError)) pure
    let type ← getAnalogChannelType channel.terminalConfig
    let range ← channel.range.elim (throw (.python .keyError)) pure
    return (number, type, range)

/-- Which buffer the samples go to. -/
def DeviceInfo.bufferKind (info : DeviceInfo) : BufferKind :=
  if info.scaledata then .scaled
  else if info.resolution ≤ 16 then .bits16
  else if info.resolution ≤ 32 then .bits32
  else .bits64

namespace ScanDriver

variable (fl : Rounding) (d : ScanDriver)

/-- `start` resets the counters. -/
def reset : ScanDriver := { d with counters := .start, timestamper := none }

/-- The checks of `start`: the kind and size of the buffer, and the requested rate. -/
def validate : Except McError (BufferKind × ℕ × PyFloat) :=
  match d.info with
  | none => .error .attributeError
  | some info =>
    if ¬ info.daqiSupported then .error (.python .valueError)
    else
      match d.hwTimingConfig with
      | none => .error (.python .runtimeError)
      | some timing => do
        let channels ← buildChannelLists d.channels
        if channels.all fun channel => channel.2.1 ∈ info.supportedChannelTypes then
          let fetchSize := channels.length * timing.samplesPerChannel
          .ok (info.bufferKind, fetchSize * d.bufferMultiplier, timing.sampleRate)
        else .error (.python .valueError)

/-- `daq_in_scan` with the requested rate as an integer. -/
def daqInScan (sampleRate : PyFloat) (scan : ScanResult) : Except McError ℤ :=
  match sampleRate.toInt with
  | .error e => .error (.python e)
  | .ok _ =>
    match scan with
    | .raises => .error .ulError
    | .returns actualRate => .ok actualRate

/-- The period of a scan that has started, and whether its rate is off by more than 10 %. -/
def scanned (sampleRate : PyFloat) (actualRate : ℤ) : ScanDriver × List ScanAction :=
  let period := do
    let rate ← PyFloat.ofInt fl actualRate
    let period ← PyFloat.div fl (.finite (10 ^ 9)) rate
    return (rate, ← period.round)
  match period with
  | .error e => (d, [.raised (.python e)])
  | .ok (rate, period) =>
    let d := { d with actualSamplePeriod := period }
    match PyFloat.div fl (PyFloat.sub fl rate sampleRate).abs sampleRate with
    | .error e => (d, [.raised (.python e)])
    | .ok deviation => (d, if PyFloat.lt (fl (1 / 10)) deviation then [.warned] else [])

end ScanDriver

namespace ScanSystem

variable (fl : Rounding) (s : ScanSystem)

/-- `win_buf_free`, whose exceptions are dropped, and the handle is forgotten. -/
def freeBuffer : ScanSystem × List ScanAction :=
  let driver := { s.driver with memhandle := 0 }
  match s.memory.free s.driver.memhandle with
  | some (buffer, memory) => (⟨driver, memory⟩, [.freed buffer])
  | none => (⟨driver, s.memory⟩, [.freeRefused s.driver.memhandle])

/-- From the allocated buffer on. -/
def scanInto (kind : BufferKind) (size : ℕ) (sampleRate : PyFloat) (handle : ℕ)
    (scan : ScanResult) : ScanSystem × List ScanAction :=
  let allocated := .allocated kind size s.memory.allocated
  let s := { s with memory := s.memory.alloc handle }
  match ScanDriver.daqInScan sampleRate scan with
  | .error e =>
    let (s, actions) := s.freeBuffer
    (s, allocated :: actions ++ [.raised e])
  | .ok actualRate =>
    let (driver, actions) := s.driver.scanned fl sampleRate actualRate
    ({ s with driver }, allocated :: actions)

def start (allocation : Allocation) (scan : ScanResult) : ScanSystem × List ScanAction :=
  let driver := s.driver.reset
  match driver.validate with
  | .error e => ({ s with driver }, [.raised e])
  | .ok (kind, size, sampleRate) =>
    let driver := { driver with bufferSize := size }
    match allocation with
    | .raises => ({ s with driver }, [.raised .ulError])
    | .returns handle =>
      -- the handle there was is lost here
      let s := { s with driver := { driver with memhandle := handle } }
      if handle = 0 then (s, [.raised (.python .runtimeError)])
      else s.scanInto fl kind size sampleRate handle scan

def stop : ScanSystem × List ScanAction :=
  let s := { s with driver := { s.driver with timestamper := none } }
  if s.driver.memhandle ≠ 0 then s.freeBuffer else (s, [])

def close : ScanSystem × List ScanAction :=
  let (s, actions) := s.stop
  ({ s with driver := { s.driver with info := none } }, actions)

/-- An allocation that the library cannot make ends the run. -/
def step (s : ScanSystem) : ScanEvent → List ScanAction × Option ScanSystem
  | .open none => ([.raised (.python .runtimeError)], some s)
  | .open (some info) => ([], some { s with driver := { s.driver with info := some info } })
  | .configure channels hwTimingConfig =>
    ([], some { s with driver := { s.driver with channels, hwTimingConfig } })
  | .start allocation scan =>
    match allocation with
    | .returns handle =>
      if s.memory.Offers handle then ((s.start fl allocation scan).2, some (s.start fl allocation scan).1)
      else ([], none)
    | .raises => ((s.start fl allocation scan).2, some (s.start fl allocation scan).1)
  | .stop => (s.stop.2, some s.stop.1)
  | .close => (s.close.2, some s.close.1)

/-- A driver that has just been made. -/
def initial (bufferMultiplier : ℕ) : ScanSystem := ⟨.init bufferMultiplier, .empty⟩

end ScanSystem

/-- The calls of a driver, in any order. -/
def scanDriver (fl : Rounding) : EventLoop ScanSystem ScanEvent ScanAction := ⟨ScanSystem.step fl⟩

end Instro.Mcc
