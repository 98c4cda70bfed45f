import Instro.Daq.HWTimestamper
import Instro.Library.EventLoop

/-!
# The LabJack T-series driver

Streaming over the LJM library: the driver starts the stream and flags it, a callback of the library
reads batches into a queue, and `fetch_analog` takes them out. The library is what it answers to
each call, and the stream of the device, which is on or off.
-/

namespace Instro.Daq.Labjack

open Instro.Library

/-- What has been configured before the stream is started. -/
structure Config where
  globalScanRate : Option PyFloat
  physicalChannels : List String

/-- What `eStreamRead` returns. -/
structure Response where
  data : List PyFloat
  pointsInFifo : Nat
  pointsInBuffer : Nat
  deriving DecidableEq

/-- A batch with the time of its callback. `starts` is the number of `start()` calls that had returned
when it was read; nothing of the driver knows it. -/
structure Batch where
  response : Response
  timestamp : ℤ
  starts : Nat
  deriving DecidableEq

structure LabJackData where
  data : List PyFloat
  timestamp : ℤ
  dt : Option ℤ
  deriving DecidableEq

inductive Error
  | hwTiming
  | valueError
  | runtimeError
  | timeoutError
  | ljm
  | python (e : PyException)
  deriving DecidableEq

/-- The calls of the library that may raise. -/
inductive LjmCall
  | openS
  | getHandleInfo
  | eStreamStop
  | close
  | namesToAddresses
  | eStreamStart
  | setStreamCallback
  deriving DecidableEq

/-- `streaming` is the stream of the device; `running` are the batches that callbacks have read and
not yet put into the queue. `starts` counts the `start()` calls that have returned. -/
structure State where
  handle : Option Nat
  streamingActive : Bool
  actualSampleRate : Option PyFloat
  actualSamplePeriod : Option ℤ
  timestamper : Option HWTimestamper
  dataQueue : List Batch
  streaming : Bool
  running : List Batch
  starts : Nat

/-- After `__init__`. -/
def initial : State :=
  { handle := none
    streamingActive := false
    actualSampleRate := none
    actualSamplePeriod := none
    timestamper := none
    dataQueue := []
    streaming := false
    running := []
    starts := 0 }

/-- The library raises at `raises`, if at all; the stream runs at `scanRate`. -/
inductive Event
  | open (handle : Nat) (raises : Option LjmCall)
  | start (scanRate : PyFloat) (raises : Option LjmCall)
  | stop
  | close (raises : Option LjmCall)
  | callbackReads (response : Response) (timestamp : ℤ)
  | callbackPuts (i : Nat)
  | fetchAnalog
  | fetchTimesOut

/-- What can be seen: calls of the library, and what a fetch returns or raises. -/
inductive Action
  | eStreamStart (onStreaming : Bool)
  | eStreamStop
  | fetched (batch : Batch) (data : LabJackData)
  | raised (e : Error)
  deriving DecidableEq

namespace State

variable (fl : Rounding) (config : Config) (s : State)

/-- What `eStreamStop` raises is ignored. -/
def stopStream (raises : Option LjmCall) : State :=
  if raises = some .eStreamStop then s else { s with streaming := false }

def «open» (handle : Nat) (raises : Option LjmCall) : State × List Action :=
  if raises = some .openS then (s, [.raised .runtimeError])
  else if raises = some .getHandleInfo then
    ({ s with handle := some handle }, [.raised .runtimeError])
  else (({ s with handle := some handle } : State).stopStream raises, [.eStreamStop])

/-- `start()` after `eStreamStart`. -/
def streamStarted (scanRate : PyFloat) (raises : Option LjmCall) : State × Except Error Unit :=
  let s := { s with streaming := true, actualSampleRate := some scanRate }
  match PyFloat.div fl (.finite 1e9) scanRate >>= PyFloat.round with
  | .error e => (s, .error (.python e))
  | .ok period =>
    let s := { s with actualSamplePeriod := some period }
    if raises = some .setStreamCallback then (s, .error .ljm)
    else ({ s with streamingActive := true }, .ok ())

/-- `start()`. Without a handle `eStreamStart` raises. -/
def start (scanRate : PyFloat) (raises : Option LjmCall) :
    State × List Action × Except Error Unit :=
  if config.globalScanRate.isNone then (s, [], .error .hwTiming)
  else if s.streamingActive then (s, [], .ok ())
  else if config.physicalChannels = [] then (s, [], .error .valueError)
  else if raises = some .namesToAddresses then (s, [], .error .ljm)
  else
    let asked := { s with timestamper := none }
    let call := [Action.eStreamStart s.streaming]
    if s.handle.isNone ∨ raises = some .eStreamStart then (asked, call, .error .ljm)
    else
      let (s, result) := asked.streamStarted fl scanRate raises
      (s, call, result)

/-- The stream of the device is left as it is: the call that would stop it is commented out. -/
def stop : State := if s.streamingActive then { s with streamingActive := false } else s

/-- Closing the handle ends the stream. -/
def close (raises : Option LjmCall) : State × List Action :=
  match s.handle with
  | none => (s, [])
  | some _ =>
    if raises = some .close then (s, [.raised .ljm])
    else ({ s with handle := none, streaming := false }, [])

/-- A `start()` that returns is counted. -/
def afterStart (scanRate : PyFloat) (raises : Option LjmCall) : State × List Action :=
  match s.start fl config scanRate raises with
  | (s, calls, .ok ()) => ({ s with starts := s.starts + 1 }, calls)
  | (s, calls, .error e) => (s, calls ++ [.raised e])

/-- A callback reads a batch, if the stream is on. -/
def callbackReads (response : Response) (timestamp : ℤ) : Option State :=
  if s.streaming ∧ s.handle.isSome then
    some { s with running := s.running ++ [⟨response, timestamp, s.starts⟩] }
  else none

/-- `put_nowait` -/
def callbackPuts (i : Nat) : Option State :=
  s.running[i]?.map fun batch =>
    { s with running := s.running.eraseIdx i, dataQueue := s.dataQueue ++ [batch] }

/-- `fetch_analog` when there is a batch in the queue; otherwise it waits. -/
def fetchAnalog : Option (State × List Action) :=
  match s.dataQueue with
  | [] => none
  | batch :: dataQueue =>
    some ({ s with dataQueue },
      [.fetched batch ⟨batch.response.data, batch.timestamp, s.actualSamplePeriod⟩])

/-- After five seconds without a batch. -/
def fetchTimesOut : Option (State × List Action) :=
  if s.dataQueue = [] then some (s, [.raised .timeoutError]) else none

end State

/-- What an event does, if it is possible. -/
def step (fl : Rounding) (config : Config) (s : State) : Event → Option (State × List Action)
  | .open handle raises => some (s.open handle raises)
  | .start scanRate raises => some (s.afterStart fl config scanRate raises)
  | .stop => some (s.stop, [])
  | .close raises => some (s.close raises)
  | .callbackReads response timestamp => (s.callbackReads response timestamp).map (·, [])
  | .callbackPuts i => (s.callbackPuts i).map (·, [])
  | .fetchAnalog => s.fetchAnalog
  | .fetchTimesOut => s.fetchTimesOut

/-- The driver and the callbacks, in any order of their steps. -/
def driver (fl : Rounding) (config : Config) : EventLoop State Event Action where
  step s event :=
    match step fl config s event with
    | none => ([], none)
    | some (s, actions) => (actions, some s)

end Instro.Daq.Labjack
