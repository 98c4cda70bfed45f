import Instro.Library.Dict
import Instro.Library.EventLoop
import Instro.Library.Checked
import Instro.Library.PyNumber
import Mathlib.Data.Finset.Dedup
import Mathlib.Data.Finset.Basic

/-!
# The NI-DAQmx driver

One task for each type of channel, made when it is first needed. Digital lines share the task of
their direction, which is written and read as a whole; the driver keeps the value of every line.
The library is what it answers to each call, and the tasks: their channels, and whether they run.
-/

namespace Instro.Daq.Ni

open Instro.Library

inductive ChannelType
  | analogInput
  | analogOutput
  | digitalInput
  | digitalOutput
  deriving DecidableEq

inductive Direction
  | input
  | output
  deriving DecidableEq

inductive Logic
  | high
  | low
  deriving DecidableEq

/-- The type of the task that the lines of a direction share. -/
def Direction.channelType : Direction → ChannelType
  | .input => .digitalInput
  | .output => .digitalOutput

structure DigitalLineChannel where
  physicalChannel : String
  channelAlias : String
  logic : Logic
  deriving DecidableEq

/-- A DAQmx task. `lines` are the aliases its digital channels were added under, in task order. -/
structure Task where
  lines : List String
  running : Bool
  deriving DecidableEq

inductive Error
  | daqmx
  | alreadyRunning
  | notConfigured
  | hwTiming
  | python (e : PyException)
  deriving DecidableEq

/-- The calls of the library that make channels. -/
inductive NiCall
  | newTask
  | addChan
  | cfgSampClkTiming
  deriving DecidableEq

/-- The lines of one direction. -/
structure LineBank where
  linesState : Dict String Bool
  channels : Dict String DigitalLineChannel
  deriving DecidableEq

structure State where
  tasks : Dict ChannelType Task
  inputs : LineBank
  outputs : LineBank
  runningChannelTypes : Finset ChannelType
  aiHwTimingConfig : Option PyFloat
  deriving DecidableEq

/-- After `__init__`. -/
def initial : State :=
  { tasks := ∅
    inputs := ⟨∅, ∅⟩
    outputs := ⟨∅, ∅⟩
    runningChannelTypes := ∅
    aiHwTimingConfig := none }

/-- What can be seen: what is written to the line task, what a read returns, and what is raised. -/
inductive Action
  | wrote (channel : DigitalLineChannel) (data : ℤ) (sent : List Bool)
  | returned (data : ℕ)
  | raised (e : Error)
  deriving DecidableEq

/-- The actions of a call that returns nothing. -/
def raisedBy : Except Error Unit → List Action
  | .ok () => []
  | .error e => [.raised e]

/-! ## Digital lines -/

/-- `_build_line_channel` -/
def buildLineChannel (physicalChannel : String) (logic : Logic) (channelAlias : Option String) :
    Except Error DigitalLineChannel :=
  if "/line".toList <:+: physicalChannel.toList then
    .ok { physicalChannel
          channelAlias :=
            match channelAlias with
            | none => physicalChannel
            | some name => if name = "" then physicalChannel else name
          logic }
  else .error (.python .valueError)

/-- The logic-adjusted value of a write, as a `bool`. -/
def adjusted (logic : Logic) (data : ℤ) : Bool :=
  match logic with
  | .high => data ≠ 0
  | .low => 1 - data ≠ 0

namespace State

variable (s : State)

def bank : Direction → LineBank
  | .input => s.inputs
  | .output => s.outputs

def setBank (direction : Direction) (bank : LineBank) : State :=
  match direction with
  | .input => { s with inputs := bank }
  | .output => { s with outputs := bank }

/-- `_get_task` -/
def getTask (channelType : ChannelType) (raises : Option NiCall) : Except Error (State × Task) :=
  match s.tasks.get? channelType with
  | some task => .ok (s, task)
  | none =>
    if raises = some .newTask then .error .daqmx
    else .ok ({ s with tasks := s.tasks.set channelType ⟨[], false⟩ }, ⟨[], false⟩)

/-- `configure_di_line_channel` and `configure_do_line_channel`. Where `physicalChannel` names a
range of lines, the library adds a channel for each: one, and `further` ones. -/
def configureLineChannel (direction : Direction) (physicalChannel : String) (logic : Logic)
    (channelAlias : Option String) (further : ℕ) (raises : Option NiCall) :
    State × Except Error Unit :=
  match buildLineChannel physicalChannel logic channelAlias with
  | .error e => (s, .error e)
  | .ok channel =>
    match s.getTask direction.channelType raises with
    | .error e => (s, .error e)
    | .ok (s, task) =>
      let bank := s.bank direction
      let linesState := bank.linesState.set channel.channelAlias false
      if raises = some .addChan then (s.setBank direction { bank with linesState }, .error .daqmx)
      else
        let lines := task.lines ++ channel.channelAlias :: List.replicate further channel.channelAlias
        let channels := bank.channels.set channel.channelAlias channel
        ({ s with tasks := s.tasks.set direction.channelType { task with lines } }.setBank direction
          { linesState, channels }, .ok ())

/-- `write_digital_line` of the driver, which writes the whole task. -/
def writeDigitalLine (channel : DigitalLineChannel) (data : ℤ) (raises : Bool) :
    State × List Action :=
  match s.tasks.get? .digitalOutput with
  | none => (s, [.raised (.python .keyError)])
  | some _ =>
    let linesState := s.outputs.linesState.set channel.channelAlias (adjusted channel.logic data)
    ({ s with outputs := { s.outputs with linesState } },
      .wrote channel data linesState.values :: if raises then [.raised .daqmx] else [])

/-- What `task.read` returns: a scalar for one channel, else a list. -/
inductive Response
  | scalar (bit : Bool)
  | list (bits : List Bool)

/-- The response where the lines of the task have these bits. -/
def respond (task : Task) (bits : ℕ → Bool) : Response :=
  match (List.range task.lines.length).map bits with
  | [bit] => .scalar bit
  | bits => .list bits

/-- `response if isinstance(response, list) else [response]` -/
def Response.toList : Response → List Bool
  | .scalar bit => [bit]
  | .list bits => bits

/-- The loop that stores the response, key by key. -/
def storeResponse : List String → List Bool → Dict String Bool →
    Dict String Bool × Except Error Unit
  | [], _, linesState => (linesState, .ok ())
  | _ :: _, [], linesState => (linesState, .error (.python .indexError))
  | key :: keys, bit :: bits, linesState => storeResponse keys bits (linesState.set key bit)

/-- `read_digital_line` of the driver, which reads the whole task. -/
def readDigitalLine (channel : DigitalLineChannel) (bits : ℕ → Bool) (raises : Bool) :
    State × List Action :=
  match s.tasks.get? .digitalInput with
  | none => (s, [.raised (.python .keyError)])
  | some task =>
    if raises then (s, [.raised .daqmx])
    else
      let response := (respond task bits).toList
      let (linesState, stored) := storeResponse s.inputs.linesState.keys response s.inputs.linesState
      let s := { s with inputs := { s.inputs with linesState } }
      match stored with
      | .error e => (s, [.raised e])
      | .ok () =>
        match linesState.keys.idxOf? channel.channelAlias with
        | none => (s, [.raised (.python .valueError)])
        | some index =>
          match response[index]? with
          | none => (s, [.raised (.python .indexError)])
          | some bit =>
            let data := match channel.logic with
              | .high => bit
              | .low => !bit
            (s, [.returned data.toNat])

/-! ## Tasks -/

/-- `configure_ai_channel`, as far as the tasks go. -/
def configureAiChannel (raises : Option NiCall) : State × Except Error Unit :=
  match s.getTask .analogInput raises with
  | .error e => (s, .error e)
  | .ok (s, _) => (s, if raises = some .addChan then .error .daqmx else .ok ())

/-- `configure_ai_hw_timing` -/
def configureAiHwTiming (sampleRate : PyFloat) (raises : Option NiCall) :
    State × Except Error Unit :=
  match s.getTask .analogInput raises with
  | .error e => (s, .error e)
  | .ok (s, _) =>
    if raises = some .cfgSampClkTiming then (s, .error .daqmx)
    else ({ s with aiHwTimingConfig := some sampleRate }, .ok ())

/-- Whether the task of a type runs. -/
def setRunning (channelType : ChannelType) (running : Bool) : State :=
  match s.tasks.get? channelType with
  | none => s
  | some task => { s with tasks := s.tasks.set channelType { task with running } }

/-- `_start_tasks`. The library raises at the tasks in `raises`. -/
def startTasks (raises : Finset ChannelType) : State → List ChannelType → State × Except Error Unit
  | s, [] => (s, .ok ())
  | s, channelType :: channelTypes =>
    if (s.tasks.get? channelType).isNone then (s, .error .notConfigured)
    else if channelType ∈ raises then (s, .error .daqmx)
    else
      let s := s.setRunning channelType true
      startTasks raises
        { s with runningChannelTypes := insert channelType s.runningChannelTypes } channelTypes

/-- `_capture_sample_rate`. The library raises where it has no `sampClkRate`. -/
def captureSampleRate (fl : Rounding) (sampClkRate : Option PyFloat) : Except Error Unit := do
  match s.aiHwTimingConfig with
  | none => .error .hwTiming
  | some requestedRate =>
    if (s.tasks.get? .analogInput).isNone then .error (.python .keyError)
    match sampClkRate with
    | none => .error .daqmx
    | some actualRate =>
      let _ ← raiseAs .python (PyFloat.div fl (.finite 1000000000) actualRate >>= PyFloat.round)
      let _ ← raiseAs .python (((actualRate.sub fl requestedRate).abs).div fl requestedRate)
      return ()

/-- The types a call of `start` is about. -/
def channelTypes (channelType : Option ChannelType) : List ChannelType :=
  match channelType with
  | some channelType => [channelType]
  | none => s.tasks.keys

/-- `start()` -/
def start (fl : Rounding) (channelType : Option ChannelType) (raises : Finset ChannelType)
    (sampClkRate : Option PyFloat) : State × Except Error Unit :=
  let channelTypes := s.channelTypes channelType
  if (s.runningChannelTypes ∩ channelTypes.toFinset).Nonempty then (s, .error .alreadyRunning)
  else
    match s.startTasks raises channelTypes with
    | (s, .error e) => (s, .error e)
    | (s, .ok ()) =>
      if .analogInput ∈ channelTypes then (s, s.captureSampleRate fl sampClkRate) else (s, .ok ())

/-- The loop of `stop()`. -/
def stopTasks (raises : Finset ChannelType) : State → List ChannelType → State × Except Error Unit
  | s, [] => (s, .ok ())
  | s, channelType :: channelTypes =>
    if channelType ∈ raises then (s, .error .daqmx)
    else stopTasks raises (s.setRunning channelType false) channelTypes

/-- `stop()` -/
def stop (channelType : Option ChannelType) (raises : Finset ChannelType) :
    State × Except Error Unit :=
  match channelType with
  | some channelType =>
    if (s.tasks.get? channelType).isNone then (s, .error (.python .keyError))
    else if channelType ∈ raises then (s, .error .daqmx)
    else
      let s := s.setRunning channelType false
      ({ s with runningChannelTypes := s.runningChannelTypes.erase channelType }, .ok ())
  | none =>
    match s.stopTasks raises s.tasks.keys with
    | (s, .error e) => (s, .error e)
    | (s, .ok ()) => ({ s with runningChannelTypes := ∅ }, .ok ())

end State

/-! ## Runs -/

/-- Calls, and what the library does in each. The lines are named by their aliases, as by the
callers of the driver. -/
inductive Event
  | configureLine (direction : Direction) (physicalChannel : String) (logic : Logic)
      (channelAlias : Option String) (further : ℕ) (raises : Option NiCall)
  | writeLine (channelAlias : String) (data : ℤ) (raises : Bool)
  | readLine (channelAlias : String) (bits : ℕ → Bool) (raises : Bool)
  | configureAiChannel (raises : Option NiCall)
  | configureAiHwTiming (sampleRate : PyFloat) (raises : Option NiCall)
  | start (channelType : Option ChannelType) (raises : Finset ChannelType)
      (sampClkRate : Option PyFloat)
  | stop (channelType : Option ChannelType) (raises : Finset ChannelType)

def step (fl : Rounding) (s : State) : Event → State × List Action
  | .configureLine direction physicalChannel logic channelAlias further raises =>
    let (s, result) :=
      s.configureLineChannel direction physicalChannel logic channelAlias further raises
    (s, raisedBy result)
  | .writeLine channelAlias data raises =>
    match s.outputs.channels.get? channelAlias with
    | none => (s, [.raised (.python .keyError)])
    | some channel => s.writeDigitalLine channel data raises
  | .readLine channelAlias bits raises =>
    match s.inputs.channels.get? channelAlias with
    | none => (s, [.raised (.python .keyError)])
    | some channel => s.readDigitalLine channel bits raises
  | .configureAiChannel raises =>
    let (s, result) := s.configureAiChannel raises
    (s, raisedBy result)
  | .configureAiHwTiming sampleRate raises =>
    let (s, result) := s.configureAiHwTiming sampleRate raises
    (s, raisedBy result)
  | .start channelType raises sampClkRate =>
    let (s, result) := s.start fl channelType raises sampClkRate
    (s, raisedBy result)
  | .stop channelType raises =>
    let (s, result) := s.stop channelType raises
    (s, raisedBy result)

def driver (fl : Rounding) : EventLoop State Event Action :=
  ⟨fun s event => ((step fl s event).2, some (step fl s event).1)⟩

end Instro.Daq.Ni
