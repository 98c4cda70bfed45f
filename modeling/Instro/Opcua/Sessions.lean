import Instro.Library.Worker
import Instro.Opcua.SubscriptionLoop

/-!
# OPC-UA streaming sessions

A session drives `poll_loop` or `subscription_loop` on a thread of its own. The sessions of a client
hold it weakly and take a strong reference for the time of a read; its callers hold it strongly. The
callers' calls and the resumptions of the sessions come in any order.
-/

namespace Instro.Opcua

open Instro.Library

variable {V : Type}

/-! ## The poll loop -/

inductive PollStage
  | starting
  | reading
  | delivering
  | sleeping

/-- What resumes the poll loop: its first poll or the end of its sleep, the answer of the server, the
return of `on_data`. -/
inductive PollInput (V : Type)
  | wake
  | answer (readResult : Except String (List (Option (OpcUaDataPoint V))))
  | delivered

/-- `poll_loop`. The environment tells whether `upgrade` finds the client. -/
def pollLoop (nodes : List OpcUaNode) : Future Bool PollStage (PollInput V) (Action V) where
  start := .starting
  resume alive
    | .starting, .wake | .sleeping, .wake =>
      if alive then some ([.readNodes (.new nodes .value)], some .reading) else some ([], none)
    | .reading, .answer readResult =>
      match readNodes (.new nodes .value) readResult with
      | .ok samples => some ([.onData samples], some .delivering)
      | .error _ => some ([], some .sleeping)
    | .delivering, .delivered => some ([], some .sleeping)
    | _, _ => none
  suspended
    | .delivering => false
    | _ => true

/-- The loop holds the client from its upgrade to the end of the read. -/
def PollStage.holdsClient : PollStage → Bool
  | .reading => true
  | _ => false

/-! ## The subscription pump -/

/-- Where the subscription loop is: in its `select_biased!`, in the `on_data` of a tick, in the read
of the tick, in the `on_data` of a chunk, in the last `on_data`. -/
inductive PumpStage (V : Type)
  | waiting (st : LoopState V)
  | flushing (quietNodes : NodeMap)
  | reading (quietNodes : NodeMap) (batch : OpcUaNodeReadBatch)
  | delivering (st : LoopState V)
  | draining

/-- `flushed` and `delivered` are the returns of `on_data`. -/
inductive PumpInput (V : Type)
  | tick (drainOrder : WalkOrder OpcUaNodeId)
  | flushed (valuesOrder : WalkOrder OpcUaNodeId)
  | answer (readResult : Except String (List (Option (OpcUaDataPoint V))))
  | chunk (items : List (OpcUaNodeId × OpcUaDataPoint V))
  | streamEnd (drainOrder : WalkOrder OpcUaNodeId)
  | delivered

/-- `subscription_loop` with a `ClientNodeReader`, between two places where it can be interrupted. -/
def subscriptionPump (allNodes : NodeMap) :
    Future Bool (PumpStage V) (PumpInput V) (Action V) where
  start := .waiting (.init allNodes)
  resume alive
    | .waiting st, .tick drainOrder =>
      if alive then some ([.onData (st.polledNodes.walk drainOrder)], some (.flushing st.quietNodes))
      else some (exitDrain st drainOrder, some .draining)
    | .flushing quietNodes, .flushed valuesOrder =>
      if quietNodes.isEmpty then some ([], some (.waiting ⟨allNodes, ∅⟩))
      else
        let batch := OpcUaNodeReadBatch.new (quietNodes.walk valuesOrder) .value
        -- the client may have been dropped since `is_alive`: the read bails
        if alive then some ([.readNodes batch], some (.reading quietNodes batch))
        else some ([.readNodes batch], some (.waiting ⟨quietNodes, ∅⟩))
    | .reading quietNodes batch, .answer readResult =>
      match readNodes batch readResult with
      | .error _ => some ([], some (.waiting ⟨quietNodes, ∅⟩))
      | .ok reads => some ([], some (.waiting ⟨allNodes, KeyedTable.extend ∅ reads⟩))
    | .waiting st, .chunk items =>
      let (samples, st') := handleChunk st items
      if samples.isEmpty then some ([], some (.waiting st'))
      else some ([.onData samples], some (.delivering st'))
    | .delivering st, .delivered => some ([], some (.waiting st))
    | .waiting st, .streamEnd drainOrder => some (exitDrain st drainOrder, some .draining)
    | .draining, .delivered => some ([], none)
    | _, _ => none
  suspended
    | .waiting _ | .reading _ _ => true
    | _ => false

def PumpStage.holdsClient : PumpStage V → Bool
  | .reading _ _ => true
  | _ => false

/-! ## What a resumption can do -/

inductive PollStep (nodes : List OpcUaNode) :
    Bool → PollStage → PollInput V → List (Action V) → Option PollStage → Prop
  | read {stage} (hstage : stage = .starting ∨ stage = .sleeping) :
    PollStep nodes true stage .wake [.readNodes (.new nodes .value)] (some .reading)
  | leave {stage} (hstage : stage = .starting ∨ stage = .sleeping) :
    PollStep nodes false stage .wake [] none
  | deliver {alive readResult samples} (h : readNodes (.new nodes .value) readResult = .ok samples) :
    PollStep nodes alive .reading (.answer readResult) [.onData samples] (some .delivering)
  | fail {alive readResult e} (h : readNodes (.new nodes .value) readResult = .error e) :
    PollStep nodes alive .reading (.answer readResult) [] (some .sleeping)
  | sleep {alive} : PollStep nodes alive .delivering .delivered [] (some .sleeping)

theorem pollStep_of_resume {nodes : List OpcUaNode} {alive : Bool} {stage : PollStage}
    {input : PollInput V} {actions : List (Action V)} {next : Option PollStage}
    (h : (pollLoop nodes).resume alive stage input = some (actions, next)) :
    PollStep nodes alive stage input actions next := by
  have hwake (hstage : stage = .starting ∨ stage = .sleeping)
      (h : (if alive then some ([Action.readNodes (.new nodes .value)], some PollStage.reading)
        else some ([], none)) = some (actions, next)) :
      PollStep nodes alive stage (.wake : PollInput V) actions next := by
    cases alive with
    | true =>
      cases h
      exact .read hstage
    | false =>
      cases h
      exact .leave hstage
  cases input with
  | wake =>
    cases stage with
    | starting => exact hwake (.inl rfl) h
    | sleeping => exact hwake (.inr rfl) h
    | reading => cases h
    | delivering => cases h
  | answer readResult =>
    cases stage with
    | reading =>
      unfold pollLoop at h
      dsimp only at h
      cases hread : readNodes (.new nodes .value) readResult with
      | ok samples =>
        rw [hread] at h
        cases h
        exact .deliver hread
      | error e =>
        rw [hread] at h
        cases h
        exact .fail hread
    | _ => cases h
  | delivered =>
    cases stage with
    | delivering =>
      cases h
      exact .sleep
    | _ => cases h

inductive PumpStep (allNodes : NodeMap) :
    Bool → PumpStage V → PumpInput V → List (Action V) → Option (PumpStage V) → Prop
  | tick {st drainOrder} :
    PumpStep allNodes true (.waiting st) (.tick drainOrder)
      [.onData (st.polledNodes.walk drainOrder)] (some (.flushing st.quietNodes))
  | clientGone {st drainOrder} :
    PumpStep allNodes false (.waiting st) (.tick drainOrder) (exitDrain st drainOrder)
      (some .draining)
  | noneQuiet {alive quietNodes valuesOrder} (hempty : quietNodes.isEmpty = true) :
    PumpStep allNodes alive (.flushing quietNodes) (.flushed valuesOrder) []
      (some (.waiting ⟨allNodes, ∅⟩))
  | read {quietNodes valuesOrder} (hquiet : quietNodes.isEmpty = false) :
    PumpStep allNodes true (.flushing quietNodes) (.flushed valuesOrder)
      [.readNodes (.new (quietNodes.walk valuesOrder) .value)]
      (some (.reading quietNodes (.new (quietNodes.walk valuesOrder) .value)))
  | bail {quietNodes valuesOrder} (hquiet : quietNodes.isEmpty = false) :
    PumpStep allNodes false (.flushing quietNodes) (.flushed valuesOrder)
      [.readNodes (.new (quietNodes.walk valuesOrder) .value)] (some (.waiting ⟨quietNodes, ∅⟩))
  | fail {alive quietNodes batch readResult e} (h : readNodes batch readResult = .error e) :
    PumpStep allNodes alive (.reading quietNodes batch) (.answer readResult) []
      (some (.waiting ⟨quietNodes, ∅⟩))
  | buffer {alive quietNodes batch readResult reads} (h : readNodes batch readResult = .ok reads) :
    PumpStep allNodes alive (.reading quietNodes batch) (.answer readResult) []
      (some (.waiting ⟨allNodes, KeyedTable.extend ∅ reads⟩))
  | noSamples {alive st items} (hempty : (handleChunk st items).1.isEmpty = true) :
    PumpStep allNodes alive (.waiting st) (.chunk items) []
      (some (.waiting (handleChunk st items).2))
  | deliver {alive st items} (hsamples : (handleChunk st items).1.isEmpty = false) :
    PumpStep allNodes alive (.waiting st) (.chunk items) [.onData (handleChunk st items).1]
      (some (.delivering (handleChunk st items).2))
  | delivered {alive st} :
    PumpStep allNodes alive (.delivering st) .delivered [] (some (.waiting st))
  | streamEnd {alive st drainOrder} :
    PumpStep allNodes alive (.waiting st) (.streamEnd drainOrder) (exitDrain st drainOrder)
      (some .draining)
  | drained {alive} : PumpStep allNodes alive .draining .delivered [] none

theorem pumpStep_of_resume {allNodes : NodeMap} {alive : Bool} {stage : PumpStage V}
    {input : PumpInput V} {actions : List (Action V)} {next : Option (PumpStage V)}
    (h : (subscriptionPump allNodes).resume alive stage input = some (actions, next)) :
    PumpStep allNodes alive stage input actions next := by
  cases input with
  | tick drainOrder =>
    cases stage with
    | waiting st =>
      cases alive with
      | true =>
        cases h
        exact .tick
      | false =>
        cases h
        exact .clientGone
    | _ => cases h
  | flushed valuesOrder =>
    cases stage with
    | flushing quietNodes =>
      unfold subscriptionPump at h
      dsimp only at h
      cases hempty : quietNodes.isEmpty with
      | true =>
        rw [if_pos hempty] at h
        cases h
        exact .noneQuiet hempty
      | false =>
        rw [if_neg (by simp [hempty])] at h
        cases alive with
        | true =>
          cases h
          exact .read hempty
        | false =>
          cases h
          exact .bail hempty
    | _ => cases h
  | answer readResult =>
    cases stage with
    | reading quietNodes batch =>
      unfold subscriptionPump at h
      dsimp only at h
      cases hread : readNodes batch readResult with
      | ok reads =>
        rw [hread] at h
        cases h
        exact .buffer hread
      | error e =>
        rw [hread] at h
        cases h
        exact .fail hread
    | _ => cases h
  | chunk items =>
    cases stage with
    | waiting st =>
      unfold subscriptionPump at h
      dsimp only at h
      cases hempty : (handleChunk st items).1.isEmpty with
      | true =>
        rw [if_pos hempty] at h
        cases h
        exact .noSamples hempty
      | false =>
        rw [if_neg (by simp [hempty])] at h
        cases h
        exact .deliver hempty
    | _ => cases h
  | streamEnd drainOrder =>
    cases stage with
    | waiting st =>
      cases h
      exact .streamEnd
    | _ => cases h
  | delivered =>
    cases stage with
    | delivering st =>
      cases h
      exact .delivered
    | draining =>
      cases h
      exact .drained
    | _ => cases h

/-! ## Sessions -/

inductive OpcUaStreamSession (V : Type)
  | polling (nodes : List OpcUaNode) (worker : Worker PollStage)
  | subscription (nodes : List OpcUaNode) (worker : Worker (PumpStage V))

inductive SessionEvent (V : Type)
  | polling (event : WorkerEvent (PollInput V))
  | subscription (event : WorkerEvent (PumpInput V))

namespace OpcUaStreamSession

def handle : OpcUaStreamSession V → Handle
  | .polling _ worker => worker.handle
  | .subscription _ worker => worker.handle

/-- The thread of the session has a strong reference to the client. -/
def holdsClient : OpcUaStreamSession V → Bool
  | .polling _ worker => worker.thread.holds PollStage.holdsClient
  | .subscription _ worker => worker.thread.holds PumpStage.holdsClient

/-- A step of the thread of a session, or of a call of `stop`, `stop_timeout` or `drop` on it. -/
def step (alive : Bool) : OpcUaStreamSession V → SessionEvent V →
    Option (List (Action V) × OpcUaStreamSession V)
  | .polling nodes worker, .polling event =>
    ((pollLoop nodes).step alive worker event).map (Prod.map id (.polling nodes))
  | .subscription nodes worker, .subscription event =>
    ((subscriptionPump (collectNodes nodes)).step alive worker event).map
      (Prod.map id (.subscription nodes))
  | _, _ => none

end OpcUaStreamSession

/-! ## The client -/

/-- `dropped`: the last reference has gone without `disconnect`. -/
inductive Connection
  | connected
  | disconnected
  | dropped
  deriving DecidableEq

/-- A client with its sessions. `strong`: the strong count of its `Arc`. `owners`: the references its
callers have. -/
structure System (V : Type) where
  strong : Nat
  owners : Nat
  connection : Connection
  sessions : List (OpcUaStreamSession V)

/-- The calls on a reference to the client. -/
inductive ClientCall
  | clone
  | drop
  | disconnect
  | startPolling (nodes : List OpcUaNode)
  | startSubscription (nodes : List OpcUaNode)

inductive Event (V : Type)
  | client (call : ClientCall)
  | session (i : Nat) (event : SessionEvent V)

inductive Observation (V : Type)
  | session (i : Nat) (action : Action V)
  | disconnected (ok : Bool)

namespace System

/-- The state when `connect` has returned. -/
def initial : System V := ⟨1, 1, .connected, []⟩

variable (s : System V)

/-- `strong_count() > 0`, which is also when `upgrade` finds the client. -/
def isAlive : Bool := decide (0 < s.strong)

/-- A strong reference is dropped, and the client with the last one. -/
def release : System V :=
  { s with
    strong := s.strong - 1
    connection := if s.strong - 1 = 0 then .dropped else s.connection }

/-- The strong reference that a session takes or drops in a step. -/
def transfer (before after : Bool) : System V :=
  match before, after with
  | false, true => { s with strong := s.strong + 1 }
  | true, false => s.release
  | _, _ => s

/-- `disconnect`: `Arc::into_inner` gives up the reference, and has the client if it was the last. -/
def disconnect : List (Observation V) × System V :=
  let s' := { s with strong := s.strong - 1, owners := s.owners - 1 }
  if s.strong - 1 = 0 then ([.disconnected true], { s' with connection := .disconnected })
  else ([.disconnected false], s')

def addSession (session : OpcUaStreamSession V) : System V :=
  { s with sessions := s.sessions ++ [session] }

def call : ClientCall → List (Observation V) × System V
  | .clone => ([], { s with strong := s.strong + 1, owners := s.owners + 1 })
  | .drop => ([], { s.release with owners := s.owners - 1 })
  | .disconnect => s.disconnect
  | .startPolling nodes => ([], s.addSession (.polling nodes (pollLoop (V := V) nodes).spawn))
  | .startSubscription nodes =>
    ([], s.addSession (.subscription nodes (subscriptionPump (collectNodes nodes)).spawn))

def stepSession (i : Nat) (event : SessionEvent V) : Option (List (Observation V) × System V) := do
  let session ← s.sessions[i]?
  let (actions, session') ← session.step s.isAlive event
  let s' := s.transfer session.holdsClient session'.holdsClient
  return (actions.map (.session i), { s' with sessions := s.sessions.set i session' })

/-- A caller needs a reference for its calls. -/
def step : Event V → Option (List (Observation V) × System V)
  | .client call => if 0 < s.owners then some (s.call call) else none
  | .session i event => s.stepSession i event

end System

/-- The client and its sessions, with the steps of all parties in any order. -/
def streaming : EventLoop (System V) (Event V) (Observation V) := .ofStep System.step

end Instro.Opcua
