import Instro.Library.EventLoop
import Instro.Library.KeyedTable
import Instro.Opcua.Types

/-!
# The OPC-UA subscription loop

`subscription_loop` waits on two sources, the poll timer and the chunked notification stream, and
handles whichever wakes it. A `Wake` is one such wake-up with everything the handler learns from
outside: whether the client is alive, what the batch read returned, and the order in which the
hash maps are walked. Any list of wakes is a possible interleaving.
-/

namespace Instro.Opcua

open Instro.Library

variable {V : Type}

/-- A tick of the poll timer. `reads` is what the batch read returns, if one is issued. -/
structure Tick (V : Type) where
  isAlive : Bool
  reads : Except String (List (OpcUaSample V))
  drainOrder : WalkOrder OpcUaNodeId
  valuesOrder : WalkOrder OpcUaNodeId

inductive Wake (V : Type)
  | tick (t : Tick V)
  | chunk (items : List (OpcUaNodeId × OpcUaDataPoint V))
  | streamEnd (drainOrder : WalkOrder OpcUaNodeId)

/-- What the loop does that is seen outside. -/
inductive Action (V : Type)
  | onData (samples : List (OpcUaSample V))
  | readNodes (batch : OpcUaNodeReadBatch)

/-- A `HashMap` of nodes by their id. -/
abbrev NodeMap := KeyedTable OpcUaNode.nodeId

/-- A `HashMap` of samples by the id of their node. -/
abbrev SampleMap (V : Type) := KeyedTable (OpcUaSample.nodeId (V := V))

/-- `quietNodes`: nodes still quiet in the current interval. `polledNodes`: poll results waiting
one tick before they are flushed. -/
structure LoopState (V : Type) where
  quietNodes : NodeMap
  polledNodes : SampleMap V

/-- The nodes by id, as `collect` builds them. -/
def collectNodes (nodes : List OpcUaNode) : NodeMap :=
  KeyedTable.extend ∅ nodes

/-- The samples one notification pushes. -/
def notifySamples (st : LoopState V) (nodeId : OpcUaNodeId) (data : OpcUaDataPoint V) :
    List (OpcUaSample V) :=
  match st.polledNodes.get nodeId with
  | some polledSample =>
    if polledSample.data.serverTimestamp < data.serverTimestamp then
      [polledSample, ⟨nodeId, data⟩]
    else [⟨nodeId, data⟩]
  | none => [⟨nodeId, data⟩]

/-- One notification takes its node out of both maps. -/
def notify (st : LoopState V) (nodeId : OpcUaNodeId) : LoopState V :=
  ⟨st.quietNodes.remove nodeId, st.polledNodes.remove nodeId⟩

/-- The samples of a chunk, and the state after it. -/
def handleChunk (st : LoopState V) :
    List (OpcUaNodeId × OpcUaDataPoint V) → List (OpcUaSample V) × LoopState V
  | [] => ([], st)
  | (nodeId, data) :: chunk =>
    let rest := handleChunk (notify st nodeId) chunk
    (notifySamples st nodeId data ++ rest.1, rest.2)

/-- The flush after the loop. -/
def exitDrain (st : LoopState V) (o : WalkOrder OpcUaNodeId) : List (Action V) :=
  [.onData (st.polledNodes.walk o)]

/-- The tick branch, once the client is known to be alive. -/
def handleTick (allNodes : NodeMap) (st : LoopState V) (t : Tick V) :
    List (Action V) × LoopState V :=
  let flush := Action.onData (st.polledNodes.walk t.drainOrder)
  if st.quietNodes.isEmpty then
    ([flush], ⟨allNodes, ∅⟩)
  else
    let batch := OpcUaNodeReadBatch.new (st.quietNodes.walk t.valuesOrder) .value
    match t.reads with
    -- the `continue` of the failed read: the quiet nodes are not put back
    | .error _ => ([flush, .readNodes batch], ⟨st.quietNodes, ∅⟩)
    | .ok reads =>
      ([flush, .readNodes batch], ⟨allNodes, KeyedTable.extend ∅ reads⟩)

/-- The loop over the monitored nodes. -/
def subscriptionLoop (allNodes : NodeMap) :
    EventLoop (LoopState V) (Wake V) (Action V) where
  step st
    | .tick t =>
      if t.isAlive then
        ((handleTick allNodes st t).1, some (handleTick allNodes st t).2)
      else
        (exitDrain st t.drainOrder, none)
    | .chunk items =>
      let (samples, st') := handleChunk st items
      (if samples.isEmpty then [] else [.onData samples], some st')
    | .streamEnd o => (exitDrain st o, none)

/-- The state the loop starts in. -/
def LoopState.init (allNodes : NodeMap) : LoopState V :=
  ⟨allNodes, ∅⟩

/-- The state after the wakes, or `none` once the loop has ended. -/
def stateAfter (nodes : List OpcUaNode) (ws : List (Wake V)) : Option (LoopState V) :=
  (subscriptionLoop (collectNodes nodes)).stateAfter (.init (collectNodes nodes)) ws

/-- Everything the loop does over the wakes. -/
def actions (nodes : List OpcUaNode) (ws : List (Wake V)) : List (Action V) :=
  (subscriptionLoop (collectNodes nodes)).actions (.init (collectNodes nodes)) ws

/-- The loop goes on after this wake. -/
def Wake.staysIn : Wake V → Bool
  | .tick t => t.isAlive
  | .chunk _ => true
  | .streamEnd _ => false

/-- The samples handed to `on_data`, in order. -/
def emitted : List (Action V) → List (OpcUaSample V)
  | [] => []
  | .onData samples :: acts => samples ++ emitted acts
  | .readNodes _ :: acts => emitted acts

/-- The node ids asked for, in order. -/
def requested : List (Action V) → List OpcUaNodeId
  | [] => []
  | .onData _ :: acts => requested acts
  | .readNodes batch :: acts => batch.requested ++ requested acts

theorem emitted_append (as bs : List (Action V)) :
    emitted (as ++ bs) = emitted as ++ emitted bs := by
  induction as with
  | nil => rfl
  | cons a as ih => cases a <;> simp [emitted, ih]

theorem mem_collectNodes {nodes : List OpcUaNode} {id : OpcUaNodeId} :
    id ∈ collectNodes nodes ↔ ∃ n ∈ nodes, n.nodeId = id := by
  unfold collectNodes
  rw [KeyedTable.mem_extend]
  simp

/-! ## What each wake does -/

section Steps

variable {allNodes : NodeMap} {st : LoopState V}

theorem step_chunk (items : List (OpcUaNodeId × OpcUaDataPoint V)) :
    ((subscriptionLoop allNodes).step st (.chunk items)).2 = some (handleChunk st items).2 := rfl

theorem emitted_step_chunk (items : List (OpcUaNodeId × OpcUaDataPoint V)) :
    emitted ((subscriptionLoop allNodes).step st (.chunk items)).1 = (handleChunk st items).1 := by
  show emitted
    (if (handleChunk st items).1.isEmpty then [] else [.onData (handleChunk st items).1]) = _
  cases h : (handleChunk st items).1 <;> simp [emitted]

theorem step_streamEnd (o : WalkOrder OpcUaNodeId) :
    (subscriptionLoop allNodes).step st (.streamEnd o) = (exitDrain st o, none) := rfl

theorem step_tick_alive {t : Tick V} (h : t.isAlive = true) :
    (subscriptionLoop allNodes).step st (.tick t) =
      ((handleTick allNodes st t).1, some (handleTick allNodes st t).2) := by
  show (if t.isAlive then _ else _) = _
  rw [if_pos h]

theorem step_tick_dropped {t : Tick V} (h : t.isAlive = false) :
    (subscriptionLoop allNodes).step st (.tick t) = (exitDrain st t.drainOrder, none) := by
  show (if t.isAlive then _ else _) = _
  rw [if_neg (by simp [h])]

/-- A tick flushes the whole buffer and nothing else. -/
theorem emitted_handleTick (t : Tick V) :
    emitted (handleTick allNodes st t).1 = st.polledNodes.walk t.drainOrder := by
  unfold handleTick
  split_ifs
  · exact List.append_nil _
  · cases t.reads <;> exact List.append_nil _

theorem emitted_exitDrain (o : WalkOrder OpcUaNodeId) :
    emitted (exitDrain st o) = st.polledNodes.walk o := List.append_nil _

end Steps

theorem step_isSome_iff (allNodes : NodeMap) (st : LoopState V) (w : Wake V) :
    (((subscriptionLoop allNodes).step st w).2).isSome = w.staysIn := by
  cases w with
  | tick t =>
    cases h : t.isAlive
    · rw [step_tick_dropped h]
      exact h.symm
    · rw [step_tick_alive h]
      exact h.symm
  | chunk items => rfl
  | streamEnd o => rfl

/-- The loop is still running exactly when no wake has ended it. -/
theorem stateAfter_isSome_iff (nodes : List OpcUaNode) {ws : List (Wake V)} :
    (stateAfter nodes ws).isSome ↔ ∀ w ∈ ws, w.staysIn = true := by
  unfold stateAfter
  generalize LoopState.init (collectNodes nodes) = st
  induction ws generalizing st with
  | nil => simp
  | cons w ws ih =>
    rw [EventLoop.stateAfter_cons, List.forall_mem_cons]
    have hs := step_isSome_iff (collectNodes nodes) st w
    cases h : ((subscriptionLoop (collectNodes nodes)).step st w).2 with
    | none =>
      rw [h] at hs
      simp [← hs]
    | some st' =>
      rw [h] at hs
      simpa [← hs] using ih st'

end Instro.Opcua
