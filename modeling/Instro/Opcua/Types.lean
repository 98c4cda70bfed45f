import Mathlib.Data.List.Basic

/-!
# OPC-UA node ids, nodes and samples

The value a data point carries is a type parameter `V`: nothing here looks at it.
-/

namespace Instro.Opcua

inductive NodeIdInner
  | numeric (n : UInt32)
  | string (s : String)
  deriving DecidableEq, Repr

structure OpcUaNodeId where
  «namespace» : UInt16
  inner : NodeIdInner
  deriving DecidableEq, Repr

inductive OpcUaNodeClass
  | object
  | variable
  | method
  | view
  | other (n : UInt32)
  deriving DecidableEq, Repr

structure OpcUaNode where
  nodeId : OpcUaNodeId
  browseName : String
  displayName : String
  nodeClass : OpcUaNodeClass
  children : List OpcUaNode

structure OpcUaDataPoint (V : Type) where
  serverTimestamp : UInt64
  sourceTimestamp : Option UInt64
  value : V
  deriving DecidableEq

structure OpcUaSample (V : Type) where
  nodeId : OpcUaNodeId
  data : OpcUaDataPoint V
  deriving DecidableEq

/-- The attribute a read asks for. -/
inductive AttributeId
  | value
  deriving DecidableEq, Repr

/-- The nodes of one batch read, with the list of pairs the request carries. -/
structure OpcUaNodeReadBatch where
  nodes : List OpcUaNode
  nodeAttrPairs : List (OpcUaNodeId × AttributeId)

def OpcUaNodeReadBatch.new (nodes : List OpcUaNode) (attr : AttributeId) : OpcUaNodeReadBatch :=
  ⟨nodes, nodes.map fun node => (node.nodeId, attr)⟩

/-- The node ids a batch asks for. -/
def OpcUaNodeReadBatch.requested (batch : OpcUaNodeReadBatch) : List OpcUaNodeId :=
  batch.nodeAttrPairs.map Prod.fst

@[simp] theorem requested_new (nodes : List OpcUaNode) (attr : AttributeId) :
    (OpcUaNodeReadBatch.new nodes attr).requested = nodes.map (·.nodeId) := by
  simp [OpcUaNodeReadBatch.new, OpcUaNodeReadBatch.requested, Function.comp_def]

/-- The batch read of the client. `readResult` is the answer of the server: a failure of the whole
request, or one entry per pair, `none` where the value does not decode. -/
def readNodes {V : Type} (batch : OpcUaNodeReadBatch)
    (readResult : Except String (List (Option (OpcUaDataPoint V)))) :
    Except String (List (OpcUaSample V)) :=
  match readResult with
  | .error e => .error s!"reading node attributes: {e}"
  | .ok values =>
    if values.length ≠ batch.nodes.length then
      .error s!"read result length does not match node list length: {values.length} != {batch.nodes.length}"
    else
      .ok <| (batch.nodes.zip values).filterMap fun (node, value) =>
        value.map fun data => ⟨node.nodeId, data⟩

end Instro.Opcua
