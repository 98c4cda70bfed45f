import Instro.Opcua.Types
import Mathlib.Data.List.Nodup

/-!
# Recursive browsing

`browse_all` walks the address space depth first. One set of node ids is shared by the whole walk:
a reference to a node that is in it is left out, so the first reference wins.
-/

namespace Instro.Opcua

/-! ## Address spaces -/

/-- What a server answers to the browse of a single node. Its nodes are finitely many, each is of
one class, and a browse lists them without children. -/
structure AddressSpace (ε : Type) where
  browseNode : OpcUaNodeId → Except ε (List OpcUaNode)
  nodeClass : OpcUaNodeId → OpcUaNodeClass
  ids : List OpcUaNodeId
  mem_ids : ∀ {id raw}, browseNode id = .ok raw → ∀ node ∈ raw, node.nodeId ∈ ids
  nodeClass_eq : ∀ {id raw}, browseNode id = .ok raw →
    ∀ node ∈ raw, node.nodeClass = nodeClass node.nodeId
  children_eq : ∀ {id raw}, browseNode id = .ok raw → ∀ node ∈ raw, node.children = []

variable {ε : Type}

/-- The browse of `a` lists the node. -/
def AddressSpace.Lists (space : AddressSpace ε) (a : OpcUaNodeId) (node : OpcUaNode) : Prop :=
  ∃ raw, space.browseNode a = .ok raw ∧ node ∈ raw

/-- A reference from `a` to `b`. -/
def AddressSpace.Refers (space : AddressSpace ε) (a b : OpcUaNodeId) : Prop :=
  ∃ node, space.Lists a node ∧ node.nodeId = b

def AddressSpace.IsObject (space : AddressSpace ε) (id : OpcUaNodeId) : Prop :=
  space.nodeClass id = .object

/-! ## The walk -/

/-- The ids that are `seen`, oldest first, and those `browse_node` was called with. -/
structure Walk where
  seen : List OpcUaNodeId
  calls : List OpcUaNodeId
  deriving DecidableEq

def Walk.insert (w : Walk) (id : OpcUaNodeId) : Walk := { w with seen := w.seen ++ [id] }

def Walk.call (w : Walk) (id : OpcUaNodeId) : Walk := { w with calls := w.calls ++ [id] }

@[simp] theorem Walk.insert_seen (w : Walk) (id : OpcUaNodeId) :
    (w.insert id).seen = w.seen ++ [id] := rfl

@[simp] theorem Walk.insert_calls (w : Walk) (id : OpcUaNodeId) :
    (w.insert id).calls = w.calls := rfl

@[simp] theorem Walk.call_seen (w : Walk) (id : OpcUaNodeId) : (w.call id).seen = w.seen := rfl

@[simp] theorem Walk.call_calls (w : Walk) (id : OpcUaNodeId) :
    (w.call id).calls = w.calls ++ [id] := rfl

/-- `usize::saturating_add(1)` -/
def saturatingSucc (depth : UInt64) : UInt64 :=
  if depth.toNat + 1 < UInt64.size then depth + 1 else depth

def atMaxDepth (maxDepth : Option UInt64) (depth : UInt64) : Bool :=
  match maxDepth with
  | none => false
  | some maxDepth => decide (maxDepth ≤ depth)

/-- `node.children.extend(children)` -/
def OpcUaNode.extend (node : OpcUaNode) (children : List OpcUaNode) : OpcUaNode :=
  { node with children := node.children ++ children }

@[simp] theorem OpcUaNode.extend_nodeId (node : OpcUaNode) (children : List OpcUaNode) :
    (node.extend children).nodeId = node.nodeId := rfl

@[simp] theorem OpcUaNode.extend_nodeClass (node : OpcUaNode) (children : List OpcUaNode) :
    (node.extend children).nodeClass = node.nodeClass := rfl

@[simp] theorem OpcUaNode.extend_nil (node : OpcUaNode) : node.extend [] = node := by
  cases node
  simp [OpcUaNode.extend]

/-- What a part of the walk ends in; `none` if the recursion is cut off. -/
abbrev Outcome (ε : Type) : Type := Option (Walk × Except ε (List OpcUaNode))

/-- The loop over the references of one node. `recurse` browses below an object. -/
def collectReferences (recurse : OpcUaNodeId → Walk → Outcome ε) :
    List OpcUaNode → List OpcUaNode → Walk → Outcome ε
  | [], nodes, w => some (w, .ok nodes)
  | node :: raw, nodes, w =>
    if node.nodeId ∈ w.seen then collectReferences recurse raw nodes w
    else if node.nodeClass = .object then
      (recurse node.nodeId (w.insert node.nodeId)).bind fun (w, result) =>
        match result with
        | .error e => some (w, .error e)
        | .ok children =>
          collectReferences recurse raw (nodes ++ [node.extend children]) w
    else collectReferences recurse raw (nodes ++ [node]) (w.insert node.nodeId)

/-- `fuel` bounds the recursion, not the depth of the browse. -/
def browseRecursive (space : AddressSpace ε) (maxDepth : Option UInt64) :
    Nat → UInt64 → OpcUaNodeId → Walk → Outcome ε
  | 0, _, _, _ => none
  | fuel + 1, depth, nodeId, w =>
    if atMaxDepth maxDepth depth then some (w, .ok [])
    else
      match space.browseNode nodeId with
      | .error e => some (w.call nodeId, .error e)
      | .ok raw =>
        collectReferences (browseRecursive space maxDepth fuel (saturatingSucc depth)) raw []
          (w.call nodeId)

def browseAll (space : AddressSpace ε) (fuel : Nat) (nodeId : OpcUaNodeId)
    (maxDepth : Option UInt64) : Outcome ε :=
  browseRecursive space maxDepth fuel 0 nodeId ⟨[nodeId], []⟩

/-! ## The tree -/

mutual

/-- A node and all below it, each with its level. -/
def levels (level : Nat) : OpcUaNode → List (Nat × OpcUaNode)
  | ⟨nodeId, browseName, displayName, nodeClass, children⟩ =>
    (level, ⟨nodeId, browseName, displayName, nodeClass, children⟩) ::
      forestLevels (level + 1) children

/-- The nodes of a forest, each before those below it. -/
def forestLevels (level : Nat) : List OpcUaNode → List (Nat × OpcUaNode)
  | [] => []
  | node :: nodes => levels level node ++ forestLevels level nodes

end

/-- The node ids of a forest, each as often as it occurs. -/
def nodeIds (nodes : List OpcUaNode) : List OpcUaNodeId :=
  (forestLevels 1 nodes).map (·.2.nodeId)

/-! ## Successful walks -/

/-- How the loop over the references `raw` of `nodeId` goes when no browse fails: it leads from `w`
to `w'` and leaves `nodes`. -/
inductive Collects (space : AddressSpace ε) (maxDepth : Option UInt64) :
    OpcUaNodeId → UInt64 → List OpcUaNode → Walk → Walk → List OpcUaNode → Prop
  | nil {nodeId depth w} : Collects space maxDepth nodeId depth [] w w []
  | seen {nodeId depth node raw w w' nodes} (hseen : node.nodeId ∈ w.seen)
      (hrest : Collects space maxDepth nodeId depth raw w w' nodes) :
      Collects space maxDepth nodeId depth (node :: raw) w w' nodes
  | leaf {nodeId depth node raw w w' nodes} (hlists : space.Lists nodeId node)
      (hnew : node.nodeId ∉ w.seen) (hclass : node.nodeClass ≠ .object)
      (hrest : Collects space maxDepth nodeId depth raw (w.insert node.nodeId) w' nodes) :
      Collects space maxDepth nodeId depth (node :: raw) w w' (node :: nodes)
  | cut {nodeId depth node raw w w' nodes} (hlists : space.Lists nodeId node)
      (hnew : node.nodeId ∉ w.seen) (hclass : node.nodeClass = .object)
      (hdepth : atMaxDepth maxDepth (saturatingSucc depth) = true)
      (hrest : Collects space maxDepth nodeId depth raw (w.insert node.nodeId) w' nodes) :
      Collects space maxDepth nodeId depth (node :: raw) w w' (node :: nodes)
  | browsed {nodeId depth node raw inner w v w' children nodes}
      (hlists : space.Lists nodeId node) (hnew : node.nodeId ∉ w.seen)
      (hclass : node.nodeClass = .object)
      (hdepth : atMaxDepth maxDepth (saturatingSucc depth) = false)
      (hbrowse : space.browseNode node.nodeId = .ok inner)
      (hinner : Collects space maxDepth node.nodeId (saturatingSucc depth) inner
        ((w.insert node.nodeId).call node.nodeId) v children)
      (hrest : Collects space maxDepth nodeId depth raw v w' nodes) :
      Collects space maxDepth nodeId depth (node :: raw) w w' (node.extend children :: nodes)

/-- What a successful browse of one node does. -/
inductive Browses (space : AddressSpace ε) (maxDepth : Option UInt64) (depth : UInt64)
    (nodeId : OpcUaNodeId) (w : Walk) : Walk → List OpcUaNode → Prop
  | cut (hdepth : atMaxDepth maxDepth depth = true) : Browses space maxDepth depth nodeId w w []
  | browsed {raw w' nodes} (hdepth : atMaxDepth maxDepth depth = false)
      (hbrowse : space.browseNode nodeId = .ok raw)
      (h : Collects space maxDepth nodeId depth raw (w.call nodeId) w' nodes) :
      Browses space maxDepth depth nodeId w w' nodes

section Successful

variable {space : AddressSpace ε} {maxDepth : Option UInt64} {depth : UInt64}
  {nodeId : OpcUaNodeId} {w w' : Walk} {nodes : List OpcUaNode}

/-- The loop, if what it recurses into browses. -/
theorem collects_of_collectReferences {recurse : OpcUaNodeId → Walk → Outcome ε}
    (hrecurse : ∀ id w w' nodes, recurse id w = some (w', .ok nodes) →
      Browses space maxDepth (saturatingSucc depth) id w w' nodes)
    {raw acc : List OpcUaNode} (hraw : ∀ node ∈ raw, space.Lists nodeId node)
    (h : collectReferences recurse raw acc w = some (w', .ok nodes)) :
    ∃ new, nodes = acc ++ new ∧ Collects space maxDepth nodeId depth raw w w' new := by
  induction raw generalizing acc w with
  | nil =>
    obtain ⟨rfl, hnodes⟩ := Prod.mk.inj (Option.some.inj h)
    obtain rfl := Except.ok.inj hnodes
    exact ⟨[], (List.append_nil acc).symm, .nil⟩
  | cons node raw ih =>
    obtain ⟨hlists, hraw⟩ := List.forall_mem_cons.mp hraw
    rw [collectReferences] at h
    by_cases hseen : node.nodeId ∈ w.seen
    · rw [if_pos hseen] at h
      obtain ⟨new, rfl, hnew⟩ := ih hraw h
      exact ⟨new, rfl, .seen hseen hnew⟩
    · rw [if_neg hseen] at h
      by_cases hclass : node.nodeClass = .object
      · rw [if_pos hclass] at h
        obtain ⟨⟨v, result⟩, hinner, h⟩ := Option.bind_eq_some_iff.mp h
        cases result with
        | error e => cases h
        | ok children =>
          obtain ⟨new, rfl, hnew⟩ := ih hraw h
          refine ⟨_ :: new, by rw [List.append_assoc, List.singleton_append], ?_⟩
          cases hrecurse _ _ _ _ hinner with
          | cut hdepth =>
            rw [OpcUaNode.extend_nil]
            exact .cut hlists hseen hclass hdepth hnew
          | browsed hdepth hbrowse hcollects =>
            exact .browsed hlists hseen hclass hdepth hbrowse hcollects hnew
      · rw [if_neg hclass] at h
        obtain ⟨new, rfl, hnew⟩ := ih hraw h
        exact ⟨node :: new, by rw [List.append_assoc, List.singleton_append],
          .leaf hlists hseen hclass hnew⟩

theorem browses_of_browseRecursive {fuel : Nat}
    (h : browseRecursive space maxDepth fuel depth nodeId w = some (w', .ok nodes)) :
    Browses space maxDepth depth nodeId w w' nodes := by
  induction fuel generalizing depth nodeId w w' nodes with
  | zero => cases h
  | succ fuel ih =>
    rw [browseRecursive] at h
    by_cases hdepth : atMaxDepth maxDepth depth = true
    · rw [if_pos hdepth] at h
      obtain ⟨rfl, hnodes⟩ := Prod.mk.inj (Option.some.inj h)
      obtain rfl := Except.ok.inj hnodes
      exact .cut hdepth
    · rw [if_neg hdepth] at h
      cases hbrowse : space.browseNode nodeId with
      | error e =>
        rw [hbrowse] at h
        cases h
      | ok raw =>
        rw [hbrowse] at h
        obtain ⟨new, rfl, hnew⟩ := collects_of_collectReferences (fun _ _ _ _ h => ih h)
          (fun node hnode => ⟨raw, hbrowse, hnode⟩) h
        exact .browsed (Bool.eq_false_iff.mpr hdepth) hbrowse hnew

end Successful

end Instro.Opcua
