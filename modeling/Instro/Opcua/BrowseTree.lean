import Instro.Library.Paths
import Instro.Opcua.Browse
import Mathlib.Data.List.Perm.Subperm

/-!
# What a browse returns

The walk ends because each browse below an object comes after a new entry of `seen`. What is in the
tree is what has been seen; what has been browsed has all its references seen.
-/

namespace Instro.Opcua

open Instro.Library

variable {ε : Type} {space : AddressSpace ε} {maxDepth : Option UInt64} {root : OpcUaNodeId}

/-! ## Termination -/

/-- Nothing is seen or browsed twice, and what is browsed has been seen. -/
structure Walk.Once (space : AddressSpace ε) (root : OpcUaNodeId) (w : Walk) : Prop where
  seen : w.seen.Nodup
  known : w.seen ⊆ root :: space.ids
  calls : w.calls.Nodup
  called : w.calls ⊆ w.seen

namespace Walk.Once

variable {w : Walk} {id : OpcUaNodeId}

theorem init : Walk.Once space root ⟨[root], []⟩ where
  seen := List.nodup_singleton root
  known := List.cons_subset_cons root (List.nil_subset _)
  calls := List.nodup_nil
  called := List.nil_subset _

theorem insert (h : w.Once space root) (hid : id ∈ space.ids) (hnew : id ∉ w.seen) :
    (w.insert id).Once space root where
  seen := h.seen.concat hnew |> fun h => by rwa [List.concat_eq_append] at h
  known := by
    intro i hi
    rcases List.mem_append.mp hi with hi | hi
    · exact h.known hi
    · rw [List.mem_singleton.mp hi]
      exact List.mem_cons_of_mem root hid
  calls := h.calls
  called := fun i hi => List.mem_append_left _ (h.called hi)

theorem call (h : w.Once space root) (hseen : id ∈ w.seen) (hnew : id ∉ w.calls) :
    (w.call id).Once space root where
  seen := h.seen
  known := h.known
  calls := h.calls.concat hnew |> fun h => by rwa [List.concat_eq_append] at h
  called := by
    intro i hi
    rcases List.mem_append.mp hi with hi | hi
    · exact h.called hi
    · rwa [List.mem_singleton.mp hi]

/-- So much can still be seen. -/
theorem length_le (h : w.Once space root) : w.seen.length ≤ space.ids.length + 1 :=
  (List.subperm_of_subset h.seen h.known).length_le

end Walk.Once

/-- The walk goes on from `w` without seeing or browsing anything twice. -/
def Continues (space : AddressSpace ε) (root : OpcUaNodeId) (w : Walk) (outcome : Outcome ε) :
    Prop :=
  ∃ w' result, outcome = some (w', result) ∧ w'.Once space root ∧
    w.seen.length ≤ w'.seen.length ∧
    ((∀ id, ∃ raw, space.browseNode id = .ok raw) → ∃ nodes, result = .ok nodes)

theorem continues_collectReferences {recurse : OpcUaNodeId → Walk → Outcome ε} {fuel : Nat}
    (hrecurse : ∀ id w, w.Once space root → id ∈ w.seen → id ∉ w.calls →
      space.ids.length + 1 < w.seen.length + fuel → Continues space root w (recurse id w))
    {raw acc : List OpcUaNode} (hraw : ∀ node ∈ raw, node.nodeId ∈ space.ids) {w : Walk}
    (hw : w.Once space root) (hfuel : space.ids.length + 1 ≤ w.seen.length + fuel) :
    Continues space root w (collectReferences recurse raw acc w) := by
  induction raw generalizing acc w with
  | nil => exact ⟨w, .ok acc, rfl, hw, le_rfl, fun _ => ⟨acc, rfl⟩⟩
  | cons node raw ih =>
    obtain ⟨hnode, hraw⟩ := List.forall_mem_cons.mp hraw
    rw [collectReferences]
    by_cases hseen : node.nodeId ∈ w.seen
    · rw [if_pos hseen]
      exact ih hraw hw hfuel
    · rw [if_neg hseen]
      have hinsert := hw.insert hnode hseen
      have hlonger : (w.insert node.nodeId).seen.length = w.seen.length + 1 := by simp
      by_cases hclass : node.nodeClass = .object
      · rw [if_pos hclass]
        obtain ⟨v, result, hv, honce, hle, hok⟩ := hrecurse node.nodeId _ hinsert (by simp)
          (fun hcall => hseen (hw.called hcall)) (by omega)
        rw [hv, Option.bind_some]
        cases result with
        | error e =>
          refine ⟨v, .error e, rfl, honce, by omega, fun hall => ?_⟩
          obtain ⟨nodes, hnodes⟩ := hok hall
          cases hnodes
        | ok children =>
          obtain ⟨w', result, hw', honce', hle', hok'⟩ := ih hraw honce (by omega)
          exact ⟨w', result, hw', honce', by omega, hok'⟩
      · rw [if_neg hclass]
        obtain ⟨w', result, hw', honce', hle', hok'⟩ := ih hraw hinsert (by omega)
        exact ⟨w', result, hw', honce', by omega, hok'⟩

theorem continues_browseRecursive {fuel : Nat} {depth : UInt64} {id : OpcUaNodeId} {w : Walk}
    (hw : w.Once space root) (hseen : id ∈ w.seen) (hnew : id ∉ w.calls)
    (hfuel : space.ids.length + 1 < w.seen.length + fuel) :
    Continues space root w (browseRecursive space maxDepth fuel depth id w) := by
  induction fuel generalizing depth id w with
  | zero =>
    have hle := hw.length_le
    omega
  | succ fuel ih =>
    rw [browseRecursive]
    by_cases hdepth : atMaxDepth maxDepth depth = true
    · rw [if_pos hdepth]
      exact ⟨w, .ok [], rfl, hw, le_rfl, fun _ => ⟨[], rfl⟩⟩
    · rw [if_neg hdepth]
      have hcall := hw.call hseen hnew
      cases hbrowse : space.browseNode id with
      | error e =>
        refine ⟨w.call id, .error e, rfl, hcall, le_rfl, fun hall => ?_⟩
        obtain ⟨raw, hraw⟩ := hall id
        cases hbrowse.symm.trans hraw
      | ok raw =>
        have hlength : (w.call id).seen.length = w.seen.length := rfl
        exact continues_collectReferences (fun _ _ hw hseen hnew hfuel => ih hw hseen hnew hfuel)
          (space.mem_ids hbrowse) hcall (by omega)

/-- A recursion that is not cut off does not change with more fuel. -/
theorem collectReferences_mono {recurse recurse' : OpcUaNodeId → Walk → Outcome ε}
    (hrecurse : ∀ id w x, recurse id w = some x → recurse' id w = some x)
    {raw acc : List OpcUaNode} {w : Walk} {x : Walk × Except ε (List OpcUaNode)}
    (h : collectReferences recurse raw acc w = some x) :
    collectReferences recurse' raw acc w = some x := by
  induction raw generalizing acc w with
  | nil => exact h
  | cons node raw ih =>
    rw [collectReferences] at h ⊢
    by_cases hseen : node.nodeId ∈ w.seen
    · rw [if_pos hseen] at h ⊢
      exact ih h
    · rw [if_neg hseen] at h ⊢
      by_cases hclass : node.nodeClass = .object
      · rw [if_pos hclass] at h ⊢
        obtain ⟨⟨v, result⟩, hinner, h⟩ := Option.bind_eq_some_iff.mp h
        rw [hrecurse _ _ _ hinner, Option.bind_some]
        cases result with
        | error e => exact h
        | ok children => exact ih h
      · rw [if_neg hclass] at h ⊢
        exact ih h

theorem browseRecursive_succ {fuel : Nat} {depth : UInt64} {id : OpcUaNodeId} {w : Walk}
    {x : Walk × Except ε (List OpcUaNode)}
    (h : browseRecursive space maxDepth fuel depth id w = some x) :
    browseRecursive space maxDepth (fuel + 1) depth id w = some x := by
  induction fuel generalizing depth id w x with
  | zero => cases h
  | succ fuel ih =>
    rw [browseRecursive] at h ⊢
    by_cases hdepth : atMaxDepth maxDepth depth = true
    · rw [if_pos hdepth] at h ⊢
      exact h
    · rw [if_neg hdepth] at h ⊢
      cases hbrowse : space.browseNode id with
      | error e =>
        rw [hbrowse] at h
        exact h
      | ok raw =>
        rw [hbrowse] at h
        exact collectReferences_mono (fun _ _ _ h => ih h) h

/-- `browse_all` returns, and how much the recursion may be cut off makes no difference. -/
theorem browseAll_returns (space : AddressSpace ε) (root : OpcUaNodeId)
    (maxDepth : Option UInt64) :
    ∃ w result, (∀ fuel, space.ids.length < fuel →
      browseAll space fuel root maxDepth = some (w, result)) ∧ w.Once space root ∧
      ((∀ id, ∃ raw, space.browseNode id = .ok raw) → ∃ nodes, result = .ok nodes) := by
  have hcontinues : Continues space root ⟨[root], []⟩
      (browseAll space (space.ids.length + 1) root maxDepth) :=
    continues_browseRecursive .init (List.mem_singleton_self root) List.not_mem_nil (by simp)
  obtain ⟨w, result, hw, honce, -, hok⟩ := hcontinues
  refine ⟨w, result, ?_, honce, hok⟩
  intro fuel hfuel
  induction fuel, hfuel using Nat.le_induction with
  | base => exact hw
  | succ fuel _ ih => exact browseRecursive_succ ih

/-! ## The tree -/

section Tree

variable {w w' : Walk} {nodes raw : List OpcUaNode} {depth : UInt64} {id : OpcUaNodeId}
  {node : OpcUaNode}

theorem levels_of_leaf (h : node.children = []) (k : Nat) : levels k node = [(k, node)] := by
  cases node with
  | mk nodeId browseName displayName nodeClass children =>
    obtain rfl : children = [] := h
    rfl

theorem levels_extend (h : node.children = []) (children : List OpcUaNode) (k : Nat) :
    levels k (node.extend children) =
      (k, node.extend children) :: forestLevels (k + 1) children := by
  cases node with
  | mk nodeId browseName displayName nodeClass children' =>
    obtain rfl : children' = [] := h
    rfl

theorem AddressSpace.Lists.children (h : space.Lists id node) : node.children = [] := by
  obtain ⟨raw, hraw, hnode⟩ := h
  exact space.children_eq hraw node hnode

theorem AddressSpace.Lists.nodeClass (h : space.Lists id node) :
    node.nodeClass = space.nodeClass node.nodeId := by
  obtain ⟨raw, hraw, hnode⟩ := h
  exact space.nodeClass_eq hraw node hnode

/-- What is seen is what is in the tree. -/
theorem Collects.seen_eq (h : Collects space maxDepth id depth raw w w' nodes) (k : Nat) :
    w'.seen = w.seen ++ (forestLevels k nodes).map (·.2.nodeId) := by
  induction h generalizing k with
  | nil => exact (List.append_nil _).symm
  | seen hseen hrest ih => exact ih k
  | leaf hlists hnew hclass hrest ih =>
    rw [ih k, forestLevels, levels_of_leaf hlists.children]
    simp
  | cut hlists hnew hclass hdepth hrest ih =>
    rw [ih k, forestLevels, levels_of_leaf hlists.children]
    simp
  | browsed hlists hnew hclass hdepth hbrowse hinner hrest ihinner ihrest =>
    rw [ihrest k, ihinner (k + 1), forestLevels, levels_extend hlists.children]
    simp

theorem Collects.seen_subset (h : Collects space maxDepth id depth raw w w' nodes) :
    w.seen ⊆ w'.seen := by
  rw [h.seen_eq 0]
  exact List.subset_append_left _ _

/-- Every reference is seen. -/
theorem Collects.mem_seen (h : Collects space maxDepth id depth raw w w' nodes) :
    ∀ node ∈ raw, node.nodeId ∈ w'.seen := by
  induction h with
  | nil => exact fun _ hnode => absurd hnode List.not_mem_nil
  | seen hseen hrest ih => exact List.forall_mem_cons.mpr ⟨hrest.seen_subset hseen, ih⟩
  | leaf hlists hnew hclass hrest ih =>
    exact List.forall_mem_cons.mpr ⟨hrest.seen_subset (by simp), ih⟩
  | cut hlists hnew hclass hdepth hrest ih =>
    exact List.forall_mem_cons.mpr ⟨hrest.seen_subset (by simp), ih⟩
  | browsed hlists hnew hclass hdepth hbrowse hinner hrest ihinner ihrest =>
    exact List.forall_mem_cons.mpr ⟨hrest.seen_subset (hinner.seen_subset (by simp)), ihrest⟩

/-- A node of the tree is of its class, and only an object has children. -/
def Shaped (space : AddressSpace ε) (node : OpcUaNode) : Prop :=
  node.nodeClass = space.nodeClass node.nodeId ∧
    (node.nodeClass ≠ .object → node.children = [])

theorem Collects.shaped (h : Collects space maxDepth id depth raw w w' nodes) (k : Nat) :
    ∀ p ∈ forestLevels k nodes, Shaped space p.2 := by
  induction h generalizing k with
  | nil => exact fun _ hp => absurd hp List.not_mem_nil
  | seen hseen hrest ih => exact ih k
  | leaf hlists hnew hclass hrest ih =>
    rw [forestLevels, levels_of_leaf hlists.children]
    exact List.forall_mem_cons.mpr ⟨⟨hlists.nodeClass, fun _ => hlists.children⟩, ih k⟩
  | cut hlists hnew hclass hdepth hrest ih =>
    rw [forestLevels, levels_of_leaf hlists.children]
    exact List.forall_mem_cons.mpr ⟨⟨hlists.nodeClass, fun _ => hlists.children⟩, ih k⟩
  | browsed hlists hnew hclass hdepth hbrowse hinner hrest ihinner ihrest =>
    rw [forestLevels, levels_extend hlists.children, List.cons_append]
    refine List.forall_mem_cons.mpr ⟨⟨hlists.nodeClass, fun hno => absurd hclass hno⟩, ?_⟩
    exact List.forall_mem_append.mpr ⟨ihinner (k + 1), ihrest k⟩

/-! ## Depth -/

/-- An object at this level is browsed. -/
def Expands (maxDepth : Option UInt64) (level : Nat) : Prop :=
  ∀ d, maxDepth = some d → level < d.toNat

/-- The references of a node at this level are being collected: if there is a limit, the depth is
the level and below it. -/
structure AtLevel (maxDepth : Option UInt64) (depth : UInt64) (level : Nat) : Prop where
  depth_eq : ∀ d, maxDepth = some d → depth.toNat = level
  expands : Expands maxDepth level

theorem atLevel_zero (h : atMaxDepth maxDepth 0 = false) : AtLevel maxDepth 0 0 where
  depth_eq _ _ := rfl
  expands := by
    rintro d rfl
    have hlt : ¬d ≤ 0 := of_decide_eq_false h
    exact Nat.lt_of_not_le fun hle => hlt (UInt64.le_iff_toNat_le.mpr hle)

theorem saturatingSucc_toNat {k : Nat} (h : AtLevel maxDepth depth k) {d : UInt64}
    (hd : maxDepth = some d) : (saturatingSucc depth).toNat = k + 1 := by
  have hlt : k < d.toNat := h.expands d hd
  have hd' : d.toNat < UInt64.size := d.toNat_lt
  unfold saturatingSucc
  rw [if_pos (by rw [h.depth_eq d hd]; omega), UInt64.toNat_add, h.depth_eq d hd]
  exact Nat.mod_eq_of_lt (lt_of_le_of_lt hlt hd')

/-- Below an object that is browsed. -/
theorem AtLevel.succ {k : Nat} (h : AtLevel maxDepth depth k)
    (hdepth : atMaxDepth maxDepth (saturatingSucc depth) = false) :
    AtLevel maxDepth (saturatingSucc depth) (k + 1) where
  depth_eq _ hd := saturatingSucc_toNat h hd
  expands := by
    rintro d rfl
    have hlt : ¬d ≤ saturatingSucc depth := of_decide_eq_false hdepth
    rw [UInt64.le_iff_toNat_le, saturatingSucc_toNat h rfl] at hlt
    omega

/-- An object that is not browsed. -/
theorem AtLevel.not_expands {k : Nat} (h : AtLevel maxDepth depth k)
    (hdepth : atMaxDepth maxDepth (saturatingSucc depth) = true) :
    ¬Expands maxDepth (k + 1) := by
  intro hexpands
  cases maxDepth with
  | none => cases hdepth
  | some d =>
    have hle : d ≤ saturatingSucc depth := of_decide_eq_true hdepth
    rw [UInt64.le_iff_toNat_le, saturatingSucc_toNat h rfl] at hle
    exact absurd (hexpands d rfl) (Nat.not_lt.mpr hle)

/-- All references of an object of the tree above the limit are seen. -/
theorem Collects.closed (h : Collects space maxDepth id depth raw w w' nodes) {k : Nat}
    (hk : AtLevel maxDepth depth k) : ∀ p ∈ forestLevels (k + 1) nodes,
      p.2.nodeClass = .object → Expands maxDepth p.1 →
        ∀ b, space.Refers p.2.nodeId b → b ∈ w'.seen := by
  induction h generalizing k with
  | nil => exact fun _ hp => absurd hp List.not_mem_nil
  | seen hseen hrest ih => exact ih hk
  | leaf hlists hnew hclass hrest ih =>
    rw [forestLevels, levels_of_leaf hlists.children]
    exact List.forall_mem_cons.mpr ⟨fun hobject => absurd hobject hclass, ih hk⟩
  | cut hlists hnew hclass hdepth hrest ih =>
    rw [forestLevels, levels_of_leaf hlists.children]
    exact List.forall_mem_cons.mpr
      ⟨fun _ hexpands => absurd hexpands (hk.not_expands hdepth), ih hk⟩
  | browsed hlists hnew hclass hdepth hbrowse hinner hrest ihinner ihrest =>
    rw [forestLevels, levels_extend hlists.children, List.cons_append]
    refine List.forall_mem_cons.mpr ⟨?_, List.forall_mem_append.mpr ⟨?_, ihrest hk⟩⟩
    · rintro - - b ⟨node', ⟨raw', hraw', hmem⟩, rfl⟩
      obtain rfl := Except.ok.inj (hbrowse.symm.trans hraw')
      exact hrest.seen_subset (hinner.mem_seen node' hmem)
    · intro p hp hobject hexpands b hb
      exact hrest.seen_subset (ihinner (hk.succ hdepth) p hp hobject hexpands b hb)

/-- The way to a node of the tree: through objects, as long as its level, and without a node
twice. -/
def OnPath (space : AddressSpace ε) (root : OpcUaNodeId) (maxDepth : Option UInt64)
    (p : Nat × OpcUaNode) : Prop :=
  ∃ us, Path space.Refers space.IsObject root (p.2.nodeId :: us) ∧ us.length = p.1 ∧
    (p.2.nodeId :: us).Nodup ∧ ∀ d, maxDepth = some d → p.1 ≤ d.toNat

/-- A new reference of a node the path leads to. -/
theorem onPath_of_lists (hlists : space.Lists id node) (hnew : node.nodeId ∉ w.seen)
    {us : List OpcUaNodeId} (hpath : Path space.Refers space.IsObject root (id :: us))
    (hpass : us = [] ∨ space.IsObject id) (hnodup : (id :: us).Nodup)
    (hseen : id :: us ⊆ w.seen) (hk : AtLevel maxDepth depth us.length) :
    OnPath space root maxDepth (us.length + 1, node) :=
  ⟨id :: us, hpath.step hpass ⟨node, hlists, rfl⟩, List.length_cons,
    List.nodup_cons.mpr ⟨fun h => hnew (hseen h), hnodup⟩, hk.expands⟩

theorem Collects.onPath (h : Collects space maxDepth id depth raw w w' nodes)
    {us : List OpcUaNodeId} (hpath : Path space.Refers space.IsObject root (id :: us))
    (hpass : us = [] ∨ space.IsObject id) (hnodup : (id :: us).Nodup)
    (hseen : id :: us ⊆ w.seen) (hk : AtLevel maxDepth depth us.length) :
    ∀ p ∈ forestLevels (us.length + 1) nodes, OnPath space root maxDepth p := by
  induction h generalizing us with
  | nil => exact fun _ hp => absurd hp List.not_mem_nil
  | seen _ hrest ih => exact ih hpath hpass hnodup hseen hk
  | leaf hlists hnew hclass hrest ih =>
    rw [forestLevels, levels_of_leaf hlists.children]
    exact List.forall_mem_cons.mpr ⟨onPath_of_lists hlists hnew hpath hpass hnodup hseen hk,
      ih hpath hpass hnodup (List.subset_append_of_subset_left _ hseen) hk⟩
  | cut hlists hnew hclass hdepth hrest ih =>
    rw [forestLevels, levels_of_leaf hlists.children]
    exact List.forall_mem_cons.mpr ⟨onPath_of_lists hlists hnew hpath hpass hnodup hseen hk,
      ih hpath hpass hnodup (List.subset_append_of_subset_left _ hseen) hk⟩
  | @browsed id _ node _ _ w v _ _ _ hlists hnew hclass hdepth hbrowse hinner hrest ihinner ihrest =>
    have hinsert : id :: us ⊆ (w.insert node.nodeId).seen :=
      List.subset_append_of_subset_left _ hseen
    rw [forestLevels, levels_extend hlists.children, List.cons_append]
    refine List.forall_mem_cons.mpr
      ⟨onPath_of_lists hlists hnew hpath hpass hnodup hseen hk, List.forall_mem_append.mpr ⟨?_, ?_⟩⟩
    · refine ihinner (hpath.step hpass ⟨node, hlists, rfl⟩)
        (.inr (hlists.nodeClass.symm.trans hclass))
        (List.nodup_cons.mpr ⟨fun h => hnew (hseen h), hnodup⟩) ?_ (hk.succ hdepth)
      exact List.cons_subset.mpr ⟨by simp, hinsert⟩
    · exact ihrest hpath hpass hnodup (fun i hi => hinner.seen_subset (hinsert hi)) hk

end Tree

/-! ## Whole browses -/

/-- What the tree of a browse has to do with the graph. -/
structure TreeOf (space : AddressSpace ε) (root : OpcUaNodeId) (maxDepth : Option UInt64)
    (nodes : List OpcUaNode) : Prop where
  shaped : ∀ p ∈ forestLevels 1 nodes, Shaped space p.2
  onPath : ∀ p ∈ forestLevels 1 nodes, OnPath space root maxDepth p
  closed : ∀ p ∈ forestLevels 1 nodes, p.2.nodeClass = .object → Expands maxDepth p.1 →
    ∀ b, space.Refers p.2.nodeId b → b = root ∨ b ∈ nodeIds nodes
  closed_root : Expands maxDepth 0 → ∀ b, space.Refers root b → b = root ∨ b ∈ nodeIds nodes

theorem treeOf_browseAll {fuel : Nat} {w : Walk} {nodes : List OpcUaNode}
    (h : browseAll space fuel root maxDepth = some (w, .ok nodes)) :
    w.seen = root :: nodeIds nodes ∧ TreeOf space root maxDepth nodes := by
  cases browses_of_browseRecursive h with
  | cut hdepth =>
    refine ⟨rfl, nofun, nofun, nofun, fun hexpands => ?_⟩
    cases maxDepth with
    | none => cases hdepth
    | some d =>
      have hle : d ≤ 0 := of_decide_eq_true hdepth
      exact absurd (hexpands d rfl) (Nat.not_lt.mpr (UInt64.le_iff_toNat_le.mp hle))
  | @browsed raw _ _ hdepth hbrowse hcollects =>
    have hseen : w.seen = root :: nodeIds nodes := hcollects.seen_eq 1
    have hlevel : AtLevel maxDepth 0 0 := atLevel_zero hdepth
    refine ⟨hseen, hcollects.shaped 1, ?_, ?_, ?_⟩
    · exact hcollects.onPath .root (.inl rfl) (List.nodup_singleton root)
        (List.Subset.refl _) hlevel
    · intro p hp hobject hexpands b hb
      have hmem := hcollects.closed hlevel p hp hobject hexpands b hb
      rwa [hseen, List.mem_cons] at hmem
    · rintro - b ⟨node, ⟨raw', hraw', hmem⟩, rfl⟩
      obtain rfl := Except.ok.inj (hbrowse.symm.trans hraw')
      have hmem := hcollects.mem_seen node hmem
      rwa [hseen, List.mem_cons] at hmem

section Graph

variable {nodes : List OpcUaNode} {id : OpcUaNodeId}

theorem mem_nodeIds : id ∈ nodeIds nodes ↔ ∃ p ∈ forestLevels 1 nodes, p.2.nodeId = id :=
  List.mem_map

/-- A tree holds the end of every path, if the objects on the way are browsed. -/
theorem TreeOf.mem_of_path (h : TreeOf space root maxDepth nodes) {n : Nat}
    (hroot : 0 < n → Expands maxDepth 0)
    (hexpands : ∀ p ∈ forestLevels 1 nodes, space.IsObject p.2.nodeId →
      ∀ us, Path space.Refers space.IsObject root (p.2.nodeId :: us) → us.length < n →
        Expands maxDepth p.1)
    {us : List OpcUaNodeId} (hpath : Path space.Refers space.IsObject root (id :: us))
    (hlength : us.length ≤ n) : id = root ∨ id ∈ nodeIds nodes := by
  refine hpath.mem_of_closed (S := {id | id = root ∨ id ∈ nodeIds nodes}) (.inl rfl) ?_
    (Nat.succ_le_succ hlength) id rfl
  rintro u us hpath hlt hu hpass v hrefers
  have hpositive : 0 < n := by omega
  rcases hu with rfl | hu
  · exact h.closed_root (hroot hpositive) v hrefers
  · obtain ⟨p, hp, rfl⟩ := mem_nodeIds.mp hu
    rcases hpass with rfl | hobject
    · cases hpath
      exact h.closed_root (hroot hpositive) v hrefers
    · exact h.closed p hp ((h.shaped p hp).1.trans hobject)
        (hexpands p hp hobject us hpath hlt) v hrefers

end Graph

/-- **A browse ends on every graph.** No node is browsed twice, and the tree lists each id once, the
root not, and children below objects only. Without a limit it lists what can be reached. -/
theorem browseAll_graph (space : AddressSpace ε) (root : OpcUaNodeId)
    (maxDepth : Option UInt64) :
    ∃ w result, (∀ fuel, space.ids.length < fuel →
        browseAll space fuel root maxDepth = some (w, result)) ∧ w.calls.Nodup ∧
      ((∀ id, ∃ raw, space.browseNode id = .ok raw) → ∃ nodes, result = .ok nodes) ∧
      ∀ nodes, result = .ok nodes →
        (nodeIds nodes).Nodup ∧ root ∉ nodeIds nodes ∧
        (∀ p ∈ forestLevels 1 nodes, p.2.nodeClass ≠ .object → p.2.children = []) ∧
        (maxDepth = none → ∀ id, id ∈ nodeIds nodes ↔
          id ≠ root ∧ ∃ us, Path space.Refers space.IsObject root (id :: us)) := by
  obtain ⟨w, result, hw, honce, hok⟩ := browseAll_returns space root maxDepth
  refine ⟨w, result, hw, honce.calls, hok, ?_⟩
  rintro nodes rfl
  obtain ⟨hseen, htree⟩ := treeOf_browseAll (hw _ (Nat.lt_succ_self _))
  have hnodup : (root :: nodeIds nodes).Nodup := hseen ▸ honce.seen
  obtain ⟨hroot, hids⟩ := List.nodup_cons.mp hnodup
  refine ⟨hids, hroot, fun p hp => (htree.shaped p hp).2, ?_⟩
  rintro rfl id
  constructor
  · intro hid
    obtain ⟨p, hp, rfl⟩ := mem_nodeIds.mp hid
    obtain ⟨us, hpath, -⟩ := htree.onPath p hp
    exact ⟨fun heq => hroot (heq ▸ hid), us, hpath⟩
  · rintro ⟨hne, us, hpath⟩
    have hmem := htree.mem_of_path (fun _ => nofun) (fun _ _ _ _ _ _ => nofun) hpath le_rfl
    exact hmem.resolve_left hne

end Instro.Opcua
