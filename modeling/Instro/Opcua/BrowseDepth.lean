import Instro.Opcua.BrowseTree

/-!
# Browsing to a depth

The first reference wins, also where it is the longer way: an object that is first met at the depth
limit is not browsed, and what only a shorter way to it would still have reached is left out.
-/

namespace Instro.Opcua

open Instro.Library

variable {ε : Type}

/-- There is a way of at most `d` references to the node, through objects. -/
def Within (space : AddressSpace ε) (root : OpcUaNodeId) (d : Nat) (id : OpcUaNodeId) : Prop :=
  ∃ us, Path space.Refers space.IsObject root (id :: us) ∧ us.length ≤ d

/-- No object that can be reached in fewer than `d` references ends a way of exactly `d` references
that meets no node twice. -/
def NoLateObject (space : AddressSpace ε) (root : OpcUaNodeId) (d : Nat) : Prop :=
  ∀ id, space.IsObject id → ∀ us, Path space.Refers space.IsObject root (id :: us) →
    us.length < d → ∀ vs, Path space.Refers space.IsObject root (id :: vs) →
      vs.length = d → ¬(id :: vs).Nodup

/-- **A browse to a depth lists only nodes within the depth**, each once and the root not, with all
references of the objects it lists above the limit; if no object is met late, it lists all of
them. -/
theorem browseAll_depth (space : AddressSpace ε)
    (hok : ∀ id, ∃ raw, space.browseNode id = .ok raw) (root : OpcUaNodeId) (d : UInt64) :
    ∃ w nodes, (∀ fuel, space.ids.length < fuel →
        browseAll space fuel root (some d) = some (w, .ok nodes)) ∧
      (nodeIds nodes).Nodup ∧
      (∀ id ∈ nodeIds nodes, id ≠ root ∧ Within space root d.toNat id) ∧
      (∀ p ∈ forestLevels 1 nodes, p.2.nodeClass = .object → p.1 < d.toNat →
        ∀ b, space.Refers p.2.nodeId b → b = root ∨ b ∈ nodeIds nodes) ∧
      (NoLateObject space root d.toNat →
        ∀ id, id ∈ nodeIds nodes ↔ id ≠ root ∧ Within space root d.toNat id) := by
  obtain ⟨w, result, hw, honce, hnodes⟩ := browseAll_returns space root (some d)
  obtain ⟨nodes, rfl⟩ := hnodes hok
  obtain ⟨hseen, htree⟩ := treeOf_browseAll (hw _ (Nat.lt_succ_self _))
  have hnodup : (root :: nodeIds nodes).Nodup := hseen ▸ honce.seen
  obtain ⟨hroot, hids⟩ := List.nodup_cons.mp hnodup
  have hsound : ∀ id ∈ nodeIds nodes, id ≠ root ∧ Within space root d.toNat id := by
    intro id hid
    obtain ⟨p, hp, rfl⟩ := mem_nodeIds.mp hid
    obtain ⟨us, hpath, hlength, -, hlimit⟩ := htree.onPath p hp
    exact ⟨fun heq => hroot (heq ▸ hid), us, hpath, hlength.trans_le (hlimit d rfl)⟩
  refine ⟨w, nodes, hw, hids, hsound, ?_, ?_⟩
  · intro p hp hobject hlevel b hb
    refine htree.closed p hp hobject ?_ b hb
    rintro _ ⟨⟩
    exact hlevel
  · intro hlate id
    refine ⟨hsound id, ?_⟩
    rintro ⟨hne, us, hpath, hlength⟩
    refine (htree.mem_of_path ?_ ?_ hpath hlength).resolve_left hne
    · rintro hpositive _ ⟨⟩
      exact hpositive
    · rintro p hp hobject us hpath hlt _ ⟨⟩
      -- An object at the limit is met late: the tree has a way of `d` references to it.
      obtain ⟨vs, hway, hlevel, hsimple, hlimit⟩ := htree.onPath p hp
      refine lt_of_le_of_ne (hlimit d rfl) fun heq => ?_
      exact hlate p.2.nodeId hobject us hpath hlt vs hway (hlevel.trans heq) hsimple

/-! ## A late object -/

def nid (n : UInt32) : OpcUaNodeId := ⟨0, .numeric n⟩

def obj (n : UInt32) : OpcUaNode := ⟨nid n, "", "", .object, []⟩

/-- Objects, each with the objects it refers to. -/
def objects (refs : List (UInt32 × List UInt32)) : AddressSpace Empty where
  browseNode id := .ok (((refs.filter fun ref => nid ref.1 = id).flatMap (·.2)).map obj)
  nodeClass _ := .object
  ids := (refs.flatMap (·.2)).map nid
  mem_ids := by
    rintro id _ ⟨⟩ node hnode
    obtain ⟨n, hn, rfl⟩ := List.mem_map.mp hnode
    obtain ⟨ref, href, hn⟩ := List.mem_flatMap.mp hn
    exact List.mem_map_of_mem (List.mem_flatMap.mpr ⟨ref, (List.mem_filter.mp href).1, hn⟩)
  nodeClass_eq := by
    rintro id _ ⟨⟩ node hnode
    obtain ⟨n, -, rfl⟩ := List.mem_map.mp hnode
    rfl
  children_eq := by
    rintro id _ ⟨⟩ node hnode
    obtain ⟨n, -, rfl⟩ := List.mem_map.mp hnode
    rfl

/-- The browse meets 2 by way of 1, at the limit. -/
def shortcut : AddressSpace Empty := objects [(0, [1, 2]), (1, [2]), (2, [3])]

theorem shortcut_way : Path shortcut.Refers shortcut.IsObject (nid 0) [nid 3, nid 2, nid 0] := by
  refine .step (.step .root (.inl rfl) ⟨obj 2, ⟨_, rfl, ?_⟩, rfl⟩) (.inr rfl)
    ⟨obj 3, ⟨_, rfl, ?_⟩, rfl⟩
  · exact List.mem_cons_of_mem _ (List.mem_singleton_self _)
  · exact List.mem_singleton_self _

theorem browseAll_misses_shortcut :
    ¬∀ (space : AddressSpace Empty), (∀ id, ∃ raw, space.browseNode id = .ok raw) →
      ∀ (root : OpcUaNodeId) (d : UInt64), ∃ w nodes,
        (∀ fuel, space.ids.length < fuel →
          browseAll space fuel root (some d) = some (w, .ok nodes)) ∧ (nodeIds nodes).Nodup ∧
        ∀ id, id ∈ nodeIds nodes ↔ id ≠ root ∧ Within space root d.toNat id := by
  intro hall
  obtain ⟨w, nodes, hbrowse, -, hids⟩ := hall shortcut (fun _ => ⟨_, rfl⟩) (nid 0) 2
  have hlisted : (browseAll shortcut 5 (nid 0) (some 2)).map (·.2.map nodeIds) =
      some (.ok [nid 1, nid 2]) := rfl
  rw [hbrowse 5 (by decide)] at hlisted
  have hnodes : nodeIds nodes = [nid 1, nid 2] := Except.ok.inj (Option.some.inj hlisted)
  have hfound : nid 3 ∈ nodeIds nodes :=
    (hids (nid 3)).mpr ⟨by decide, _, shortcut_way, le_rfl⟩
  rw [hnodes] at hfound
  revert hfound
  decide

/-- No object is late at depth 1: only the root is nearer. -/
theorem noLateObject_one (space : AddressSpace ε) (root : OpcUaNodeId) :
    NoLateObject space root 1 := by
  rintro id - us hpath hlt vs hway hlength hnodup
  obtain rfl : us = [] := List.eq_nil_of_length_eq_zero (by omega)
  obtain ⟨v, rfl⟩ := List.length_eq_one_iff.mp hlength
  cases hpath
  cases hway with
  | step h => cases h with
    | root => simp at hnodup

/-- Objects 0 to 2 in a row. -/
theorem browseAll_depth_row : ∃ w nodes,
    browseAll (objects [(0, [1]), (1, [2])]) 3 (nid 0) (some 1) = some (w, .ok nodes) ∧
      ∀ id, id ∈ nodeIds nodes ↔
        id ≠ nid 0 ∧ Within (objects [(0, [1]), (1, [2])]) (nid 0) 1 id := by
  obtain ⟨w, nodes, hbrowse, -, -, -, hall⟩ :=
    browseAll_depth (objects [(0, [1]), (1, [2])]) (fun _ => ⟨_, rfl⟩) (nid 0) 1
  exact ⟨w, nodes, hbrowse 3 (by decide), hall (noLateObject_one _ _)⟩

end Instro.Opcua
