import Instro.Opcua.SubscriptionLoop

/-!
# Which nodes a tick polls

The batch read of a tick should ask for the nodes that did not notify since the tick before. The
three handlers change the quiet set as follows: a chunk takes its nodes out (`mem_quiet_chunk`), a
tick puts all nodes back (`quiet_tick_of_reset`), except that the `continue` after a failed read
keeps the set as it is (`quiet_tick_of_failed`). So a node that notified before a failed read stays
out of the next batch as well, and `pollsQuietNodes_iff` says that this is the only way the batch
can be wrong.
-/

namespace Instro.Opcua

open Instro.Library

variable {V : Type}

/-- The node is one of the nodes the loop was started with. -/
def Monitored (nodes : List OpcUaNode) (id : OpcUaNodeId) : Prop := ∃ n ∈ nodes, n.nodeId = id

def Wake.isTick : Wake V → Bool
  | .tick _ => true
  | .chunk _ => false
  | .streamEnd _ => false

/-- The ids notified since the last tick, given those notified before this wake. -/
def noteWake (notified : List OpcUaNodeId) : Wake V → List OpcUaNodeId
  | .tick _ => []
  | .chunk items => notified ++ items.map Prod.fst
  | .streamEnd _ => notified

/-- The ids of the notifications processed since the last tick, or since the start. -/
def notifiedSinceTick (ws : List (Wake V)) : List OpcUaNodeId := ws.foldl noteWake []

/-- The ids the batch read of a tick asks for. -/
def batchAt (nodes : List OpcUaNode) (st : LoopState V) (t : Tick V) : List OpcUaNodeId :=
  requested ((subscriptionLoop (collectNodes nodes)).step st (.tick t)).1

/-- Every tick of the run polls exactly the monitored nodes that were quiet in its interval, each
once. -/
def PollsQuietNodes (nodes : List OpcUaNode) (ws : List (Wake V)) : Prop :=
  ∀ pre t post st, ws = pre ++ .tick t :: post → stateAfter nodes pre = some st →
    t.isAlive = true → (batchAt nodes st t).Nodup ∧
      ∀ id, id ∈ batchAt nodes st t ↔ Monitored nodes id ∧ id ∉ notifiedSinceTick pre

/-- Whenever the batch read of a tick fails, every monitored node that notified in the interval
before that tick notifies again before the next tick. -/
def FailuresCovered (nodes : List OpcUaNode) (ws : List (Wake V)) : Prop :=
  ∀ pre t e mid t' post, ws = pre ++ .tick t :: (mid ++ .tick t' :: post) →
    (∀ w ∈ pre ++ .tick t :: mid, w.staysIn = true) → t'.isAlive = true →
    (∀ w ∈ mid, w.isTick = false) → t.reads = .error e →
    (∃ id, Monitored nodes id ∧ id ∉ notifiedSinceTick pre) →
    ∀ id, Monitored nodes id → id ∈ notifiedSinceTick pre → id ∈ notifiedSinceTick mid

/-! ## Notified ids -/

theorem notifiedSinceTick_snoc (ws : List (Wake V)) (w : Wake V) :
    notifiedSinceTick (ws ++ [w]) = noteWake (notifiedSinceTick ws) w := by
  unfold notifiedSinceTick
  rw [List.foldl_append]
  rfl

theorem notifiedSinceTick_tick (pre : List (Wake V)) (t : Tick V) (mid : List (Wake V)) :
    notifiedSinceTick (pre ++ .tick t :: mid) = notifiedSinceTick mid := by
  unfold notifiedSinceTick
  rw [List.foldl_append, List.foldl_cons]
  rfl

/-! ## The quiet set after one wake -/

section Quiet

variable {allNodes : NodeMap} {st : LoopState V} {id : OpcUaNodeId}

theorem mem_quiet_handleChunk (items : List (OpcUaNodeId × OpcUaDataPoint V)) :
    id ∈ (handleChunk st items).2.quietNodes ↔ id ∈ st.quietNodes ∧ id ∉ items.map Prod.fst := by
  induction items generalizing st with
  | nil => simp [handleChunk]
  | cons item items ih =>
    show id ∈ (handleChunk (notify st item.1) items).2.quietNodes ↔ _
    rw [ih, List.map_cons, List.mem_cons, not_or]
    show id ∈ st.quietNodes.remove item.1 ∧ _ ↔ _
    rw [KeyedTable.mem_remove]
    tauto

theorem quiet_tick_of_failed (allNodes : NodeMap) {t : Tick V} {e : String}
    (hq : id ∈ st.quietNodes) (he : t.reads = .error e) :
    (handleTick allNodes st t).2.quietNodes = st.quietNodes := by
  have hne : ¬ st.quietNodes.isEmpty = true := fun h => KeyedTable.isEmpty_iff.mp h id hq
  unfold handleTick
  rw [if_neg hne, he]

theorem quiet_tick_of_reset (allNodes : NodeMap) {t : Tick V}
    (h : (∀ id, id ∉ st.quietNodes) ∨ ∃ reads, t.reads = .ok reads) :
    (handleTick allNodes st t).2.quietNodes = allNodes := by
  unfold handleTick
  by_cases hq : st.quietNodes.isEmpty = true
  · rw [if_pos hq]
  · rw [if_neg hq]
    rcases h with h | ⟨reads, h⟩
    · exact absurd (KeyedTable.isEmpty_iff.mpr h) hq
    · rw [h]

theorem requested_handleTick (t : Tick V) :
    requested (handleTick allNodes st t).1 =
      if st.quietNodes.isEmpty then [] else (st.quietNodes.walk t.valuesOrder).map (·.nodeId) := by
  unfold handleTick
  by_cases hq : st.quietNodes.isEmpty = true
  · rw [if_pos hq, if_pos hq]
    rfl
  · rw [if_neg hq, if_neg hq]
    cases t.reads <;> simp [requested]

theorem batchAt_eq {nodes : List OpcUaNode} {t : Tick V} (h : t.isAlive = true) :
    batchAt nodes st t =
      if st.quietNodes.isEmpty then [] else (st.quietNodes.walk t.valuesOrder).map (·.nodeId) := by
  unfold batchAt
  rw [step_tick_alive h, requested_handleTick]

/-- A live tick asks for the quiet set. -/
theorem mem_batchAt {nodes : List OpcUaNode} {t : Tick V} (h : t.isAlive = true) :
    id ∈ batchAt nodes st t ↔ id ∈ st.quietNodes := by
  rw [batchAt_eq h]
  by_cases hq : st.quietNodes.isEmpty = true
  · rw [if_pos hq]
    exact iff_of_false List.not_mem_nil (KeyedTable.isEmpty_iff.mp hq id)
  · rw [if_neg hq]
    exact KeyedTable.mem_walk_map_key

theorem nodup_batchAt {nodes : List OpcUaNode} {t : Tick V} (h : t.isAlive = true) :
    (batchAt nodes st t).Nodup := by
  rw [batchAt_eq h]
  split_ifs
  · exact List.nodup_nil
  · exact KeyedTable.nodup_walk_map_key

end Quiet

/-! ## Runs -/

section Runs

variable {nodes : List OpcUaNode} {id : OpcUaNodeId}

theorem stateAfter_snoc {ws : List (Wake V)} {w : Wake V} {st' : LoopState V}
    (h : stateAfter nodes (ws ++ [w]) = some st') :
    ∃ st, stateAfter nodes ws = some st ∧
      ((subscriptionLoop (collectNodes nodes)).step st w).2 = some st' := by
  unfold stateAfter at h ⊢
  rw [EventLoop.stateAfter_append] at h
  obtain ⟨st, hst, h⟩ := Option.bind_eq_some_iff.mp h
  rw [EventLoop.stateAfter_cons] at h
  obtain ⟨st'', h'', h⟩ := Option.bind_eq_some_iff.mp h
  obtain rfl : st'' = st' := Option.some.inj h
  exact ⟨st, hst, h''⟩

/-- Wakes that are no ticks only take nodes out of the quiet set. -/
theorem quiet_subset_of_no_tick {pre mid : List (Wake V)} {st st' : LoopState V}
    (hpre : stateAfter nodes pre = some st) (hmid : ∀ w ∈ mid, w.isTick = false)
    (h : stateAfter nodes (pre ++ mid) = some st') (hid : id ∈ st'.quietNodes) :
    id ∈ st.quietNodes := by
  induction mid using List.reverseRecOn generalizing st' with
  | nil =>
    rw [List.append_nil, hpre] at h
    exact Option.some.inj h ▸ hid
  | append_singleton mid w ih =>
    rw [← List.append_assoc] at h
    obtain ⟨s, hs, hstep⟩ := stateAfter_snoc h
    refine ih (fun w hw => hmid w (List.mem_append_left _ hw)) hs ?_
    have hw := hmid w (List.mem_append_right _ List.mem_cons_self)
    cases w with
    | tick t => cases hw
    | chunk items =>
      rw [step_chunk] at hstep
      obtain rfl := Option.some.inj hstep
      exact ((mem_quiet_handleChunk items).mp hid).1
    | streamEnd o =>
      rw [step_streamEnd] at hstep
      cases hstep

/-- The node was taken out before a failed read and has not been put back since. -/
def LeftOut (nodes : List OpcUaNode) (ws : List (Wake V)) (id : OpcUaNodeId) : Prop :=
  ∃ pre t e mid, ws = pre ++ .tick t :: mid ∧ (∀ w ∈ mid, w.isTick = false) ∧
    t.reads = .error e ∧ (∃ q, Monitored nodes q ∧ q ∉ notifiedSinceTick pre) ∧
    id ∈ notifiedSinceTick pre

theorem LeftOut.snoc {ws : List (Wake V)} {w : Wake V} (hw : w.isTick = false)
    (h : LeftOut nodes ws id) : LeftOut nodes (ws ++ [w]) id := by
  obtain ⟨pre, t, e, mid, rfl, hmid, he, hq, hid⟩ := h
  refine ⟨pre, t, e, mid ++ [w], by simp, ?_, he, hq, hid⟩
  intro v hv
  rcases List.mem_append.mp hv with hv | hv
  · exact hmid v hv
  · rw [List.mem_singleton.mp hv]
    exact hw

/-- The quiet set lies between the nodes that should be in it and those without the left out. -/
structure QuietSet (nodes : List OpcUaNode) (ws : List (Wake V)) (st : LoopState V) : Prop where
  sound : ∀ id, id ∈ st.quietNodes → Monitored nodes id ∧ id ∉ notifiedSinceTick ws
  complete : ∀ id, Monitored nodes id → id ∉ notifiedSinceTick ws →
    id ∈ st.quietNodes ∨ LeftOut nodes ws id

theorem QuietSet.init : QuietSet nodes ([] : List (Wake V)) (.init (collectNodes nodes)) where
  sound _ h := ⟨mem_collectNodes.mp h, List.not_mem_nil⟩
  complete _ h _ := .inl (mem_collectNodes.mpr h)

theorem QuietSet.chunk {ws : List (Wake V)} {st : LoopState V} (h : QuietSet nodes ws st)
    (items : List (OpcUaNodeId × OpcUaDataPoint V)) :
    QuietSet nodes (ws ++ [.chunk items]) (handleChunk st items).2 where
  sound id hid := by
    obtain ⟨hq, hn⟩ := (mem_quiet_handleChunk items).mp hid
    obtain ⟨hm, hw⟩ := h.sound id hq
    rw [notifiedSinceTick_snoc]
    exact ⟨hm, fun hmem => (List.mem_append.mp hmem).elim hw hn⟩
  complete id hm hn := by
    rw [notifiedSinceTick_snoc] at hn
    obtain ⟨hw, hi⟩ := not_or.mp (mt List.mem_append.mpr hn)
    rcases h.complete id hm hw with hq | hl
    · exact .inl ((mem_quiet_handleChunk items).mpr ⟨hq, hi⟩)
    · exact .inr (hl.snoc rfl)

/-- A tick at which the quiet set is exact leaves it between its bounds again. -/
theorem QuietSet.tick {ws : List (Wake V)} {st : LoopState V} {t : Tick V}
    (hex : ∀ id, id ∈ st.quietNodes ↔ Monitored nodes id ∧ id ∉ notifiedSinceTick ws) :
    QuietSet nodes (ws ++ [.tick t]) (handleTick (collectNodes nodes) st t).2 := by
  have hnil : notifiedSinceTick (ws ++ [.tick t]) = [] := notifiedSinceTick_snoc ws _
  by_cases hreset : (∀ id, id ∉ st.quietNodes) ∨ ∃ reads, t.reads = .ok reads
  · have hq := quiet_tick_of_reset (collectNodes nodes) hreset
    refine ⟨fun id hid => ⟨?_, hnil ▸ List.not_mem_nil⟩, fun id hm _ => .inl ?_⟩
    · exact mem_collectNodes.mp (hq ▸ hid)
    · rw [hq]
      exact mem_collectNodes.mpr hm
  · -- the read was issued and failed: what is missing now is what had notified before the tick
    rw [not_or, not_forall] at hreset
    obtain ⟨⟨q, hq⟩, hread⟩ := hreset
    have hq : q ∈ st.quietNodes := not_not.mp hq
    obtain ⟨e, he⟩ : ∃ e, t.reads = .error e := by
      cases h : t.reads with
      | error e => exact ⟨e, rfl⟩
      | ok reads => exact absurd ⟨reads, h⟩ hread
    have hkeep := quiet_tick_of_failed (collectNodes nodes) hq he
    refine ⟨fun id hid => ⟨?_, hnil ▸ List.not_mem_nil⟩, fun id hm _ => ?_⟩
    · exact ((hex id).mp (hkeep ▸ hid)).1
    · by_cases hid : id ∈ st.quietNodes
      · exact .inl (hkeep ▸ hid)
      · refine .inr ⟨ws, t, e, [], rfl, by simp, he, ⟨q, (hex q).mp hq⟩, ?_⟩
        by_contra hn
        exact hid ((hex id).mpr ⟨hm, hn⟩)

/-- Covered failures make the quiet set exact at the next live tick. -/
theorem QuietSet.exact {ws pre post : List (Wake V)} {st : LoopState V} {t : Tick V}
    (hcov : FailuresCovered nodes ws) (hws : ws = pre ++ .tick t :: post)
    (hst : stateAfter nodes pre = some st) (ht : t.isAlive = true)
    (h : QuietSet nodes pre st) (id : OpcUaNodeId) :
    id ∈ st.quietNodes ↔ Monitored nodes id ∧ id ∉ notifiedSinceTick pre := by
  refine ⟨h.sound id, fun ⟨hm, hn⟩ => (h.complete id hm hn).resolve_right ?_⟩
  rintro ⟨p, t₀, e, mid, rfl, hmid, he, hq, hid⟩
  have hstay := (stateAfter_isSome_iff nodes).mp (Option.isSome_iff_exists.mpr ⟨st, hst⟩)
  have hagain := hcov p t₀ e mid t post (by rw [hws]; simp) hstay ht hmid he hq id hm hid
  rw [notifiedSinceTick_tick] at hn
  exact hn hagain

theorem quietSet_of_covered {ws : List (Wake V)} (hcov : FailuresCovered nodes ws) :
    ∀ (pre post : List (Wake V)) (st : LoopState V), ws = pre ++ post →
      stateAfter nodes pre = some st → QuietSet nodes pre st := by
  intro pre
  induction pre using List.reverseRecOn with
  | nil =>
    intro post st _ hst
    obtain rfl : LoopState.init (collectNodes nodes) = st := Option.some.inj hst
    exact .init
  | append_singleton pre w ih =>
    intro post st' hws hst'
    rw [List.append_assoc, List.singleton_append] at hws
    obtain ⟨st, hst, hstep⟩ := stateAfter_snoc hst'
    have hset := ih (w :: post) st hws hst
    cases w with
    | tick t =>
      cases ht : t.isAlive
      · rw [step_tick_dropped ht] at hstep
        cases hstep
      · rw [step_tick_alive ht] at hstep
        obtain rfl := Option.some.inj hstep
        exact .tick fun id => hset.exact hcov hws hst ht id
    | chunk items =>
      rw [step_chunk] at hstep
      obtain rfl := Option.some.inj hstep
      exact hset.chunk items
    | streamEnd o =>
      rw [step_streamEnd] at hstep
      cases hstep

theorem pollsQuietNodes_of_covered {ws : List (Wake V)} (hcov : FailuresCovered nodes ws) :
    PollsQuietNodes nodes ws := by
  intro pre t post st hws hst ht
  have hset := quietSet_of_covered hcov pre (.tick t :: post) st hws hst
  refine ⟨nodup_batchAt ht, fun id => ?_⟩
  rw [mem_batchAt ht]
  exact hset.exact hcov hws hst ht id

theorem covered_of_pollsQuietNodes {ws : List (Wake V)} (h : PollsQuietNodes nodes ws) :
    FailuresCovered nodes ws := by
  intro pre t e mid t' post hws hstay ht' hmid he hq id hm hid
  obtain ⟨st', hst'⟩ := Option.isSome_iff_exists.mp ((stateAfter_isSome_iff nodes).mpr hstay)
  have hpre : ∀ w ∈ pre, w.staysIn = true := fun w hw => hstay w (List.mem_append_left _ hw)
  obtain ⟨st, hst⟩ := Option.isSome_iff_exists.mp ((stateAfter_isSome_iff nodes).mpr hpre)
  have ht : t.isAlive = true := hstay (.tick t) (List.mem_append_right _ List.mem_cons_self)
  have hex : ∀ id, id ∈ st.quietNodes ↔ Monitored nodes id ∧ id ∉ notifiedSinceTick pre :=
    fun id => (mem_batchAt ht).symm.trans ((h pre t _ st hws hst ht).2 id)
  -- the failed read keeps the set of `st`, from which `id` is missing
  have htick : stateAfter nodes (pre ++ [.tick t]) =
      some (handleTick (collectNodes nodes) st t).2 := by
    unfold stateAfter at hst ⊢
    rw [EventLoop.stateAfter_append, hst, Option.bind_some, EventLoop.stateAfter_cons,
      step_tick_alive ht, Option.bind_some, EventLoop.stateAfter_nil]
  obtain ⟨q, hqm, hqn⟩ := hq
  have hkeep := quiet_tick_of_failed (collectNodes nodes)
    ((hex q).mpr ⟨hqm, hqn⟩) he
  by_contra hn
  have hlate := h (pre ++ .tick t :: mid) t' post st' (by rw [hws]; simp) hst' ht'
  have hmem : id ∈ st'.quietNodes := by
    rw [← mem_batchAt ht', hlate.2, notifiedSinceTick_tick]
    exact ⟨hm, hn⟩
  rw [show pre ++ Wake.tick t :: mid = pre ++ [.tick t] ++ mid by simp] at hst'
  have hback := quiet_subset_of_no_tick htick hmid hst' hmem
  rw [hkeep, hex] at hback
  exact hback.2 hid

/-- **Polling set.** Every tick of a run polls exactly the nodes that were quiet in its interval if
and only if after every failed read the nodes that had notified before it notify again before the
next tick. -/
theorem pollsQuietNodes_iff (nodes : List OpcUaNode) (ws : List (Wake V)) :
    PollsQuietNodes nodes ws ↔ FailuresCovered nodes ws :=
  ⟨covered_of_pollsQuietNodes, pollsQuietNodes_of_covered⟩

/-- A node of namespace 1. -/
def sampleNode (i : UInt32) : OpcUaNode := ⟨⟨1, .numeric i⟩, "", "", .variable, []⟩

/-- A tick with a live client. -/
def sampleTick (reads : Except String (List (OpcUaSample V))) : Tick V :=
  ⟨true, reads, .stored _, .stored _⟩

/-- Node 2 notifies, the read of the first tick fails, node 2 stays quiet, and the second tick
polls node 1 only. -/
theorem failed_read_skips_quiet_node :
    ¬ PollsQuietNodes [sampleNode 1, sampleNode 2]
      [.chunk [((sampleNode 2).nodeId, ⟨10, none, ()⟩)], .tick (sampleTick (.error "timeout")),
        .tick (sampleTick (.ok []))] := by
  intro h
  have hpolled := (h [.chunk [((sampleNode 2).nodeId, ⟨10, none, ()⟩)],
    .tick (sampleTick (.error "timeout"))] (sampleTick (.ok [])) [] _ rfl rfl rfl).2
    (sampleNode 2).nodeId
  have hmonitored : Monitored [sampleNode 1, sampleNode 2] (sampleNode 2).nodeId :=
    ⟨sampleNode 2, List.mem_cons_of_mem _ List.mem_cons_self, rfl⟩
  exact absurd (hpolled.mpr ⟨hmonitored, List.not_mem_nil⟩) (by decide)

end Runs

end Instro.Opcua
