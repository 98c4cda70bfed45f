import Instro.Opcua.Buffer

/-!
# Telling samples apart

Two samples can carry the same node, timestamps and value. To say that each is emitted once, every
notification and every read of a run is given an origin, next to its value. The loop never looks at
values, so the run over the marked wakes does what the run over the wakes does (`map_emit`).
-/

namespace Instro.Opcua

open Instro.Library

variable {V W : Type}

def OpcUaDataPoint.map (f : V → W) (data : OpcUaDataPoint V) : OpcUaDataPoint W :=
  ⟨data.serverTimestamp, data.sourceTimestamp, f data.value⟩

def OpcUaSample.map (f : V → W) (s : OpcUaSample V) : OpcUaSample W :=
  ⟨s.nodeId, s.data.map f⟩

def Tick.map (f : V → W) (t : Tick V) : Tick W :=
  ⟨t.isAlive, t.reads.map (List.map (OpcUaSample.map f)), t.drainOrder, t.valuesOrder⟩

def Wake.map (f : V → W) : Wake V → Wake W
  | .tick t => .tick (t.map f)
  | .chunk items => .chunk (items.map fun (nodeId, data) => (nodeId, data.map f))
  | .streamEnd o => .streamEnd o

@[simp] theorem Wake.staysIn_map (f : V → W) (w : Wake V) : (w.map f).staysIn = w.staysIn := by
  cases w <;> rfl

/-! ## The loop does not look at values -/

section Naturality

variable {f : V → W} {st' : LoopState V} {st : LoopState W} {allNodes : NodeMap}

/-- The same quiet nodes, and buffers that differ by `f`. -/
structure LoopState.MapsTo (f : V → W) (st' : LoopState V) (st : LoopState W) : Prop where
  quietNodes : st'.quietNodes = st.quietNodes
  polledNodes : KeyedTable.MapsTo (OpcUaSample.map f) st'.polledNodes st.polledNodes

theorem LoopState.MapsTo.init : LoopState.MapsTo f (.init allNodes) (.init allNodes) :=
  ⟨rfl, KeyedTable.MapsTo.empty⟩

theorem LoopState.MapsTo.notify (h : LoopState.MapsTo f st' st) (nodeId : OpcUaNodeId) :
    LoopState.MapsTo f (notify st' nodeId) (notify st nodeId) :=
  ⟨congrArg (KeyedTable.remove · nodeId) h.quietNodes, h.polledNodes.remove nodeId⟩

theorem LoopState.MapsTo.notifySamples (h : LoopState.MapsTo f st' st) (nodeId : OpcUaNodeId)
    (data : OpcUaDataPoint V) :
    (notifySamples st' nodeId data).map (OpcUaSample.map f) =
      Opcua.notifySamples st nodeId (data.map f) := by
  have hget := h.polledNodes.2 nodeId
  cases hp : st'.polledNodes.get nodeId with
  | none =>
    rw [hp] at hget
    rw [notifySamples_of_none hp, notifySamples_of_none hget.symm]
    rfl
  | some p =>
    rw [hp] at hget
    rw [notifySamples_of_some hp, notifySamples_of_some hget.symm, apply_ite (List.map _)]
    rfl

theorem LoopState.MapsTo.handleChunk (h : LoopState.MapsTo f st' st)
    (items : List (OpcUaNodeId × OpcUaDataPoint V)) :
    (handleChunk st' items).1.map (OpcUaSample.map f) =
        (Opcua.handleChunk st (items.map fun (nodeId, data) => (nodeId, data.map f))).1 ∧
      LoopState.MapsTo f (handleChunk st' items).2
        (Opcua.handleChunk st (items.map fun (nodeId, data) => (nodeId, data.map f))).2 := by
  induction items generalizing st' st with
  | nil => exact ⟨rfl, h⟩
  | cons item items ih =>
    obtain ⟨h1, h2⟩ := ih (h.notify item.1)
    refine ⟨?_, h2⟩
    rw [handleChunk_cons, List.map_append, h.notifySamples, h1]
    rfl

theorem LoopState.MapsTo.readsAt (h : LoopState.MapsTo f st' st) (t : Tick V) :
    (readsAt st' t).map (OpcUaSample.map f) = Opcua.readsAt st (t.map f) := by
  unfold Opcua.readsAt Tick.map
  rw [h.quietNodes]
  split_ifs
  · rfl
  · cases t.reads <;> rfl

theorem LoopState.MapsTo.handleTick (h : LoopState.MapsTo f st' st) (t : Tick V) :
    LoopState.MapsTo f (handleTick allNodes st' t).2
      (Opcua.handleTick allNodes st (t.map f)).2 := by
  constructor
  · unfold Opcua.handleTick Tick.map
    rw [h.quietNodes]
    split_ifs
    · rfl
    · cases t.reads <;> rfl
  · rw [polledNodes_handleTick, polledNodes_handleTick, ← h.readsAt]
    exact KeyedTable.MapsTo.empty.extend (fun _ => rfl) _

/-- What is emitted after a map of the values is the map of what is emitted. -/
theorem map_emit (h : LoopState.MapsTo f st' st) (ws : List (Wake V)) :
    (emit allNodes st' ws).map (OpcUaSample.map f) =
      emit allNodes st (ws.map (Wake.map f)) := by
  induction ws generalizing st' st with
  | nil => rfl
  | cons w ws ih =>
    rw [List.map_cons]
    cases w with
    | chunk items =>
      obtain ⟨h1, h2⟩ := h.handleChunk items
      rw [emit_chunk, List.map_append, h1, ih h2]
      exact (emit_chunk _ _).symm
    | tick t =>
      have hwalk := h.polledNodes.walk t.drainOrder
      cases ht : t.isAlive
      · rw [emit_dropped ht, hwalk]
        exact (emit_dropped (t := t.map f) ht _).symm
      · rw [emit_tick ht, List.map_append, hwalk, ih (h.handleTick t)]
        exact (emit_tick (t := t.map f) ht _).symm
    | streamEnd o =>
      rw [emit_streamEnd, h.polledNodes.walk]
      exact (emit_streamEnd o _).symm

/-- The states of the two runs stay related. -/
theorem stateAfter_map (h : LoopState.MapsTo f st' st) {ws : List (Wake V)} {s : LoopState W}
    (hs : (subscriptionLoop allNodes).stateAfter st (ws.map (Wake.map f)) = some s) :
    ∃ s', (subscriptionLoop allNodes).stateAfter st' ws = some s' ∧ LoopState.MapsTo f s' s := by
  induction ws generalizing st' st with
  | nil =>
    obtain rfl : st = s := Option.some.inj hs
    exact ⟨st', rfl, h⟩
  | cons w ws ih =>
    rw [List.map_cons, EventLoop.stateAfter_cons] at hs
    obtain ⟨t, ht, hs⟩ := Option.bind_eq_some_iff.mp hs
    have hstep : ∃ t', ((subscriptionLoop allNodes).step st' w).2 = some t' ∧
        LoopState.MapsTo f t' t := by
      cases w with
      | chunk items =>
        obtain rfl := Option.some.inj ht
        exact ⟨_, rfl, (h.handleChunk items).2⟩
      | tick tk =>
        cases ha : tk.isAlive
        · have hstep : (subscriptionLoop allNodes).step st (.tick (tk.map f)) = _ :=
            step_tick_dropped (t := tk.map f) ha
          rw [Wake.map, hstep] at ht
          cases ht
        · have hstep : (subscriptionLoop allNodes).step st (.tick (tk.map f)) = _ :=
            step_tick_alive (t := tk.map f) ha
          rw [Wake.map, hstep] at ht
          obtain rfl := Option.some.inj ht
          exact ⟨_, congrArg Prod.snd (step_tick_alive ha), h.handleTick tk⟩
      | streamEnd o => cases ht
    obtain ⟨t', ht', hrel⟩ := hstep
    obtain ⟨s', hs', hrel'⟩ := ih hrel hs
    refine ⟨s', ?_, hrel'⟩
    rw [EventLoop.stateAfter_cons, ht', Option.bind_some, hs']

end Naturality

/-! ## Origins -/

/-- Where a sample comes from: the `i`-th notification taken from the stream, or the `j`-th sample
of the read issued at wake `k`. -/
inductive Origin
  | notification (i : Nat)
  | polled (k j : Nat)
  deriving DecidableEq, Repr

/-- A value with its origin. -/
abbrev Marked (V : Type) := Origin × V

def OpcUaSample.mark (o : Origin) (s : OpcUaSample V) : OpcUaSample (Marked V) := s.map (o, ·)

/-- Where a marked sample comes from. -/
def OpcUaSample.origin (s : OpcUaSample (Marked V)) : Origin := s.data.value.1

/-- The sample without its mark. -/
def OpcUaSample.unmark (s : OpcUaSample (Marked V)) : OpcUaSample V := s.map Prod.snd

@[simp] theorem OpcUaSample.origin_mark (o : Origin) (s : OpcUaSample V) :
    (s.mark o).origin = o := rfl

/-- The tick at wake `k` with its reads marked. -/
def Tick.mark (k : Nat) (t : Tick V) : Tick (Marked V) :=
  ⟨t.isAlive, t.reads.map (List.mapIdx fun j s => s.mark (.polled k j)), t.drainOrder,
    t.valuesOrder⟩

/-- The wakes with every sample marked, when `i` notifications and `k` wakes came before. -/
def markWakes : (i k : Nat) → List (Wake V) → List (Wake (Marked V))
  | _, _, [] => []
  | i, k, .chunk items :: ws =>
    .chunk (items.mapIdx fun j (nodeId, data) => (nodeId, data.map (.notification (i + j), ·))) ::
      markWakes (i + items.length) (k + 1) ws
  | i, k, .tick t :: ws => .tick (t.mark k) :: markWakes i (k + 1) ws
  | i, k, .streamEnd o :: ws => .streamEnd o :: markWakes i (k + 1) ws

theorem map_mapIdx {α β γ : Type} (g : β → γ) (h : Nat → α → β) (l : List α) :
    (l.mapIdx h).map g = l.mapIdx fun i a => g (h i a) :=
  List.ext_getElem? fun i => by simp [Function.comp_def]

theorem map_unmark_mapIdx (g : Nat → Origin) (ss : List (OpcUaSample V)) :
    (ss.mapIdx fun j s => s.mark (g j)).map OpcUaSample.unmark = ss := by
  rw [map_mapIdx]
  exact List.mapIdx_eq_iff.mpr fun i => by
    cases ss[i]? <;> rfl

theorem Tick.map_mark (k : Nat) (t : Tick V) : (t.mark k).map Prod.snd = t := by
  obtain ⟨isAlive, reads, o, o'⟩ := t
  cases reads with
  | error e => rfl
  | ok reads =>
    exact congrArg (fun r => Tick.mk isAlive (.ok r) o o')
      (map_unmark_mapIdx (Origin.polled k) reads)

theorem markWakes_map_snd (i k : Nat) (ws : List (Wake V)) :
    (markWakes i k ws).map (Wake.map Prod.snd) = ws := by
  induction ws generalizing i k with
  | nil => rfl
  | cons w ws ih =>
    cases w with
    | chunk items =>
      have h : (items.mapIdx fun j (nodeId, data) =>
          ((nodeId, data.map (Origin.notification (i + j), ·)) :
            OpcUaNodeId × OpcUaDataPoint (Marked V))).map
          (fun (nodeId, data) => (nodeId, data.map Prod.snd)) = items := by
        rw [map_mapIdx]
        exact List.mapIdx_eq_iff.mpr fun i => by cases items[i]? <;> rfl
      rw [markWakes, List.map_cons, ih, Wake.map, h]
    | tick t => rw [markWakes, List.map_cons, ih, Wake.map, Tick.map_mark]
    | streamEnd o => rw [markWakes, List.map_cons, ih, Wake.map]

theorem length_markWakes (i k : Nat) (ws : List (Wake V)) :
    (markWakes i k ws).length = ws.length := by
  have h := congrArg List.length (markWakes_map_snd i k ws)
  rwa [List.length_map] at h

theorem markWakes_append (i k : Nat) (as bs : List (Wake V)) :
    markWakes i k (as ++ bs) =
      markWakes i k as ++ markWakes (i + (notifications as).length) (k + as.length) bs := by
  induction as generalizing i k with
  | nil => rfl
  | cons w as ih =>
    have hk : k + (as.length + 1) = k + 1 + as.length := by omega
    cases w with
    | chunk items =>
      have hi : i + ((Wake.chunk items).notified ++ notifications as).length =
          i + items.length + (notifications as).length := by
        simp [Wake.notified, Nat.add_assoc]
      rw [List.cons_append, markWakes, markWakes, ih, notifications_cons, hi, List.length_cons, hk]
      rfl
    | tick t =>
      rw [List.cons_append, markWakes, markWakes, ih, List.length_cons, hk]
      rfl
    | streamEnd o =>
      rw [List.cons_append, markWakes, markWakes, ih, List.length_cons, hk]
      rfl

/-- The notifications of the marked wakes are those of the wakes, numbered. -/
theorem notifications_markWakes (i k : Nat) (ws : List (Wake V)) :
    notifications (markWakes i k ws) =
      (notifications ws).mapIdx fun j s => s.mark (.notification (i + j)) := by
  induction ws generalizing i k with
  | nil => rfl
  | cons w ws ih =>
    cases w with
    | chunk items =>
      have hlen : (Wake.chunk items).notified.length = items.length := List.length_map _
      rw [markWakes, notifications_cons, notifications_cons, ih, List.mapIdx_append, hlen]
      congr 1
      · simp only [Wake.notified]
        rw [map_mapIdx]
        exact List.ext_getElem? fun j => by
          simp only [List.getElem?_mapIdx, List.getElem?_map, Option.map_map]
          rfl
      · simp only [Nat.add_assoc, Nat.add_comm items.length]
    | tick t => rw [markWakes, notifications_cons, ih]; rfl
    | streamEnd o => rw [markWakes, notifications_cons, ih]; rfl

theorem endsAtLast_markWakes {i k : Nat} {ws : List (Wake V)} (h : EndsAtLast ws) :
    EndsAtLast (markWakes i k ws) := by
  induction ws generalizing i k with
  | nil => exact absurd h not_endsAtLast_nil
  | cons w ws ih =>
    rcases endsAtLast_cons.mp h with ⟨hw, rfl⟩ | ⟨hw, h'⟩
    · cases w with
      | chunk items => cases hw
      | tick t => exact endsAtLast_cons.mpr (.inl ⟨hw, rfl⟩)
      | streamEnd o => exact endsAtLast_cons.mpr (.inl ⟨rfl, rfl⟩)
    · cases w with
      | chunk items => exact endsAtLast_cons.mpr (.inr ⟨rfl, ih h'⟩)
      | tick t => exact endsAtLast_cons.mpr (.inr ⟨hw, ih h'⟩)
      | streamEnd o => cases hw

theorem firstNotification_markWakes (id : OpcUaNodeId) (i k : Nat) (ws : List (Wake V)) :
    (firstNotification id (markWakes i k ws)).map (·.serverTimestamp) =
      (firstNotification id ws).map (·.serverTimestamp) := by
  induction ws generalizing i k with
  | nil => rfl
  | cons w ws ih =>
    cases w with
    | tick t => rfl
    | streamEnd o => rfl
    | chunk items =>
      have hfind : ∀ (l : List (OpcUaNodeId × OpcUaDataPoint V)) (g : Nat → Origin),
          ((l.mapIdx fun j (nodeId, data) =>
            ((nodeId, data.map (g j, ·)) : OpcUaNodeId × OpcUaDataPoint (Marked V))).find?
              fun item => item.1 = id).map (·.2.serverTimestamp) =
            (l.find? fun item => item.1 = id).map (·.2.serverTimestamp) := by
        intro l
        induction l with
        | nil => intro g; rfl
        | cons item l ihl =>
          intro g
          rw [List.mapIdx_cons]
          by_cases h : item.1 = id
          · rw [List.find?_cons_of_pos (by simpa using h),
              List.find?_cons_of_pos (by simpa using h)]
            rfl
          · rw [List.find?_cons_of_neg (by simpa using h),
              List.find?_cons_of_neg (by simpa using h)]
            exact ihl fun j => g (j + 1)
      have h := hfind items fun j => .notification (i + j)
      rw [markWakes, firstNotification, firstNotification]
      cases hl : items.find? fun item => item.1 = id with
      | none =>
        rw [hl] at h
        rw [Option.map_eq_none_iff.mp h]
        exact ih _ _
      | some item =>
        rw [hl] at h
        obtain ⟨item', hi', ht⟩ := Option.map_eq_some_iff.mp h
        rw [hi']
        exact congrArg some ht

theorem superseded_eq (s : OpcUaSample V) (ws : List (Wake V)) :
    superseded s ws = ((firstNotification s.nodeId ws).map (·.serverTimestamp)).any
      fun ts => decide (ts ≤ s.data.serverTimestamp) := by
  unfold superseded
  cases firstNotification s.nodeId ws <;> rfl

/-- The marks do not change which samples are superseded. -/
theorem superseded_markWakes (o : Origin) (s : OpcUaSample V) (i k : Nat) (ws : List (Wake V)) :
    superseded (s.mark o) (markWakes i k ws) = superseded s ws := by
  rw [superseded_eq, superseded_eq, ← firstNotification_markWakes s.nodeId i k ws]
  rfl

end Instro.Opcua
