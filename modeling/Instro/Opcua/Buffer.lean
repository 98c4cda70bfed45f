import Instro.Opcua.SubscriptionLoop

/-!
# The poll buffer

A polled sample waits in the buffer until the next tick, the end of the loop, or the first
notification of its node, whichever is first. `filter_emit_buffered` says what becomes of it and
`sublist_emit_buffered` that it is emitted before the notifications of its node.
-/

namespace Instro.Opcua

open Instro.Library

variable {V : Type}

/-- The notifications a wake takes from the stream. -/
def Wake.notified : Wake V → List (OpcUaSample V)
  | .chunk items => items.map fun (nodeId, data) => ⟨nodeId, data⟩
  | .tick _ => []
  | .streamEnd _ => []

/-- The notifications taken from the stream, in order. -/
def notifications (ws : List (Wake V)) : List (OpcUaSample V) := ws.flatMap Wake.notified

/-- The samples a tick gets from its batch read, if it issues one and the read succeeds. -/
def readsAt (st : LoopState V) (t : Tick V) : List (OpcUaSample V) :=
  if st.quietNodes.isEmpty then [] else t.reads.toOption.getD []

/-- The first notification of the node before the next tick. -/
def firstNotification (id : OpcUaNodeId) : List (Wake V) → Option (OpcUaDataPoint V)
  | .chunk items :: ws =>
    match items.find? fun item => item.1 = id with
    | some item => some item.2
    | none => firstNotification id ws
  | _ => none

/-- Before the next tick, the first notification of the sample's node is not newer than it. -/
def superseded (s : OpcUaSample V) (ws : List (Wake V)) : Bool :=
  match firstNotification s.nodeId ws with
  | some data => data.serverTimestamp ≤ s.data.serverTimestamp
  | none => false

/-- A batch read returns at most one sample per node. -/
def ReadsOncePerNode (ws : List (Wake V)) : Prop :=
  ∀ t reads, .tick t ∈ ws → t.reads = .ok reads → (reads.map (·.nodeId)).Nodup

@[simp] theorem notifications_cons (w : Wake V) (ws : List (Wake V)) :
    notifications (w :: ws) = w.notified ++ notifications ws := rfl

@[simp] theorem notifications_append (as bs : List (Wake V)) :
    notifications (as ++ bs) = notifications as ++ notifications bs := List.flatMap_append

theorem readsAt_sublist (st : LoopState V) (t : Tick V) :
    (readsAt st t).Sublist (t.reads.toOption.getD []) := by
  unfold readsAt
  split_ifs
  · exact List.nil_sublist _
  · exact List.Sublist.refl _

/-! ## One chunk -/

section Chunk

variable {st : LoopState V} {s : OpcUaSample V}

theorem handleChunk_cons (nodeId : OpcUaNodeId) (data : OpcUaDataPoint V)
    (items : List (OpcUaNodeId × OpcUaDataPoint V)) :
    handleChunk st ((nodeId, data) :: items) =
      (notifySamples st nodeId data ++ (handleChunk (notify st nodeId) items).1,
        (handleChunk (notify st nodeId) items).2) := rfl

theorem notifySamples_of_none {nodeId : OpcUaNodeId} (h : st.polledNodes.get nodeId = none)
    (data : OpcUaDataPoint V) : notifySamples st nodeId data = [⟨nodeId, data⟩] := by
  unfold notifySamples
  rw [h]

theorem notifySamples_of_some {nodeId : OpcUaNodeId} {p : OpcUaSample V}
    (h : st.polledNodes.get nodeId = some p) (data : OpcUaDataPoint V) :
    notifySamples st nodeId data =
      if p.data.serverTimestamp < data.serverTimestamp then [p, ⟨nodeId, data⟩]
      else [⟨nodeId, data⟩] := by
  unfold notifySamples
  rw [h]

/-- A notification emits itself, last, and before it at most the buffered sample of its node. -/
theorem notifySamples_eq (st : LoopState V) (nodeId : OpcUaNodeId) (data : OpcUaDataPoint V) :
    ∃ ps, notifySamples st nodeId data = ps ++ [⟨nodeId, data⟩] ∧
      ∀ p ∈ ps, st.polledNodes.get nodeId = some p := by
  cases h : st.polledNodes.get nodeId with
  | none => exact ⟨[], notifySamples_of_none h data, by simp⟩
  | some p =>
    rw [notifySamples_of_some h]
    split_ifs
    · exact ⟨[p], rfl, by simp⟩
    · exact ⟨[], rfl, by simp⟩

theorem get_notify {id : OpcUaNodeId} (nodeId : OpcUaNodeId) :
    (notify st nodeId).polledNodes.get id =
      if id = nodeId then none else st.polledNodes.get id := by
  show (st.polledNodes.remove nodeId).get id = _
  split_ifs with h
  · rw [h, KeyedTable.get_remove_self]
  · exact KeyedTable.get_remove_ne h

theorem get_of_get_notify {id nodeId : OpcUaNodeId}
    (h : (notify st nodeId).polledNodes.get id = some s) : st.polledNodes.get id = some s := by
  rw [get_notify] at h
  split_ifs at h
  exact h

/-- A chunk leaves in the buffer what was there for nodes it does not mention. -/
theorem get_handleChunk {id : OpcUaNodeId} (items : List (OpcUaNodeId × OpcUaDataPoint V)) :
    (handleChunk st items).2.polledNodes.get id =
      if id ∈ items.map Prod.fst then none else st.polledNodes.get id := by
  induction items generalizing st with
  | nil => rfl
  | cons item items ih =>
    show (handleChunk (notify st item.1) items).2.polledNodes.get id = _
    rw [ih, get_notify, List.map_cons]
    by_cases h : id = item.1
    · rw [if_pos h, if_pos (List.mem_cons.mpr (.inl h)), ite_self]
    · by_cases h' : id ∈ items.map Prod.fst
      · rw [if_pos h', if_pos (List.mem_cons_of_mem _ h')]
      · rw [if_neg h', if_neg h, if_neg (fun hm => (List.mem_cons.mp hm).elim h h')]

theorem mem_handleChunk {items : List (OpcUaNodeId × OpcUaDataPoint V)}
    (h : s ∈ (handleChunk st items).1) :
    (∃ id, st.polledNodes.get id = some s) ∨ s ∈ (Wake.chunk items).notified := by
  induction items generalizing st with
  | nil => exact absurd h List.not_mem_nil
  | cons item items ih =>
    rw [handleChunk_cons] at h
    rcases List.mem_append.mp h with h | h
    · obtain ⟨ps, hps, hget⟩ := notifySamples_eq st item.1 item.2
      rw [hps] at h
      rcases List.mem_append.mp h with h | h
      · exact .inl ⟨item.1, hget s h⟩
      · exact .inr (List.mem_cons.mpr (.inl (List.mem_singleton.mp h)))
    · rcases ih h with ⟨id, h⟩ | h
      · exact .inl ⟨id, get_of_get_notify h⟩
      · exact .inr (List.mem_cons_of_mem _ h)

/-- The notifications of a chunk are emitted in order, between buffered samples. -/
theorem filter_handleChunk {P : OpcUaSample V → Bool}
    {items : List (OpcUaNodeId × OpcUaDataPoint V)}
    (hst : ∀ id p, st.polledNodes.get id = some p → P p = false)
    (hitems : ∀ n ∈ (Wake.chunk items).notified, P n = true) :
    (handleChunk st items).1.filter P = (Wake.chunk items).notified := by
  induction items generalizing st with
  | nil => rfl
  | cons item items ih =>
    obtain ⟨ps, hps, hget⟩ := notifySamples_eq st item.1 item.2
    have hnone : ps.filter P = [] :=
      List.filter_eq_nil_iff.mpr fun p hp => by rw [hst _ p (hget p hp)]; exact Bool.false_ne_true
    have hself : P ⟨item.1, item.2⟩ = true := hitems _ List.mem_cons_self
    rw [handleChunk_cons, List.filter_append, hps, List.filter_append, hnone,
      ih (fun id p hp => hst id p (get_of_get_notify hp))
        fun n hn => hitems n (List.mem_cons_of_mem _ hn)]
    show [].append (List.filter P [⟨item.1, item.2⟩]) ++ _ = _
    rw [List.filter_cons_of_pos hself]
    rfl

theorem notified_sublist_handleChunk (items : List (OpcUaNodeId × OpcUaDataPoint V)) :
    (Wake.chunk items).notified.Sublist (handleChunk st items).1 := by
  induction items generalizing st with
  | nil => exact List.Sublist.slnil
  | cons item items ih =>
    obtain ⟨ps, hps, -⟩ := notifySamples_eq st item.1 item.2
    rw [handleChunk_cons, hps, List.append_assoc]
    exact (List.Sublist.cons_cons _ ih).trans (List.sublist_append_right ps _)

end Chunk

/-! ## Runs from any state -/

section Runs

variable {allNodes : NodeMap} {st : LoopState V}

/-- The samples emitted from a state on. -/
def emit (allNodes : NodeMap) (st : LoopState V) (ws : List (Wake V)) : List (OpcUaSample V) :=
  emitted ((subscriptionLoop allNodes).actions st ws)

theorem emit_chunk (items : List (OpcUaNodeId × OpcUaDataPoint V)) (ws : List (Wake V)) :
    emit allNodes st (.chunk items :: ws) =
      (handleChunk st items).1 ++ emit allNodes (handleChunk st items).2 ws := by
  unfold emit
  rw [EventLoop.actions_cons_some _ (step_chunk items), emitted_append, emitted_step_chunk]

theorem emit_tick {t : Tick V} (h : t.isAlive = true) (ws : List (Wake V)) :
    emit allNodes st (.tick t :: ws) =
      st.polledNodes.walk t.drainOrder ++ emit allNodes (handleTick allNodes st t).2 ws := by
  unfold emit
  rw [EventLoop.actions_cons_some _ (congrArg Prod.snd (step_tick_alive h)), emitted_append,
    step_tick_alive h, emitted_handleTick]

theorem emit_dropped {t : Tick V} (h : t.isAlive = false) (ws : List (Wake V)) :
    emit allNodes st (.tick t :: ws) = st.polledNodes.walk t.drainOrder := by
  unfold emit
  rw [EventLoop.actions_cons_none _ (congrArg Prod.snd (step_tick_dropped h)),
    step_tick_dropped h, emitted_exitDrain]

theorem emit_streamEnd (o : WalkOrder OpcUaNodeId) (ws : List (Wake V)) :
    emit allNodes st (.streamEnd o :: ws) = st.polledNodes.walk o := by
  unfold emit
  rw [EventLoop.actions_cons_none _ (congrArg Prod.snd (step_streamEnd o)), step_streamEnd,
    emitted_exitDrain]

/-- After a tick the buffer holds the samples of its read. -/
theorem polledNodes_handleTick (t : Tick V) :
    (handleTick allNodes st t).2.polledNodes = KeyedTable.extend ∅ (readsAt st t) := by
  unfold handleTick readsAt
  split_ifs
  · rfl
  · cases t.reads <;> rfl

theorem mem_readsAt_of_get {t : Tick V} {id : OpcUaNodeId} {s : OpcUaSample V}
    (h : (handleTick allNodes st t).2.polledNodes.get id = some s) : s ∈ readsAt st t := by
  rw [polledNodes_handleTick] at h
  rcases KeyedTable.mem_of_get_extend h with h | h
  · rw [KeyedTable.get_empty] at h
    cases h
  · exact h

/-- Everything emitted was buffered at the start, notified, or read. -/
theorem source_of_mem_emit {s : OpcUaSample V} {ws : List (Wake V)} (h : s ∈ emit allNodes st ws) :
    (∃ id, st.polledNodes.get id = some s) ∨ s ∈ notifications ws ∨
      ∃ pre t post st', ws = pre ++ .tick t :: post ∧
        (subscriptionLoop allNodes).stateAfter st pre = some st' ∧ t.isAlive = true ∧
        s ∈ readsAt st' t := by
  induction ws generalizing st with
  | nil => exact absurd h List.not_mem_nil
  | cons w ws ih =>
    -- what the rest emits, seen from `st`
    have hrest : ∀ st', ((subscriptionLoop allNodes).step st w).2 = some st' →
        s ∈ emit allNodes st' ws → (∃ id, st'.polledNodes.get id = some s) ∨
          s ∈ notifications (w :: ws) ∨ ∃ pre t post st', w :: ws = pre ++ .tick t :: post ∧
            (subscriptionLoop allNodes).stateAfter st pre = some st' ∧
            t.isAlive = true ∧ s ∈ readsAt st' t := by
      intro st' hst' hs
      rcases ih hs with h | h | ⟨pre, t, post, st'', rfl, hst'', ht⟩
      · exact .inl h
      · exact .inr (.inl (List.mem_append_right _ h))
      · refine .inr (.inr ⟨w :: pre, t, post, st'', rfl, ?_, ht⟩)
        rw [EventLoop.stateAfter_cons, hst', Option.bind_some, hst'']
    cases w with
    | chunk items =>
      rw [emit_chunk] at h
      rcases List.mem_append.mp h with h | h
      · rcases mem_handleChunk h with h | h
        · exact .inl h
        · exact .inr (.inl (List.mem_append_left _ h))
      · rcases hrest _ (step_chunk items) h with ⟨id, h⟩ | h
        · rw [get_handleChunk] at h
          split_ifs at h
          exact .inl ⟨id, h⟩
        · exact .inr h
    | tick t =>
      cases ht : t.isAlive
      · rw [emit_dropped ht] at h
        exact .inl ⟨_, KeyedTable.mem_walk.mp h⟩
      · rw [emit_tick ht] at h
        rcases List.mem_append.mp h with h | h
        · exact .inl ⟨_, KeyedTable.mem_walk.mp h⟩
        · rcases hrest _ (congrArg Prod.snd (step_tick_alive ht)) h with ⟨id, h⟩ | h
          · exact .inr (.inr ⟨[], t, ws, st, rfl, rfl, ht, mem_readsAt_of_get h⟩)
          · exact .inr h
    | streamEnd o =>
      rw [emit_streamEnd] at h
      exact .inl ⟨_, KeyedTable.mem_walk.mp h⟩

theorem filter_walk_eq_nil {P : OpcUaSample V → Bool} {o : WalkOrder OpcUaNodeId}
    (hst : ∀ id s, st.polledNodes.get id = some s → P s = false) :
    (st.polledNodes.walk o).filter P = [] := by
  rw [List.filter_eq_nil_iff]
  intro s hs
  rw [hst _ s (KeyedTable.mem_walk.mp hs)]
  exact Bool.false_ne_true

/-- No notification and no read of the wakes satisfies `Q`. -/
def Avoids (Q : OpcUaSample V → Bool) (ws : List (Wake V)) : Prop :=
  (∀ s ∈ notifications ws, Q s = false) ∧
    ∀ t, .tick t ∈ ws → ∀ s ∈ t.reads.toOption.getD [], Q s = false

theorem Avoids.tail {Q : OpcUaSample V → Bool} {w : Wake V} {ws : List (Wake V)}
    (h : Avoids Q (w :: ws)) : Avoids Q ws :=
  ⟨fun s hs => h.1 s (List.mem_append_right _ hs), fun t ht => h.2 t (List.mem_cons_of_mem w ht)⟩

theorem Avoids.append_streamEnd {Q : OpcUaSample V → Bool} {ws : List (Wake V)}
    (h : Avoids Q ws) (o : WalkOrder OpcUaNodeId) : Avoids Q (ws ++ [.streamEnd o]) := by
  constructor
  · rw [notifications_append]
    intro s hs
    rcases List.mem_append.mp hs with hs | hs
    · exact h.1 s hs
    · exact absurd hs List.not_mem_nil
  · intro t ht
    rcases List.mem_append.mp ht with ht | ht
    · exact h.2 t ht
    · exact absurd ht (by simp)

theorem filter_emit_of_avoids {Q : OpcUaSample V → Bool} {ws : List (Wake V)}
    (hst : ∀ id s, st.polledNodes.get id = some s → Q s = false) (hws : Avoids Q ws) :
    (emit allNodes st ws).filter Q = [] := by
  rw [List.filter_eq_nil_iff]
  intro s hs
  have hQ : Q s = false := by
    rcases source_of_mem_emit hs with ⟨id, h⟩ | h | ⟨pre, t, post, st', rfl, -, -, h⟩
    · exact hst id s h
    · exact hws.1 s h
    · exact hws.2 t (by simp) s ((readsAt_sublist st' t).subset h)
  rw [hQ]
  exact Bool.false_ne_true

/-! ## A run that ends -/

/-- All wakes but the last keep the loop going, and the last one ends it. -/
def EndsAtLast (ws : List (Wake V)) : Prop :=
  ∃ pre w, ws = pre ++ [w] ∧ (∀ v ∈ pre, v.staysIn = true) ∧ w.staysIn = false

theorem endsAtLast_cons {w : Wake V} {ws : List (Wake V)} :
    EndsAtLast (w :: ws) ↔
      (w.staysIn = false ∧ ws = []) ∨ (w.staysIn = true ∧ EndsAtLast ws) := by
  constructor
  · rintro ⟨pre, v, h, hpre, hv⟩
    cases pre with
    | nil =>
      obtain ⟨rfl, rfl⟩ := List.cons.inj h
      exact .inl ⟨hv, rfl⟩
    | cons u pre =>
      obtain ⟨rfl, rfl⟩ := List.cons.inj h
      exact .inr ⟨hpre w List.mem_cons_self, pre, v, rfl,
        fun x hx => hpre x (List.mem_cons_of_mem w hx), hv⟩
  · rintro (⟨hw, rfl⟩ | ⟨hw, pre, v, rfl, hpre, hv⟩)
    · exact ⟨[], w, rfl, by simp, hw⟩
    · refine ⟨w :: pre, v, rfl, ?_, hv⟩
      intro x hx
      rcases List.mem_cons.mp hx with rfl | hx
      · exact hw
      · exact hpre x hx

theorem not_endsAtLast_nil : ¬ EndsAtLast ([] : List (Wake V)) := by
  rintro ⟨pre, w, h, -⟩
  exact List.cons_ne_nil w _ (List.append_eq_nil_iff.mp h.symm).2

/-- A run does not end at a wake that takes notifications. -/
theorem EndsAtLast.of_chunk {items : List (OpcUaNodeId × OpcUaDataPoint V)} {ws : List (Wake V)}
    (h : EndsAtLast (.chunk items :: ws)) : EndsAtLast ws := by
  rcases endsAtLast_cons.mp h with ⟨hw, -⟩ | ⟨-, h⟩
  · cases hw
  · exact h

theorem EndsAtLast.of_mem_notifications {w : Wake V} {ws : List (Wake V)} {n : OpcUaSample V}
    (h : EndsAtLast (w :: ws)) (hn : n ∈ notifications (w :: ws)) :
    w.staysIn = true ∧ EndsAtLast ws := by
  rcases endsAtLast_cons.mp h with ⟨hw, rfl⟩ | h
  · cases w with
    | chunk items => cases hw
    | tick t => exact absurd hn List.not_mem_nil
    | streamEnd o => exact absurd hn List.not_mem_nil
  · exact h

/-- A run that ends emits its notifications in order, and among the rest nothing that satisfies a
property the notifications have and the polled samples lack. -/
theorem filter_emit_notifications {P : OpcUaSample V → Bool} {ws : List (Wake V)}
    (hst : ∀ id s, st.polledNodes.get id = some s → P s = false)
    (hnote : ∀ s ∈ notifications ws, P s = true)
    (hread : ∀ t, .tick t ∈ ws → ∀ s ∈ t.reads.toOption.getD [], P s = false)
    (hend : EndsAtLast ws) :
    (emit allNodes st ws).filter P = notifications ws := by
  induction ws generalizing st with
  | nil => exact absurd hend not_endsAtLast_nil
  | cons w ws ih =>
    have hnote' := fun s hs => hnote s (List.mem_append_right _ hs)
    have hread' := fun t ht => hread t (List.mem_cons_of_mem w ht)
    rw [notifications_cons]
    cases w with
    | chunk items =>
      rw [emit_chunk, List.filter_append,
        filter_handleChunk hst fun s hs => hnote s (List.mem_append_left _ hs),
        ih (fun id s h => ?_) hnote' hread' hend.of_chunk]
      rw [get_handleChunk] at h
      split_ifs at h
      exact hst id s h
    | tick t =>
      rcases endsAtLast_cons.mp hend with ⟨ht, rfl⟩ | ⟨ht, hend'⟩
      · rw [emit_dropped ht, filter_walk_eq_nil hst]
        rfl
      · rw [emit_tick ht, List.filter_append, filter_walk_eq_nil hst,
          ih (fun id s h => ?_) hnote' hread' hend']
        · rfl
        · exact hread t List.mem_cons_self s ((readsAt_sublist st t).subset (mem_readsAt_of_get h))
    | streamEnd o =>
      rcases endsAtLast_cons.mp hend with ⟨-, rfl⟩ | ⟨hw, -⟩
      · rw [emit_streamEnd, filter_walk_eq_nil hst]
        rfl
      · cases hw

/-- Every notification of a run that ends is emitted. -/
theorem notifications_sublist_emit {ws : List (Wake V)} (hend : EndsAtLast ws) :
    (notifications ws).Sublist (emit allNodes st ws) := by
  induction ws generalizing st with
  | nil => exact absurd hend not_endsAtLast_nil
  | cons w ws ih =>
    rcases endsAtLast_cons.mp hend with ⟨hw, rfl⟩ | ⟨hw, hend'⟩
    · cases w with
      | chunk items => cases hw
      | tick t => exact List.nil_sublist _
      | streamEnd o => exact List.nil_sublist _
    · cases w with
      | chunk items =>
        rw [emit_chunk]
        exact (notified_sublist_handleChunk items).append (ih hend')
      | tick t =>
        rw [emit_tick hw]
        exact (ih hend').trans (List.sublist_append_right _ _)
      | streamEnd o => exact absurd hw Bool.false_ne_true

/-! ## The fate of a buffered sample -/

section Buffered

variable {p : OpcUaSample V} {Q : OpcUaSample V → Bool}

/-- `p` is in the buffer, and the only buffered sample that satisfies `Q`. -/
structure Buffered (Q : OpcUaSample V → Bool) (st : LoopState V) (p : OpcUaSample V) : Prop where
  get : st.polledNodes.get p.nodeId = some p
  self : Q p = true
  unique : ∀ id s, st.polledNodes.get id = some s → Q s = true → s = p

theorem Buffered.filter_walk (h : Buffered Q st p) (o : WalkOrder OpcUaNodeId) :
    (st.polledNodes.walk o).filter Q = [p] := by
  have hmem : p ∈ (st.polledNodes.walk o).filter Q :=
    List.mem_filter.mpr ⟨KeyedTable.mem_walk.mpr h.get, h.self⟩
  have hall : ∀ s ∈ (st.polledNodes.walk o).filter Q, s = p := by
    intro s hs
    obtain ⟨hs, hQ⟩ := List.mem_filter.mp hs
    exact h.unique _ s (KeyedTable.mem_walk.mp hs) hQ
  have hnd : ((st.polledNodes.walk o).filter Q).Nodup := KeyedTable.nodup_walk.filter _
  exact List.perm_singleton.mp <| (List.perm_ext_iff_of_nodup hnd (List.nodup_singleton p)).mpr
    fun s => ⟨fun hs => List.mem_singleton.mpr (hall s hs),
      fun hs => List.mem_singleton.mp hs ▸ hmem⟩

/-- A notification of another node leaves the sample in the buffer. -/
theorem Buffered.notify_ne (h : Buffered Q st p) {id : OpcUaNodeId} (hid : p.nodeId ≠ id) :
    Buffered Q (notify st id) p where
  get := by rw [get_notify, if_neg hid, h.get]
  self := h.self
  unique id' s hs hQ := h.unique id' s (get_of_get_notify hs) hQ

/-- A notification of its node takes the sample out. -/
theorem Buffered.notify_self (h : Buffered Q st p) (id : OpcUaNodeId) (s : OpcUaSample V)
    (hs : (notify st p.nodeId).polledNodes.get id = some s) : Q s = false := by
  by_contra hQ
  obtain rfl := h.unique id s (get_of_get_notify hs) (Bool.not_eq_false _ ▸ hQ)
  rw [← KeyedTable.key_of_get hs, get_notify, if_pos rfl] at hs
  cases hs

theorem Buffered.handleChunk (h : Buffered Q st p) {items : List (OpcUaNodeId × OpcUaDataPoint V)}
    (hid : p.nodeId ∉ items.map Prod.fst) : Buffered Q (handleChunk st items).2 p where
  get := by rw [get_handleChunk, if_neg hid, h.get]
  self := h.self
  unique id s hs hQ := by
    rw [get_handleChunk] at hs
    split_ifs at hs
    exact h.unique id s hs hQ

/-- A chunk with a notification of its node takes the sample out. -/
theorem Buffered.handleChunk_self (h : Buffered Q st p)
    {items : List (OpcUaNodeId × OpcUaDataPoint V)} (hin : p.nodeId ∈ items.map Prod.fst)
    (id : OpcUaNodeId) (s : OpcUaSample V)
    (hs : (Opcua.handleChunk st items).2.polledNodes.get id = some s) : Q s = false := by
  rw [get_handleChunk] at hs
  split_ifs at hs with hid
  by_contra hQ
  obtain rfl := h.unique id s hs (Bool.not_eq_false _ ▸ hQ)
  exact hid (KeyedTable.key_of_get hs ▸ hin)

theorem find?_item_eq_none {items : List (OpcUaNodeId × OpcUaDataPoint V)} {id : OpcUaNodeId}
    (h : items.find? (fun item => item.1 = id) = none) : id ∉ items.map Prod.fst := by
  intro hmem
  obtain ⟨item, hitem, rfl⟩ := List.mem_map.mp hmem
  have := List.find?_eq_none.mp h item hitem
  simp at this

theorem filter_handleChunk_free {items : List (OpcUaNodeId × OpcUaDataPoint V)}
    (hst : ∀ id s, st.polledNodes.get id = some s → Q s = false)
    (hitems : ∀ n ∈ (Wake.chunk items).notified, Q n = false) :
    (handleChunk st items).1.filter Q = [] := by
  rw [List.filter_eq_nil_iff]
  intro s hs
  have hQ : Q s = false := by
    rcases mem_handleChunk hs with ⟨id, h⟩ | h
    · exact hst id s h
    · exact hitems s h
  rw [hQ]
  exact Bool.false_ne_true

/-- In a chunk the first notification of its node decides about a buffered sample. -/
theorem Buffered.filter_handleChunk (h : Buffered Q st p)
    {items : List (OpcUaNodeId × OpcUaDataPoint V)}
    (hitems : ∀ n ∈ (Wake.chunk items).notified, Q n = false) :
    (Opcua.handleChunk st items).1.filter Q =
      match items.find? fun item => item.1 = p.nodeId with
      | some item => if p.data.serverTimestamp < item.2.serverTimestamp then [p] else []
      | none => [] := by
  induction items generalizing st with
  | nil => rfl
  | cons item items ih =>
    obtain ⟨id, data⟩ := item
    have hself : Q ⟨id, data⟩ = false := hitems _ List.mem_cons_self
    have hitems' := fun n hn => hitems n (List.mem_cons_of_mem _ hn)
    rw [handleChunk_cons, List.filter_append]
    by_cases hid : id = p.nodeId
    · subst hid
      rw [filter_handleChunk_free h.notify_self hitems', notifySamples_of_some h.get,
        List.find?_cons_of_pos (by simp)]
      show List.filter Q (if p.data.serverTimestamp < data.serverTimestamp then _ else _) ++ [] =
        if p.data.serverTimestamp < data.serverTimestamp then [p] else []
      by_cases hlt : p.data.serverTimestamp < data.serverTimestamp
      · rw [if_pos hlt, if_pos hlt, List.filter_cons_of_pos h.self,
          List.filter_cons_of_neg (by simp [hself])]
        rfl
      · rw [if_neg hlt, if_neg hlt, List.filter_cons_of_neg (by simp [hself])]
        rfl
    · rw [ih (h.notify_ne (Ne.symm hid)) hitems', List.find?_cons_of_neg (by simpa using hid)]
      obtain ⟨ps, hps, hget⟩ := notifySamples_eq st id data
      have hnone : ps.filter Q = [] := by
        rw [List.filter_eq_nil_iff]
        intro s hs hQ
        obtain rfl := h.unique id s (hget s hs) hQ
        exact hid (KeyedTable.key_of_get (hget _ hs)).symm
      rw [hps, List.filter_append, hnone, List.filter_cons_of_neg (by simp [hself])]
      rfl

/-- **Fate of a polled sample.** Over a run that ends, a buffered sample is emitted once, unless
it is superseded, in which case it is not emitted. -/
theorem filter_emit_buffered {ws : List (Wake V)} (h : Buffered Q st p) (hend : EndsAtLast ws)
    (hws : Avoids Q ws) :
    (emit allNodes st ws).filter Q = if superseded p ws then [] else [p] := by
  induction ws generalizing st with
  | nil => exact absurd hend not_endsAtLast_nil
  | cons w ws ih =>
    have hdone : superseded p [w] = false → superseded p (w :: ws) = superseded p [w] →
        (emit allNodes st (w :: ws)).filter Q = [p] → _ := fun h1 h2 h3 =>
      show (emit allNodes st (w :: ws)).filter Q = if superseded p (w :: ws) then [] else [p] by
        rw [h2, h1, h3, if_neg Bool.false_ne_true]
    cases w with
    | tick t =>
      refine hdone rfl rfl ?_
      cases ht : t.isAlive
      · rw [emit_dropped ht, h.filter_walk]
      · rw [emit_tick ht, List.filter_append, h.filter_walk, filter_emit_of_avoids _ hws.tail]
        · rfl
        · intro id s hs
          exact hws.2 t List.mem_cons_self s ((readsAt_sublist st t).subset (mem_readsAt_of_get hs))
    | streamEnd o =>
      refine hdone rfl rfl ?_
      rw [emit_streamEnd, h.filter_walk]
    | chunk items =>
      have hitems := fun n hn => hws.1 n (List.mem_append_left _ hn)
      rw [emit_chunk, List.filter_append, h.filter_handleChunk hitems]
      unfold superseded firstNotification
      cases hfind : items.find? fun item => item.1 = p.nodeId with
      | none =>
        have hbuf := h.handleChunk (find?_item_eq_none hfind)
        exact ih hbuf hend.of_chunk hws.tail
      | some item =>
        have hin : p.nodeId ∈ items.map Prod.fst := by
          have := List.find?_some hfind
          exact List.mem_map.mpr ⟨item, List.mem_of_find?_eq_some hfind, by simpa using this⟩
        rw [filter_emit_of_avoids (h.handleChunk_self hin) hws.tail, List.append_nil]
        show (if p.data.serverTimestamp < item.2.serverTimestamp then [p] else []) =
          if decide (item.2.serverTimestamp ≤ p.data.serverTimestamp) then [] else [p]
        by_cases hlt : p.data.serverTimestamp < item.2.serverTimestamp
        · rw [if_pos hlt, if_neg (by simpa using hlt)]
        · rw [if_neg hlt, if_pos (by simpa using hlt)]

/-- A chunk that emits a buffered sample emits it before every notification of its node. -/
theorem sublist_handleChunk {items : List (OpcUaNodeId × OpcUaDataPoint V)}
    {item : OpcUaNodeId × OpcUaDataPoint V} {n : OpcUaSample V}
    (hget : st.polledNodes.get p.nodeId = some p)
    (hfind : items.find? (fun item => item.1 = p.nodeId) = some item)
    (hlt : p.data.serverTimestamp < item.2.serverTimestamp)
    (hn : n ∈ (Wake.chunk items).notified) (hid : n.nodeId = p.nodeId) :
    [p, n].Sublist (Opcua.handleChunk st items).1 := by
  induction items generalizing st with
  | nil => exact absurd hn List.not_mem_nil
  | cons first items ih =>
    obtain ⟨id, data⟩ := first
    rw [handleChunk_cons]
    by_cases h : id = p.nodeId
    · subst h
      rw [List.find?_cons_of_pos (by simp)] at hfind
      obtain rfl := Option.some.inj hfind
      rw [notifySamples_of_some hget, if_pos hlt]
      refine List.Sublist.cons_cons p (List.singleton_sublist.mpr ?_)
      rcases List.mem_cons.mp hn with rfl | hn
      · exact List.mem_cons_self
      · exact List.mem_cons_of_mem _ ((notified_sublist_handleChunk items).subset hn)
    · rw [List.find?_cons_of_neg (by simpa using h)] at hfind
      have hn' : n ∈ (Wake.chunk items).notified := by
        rcases List.mem_cons.mp hn with rfl | hn
        · exact absurd hid h
        · exact hn
      have hget' : (notify st id).polledNodes.get p.nodeId = some p := by
        rw [get_notify, if_neg (Ne.symm h), hget]
      exact (ih hget' hfind hn').trans (List.sublist_append_right _ _)

/-- **Order.** A buffered sample that is not superseded is emitted before every later notification
of its node. -/
theorem sublist_emit_buffered {ws : List (Wake V)} {n : OpcUaSample V}
    (hget : st.polledNodes.get p.nodeId = some p) (hend : EndsAtLast ws)
    (hsup : superseded p ws = false) (hn : n ∈ notifications ws) (hid : n.nodeId = p.nodeId) :
    [p, n].Sublist (emit allNodes st ws) := by
  induction ws generalizing st with
  | nil => exact absurd hn List.not_mem_nil
  | cons w ws ih =>
    obtain ⟨hstays, hend'⟩ := hend.of_mem_notifications hn
    have hafter : ∀ {st' : LoopState V} {l}, p ∈ l → n ∈ notifications ws →
        [p, n].Sublist (l ++ emit allNodes st' ws) := fun hp hn =>
      (List.singleton_sublist.mpr hp).append
        (List.singleton_sublist.mpr ((notifications_sublist_emit hend').subset hn))
    cases w with
    | tick t =>
      rw [emit_tick hstays]
      exact hafter (KeyedTable.mem_walk.mpr hget) hn
    | streamEnd o => cases hstays
    | chunk items =>
      rw [emit_chunk]
      unfold superseded firstNotification at hsup
      cases hfind : items.find? fun item => item.1 = p.nodeId with
      | none =>
        rw [hfind] at hsup
        have hnot := find?_item_eq_none hfind
        have hn' : n ∈ notifications ws := by
          rcases List.mem_append.mp hn with hn | hn
          · obtain ⟨item, hitem, rfl⟩ := List.mem_map.mp hn
            exact absurd (hid ▸ List.mem_map_of_mem hitem) hnot
          · exact hn
        have hget' : (Opcua.handleChunk st items).2.polledNodes.get p.nodeId = some p := by
          rw [get_handleChunk, if_neg hnot, hget]
        exact (ih hget' hend' hsup hn').trans (List.sublist_append_right _ _)
      | some item =>
        rw [hfind] at hsup
        have hlt : p.data.serverTimestamp < item.2.serverTimestamp := by simpa using hsup
        rcases List.mem_append.mp hn with hn | hn
        · exact (sublist_handleChunk hget hfind hlt hn hid).trans (List.sublist_append_left _ _)
        · have hitem : (⟨item.1, item.2⟩ : OpcUaSample V) ∈ (Wake.chunk items).notified :=
            List.mem_map_of_mem (List.mem_of_find?_eq_some hfind)
          have hkey : item.1 = p.nodeId := by simpa using List.find?_some hfind
          have hp := (sublist_handleChunk hget hfind hlt hitem hkey).subset List.mem_cons_self
          exact hafter hp hn

end Buffered

end Runs

end Instro.Opcua
