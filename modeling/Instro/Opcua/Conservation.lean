import Instro.Opcua.Origins
import Instro.Opcua.PollingSet

/-!
# Sample conservation

Over a run that ends through the loop's own exits, every notification is emitted once and in order,
every polled sample once unless it is superseded, and nothing else is emitted.
-/

namespace Instro.Opcua

open Instro.Library

variable {V : Type}

/-- The samples handed to `on_data` over a run, in order. -/
def emittedBy (nodes : List OpcUaNode) (ws : List (Wake V)) : List (OpcUaSample V) :=
  emitted (actions nodes ws)

/-- The loop leaves at the last wake: the stream has ended, or a tick finds the client gone. -/
def Ends (nodes : List OpcUaNode) (ws : List (Wake V)) : Prop :=
  (subscriptionLoop (collectNodes nodes)).Leaves (.init (collectNodes nodes)) ws

/-- Between `pre` and `post` there is a tick whose batch read returned `s` as its `j`-th sample. -/
def PolledAt (nodes : List OpcUaNode) (ws pre post : List (Wake V)) (j : Nat)
    (s : OpcUaSample V) : Prop :=
  ∃ t st, ws = pre ++ .tick t :: post ∧ stateAfter nodes pre = some st ∧ t.isAlive = true ∧
    (readsAt st t)[j]? = some s

/-- The sample is a notification. -/
def Origin.isNotification : Origin → Bool
  | .notification _ => true
  | .polled _ _ => false

/-- The log lists what a run emits, each sample with its origin. -/
structure Conserved (nodes : List OpcUaNode) (ws : List (Wake V))
    (log : List (OpcUaSample (Marked V))) : Prop where
  emits : log.map OpcUaSample.unmark = emittedBy nodes ws
  notified : log.filter (·.origin.isNotification) =
    (notifications ws).mapIdx fun i n => n.mark (.notification i)
  polled : ∀ pre post j s, PolledAt nodes ws pre post j s →
    log.filter (fun l => l.origin = .polled pre.length j) =
      if superseded s post then [] else [s.mark (.polled pre.length j)]
  ordered : ∀ pre post j s, PolledAt nodes ws pre post j s → superseded s post = false →
    ∀ i n, (notifications pre).length ≤ i → (notifications ws)[i]? = some n →
      n.nodeId = s.nodeId →
      [s.mark (.polled pre.length j), n.mark (.notification i)].Sublist log
  sourced : ∀ l ∈ log,
    (∃ i, ∃ n : OpcUaSample V, (notifications ws)[i]? = some n ∧ l = n.mark (.notification i)) ∨
      ∃ pre post j s, PolledAt nodes ws pre post j s ∧ l = s.mark (.polled pre.length j)

theorem Ends.endsAtLast {nodes : List OpcUaNode} {ws : List (Wake V)} (h : Ends nodes ws) :
    EndsAtLast ws := by
  obtain ⟨pre, w, st, rfl, hst, hw⟩ := h
  refine ⟨pre, w, rfl, ?_, ?_⟩
  · exact (stateAfter_isSome_iff nodes).mp (Option.isSome_iff_exists.mpr ⟨st, hst⟩)
  · rw [← step_isSome_iff (collectNodes nodes) st, hw]
    rfl

/-! ## The marked run -/

section MarkedRun

variable {st' : LoopState (Marked V)} {st : LoopState V}

theorem readsAt_mark (h : LoopState.MapsTo Prod.snd st' st) (k : Nat) (t : Tick V) :
    readsAt st' (t.mark k) = (readsAt st t).mapIdx fun j s => s.mark (.polled k j) := by
  unfold readsAt Tick.mark
  rw [h.quietNodes]
  split_ifs
  · rfl
  · cases t.reads <;> rfl

theorem markWakes_split (pre : List (Wake V)) (t : Tick V) (post : List (Wake V)) :
    markWakes 0 0 (pre ++ .tick t :: post) =
      markWakes 0 0 pre ++ .tick (t.mark pre.length) ::
        markWakes (notifications pre).length (pre.length + 1) post := by
  rw [markWakes_append, markWakes, Nat.zero_add, Nat.zero_add]

/-- The marked run is in a state related to that of the run. -/
theorem stateAfter_markWakes {nodes : List OpcUaNode} {pre : List (Wake V)} {i k : Nat}
    (h : stateAfter nodes pre = some st) :
    ∃ st', stateAfter nodes (markWakes i k pre) = some st' ∧
      LoopState.MapsTo Prod.snd st' st := by
  rw [← markWakes_map_snd i k pre] at h
  exact stateAfter_map LoopState.MapsTo.init h

/-- The reads of marked wakes carry the number of their wake. -/
theorem origin_of_mem_reads {i k : Nat} {ws : List (Wake V)} {t : Tick (Marked V)}
    {s : OpcUaSample (Marked V)} (ht : .tick t ∈ markWakes i k ws)
    (hs : s ∈ t.reads.toOption.getD []) :
    ∃ k' j, s.origin = .polled k' j ∧ k ≤ k' ∧ k' < k + ws.length := by
  induction ws generalizing i k with
  | nil => exact absurd ht List.not_mem_nil
  | cons w ws ih =>
    have hrest : ∀ i', .tick t ∈ markWakes i' (k + 1) ws →
        ∃ k' j, s.origin = .polled k' j ∧ k ≤ k' ∧ k' < k + (w :: ws).length := by
      intro i' ht
      obtain ⟨k', j, horigin, hlo, hhi⟩ := ih ht
      refine ⟨k', j, horigin, by omega, ?_⟩
      rw [List.length_cons]
      omega
    cases w with
    | chunk items =>
      rcases List.mem_cons.mp ht with ht | ht
      · cases ht
      · exact hrest _ ht
    | streamEnd o =>
      rcases List.mem_cons.mp ht with ht | ht
      · cases ht
      · exact hrest _ ht
    | tick t₀ =>
      rcases List.mem_cons.mp ht with ht | ht
      · obtain rfl : t = t₀.mark k := Wake.tick.inj ht
        obtain ⟨isAlive, reads, o, o'⟩ := t₀
        cases reads with
        | error e => exact absurd hs List.not_mem_nil
        | ok reads =>
          have hs' : s ∈ reads.mapIdx fun j s => s.mark (.polled k j) := hs
          obtain ⟨j, _, rfl⟩ := List.mem_mapIdx.mp hs'
          exact ⟨k, j, rfl, Nat.le_refl k, by simp⟩
      · exact hrest _ ht

theorem origin_of_mem_notifications {i k : Nat} {ws : List (Wake V)}
    {s : OpcUaSample (Marked V)} (hs : s ∈ notifications (markWakes i k ws)) :
    ∃ j, s.origin = .notification j := by
  rw [notifications_markWakes] at hs
  obtain ⟨j, _, rfl⟩ := List.mem_mapIdx.mp hs
  exact ⟨i + j, rfl⟩

/-- Wakes numbered otherwise than `k` have no sample of a read of wake `k`. -/
theorem avoids_markWakes {i i' k j : Nat} {ws : List (Wake V)}
    (hk : k < i' ∨ i' + ws.length ≤ k) :
    Avoids (fun s => s.origin = .polled k j) (markWakes i i' ws) := by
  constructor
  · intro s hs
    obtain ⟨j', h⟩ := origin_of_mem_notifications hs
    simp [h]
  · intro t ht s hs
    obtain ⟨k', j', h, hlo, hhi⟩ := origin_of_mem_reads ht hs
    have hne : k' ≠ k := by omega
    simp [h, hne]

/-- Right after its tick a polled sample is in the buffer, alone with its origin. -/
theorem buffered_of_readsAt (allNodes : NodeMap) (h : LoopState.MapsTo Prod.snd st' st)
    {t : Tick V} {k j : Nat} {s : OpcUaSample V} (hs : (readsAt st t)[j]? = some s)
    (hnodup : ((readsAt st t).map (·.nodeId)).Nodup) :
    Buffered (fun s => s.origin = .polled k j) (handleTick allNodes st' (t.mark k)).2
      (s.mark (.polled k j)) where
  get := by
    rw [polledNodes_handleTick, readsAt_mark h]
    have hmem : s.mark (.polled k j) ∈ (readsAt st t).mapIdx fun j s => s.mark (.polled k j) := by
      obtain ⟨hj, rfl⟩ := List.getElem?_eq_some_iff.mp hs
      exact List.mem_mapIdx.mpr ⟨j, hj, rfl⟩
    refine KeyedTable.get_extend_of_mem ?_ hmem
    rw [map_mapIdx]
    have hids : ((readsAt st t).mapIdx fun j s => (s.mark (.polled k j)).nodeId) =
        (readsAt st t).map (·.nodeId) :=
      List.ext_getElem? fun j => by
        rw [List.getElem?_mapIdx, List.getElem?_map]
        rfl
    rw [hids]
    exact hnodup
  self := by simp
  unique id p hp hQ := by
    have hmem := mem_readsAt_of_get hp
    rw [readsAt_mark h] at hmem
    obtain ⟨j', hj', rfl⟩ := List.mem_mapIdx.mp hmem
    obtain ⟨-, rfl⟩ : k = k ∧ j' = j := by simpa using hQ
    rw [List.getElem?_eq_getElem hj'] at hs
    rw [Option.some.inj hs]

end MarkedRun

/-! ## The log of a run -/

section Log

variable {nodes : List OpcUaNode} {ws : List (Wake V)}

/-- What the marked run emits. -/
def markedLog (nodes : List OpcUaNode) (ws : List (Wake V)) : List (OpcUaSample (Marked V)) :=
  emittedBy nodes (markWakes 0 0 ws)

theorem markedLog_unmark : (markedLog nodes ws).map OpcUaSample.unmark = emittedBy nodes ws := by
  have h : _ = emit (collectNodes nodes) (.init (collectNodes nodes)) _ :=
    map_emit (f := Prod.snd) LoopState.MapsTo.init (markWakes 0 0 ws)
  rw [markWakes_map_snd] at h
  exact h

theorem not_get_init {W : Type} {allNodes : NodeMap} {id : OpcUaNodeId} {s : OpcUaSample W} :
    (LoopState.init allNodes).polledNodes.get id ≠ some s := by
  show (∅ : SampleMap W).get id ≠ some s
  rw [KeyedTable.get_empty]
  exact nofun

theorem markedLog_notified (hend : EndsAtLast ws) :
    (markedLog nodes ws).filter (·.origin.isNotification) =
      (notifications ws).mapIdx fun i n => n.mark (.notification i) := by
  have h : (markedLog nodes ws).filter (·.origin.isNotification) =
      notifications (markWakes 0 0 ws) := by
    refine filter_emit_notifications (fun id s hs => absurd hs not_get_init) ?_ ?_
      (endsAtLast_markWakes hend)
    · intro s hs
      obtain ⟨j, h⟩ := origin_of_mem_notifications hs
      simp only [h]
      rfl
    · intro t ht s hs
      obtain ⟨k, j, h, -⟩ := origin_of_mem_reads ht hs
      simp only [h]
      rfl
  rw [h, notifications_markWakes]
  simp only [Nat.zero_add]

/-- The log up to a tick's flush, and the log after it. -/
theorem markedLog_split {pre post : List (Wake V)} {t : Tick V} {st' : LoopState (Marked V)}
    (hst' : stateAfter nodes (markWakes 0 0 pre) = some st') (ht : t.isAlive = true) :
    markedLog nodes (pre ++ .tick t :: post) =
      emit (collectNodes nodes) (.init (collectNodes nodes))
          (markWakes 0 0 pre ++ [.streamEnd t.drainOrder]) ++
        emit (collectNodes nodes) (handleTick (collectNodes nodes) st' (t.mark pre.length)).2
          (markWakes (notifications pre).length (pre.length + 1) post) := by
  have hpre : ∀ fs, emit (collectNodes nodes) (.init (collectNodes nodes))
      (markWakes 0 0 pre ++ fs) = emit (collectNodes nodes) (.init (collectNodes nodes))
        (markWakes 0 0 pre) ++ emit (collectNodes nodes) st' fs := fun fs => by
    unfold emit
    rw [EventLoop.actions_append _ hst', emitted_append]
  show emit _ _ (markWakes 0 0 _) = _
  rw [markWakes_split, hpre, hpre, emit_streamEnd, emit_tick (t := t.mark _) ht,
    List.append_assoc]
  rfl

theorem endsAtLast_of_append {pre post : List (Wake V)} {t : Tick V}
    (h : EndsAtLast (pre ++ .tick t :: post)) (ht : t.isAlive = true) : EndsAtLast post := by
  induction pre with
  | nil =>
    rcases endsAtLast_cons.mp h with ⟨hw, -⟩ | ⟨-, h'⟩
    · exact absurd (ht.symm.trans hw) (by simp)
    · exact h'
  | cons w pre ih =>
    rcases endsAtLast_cons.mp h with ⟨-, hw⟩ | ⟨-, h'⟩
    · exact absurd hw (by simp)
    · exact ih h'

theorem PolledAt.nodup {pre post : List (Wake V)} {st : LoopState V} {t : Tick V}
    (hreads : ReadsOncePerNode (pre ++ .tick t :: post)) :
    ((readsAt st t).map (·.nodeId)).Nodup := by
  refine ((readsAt_sublist st t).map _).nodup ?_
  cases h : t.reads with
  | error e => exact List.nodup_nil
  | ok reads => exact hreads t reads (by simp) h

theorem markedLog_polled (hend : EndsAtLast ws) (hreads : ReadsOncePerNode ws)
    {pre post : List (Wake V)} {j : Nat} {s : OpcUaSample V}
    (h : PolledAt nodes ws pre post j s) :
    (markedLog nodes ws).filter (fun l => l.origin = .polled pre.length j) =
      if superseded s post then [] else [s.mark (.polled pre.length j)] := by
  obtain ⟨t, st, rfl, hst, ht, hs⟩ := h
  obtain ⟨st', hst', hrel⟩ := stateAfter_markWakes (i := 0) (k := 0) hst
  have hbuf := buffered_of_readsAt (collectNodes nodes) (k := pre.length) hrel hs
    (PolledAt.nodup hreads)
  -- nothing of this read is emitted up to the flush of its own tick
  have hbefore : (emit (collectNodes nodes) (.init (collectNodes nodes))
      (markWakes 0 0 pre ++ [.streamEnd t.drainOrder])).filter
        (fun l => l.origin = .polled pre.length j) = [] := by
    refine filter_emit_of_avoids (fun id s hs => absurd hs not_get_init) ?_
    exact (avoids_markWakes (.inr (Nat.zero_add _ ▸ Nat.le_refl _))).append_streamEnd _
  rw [markedLog_split hst' ht, List.filter_append, hbefore, List.nil_append,
    filter_emit_buffered hbuf (endsAtLast_markWakes (endsAtLast_of_append hend ht))
      (avoids_markWakes (.inl (Nat.lt_succ_self _))), superseded_markWakes]

theorem markedLog_ordered (hend : EndsAtLast ws) (hreads : ReadsOncePerNode ws)
    {pre post : List (Wake V)} {j : Nat} {s : OpcUaSample V}
    (h : PolledAt nodes ws pre post j s) (hsup : superseded s post = false) {i : Nat}
    {n : OpcUaSample V} (hi : (notifications pre).length ≤ i)
    (hn : (notifications ws)[i]? = some n) (hid : n.nodeId = s.nodeId) :
    [s.mark (.polled pre.length j), n.mark (.notification i)].Sublist (markedLog nodes ws) := by
  obtain ⟨t, st, rfl, hst, ht, hs⟩ := h
  obtain ⟨st', hst', hrel⟩ := stateAfter_markWakes (i := 0) (k := 0) hst
  have hbuf := buffered_of_readsAt (collectNodes nodes) (k := pre.length) hrel hs
    (PolledAt.nodup hreads)
  have hpost : (notifications post)[i - (notifications pre).length]? = some n := by
    rw [notifications_append, List.getElem?_append_right hi] at hn
    exact hn
  have hmem : n.mark (.notification i) ∈
      notifications (markWakes (notifications pre).length (pre.length + 1) post) := by
    obtain ⟨hlt, rfl⟩ := List.getElem?_eq_some_iff.mp hpost
    rw [notifications_markWakes]
    refine List.mem_mapIdx.mpr ⟨_, hlt, ?_⟩
    rw [Nat.add_sub_cancel' hi]
  rw [markedLog_split hst' ht]
  refine (sublist_emit_buffered hbuf.get (endsAtLast_markWakes (endsAtLast_of_append hend ht)) ?_
    hmem hid).trans (List.sublist_append_right _ _)
  rw [superseded_markWakes, hsup]

/-- Every tick of the marked wakes is a marked tick of the wakes. -/
theorem split_of_markWakes {pre' post' : List (Wake (Marked V))} {t' : Tick (Marked V)}
    (h : markWakes 0 0 ws = pre' ++ .tick t' :: post') :
    ∃ pre t post, ws = pre ++ .tick t :: post ∧ pre' = markWakes 0 0 pre ∧
      t' = t.mark pre.length := by
  have hws : ws = pre'.map (Wake.map Prod.snd) ++
      .tick (t'.map Prod.snd) :: post'.map (Wake.map Prod.snd) := by
    rw [← markWakes_map_snd 0 0 ws, h, List.map_append, List.map_cons]
    rfl
  refine ⟨_, _, _, hws, ?_⟩
  have h' := markWakes_split (pre'.map (Wake.map Prod.snd)) (t'.map Prod.snd)
    (post'.map (Wake.map Prod.snd))
  rw [← hws, h] at h'
  have hlen : pre'.length = (markWakes 0 0 (pre'.map (Wake.map Prod.snd))).length := by
    rw [length_markWakes, List.length_map]
  obtain ⟨hpre, hrest⟩ := List.append_inj h' hlen
  exact ⟨hpre, Wake.tick.inj (List.cons.inj hrest).1⟩

theorem markedLog_sourced {l : OpcUaSample (Marked V)} (hl : l ∈ markedLog nodes ws) :
    (∃ i, ∃ n : OpcUaSample V, (notifications ws)[i]? = some n ∧ l = n.mark (.notification i)) ∨
      ∃ pre post j s, PolledAt nodes ws pre post j s ∧ l = s.mark (.polled pre.length j) := by
  rcases source_of_mem_emit hl with ⟨id, h⟩ | h | ⟨pre', t', post', st', h, hst', ht, hs⟩
  · exact absurd h not_get_init
  · rw [notifications_markWakes] at h
    obtain ⟨i, hi, rfl⟩ := List.mem_mapIdx.mp h
    exact .inl ⟨i, _, List.getElem?_eq_getElem hi, by rw [Nat.zero_add]⟩
  · obtain ⟨pre, t, post, rfl, rfl, rfl⟩ := split_of_markWakes h
    have hlive : (stateAfter nodes pre).isSome := by
      have := (stateAfter_isSome_iff nodes).mp (Option.isSome_iff_exists.mpr ⟨st', hst'⟩)
      refine (stateAfter_isSome_iff nodes).mpr fun w hw => ?_
      rw [← markWakes_map_snd 0 0 pre] at hw
      obtain ⟨w', hw', rfl⟩ := List.mem_map.mp hw
      rw [Wake.staysIn_map]
      exact this w' hw'
    obtain ⟨st, hst⟩ := Option.isSome_iff_exists.mp hlive
    obtain ⟨st'', hst'', hrel⟩ := stateAfter_markWakes (i := 0) (k := 0) hst
    obtain rfl : st'' = st' := Option.some.inj (hst''.symm.trans hst')
    rw [readsAt_mark hrel] at hs
    obtain ⟨j, hj, rfl⟩ := List.mem_mapIdx.mp hs
    exact .inr ⟨pre, post, j, _, ⟨t, st, rfl, hst, ht, List.getElem?_eq_getElem hj⟩, rfl⟩

end Log

/-- **Sample conservation.** What a run emits that ends through the loop's own exits is conserved:
each sample of the run can be given its origin so that notifications and polled samples appear
exactly as often, and in the order, they should. -/
theorem samples_conserved (nodes : List OpcUaNode) (ws : List (Wake V)) (hend : Ends nodes ws)
    (hreads : ReadsOncePerNode ws) : ∃ log, Conserved nodes ws log := by
  refine ⟨markedLog nodes ws, ?_⟩
  constructor
  · exact markedLog_unmark
  · exact markedLog_notified hend.endsAtLast
  · intro pre post j s h
    exact markedLog_polled hend.endsAtLast hreads h
  · intro pre post j s h hsup i n hi hn hid
    exact markedLog_ordered hend.endsAtLast hreads h hsup hi hn hid
  · intro l hl
    exact markedLog_sourced hl

/-- Two nodes; node 1 notifies, node 2 is polled at 5 and then notifies at 9; the stream ends. -/
theorem samples_conserved_two_nodes :
    ∃ log, Conserved [sampleNode 1, sampleNode 2]
      [.chunk [((sampleNode 1).nodeId, ⟨3, none, ()⟩)],
        .tick (sampleTick (.ok [⟨(sampleNode 2).nodeId, ⟨5, none, ()⟩⟩])),
        .chunk [((sampleNode 2).nodeId, ⟨9, none, ()⟩)], .streamEnd (.stored _)] log := by
  refine samples_conserved _ _ ⟨[.chunk [((sampleNode 1).nodeId, ⟨3, none, ()⟩)],
    .tick (sampleTick (.ok [⟨(sampleNode 2).nodeId, ⟨5, none, ()⟩⟩])),
    .chunk [((sampleNode 2).nodeId, ⟨9, none, ()⟩)]], .streamEnd (.stored _), _, rfl, rfl, rfl⟩ ?_
  intro t reads ht hreads
  obtain rfl : t = sampleTick (.ok [⟨(sampleNode 2).nodeId, ⟨5, none, ()⟩⟩]) := by simpa using ht
  obtain rfl := Except.ok.inj hreads
  exact List.nodup_singleton _

end Instro.Opcua
