import Instro.Opcua.SessionSafety

/-!
# What sessions hand out

However a session ends, what `on_data` has been given is determined by what the session took in: for a
polling session the reads that were answered, for a subscription the wake-ups of its loop.
-/

namespace Instro.Opcua

open Instro.Library

variable {V : Type}

/-! ## Polling -/

/-- The batches given to `on_data`, in order. -/
def batches (actions : List (Action V)) : List (List (OpcUaSample V)) :=
  actions.filterMap fun
    | .onData samples => some samples
    | .readNodes _ => none

/-- The reads issued, in order. -/
def issued (actions : List (Action V)) : List OpcUaNodeReadBatch :=
  actions.filterMap fun
    | .onData _ => none
    | .readNodes batch => some batch

/-- The answers of the server, in order. -/
def answers (taken : List (PollInput V)) : List (Except String (List (Option (OpcUaDataPoint V)))) :=
  taken.filterMap fun
    | .answer readResult => some readResult
    | _ => none

/-- Each read that was answered with samples has been given to `on_data`, and nothing else has. Every
read asks for all nodes, and at most `open` reads have no answer. -/
structure Polled (nodes : List OpcUaNode) (unanswered : Nat) (taken : List (PollInput V))
    (done : List (Action V)) : Prop where
  batches : batches done =
    (answers taken).filterMap fun readResult => (readNodes (.new nodes .value) readResult).toOption
  issued : issued done =
    List.replicate ((answers taken).length + unanswered) (.new nodes .value)

/-- A loop has at most one read without an answer, the one it waits for. -/
def PollLogged (nodes : List OpcUaNode) (taken : List (PollInput V)) (done : List (Action V))
    (stage : PollStage) : Prop :=
  Polled nodes stage.holdsClient.toNat taken done

def PollEnded (nodes : List OpcUaNode) (taken : List (PollInput V)) (done : List (Action V)) : Prop :=
  ∃ unanswered ≤ 1, Polled nodes unanswered taken done

section Polling

variable {nodes : List OpcUaNode} {taken : List (PollInput V)} {done : List (Action V)}

@[simp] theorem batches_append (as bs : List (Action V)) :
    batches (as ++ bs) = batches as ++ batches bs := List.filterMap_append

@[simp] theorem issued_append (as bs : List (Action V)) :
    issued (as ++ bs) = issued as ++ issued bs := List.filterMap_append

@[simp] theorem answers_append (as bs : List (PollInput V)) :
    answers (as ++ bs) = answers as ++ answers bs := List.filterMap_append

theorem pollLogged_step {alive : Bool} {stage : PollStage} {input : PollInput V}
    {actions : List (Action V)} {next : Option PollStage} (h : PollLogged nodes taken done stage)
    (hstep : PollStep nodes alive stage input actions next) :
    Polled nodes (next.elim false PollStage.holdsClient).toNat (taken ++ [input])
      (done ++ actions) := by
  obtain ⟨hbatches, hissued⟩ := h
  refine ⟨?_, ?_⟩
  · rw [batches_append, answers_append, List.filterMap_append, hbatches]
    congr 1
    cases hstep with
    | deliver hread => simp [batches, answers, hread, Except.toOption]
    | fail hread => simp [batches, answers, hread, Except.toOption]
    | _ => rfl
  · rw [issued_append, answers_append, hissued, List.length_append]
    cases hstep with
    | read hstage =>
      obtain rfl | rfl := hstage <;> exact (List.replicate_succ' ..).symm
    | leave hstage =>
      obtain rfl | rfl := hstage <;> exact List.append_nil _
    | deliver hread => exact List.append_nil _
    | fail hread => exact List.append_nil _
    | sleep => exact List.append_nil _

theorem pollLoop_invariant (nodes : List OpcUaNode) :
    (pollLoop (V := V) nodes).Invariant (PollLogged nodes) (PollEnded nodes) where
  start := ⟨rfl, rfl⟩
  resume h hresume := pollLogged_step h (pollStep_of_resume hresume)
  complete h hresume := ⟨0, by decide, pollLogged_step h (pollStep_of_resume hresume)⟩
  dropped {_ _ stage} h := ⟨_, Bool.toNat_le stage.holdsClient, h⟩

end Polling

/-! ## Subscriptions -/

/-- The wake-ups that the inputs of a subscription loop spell. An input of a tick says more of the last
wake-up: a tick without an answer is one whose read has failed, and an answer is that of a read of the
nodes that were quiet at the tick. -/
inductive Spells (nodes : List OpcUaNode) : List (PumpInput V) → List (Wake V) → Prop
  | nil : Spells nodes [] []
  | tick {taken wakes} (h : Spells nodes taken wakes) (isAlive : Bool)
    (drainOrder valuesOrder : WalkOrder OpcUaNodeId) (e : String) :
    Spells nodes (taken ++ [.tick drainOrder])
      (wakes ++ [.tick ⟨isAlive, .error e, drainOrder, valuesOrder⟩])
  | flushed {taken wakes t} (h : Spells nodes taken (wakes ++ [.tick t]))
    (valuesOrder : WalkOrder OpcUaNodeId) :
    Spells nodes (taken ++ [.flushed valuesOrder]) (wakes ++ [.tick { t with valuesOrder }])
  | answer {taken wakes t st} (h : Spells nodes taken (wakes ++ [.tick t]))
    (hst : stateAfter nodes wakes = some st)
    (readResult : Except String (List (Option (OpcUaDataPoint V)))) :
    Spells nodes (taken ++ [.answer readResult]) (wakes ++ [.tick { t with
      reads := readNodes (.new (st.quietNodes.walk t.valuesOrder) .value) readResult }])
  | chunk {taken wakes} (h : Spells nodes taken wakes)
    (items : List (OpcUaNodeId × OpcUaDataPoint V)) :
    Spells nodes (taken ++ [.chunk items]) (wakes ++ [.chunk items])
  | streamEnd {taken wakes} (h : Spells nodes taken wakes) (drainOrder : WalkOrder OpcUaNodeId) :
    Spells nodes (taken ++ [.streamEnd drainOrder]) (wakes ++ [.streamEnd drainOrder])
  | delivered {taken wakes} (h : Spells nodes taken wakes) :
    Spells nodes (taken ++ [.delivered]) wakes

/-- The loop in one of the stages of its session. -/
inductive PumpLogged (nodes : List OpcUaNode) :
    List (PumpInput V) → List (Action V) → PumpStage V → Prop
  | waiting {taken ws st} (hspells : Spells nodes taken ws) (hst : stateAfter nodes ws = some st) :
    PumpLogged nodes taken (actions nodes ws) (.waiting st)
  | delivering {taken ws st} (hspells : Spells nodes taken ws) (hst : stateAfter nodes ws = some st) :
    PumpLogged nodes taken (actions nodes ws) (.delivering st)
  | flushing {taken ws st t} (hspells : Spells nodes taken (ws ++ [.tick t])) (halive : t.isAlive = true)
    (hst : stateAfter nodes ws = some st) (hreads : ∃ e, t.reads = .error e) :
    PumpLogged nodes taken (actions nodes ws ++ [.onData (st.polledNodes.walk t.drainOrder)])
      (.flushing st.quietNodes)
  | reading {taken ws st t} (hspells : Spells nodes taken (ws ++ [.tick t])) (halive : t.isAlive = true)
    (hst : stateAfter nodes ws = some st) (hquiet : st.quietNodes.isEmpty = false) :
    PumpLogged nodes taken
      (actions nodes ws ++ [.onData (st.polledNodes.walk t.drainOrder),
        .readNodes (.new (st.quietNodes.walk t.valuesOrder) .value)])
      (.reading st.quietNodes (.new (st.quietNodes.walk t.valuesOrder) .value))
  | draining {taken ws} (hspells : Spells nodes taken ws) :
    PumpLogged nodes taken (actions nodes ws) .draining

/-- All that the loop hands out over the wake-ups has been handed out. -/
def PumpEnded (nodes : List OpcUaNode) (taken : List (PumpInput V)) (done : List (Action V)) : Prop :=
  ∃ ws, Spells nodes taken ws ∧ done <+: actions nodes ws ∧ emitted done = emitted (actions nodes ws)

section Subscriptions

variable {nodes : List OpcUaNode} {ws : List (Wake V)} {st : LoopState V}

theorem actions_concat (hst : stateAfter nodes ws = some st) (w : Wake V) :
    actions nodes (ws ++ [w]) =
      actions nodes ws ++ ((subscriptionLoop (collectNodes nodes)).step st w).1 := by
  unfold actions
  rw [EventLoop.actions_append _ hst]
  congr 1
  cases h : ((subscriptionLoop (collectNodes nodes)).step st w).2 with
  | none => exact EventLoop.actions_cons_none _ h []
  | some st' =>
    rw [EventLoop.actions_cons_some _ h, EventLoop.actions_nil, List.append_nil]

theorem stateAfter_concat {st' : LoopState V} {w : Wake V} (hst : stateAfter nodes ws = some st)
    (h : ((subscriptionLoop (collectNodes nodes)).step st w).2 = some st') :
    stateAfter nodes (ws ++ [w]) = some st' :=
  (EventLoop.stateAfter_append_singleton _).mpr ⟨st, hst, h⟩

theorem handleTick_of_noneQuiet {t : Tick V} (hempty : st.quietNodes.isEmpty = true) :
    handleTick (collectNodes nodes) st t =
      ([.onData (st.polledNodes.walk t.drainOrder)], ⟨collectNodes nodes, ∅⟩) := if_pos hempty

theorem handleTick_of_error {t : Tick V} {e : String} (hquiet : st.quietNodes.isEmpty = false)
    (hreads : t.reads = .error e) :
    handleTick (collectNodes nodes) st t =
      ([.onData (st.polledNodes.walk t.drainOrder),
        .readNodes (.new (st.quietNodes.walk t.valuesOrder) .value)], ⟨st.quietNodes, ∅⟩) := by
  unfold handleTick
  rw [if_neg (by simp [hquiet]), hreads]

theorem handleTick_of_ok {t : Tick V} {reads : List (OpcUaSample V)}
    (hquiet : st.quietNodes.isEmpty = false) (hreads : t.reads = .ok reads) :
    handleTick (collectNodes nodes) st t =
      ([.onData (st.polledNodes.walk t.drainOrder),
        .readNodes (.new (st.quietNodes.walk t.valuesOrder) .value)],
        ⟨collectNodes nodes, KeyedTable.extend ∅ reads⟩) := by
  unfold handleTick
  rw [if_neg (by simp [hquiet]), hreads]

/-- A tick that has been handled is a wake-up of the loop. -/
theorem logged_of_tick {taken : List (PumpInput V)} {t : Tick V} {acts : List (Action V)}
    {st' : LoopState V} (hspells : Spells nodes taken (ws ++ [.tick t])) (halive : t.isAlive = true)
    (hst : stateAfter nodes ws = some st)
    (hhandle : handleTick (collectNodes nodes) st t = (acts, st')) :
    PumpLogged nodes taken (actions nodes ws ++ acts) (.waiting st') := by
  have hstep : (subscriptionLoop (collectNodes nodes)).step st (.tick t) = (acts, some st') := by
    rw [step_tick_alive halive, hhandle]
  have hlog := PumpLogged.waiting hspells (stateAfter_concat hst (by rw [hstep]))
  rwa [actions_concat hst, hstep] at hlog

theorem logged_of_chunk {taken : List (PumpInput V)} (hspells : Spells nodes taken ws)
    (hst : stateAfter nodes ws = some st) (items : List (OpcUaNodeId × OpcUaDataPoint V)) :
    Spells nodes (taken ++ [.chunk items]) (ws ++ [.chunk items]) ∧
      stateAfter nodes (ws ++ [.chunk items]) = some (handleChunk st items).2 ∧
      actions nodes (ws ++ [.chunk items]) = actions nodes ws ++
        if (handleChunk st items).1.isEmpty then [] else [.onData (handleChunk st items).1] :=
  ⟨hspells.chunk items, stateAfter_concat hst rfl, actions_concat hst _⟩

theorem logged_of_exit {taken : List (PumpInput V)} {w : Wake V} {o : WalkOrder OpcUaNodeId}
    (hspells : Spells nodes taken (ws ++ [w])) (hst : stateAfter nodes ws = some st)
    (hstep : (subscriptionLoop (collectNodes nodes)).step st w = (exitDrain st o, none)) :
    PumpLogged nodes taken (actions nodes ws ++ exitDrain st o) .draining := by
  have hlog : PumpLogged nodes taken (actions nodes (ws ++ [w])) .draining := .draining hspells
  rwa [actions_concat hst, hstep] at hlog

theorem pumpLogged_step {taken : List (PumpInput V)} {done : List (Action V)} {alive : Bool}
    {stage stage' : PumpStage V} {input : PumpInput V} {acts : List (Action V)}
    (h : PumpLogged nodes taken done stage)
    (hstep : PumpStep (collectNodes nodes) alive stage input acts (some stage')) :
    PumpLogged nodes (taken ++ [input]) (done ++ acts) stage' := by
  cases hstep with
  | @tick st drainOrder =>
    cases h with
    | waiting hspells hst =>
      exact .flushing (.tick hspells true drainOrder drainOrder "") rfl hst ⟨"", rfl⟩
  | @clientGone st drainOrder =>
    cases h with
    | waiting hspells hst =>
      exact logged_of_exit (.tick hspells false drainOrder drainOrder "") hst (step_tick_dropped rfl)
  | @noneQuiet _ _ valuesOrder hempty =>
    cases h with
    | flushing hspells halive hst =>
      rw [List.append_nil]
      exact logged_of_tick (hspells.flushed valuesOrder) halive hst
        (handleTick_of_noneQuiet hempty)
  | @read _ valuesOrder hquiet =>
    cases h with
    | flushing hspells halive hst =>
      rw [List.append_assoc]
      exact .reading (hspells.flushed valuesOrder) halive hst hquiet
  | @bail _ valuesOrder hquiet =>
    cases h with
    | flushing hspells halive hst hreads =>
      obtain ⟨e, hreads⟩ := hreads
      rw [List.append_assoc]
      exact logged_of_tick (hspells.flushed valuesOrder) halive hst
        (handleTick_of_error hquiet hreads)
  | @fail _ _ _ readResult e hread =>
    cases h with
    | reading hspells halive hst hquiet =>
      rw [List.append_nil]
      exact logged_of_tick (hspells.answer hst readResult) halive hst
        (handleTick_of_error hquiet hread)
  | @buffer _ _ _ readResult reads hread =>
    cases h with
    | reading hspells halive hst hquiet =>
      rw [List.append_nil]
      exact logged_of_tick (hspells.answer hst readResult) halive hst (handleTick_of_ok hquiet hread)
  | @noSamples _ _ items hempty =>
    cases h with
    | waiting hspells hst =>
      obtain ⟨hspells', hst', hactions⟩ := logged_of_chunk hspells hst items
      rw [if_pos hempty] at hactions
      rw [← hactions]
      exact .waiting hspells' hst'
  | @deliver _ _ items hsamples =>
    cases h with
    | waiting hspells hst =>
      obtain ⟨hspells', hst', hactions⟩ := logged_of_chunk hspells hst items
      rw [if_neg (by simp [hsamples])] at hactions
      rw [← hactions]
      exact .delivering hspells' hst'
  | delivered =>
    cases h with
    | delivering hspells hst =>
      rw [List.append_nil]
      exact .waiting hspells.delivered hst
  | @streamEnd _ _ drainOrder =>
    cases h with
    | waiting hspells hst =>
      exact logged_of_exit (hspells.streamEnd drainOrder) hst (step_streamEnd drainOrder)

/-- A tick flushes first. -/
theorem flush_first (t : Tick V) :
    [.onData (st.polledNodes.walk t.drainOrder)] <+: (handleTick (collectNodes nodes) st t).1 := by
  unfold handleTick
  split_ifs
  · exact List.prefix_rfl
  · cases t.reads <;> exact List.prefix_append _ [_]

theorem handleTick_actions {t : Tick V} (hquiet : st.quietNodes.isEmpty = false) :
    (handleTick (collectNodes nodes) st t).1 =
      [.onData (st.polledNodes.walk t.drainOrder),
        .readNodes (.new (st.quietNodes.walk t.valuesOrder) .value)] := by
  cases hreads : t.reads with
  | error e => rw [handleTick_of_error hquiet hreads]
  | ok reads => rw [handleTick_of_ok hquiet hreads]

/-- A stage that is interrupted has handed out what there was to hand out. -/
theorem pumpEnded_of_logged {taken : List (PumpInput V)} {done : List (Action V)}
    {stage : PumpStage V} (h : PumpLogged nodes taken done stage) : PumpEnded nodes taken done := by
  cases h with
  | waiting hspells hst => exact ⟨_, hspells, List.prefix_rfl, rfl⟩
  | delivering hspells hst => exact ⟨_, hspells, List.prefix_rfl, rfl⟩
  | draining hspells => exact ⟨_, hspells, List.prefix_rfl, rfl⟩
  | @flushing ws st t hspells halive hst =>
    refine ⟨_, hspells, ?_⟩
    rw [actions_concat hst, step_tick_alive halive, emitted_append, emitted_append,
      emitted_handleTick]
    refine ⟨(List.prefix_append_right_inj _).mpr (flush_first t), ?_⟩
    rw [emitted, emitted, List.append_nil]
  | reading hspells halive hst hquiet =>
    refine ⟨_, hspells, ?_⟩
    rw [actions_concat hst, step_tick_alive halive, handleTick_actions hquiet]
    exact ⟨List.prefix_rfl, rfl⟩

theorem subscriptionPump_invariant (nodes : List OpcUaNode) :
    (subscriptionPump (V := V) (collectNodes nodes)).Invariant (PumpLogged nodes)
      (PumpEnded nodes) where
  start := .waiting .nil rfl
  resume h hresume := pumpLogged_step h (pumpStep_of_resume hresume)
  complete h hresume := by
    cases pumpStep_of_resume hresume with
    | drained =>
      cases h with
      | draining hspells =>
        rw [List.append_nil]
        exact ⟨_, hspells.delivered, List.prefix_rfl, rfl⟩
  dropped h := pumpEnded_of_logged h

end Subscriptions

/-! ## Sessions of a client -/

def SessionEvent.pollInput : SessionEvent V → Option (PollInput V)
  | .polling event => event.input
  | .subscription _ => none

def SessionEvent.pumpInput : SessionEvent V → Option (PumpInput V)
  | .polling _ => none
  | .subscription event => event.input

/-- The events of a session in a run. -/
def sessionEvents (i : Nat) (es : List (Event V)) : List (SessionEvent V) :=
  es.filterMap fun
    | .session j event => if j = i then some event else none
    | .client _ => none

/-- What is seen of a session in a run. -/
def sessionActions (i : Nat) (observations : List (Observation V)) : List (Action V) :=
  observations.filterMap fun
    | .session j action => if j = i then some action else none
    | .disconnected _ => none

/-- The thread of the session has taken the inputs of the events and done the actions. -/
def OpcUaStreamSession.Logged (events : List (SessionEvent V)) (done : List (Action V)) :
    OpcUaStreamSession V → Prop
  | .polling nodes worker =>
    worker.thread.Keeps (PollLogged nodes (events.filterMap SessionEvent.pollInput) done)
      (PollEnded nodes (events.filterMap SessionEvent.pollInput) done)
  | .subscription nodes worker =>
    worker.thread.Keeps (PumpLogged nodes (events.filterMap SessionEvent.pumpInput) done)
      (PumpEnded nodes (events.filterMap SessionEvent.pumpInput) done)

theorem filterMap_snoc {α β : Type} (f : α → Option β) (as : List α) (a : α) :
    (as ++ [a]).filterMap f = as.filterMap f ++ (f a).toList := by
  rw [List.filterMap_append]
  cases h : f a <;> simp [h]

theorem logged_step {session session' : OpcUaStreamSession V} {events : List (SessionEvent V)}
    {done actions : List (Action V)} {alive : Bool} {event : SessionEvent V}
    (hlogged : session.Logged events done)
    (h : session.step alive event = some (actions, session')) :
    session'.Logged (events ++ [event]) (done ++ actions) := by
  obtain ⟨nodes, worker, workerEvent, worker', rfl, rfl, rfl, hstep⟩ |
    ⟨nodes, worker, workerEvent, worker', rfl, rfl, rfl, hstep⟩ :=
      OpcUaStreamSession.step_cases h
  · have hkeeps := Future.keeps_step (pollLoop_invariant nodes) hlogged hstep
    simp only [OpcUaStreamSession.Logged, filterMap_snoc]
    exact hkeeps
  · have hkeeps := Future.keeps_step (subscriptionPump_invariant nodes) hlogged hstep
    simp only [OpcUaStreamSession.Logged, filterMap_snoc]
    exact hkeeps

/-- A session that is started has taken and done nothing. -/
def System.Logged (s : System V) (es : List (Event V)) (observations : List (Observation V)) : Prop :=
  ∀ i, match s.sessions[i]? with
    | some session => session.Logged (sessionEvents i es) (sessionActions i observations)
    | none => sessionEvents i es = [] ∧ sessionActions i observations = []

section Runs

variable {s s' : System V} {es : List (Event V)} {event : Event V}
  {done observations : List (Observation V)}

theorem sessionActions_map (i j : Nat) (actions : List (Action V)) :
    sessionActions i (actions.map (.session j)) = if j = i then actions else [] := by
  unfold sessionActions
  rw [List.filterMap_map]
  by_cases h : j = i
  · rw [if_pos h]
    simp [h]
  · rw [if_neg h]
    simp [h]

theorem sessionEvents_client (i : Nat) (call : ClientCall) :
    sessionEvents i (es ++ [.client call]) = sessionEvents i es :=
  (filterMap_snoc _ _ _).trans (List.append_nil _)

theorem sessionEvents_session (i j : Nat) (event : SessionEvent V) :
    sessionEvents i (es ++ [.session j event]) =
      sessionEvents i es ++ if j = i then [event] else [] := by
  unfold sessionEvents
  rw [filterMap_snoc]
  by_cases h : j = i <;> simp [h]

theorem sessionActions_append (i : Nat) (as bs : List (Observation V)) :
    sessionActions i (as ++ bs) = sessionActions i as ++ sessionActions i bs :=
  List.filterMap_append

/-- A call leaves the sessions there are and may start one. -/
theorem call_cases (call : ClientCall) :
    (∀ i, sessionActions i (s.call call).1 = []) ∧
      ((s.call call).2.sessions = s.sessions ∨
        ∃ session, (s.call call).2.sessions = s.sessions ++ [session] ∧ session.Logged [] []) := by
  cases call with
  | clone => exact ⟨fun _ => rfl, .inl rfl⟩
  | drop => exact ⟨fun _ => rfl, .inl rfl⟩
  | disconnect =>
    unfold System.call System.disconnect
    dsimp only
    split_ifs
    · exact ⟨fun _ => rfl, .inl rfl⟩
    · exact ⟨fun _ => rfl, .inl rfl⟩
  | startPolling nodes =>
    exact ⟨fun _ => rfl, .inr ⟨_, rfl, (pollLoop_invariant nodes).start⟩⟩
  | startSubscription nodes =>
    exact ⟨fun _ => rfl, .inr ⟨_, rfl, (subscriptionPump_invariant nodes).start⟩⟩

theorem System.logged_step (hlogged : s.Logged es done)
    (h : s.step event = some (observations, s')) :
    s'.Logged (es ++ [event]) (done ++ observations) := by
  intro i
  have hi := hlogged i
  rw [sessionActions_append]
  cases event with
  | client call =>
    obtain ⟨-, h⟩ := Option.ite_none_right_eq_some.mp h
    obtain ⟨hactions, hsessions⟩ := call_cases (s := s) call
    rw [Option.some.inj h] at hactions hsessions
    rw [sessionEvents_client, hactions i, List.append_nil]
    obtain hsame | ⟨session, hnew, hsession⟩ := hsessions
    · rw [hsame]
      exact hi
    · rw [hnew]
      by_cases hlt : i < s.sessions.length
      · rw [List.getElem?_append_left hlt]
        exact hi
      · rw [List.getElem?_eq_none (by omega)] at hi
        obtain ⟨hevents, hdone⟩ := hi
        rw [List.getElem?_append_right (by omega), hevents, hdone]
        cases hrest : i - s.sessions.length with
        | zero => exact hsession
        | succ k => exact ⟨rfl, rfl⟩
  | session j event =>
    obtain ⟨session, session', actions, hj, hstep, rfl, rfl⟩ := System.stepSession_cases h
    rw [sessionEvents_session, sessionActions_map]
    obtain ⟨hlt, rfl⟩ := List.getElem?_eq_some_iff.mp hj
    by_cases hij : j = i
    · subst hij
      rw [if_pos rfl, if_pos rfl]
      rw [hj] at hi
      show match (s.sessions.set j session')[j]? with
        | some session => session.Logged _ _
        | none => _
      rw [List.getElem?_set_self hlt]
      exact Instro.Opcua.logged_step hi hstep
    · rw [if_neg hij, if_neg hij, List.append_nil, List.append_nil]
      show match (s.sessions.set j session')[i]? with
        | some session => session.Logged _ _
        | none => _
      rw [List.getElem?_set_ne hij]
      exact hi

theorem logged_run (h : streaming.stateAfter (System.initial : System V) es = some s) :
    s.Logged es (streaming.actions System.initial es) := by
  induction es using List.reverseRecOn generalizing s with
  | nil =>
    obtain rfl := Option.some.inj h
    exact fun _ => ⟨rfl, rfl⟩
  | append_singleton es event ih =>
    obtain ⟨t, ht, hstep⟩ := streaming.stateAfter_append_singleton.mp h
    rw [streaming.actions_append ht, streaming.actions_cons_some hstep, streaming.actions_nil,
      List.append_nil]
    exact System.logged_step (ih ht) (EventLoop.step_of_ofStep hstep)

end Runs

/-- What a session has given to `on_data`, whether it goes on, has ended or was interrupted: a polling
session the samples of its answered reads, one batch for each, and a subscription all that its loop
emits over the wake-ups it has had. -/
theorem sessions_deliver {es : List (Event V)} {s : System V}
    (h : streaming.stateAfter (System.initial : System V) es = some s) (i : Nat) :
    (∀ nodes worker, s.sessions[i]? = some (.polling nodes worker) →
      PollEnded nodes ((sessionEvents i es).filterMap SessionEvent.pollInput)
        (sessionActions i (streaming.actions System.initial es))) ∧
    ∀ nodes worker, s.sessions[i]? = some (.subscription nodes worker) →
      PumpEnded nodes ((sessionEvents i es).filterMap SessionEvent.pumpInput)
        (sessionActions i (streaming.actions System.initial es)) := by
  have hi := logged_run h i
  constructor
  · intro nodes worker hsession
    rw [hsession] at hi
    exact Future.ended_of_keeps (pollLoop_invariant nodes) hi
  · intro nodes worker hsession
    rw [hsession] at hi
    exact Future.ended_of_keeps (subscriptionPump_invariant nodes) hi

/-- A node that is polled. -/
def quietNode : OpcUaNode := ⟨⟨2, .string "Tag"⟩, "Tag", "Tag", .variable, []⟩

/-- The node is quiet at the first tick, and the answer of its read is flushed at the second one. The
session is stopped while its next read is under way. -/
def stoppedRun : List (Event Nat) :=
  let resume := fun input => Event.session 0 (.subscription (.resume input))
  [.client (.startSubscription [quietNode]), resume (.tick (.stored _)), resume (.flushed (.stored _)),
    resume (.answer (.ok [some ⟨7, none, 42⟩])), resume (.tick (.stored _)),
    .session 0 (.subscription (.stop true)), resume (.flushed (.stored _)),
    .session 0 (.subscription .cancel), .session 0 (.subscription .terminate),
    .session 0 (.subscription .receive), .client .disconnect]

theorem sessions_deliver_stopped :
    streaming.stateAfter System.initial stoppedRun =
        some ⟨0, 0, .disconnected, [.subscription [quietNode] ⟨.exited, .returned true⟩]⟩ ∧
      emitted (sessionActions 0 (streaming.actions System.initial stoppedRun)) =
        [⟨quietNode.nodeId, ⟨7, none, 42⟩⟩] ∧
      PumpEnded [quietNode] ((sessionEvents 0 stoppedRun).filterMap SessionEvent.pumpInput)
        (sessionActions 0 (streaming.actions System.initial stoppedRun)) :=
  ⟨rfl, rfl, (sessions_deliver rfl 0).2 [quietNode] _ rfl⟩

end Instro.Opcua
