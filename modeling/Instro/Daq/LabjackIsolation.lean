import Instro.Daq.Labjack

/-!
# Isolation of LabJack acquisitions

A batch is stamped when a callback reads it, with the number of `start()` calls that had returned.
Nothing between two acquisitions removes the batches of the first, and `stop()` leaves the stream of
the device as it is. So acquisitions are isolated in the runs that stop only a device that does not
stream, and start again only when no batch is left over.
-/

namespace Instro.Daq.Labjack

open Instro.Library

variable {fl : Rounding} {config : Config} {s s' : State} {event : Event} {actions : List Action}

/-! ## Starting -/

/-- `start()` returns: at once if the driver takes itself to be streaming, else after the calls that
start the stream. -/
def Returns (fl : Rounding) (config : Config) (s : State) (scanRate : PyFloat)
    (raises : Option LjmCall) : Prop :=
  config.globalScanRate.isSome ∧
    (s.streamingActive = true ∨
      config.physicalChannels ≠ [] ∧ s.handle.isSome ∧ raises ≠ some .namesToAddresses ∧
        raises ≠ some .eStreamStart ∧ raises ≠ some .setStreamCallback ∧
        ∃ period, (PyFloat.div fl (.finite 1e9) scanRate >>= PyFloat.round) = .ok period)

/-- `start()` takes no batch and counts nothing. -/
theorem start_keeps (scanRate : PyFloat) (raises : Option LjmCall) :
    (s.start fl config scanRate raises).1.dataQueue = s.dataQueue ∧
      (s.start fl config scanRate raises).1.running = s.running ∧
      (s.start fl config scanRate raises).1.starts = s.starts := by
  unfold State.start
  dsimp only
  split_ifs
  · exact ⟨rfl, rfl, rfl⟩
  · exact ⟨rfl, rfl, rfl⟩
  · exact ⟨rfl, rfl, rfl⟩
  · exact ⟨rfl, rfl, rfl⟩
  · exact ⟨rfl, rfl, rfl⟩
  · unfold State.streamStarted
    dsimp only
    split
    · exact ⟨rfl, rfl, rfl⟩
    · split_ifs
      · exact ⟨rfl, rfl, rfl⟩
      · exact ⟨rfl, rfl, rfl⟩

theorem start_ok_iff {scanRate : PyFloat} {raises : Option LjmCall} :
    (s.start fl config scanRate raises).2.2 = .ok () ↔ Returns fl config s scanRate raises := by
  unfold Returns
  rw [Option.isSome_iff_ne_none]
  unfold State.start
  dsimp only
  split_ifs with hrate hactive hchannels hnames hstream
  · exact iff_of_false nofun fun h => h.1 (by simpa using hrate)
  · simpa [hactive] using hrate
  · simp [hactive, hchannels]
  · simp [hactive, hnames]
  · simp only [Option.isNone_iff_eq_none] at hstream
    rcases hstream with hhandle | hstart
    · simp [hactive, hhandle]
    · simp [hactive, hstart]
  · obtain ⟨hhandle, hstart⟩ := not_or.mp hstream
    have hopen : s.handle.isSome = true := by simpa [Option.isSome_iff_ne_none] using hhandle
    unfold State.streamStarted
    dsimp only
    split
    · simp_all
    · split_ifs with hcallback
      · simp [hactive, hcallback]
      · simp_all

/-- The only call that can be seen asks for the stream. -/
theorem start_calls {scanRate : PyFloat} {raises : Option LjmCall} {action : Action}
    (h : action ∈ (s.start fl config scanRate raises).2.1) :
    action = .eStreamStart s.streaming := by
  unfold State.start at h
  dsimp only at h
  split_ifs at h
  all_goals simp_all

theorem afterStart_actions {scanRate : PyFloat} {raises : Option LjmCall} {action : Action}
    (h : action ∈ (s.afterStart fl config scanRate raises).2) :
    action = .eStreamStart s.streaming ∨ ∃ e, action = .raised e := by
  have hcalls := @start_calls fl config s scanRate raises action
  unfold State.afterStart at h
  split at h
  · rename_i calls heq
    rw [heq] at hcalls
    exact .inl (hcalls h)
  · rename_i calls e heq
    rw [heq] at hcalls
    rcases List.mem_append.mp h with hcall | hraised
    · exact .inl (hcalls hcall)
    · exact .inr ⟨e, List.mem_singleton.mp hraised⟩

/-- `start()` counts itself when it returns, and leaves the batches where they are. -/
theorem afterStart_keeps (scanRate : PyFloat) (raises : Option LjmCall) :
    (s.afterStart fl config scanRate raises).1.dataQueue = s.dataQueue ∧
      (s.afterStart fl config scanRate raises).1.running = s.running ∧
      ((s.afterStart fl config scanRate raises).1.starts = s.starts ∨
        Returns fl config s scanRate raises) := by
  obtain ⟨hqueue, hrunning, hstarts⟩ := @start_keeps fl config s scanRate raises
  have hreturns := @start_ok_iff fl config s scanRate raises
  unfold State.afterStart
  split
  · rename_i calls heq
    rw [heq] at hqueue hrunning hreturns
    exact ⟨hqueue, hrunning, .inr (hreturns.mp rfl)⟩
  · rename_i calls e heq
    rw [heq] at hqueue hrunning hstarts
    exact ⟨hqueue, hrunning, .inl hstarts⟩

/-! ## Steps -/

/-- What a step does to the batches. The calls leave them alone, and only `start()` counts or turns
the stream on. -/
inductive Moves (fl : Rounding) (config : Config) (s : State) (event : Event) :
    State → List Action → Prop
  | reads (response : Response) (timestamp : ℤ) (hstreaming : s.streaming = true) :
    Moves fl config s event
      { s with running := s.running ++ [⟨response, timestamp, s.starts⟩] } []
  | puts (i : Nat) (batch : Batch) (hrunning : s.running[i]? = some batch) :
    Moves fl config s event
      { s with running := s.running.eraseIdx i, dataQueue := s.dataQueue ++ [batch] } []
  | fetches (batch : Batch) (dataQueue : List Batch) (data : LabJackData)
      (hqueue : s.dataQueue = batch :: dataQueue) :
    Moves fl config s event { s with dataQueue } [.fetched batch data]
  | keeps (s' : State) (actions : List Action) (hqueue : s'.dataQueue = s.dataQueue)
      (hrunning : s'.running = s.running)
      (hstarts : s'.starts = s.starts ∨
        ∃ scanRate raises, event = .start scanRate raises ∧ Returns fl config s scanRate raises)
      (hstreaming : s'.streaming = s.streaming ∨ s'.streaming = false ∨
        ∃ scanRate raises, event = .start scanRate raises)
      (hactions : ∀ batch data, Action.fetched batch data ∉ actions) :
    Moves fl config s event s' actions

/-- Opening ends the stream or leaves it. -/
theorem moves_open (handle : Nat) (raises : Option LjmCall) :
    Moves fl config s event (s.open handle raises).1 (s.open handle raises).2 := by
  unfold State.open State.stopStream
  split_ifs
  · exact .keeps _ _ rfl rfl (.inl rfl) (.inl rfl) (by simp)
  · exact .keeps _ _ rfl rfl (.inl rfl) (.inl rfl) (by simp)
  · exact .keeps _ _ rfl rfl (.inl rfl) (.inl rfl) (by simp)
  · exact .keeps _ _ rfl rfl (.inl rfl) (.inr (.inl rfl)) (by simp)

theorem moves_close (raises : Option LjmCall) :
    Moves fl config s event (s.close raises).1 (s.close raises).2 := by
  unfold State.close
  split
  · exact .keeps _ _ rfl rfl (.inl rfl) (.inl rfl) (by simp)
  · split_ifs
    · exact .keeps _ _ rfl rfl (.inl rfl) (.inl rfl) (by simp)
    · exact .keeps _ _ rfl rfl (.inl rfl) (.inr (.inl rfl)) (by simp)

theorem moves_afterStart (scanRate : PyFloat) (raises : Option LjmCall) :
    Moves fl config s (.start scanRate raises) (s.afterStart fl config scanRate raises).1
      (s.afterStart fl config scanRate raises).2 := by
  obtain ⟨hqueue, hrunning, hstarts⟩ := @afterStart_keeps fl config s scanRate raises
  refine .keeps _ _ hqueue hrunning ?_ (.inr (.inr ⟨scanRate, raises, rfl⟩)) ?_
  · exact hstarts.imp id fun hreturns => ⟨scanRate, raises, rfl, hreturns⟩
  · intro batch data hfetched
    rcases afterStart_actions hfetched with h | ⟨e, h⟩ <;> cases h

theorem moves_of_step (hstep : step fl config s event = some (s', actions)) :
    Moves fl config s event s' actions := by
  cases event with
  | «open» handle raises =>
    have heq := Option.some.inj hstep
    have hmoves := @moves_open fl config s (.open handle raises) handle raises
    rwa [heq] at hmoves
  | start scanRate raises =>
    have heq := Option.some.inj hstep
    have hmoves := @moves_afterStart fl config s scanRate raises
    rwa [heq] at hmoves
  | stop =>
    obtain ⟨rfl, rfl⟩ := Prod.mk.inj (Option.some.inj hstep)
    unfold State.stop
    split_ifs
    · exact .keeps _ _ rfl rfl (.inl rfl) (.inl rfl) (by simp)
    · exact .keeps _ _ rfl rfl (.inl rfl) (.inl rfl) (by simp)
  | close raises =>
    have heq := Option.some.inj hstep
    have hmoves := @moves_close fl config s (.close raises) raises
    rwa [heq] at hmoves
  | callbackReads response timestamp =>
    obtain ⟨t, ht, heq⟩ := Option.map_eq_some_iff.mp hstep
    obtain ⟨rfl, rfl⟩ := Prod.mk.inj heq
    unfold State.callbackReads at ht
    split_ifs at ht with hstream
    obtain rfl := Option.some.inj ht
    exact .reads response timestamp hstream.1
  | callbackPuts i =>
    obtain ⟨t, ht, heq⟩ := Option.map_eq_some_iff.mp hstep
    obtain ⟨rfl, rfl⟩ := Prod.mk.inj heq
    obtain ⟨batch, hbatch, rfl⟩ := Option.map_eq_some_iff.mp ht
    exact .puts i batch hbatch
  | fetchAnalog =>
    change s.fetchAnalog = _ at hstep
    unfold State.fetchAnalog at hstep
    split at hstep
    · cases hstep
    · rename_i batch dataQueue hqueue
      obtain ⟨rfl, rfl⟩ := Prod.mk.inj (Option.some.inj hstep)
      exact .fetches batch dataQueue _ hqueue
  | fetchTimesOut =>
    change s.fetchTimesOut = _ at hstep
    unfold State.fetchTimesOut at hstep
    split_ifs at hstep
    obtain ⟨rfl, rfl⟩ := Prod.mk.inj (Option.some.inj hstep)
    exact .keeps _ _ rfl rfl (.inl rfl) (.inl rfl) (by simp)

/-! ## Runs -/

/-- Every waiting batch was read since the last `start()`. -/
def Current (s : State) : Prop := ∀ batch ∈ s.dataQueue ++ s.running, batch.starts = s.starts

/-- `stop()` finds no stream, and `start()` no batch unless it raises. -/
def Clean (fl : Rounding) (config : Config) (s : State) : Event → Prop
  | .start scanRate raises =>
    Returns fl config s scanRate raises → s.dataQueue = [] ∧ s.running = []
  | .stop => s.streaming = false
  | _ => True

theorem current_step (hs : Current s) (hclean : Clean fl config s event)
    (hmoves : Moves fl config s event s' actions) : Current s' := by
  cases hmoves with
  | reads response timestamp _ =>
    intro batch hbatch
    rw [← List.append_assoc] at hbatch
    rcases List.mem_append.mp hbatch with hold | hnew
    · exact hs batch hold
    · rw [List.mem_singleton.mp hnew]
  | puts i put hput =>
    intro batch hbatch
    -- the batch that is put was running
    have hold : batch ∈ s.dataQueue ++ s.running := by
      simp only [List.mem_append, List.mem_singleton] at hbatch ⊢
      rcases hbatch with (hold | rfl) | hold
      · exact .inl hold
      · exact .inr (List.mem_of_getElem? hput)
      · exact .inr (List.mem_of_mem_eraseIdx hold)
    exact hs batch hold
  | fetches first rest data hqueue =>
    intro batch hbatch
    apply hs batch
    rw [hqueue]
    exact List.mem_cons_of_mem first hbatch
  | keeps _ _ hqueue hrunning hstarts _ _ =>
    unfold Current
    rw [hqueue, hrunning]
    rcases hstarts with hsame | ⟨scanRate, raises, rfl, hreturns⟩
    · rw [hsame]
      exact hs
    · obtain ⟨hnoQueue, hnoRunning⟩ := hclean hreturns
      rw [hnoQueue, hnoRunning]
      intro batch hbatch
      exact absurd hbatch List.not_mem_nil

/-- What is fetched was read since the last `start()`. -/
theorem current_fetched (hs : Current s) (hmoves : Moves fl config s event s' actions)
    {batch : Batch} {data : LabJackData} (hfetched : Action.fetched batch data ∈ actions) :
    batch.starts = s.starts := by
  cases hmoves with
  | reads response timestamp _ => exact absurd hfetched List.not_mem_nil
  | puts i put _ => exact absurd hfetched List.not_mem_nil
  | fetches first rest data hqueue =>
    obtain ⟨rfl, -⟩ := Action.fetched.inj (List.mem_singleton.mp hfetched)
    apply hs batch
    rw [hqueue]
    exact List.mem_cons_self
  | keeps _ _ _ _ _ _ hactions => exact absurd hfetched (hactions batch data)

/-- Only `start()` turns the stream on. -/
theorem quiet_step (hquiet : s.streaming = false)
    (hstart : ∀ scanRate raises, event ≠ .start scanRate raises)
    (hmoves : Moves fl config s event s' actions) : s'.streaming = false := by
  cases hmoves with
  | reads response timestamp _ => exact hquiet
  | puts i put _ => exact hquiet
  | fetches first rest data _ => exact hquiet
  | keeps _ _ _ _ _ hstreaming _ =>
    rcases hstreaming with hsame | hoff | ⟨scanRate, raises, rfl⟩
    · exact hsame.trans hquiet
    · exact hoff
    · exact absurd rfl (hstart scanRate raises)

/-- A step of the driver that can be taken. -/
theorem moves_of_driver_step (h : ((driver fl config).step s event).2 = some s') :
    Moves fl config s event s' ((driver fl config).step s event).1 := by
  unfold driver at h ⊢
  dsimp only at h ⊢
  cases hstep : step fl config s event with
  | none =>
    rw [hstep] at h
    cases h
  | some next =>
    rw [hstep] at h
    obtain rfl := Option.some.inj h
    exact moves_of_step hstep

/-- A step that cannot be taken does nothing. -/
theorem taken_of_action {action : Action} (h : action ∈ ((driver fl config).step s event).1) :
    ∃ s', ((driver fl config).step s event).2 = some s' := by
  unfold driver at h ⊢
  dsimp only at h ⊢
  cases hstep : step fl config s event with
  | none =>
    rw [hstep] at h
    exact absurd h List.not_mem_nil
  | some next => exact ⟨next.1, rfl⟩

/-- What the acquisitions of a run owe each other. -/
structure Isolated (fl : Rounding) (config : Config) (run : List Event) : Prop where
  /-- What is fetched was read after every `start()` that has returned. -/
  fetched : ∀ pre event s batch data, pre ++ [event] <+: run →
    (driver fl config).stateAfter initial pre = some s →
      Action.fetched batch data ∈ ((driver fl config).step s event).1 → batch.starts = s.starts
  /-- After `stop()` the device does not stream. -/
  stopped : ∀ pre s, pre ++ [.stop] <+: run →
    (driver fl config).stateAfter initial (pre ++ [.stop]) = some s → s.streaming = false
  /-- The next `start()` does not ask a streaming device for a stream. -/
  restarted : ∀ pre mid scanRate raises s, pre ++ [.stop] ++ mid ++ [.start scanRate raises] <+: run →
    (∀ event ∈ mid, ∀ scanRate raises, event ≠ .start scanRate raises) →
      (driver fl config).stateAfter initial (pre ++ [.stop] ++ mid) = some s →
        Action.eStreamStart true ∉ ((driver fl config).step s (.start scanRate raises)).1

theorem current_reached {run : List Event}
    (hclean : (driver fl config).Along (Clean fl config) initial run)
    (h : (driver fl config).stateAfter initial run = some s) : Current s := by
  refine EventLoop.Along.stateAfter _ ?_ ?_ hclean h
  · intro batch hbatch
    exact absurd hbatch List.not_mem_nil
  · intro t event t' ht hcleanStep hstep
    exact current_step ht hcleanStep (moves_of_driver_step hstep)

/-- A quiet device stays quiet until the next `start()`. -/
theorem quiet_reached {mid : List Event} (hquiet : s.streaming = false)
    (hmid : ∀ event ∈ mid, ∀ scanRate raises, event ≠ .start scanRate raises)
    (h : (driver fl config).stateAfter s mid = some s') : s'.streaming = false := by
  have hcalls : (driver fl config).Along
      (fun _ event => ∀ scanRate raises, event ≠ .start scanRate raises) s mid := by
    intro pre event t hpre _
    exact hmid event (hpre.subset (List.mem_append_right pre List.mem_cons_self))
  refine @EventLoop.Along.stateAfter _ _ _ (driver fl config) _ (fun t => t.streaming = false) s
    hquiet ?_ mid s' hcalls h
  intro t event t' ht hstart hstep
  exact quiet_step ht hstart (moves_of_driver_step hstep)

/-- **Acquisitions are isolated in every clean run.** -/
theorem acquisitions_isolated {run : List Event}
    (hclean : (driver fl config).Along (Clean fl config) initial run) :
    Isolated fl config run := by
  have hstopped : ∀ pre s, pre ++ [.stop] <+: run →
      (driver fl config).stateAfter initial (pre ++ [.stop]) = some s → s.streaming = false := by
    intro pre s hpre hs
    obtain ⟨t, ht, hts⟩ := (driver fl config).stateAfter_append_singleton.mp hs
    have hquiet : t.streaming = false := hclean pre .stop t hpre ht
    exact quiet_step hquiet (fun _ _ h => by cases h) (moves_of_driver_step hts)
  refine ⟨?_, hstopped, ?_⟩
  · intro pre event s batch data hpre hs hfetched
    have hcurrent := current_reached (hclean.mono _ ((List.prefix_append _ _).trans hpre)) hs
    obtain ⟨s', hs'⟩ := taken_of_action hfetched
    exact current_fetched hcurrent (moves_of_driver_step hs') hfetched
  · intro pre mid scanRate raises s hpre hmid hs hcall
    rw [EventLoop.stateAfter_append] at hs
    obtain ⟨t, ht, hts⟩ := Option.bind_eq_some_iff.mp hs
    have hquiet : t.streaming = false := by
      refine hstopped pre t ?_ ht
      rw [List.append_assoc (pre ++ [Event.stop])] at hpre
      exact (List.prefix_append _ _).trans hpre
    have hstreaming := quiet_reached hquiet hmid hts
    rcases afterStart_actions hcall with h | ⟨e, h⟩
    · rw [Action.eStreamStart.injEq, hstreaming] at h
      cases h
    · cases h

/-! ## A stream that outlives `stop()` -/

/-- One channel at 1 kHz. -/
def oneChannel : Config := ⟨some (.finite 1000), ["AIN0"]⟩

def sample : Response := ⟨[.finite 1], 0, 0⟩

/-- An acquisition of one batch, whose stream ends when the device is closed. -/
def acquireClose : List Event :=
  [.open 1 none, .start (.finite 1000) none, .callbackReads sample 5, .callbackPuts 0, .fetchAnalog,
    .close none]

/-- `stop()`, and a second acquisition. -/
def acquireTwice : List Event :=
  acquireClose ++ [.stop, .open 1 none] ++
    [.start (.finite 1000) none, .callbackReads sample 9, .callbackPuts 0, .fetchAnalog]

theorem acquisitions_isolated_twice : Isolated exact oneChannel acquireTwice := by
  apply acquisitions_isolated
  refine EventLoop.along_append _ |>.mpr ⟨EventLoop.along_append _ |>.mpr ⟨?_, ?_⟩, ?_⟩
  · refine EventLoop.along_cons _ |>.mpr ⟨trivial, fun s hs => ?_⟩
    obtain rfl := Option.some.inj hs
    refine EventLoop.along_cons _ |>.mpr ⟨fun _ => ⟨rfl, rfl⟩, fun s _ => ?_⟩
    iterate 3 refine EventLoop.along_cons _ |>.mpr ⟨trivial, fun s _ => ?_⟩
    exact EventLoop.along_cons _ |>.mpr ⟨trivial, fun s _ => EventLoop.along_nil _ _ _⟩
  · intro s hs
    have hstreaming : ((driver exact oneChannel).stateAfter initial acquireClose).map
        State.streaming = some false := by decide +kernel
    rw [hs] at hstreaming
    refine EventLoop.along_cons _ |>.mpr ⟨Option.some.inj hstreaming, fun s _ => ?_⟩
    exact EventLoop.along_cons _ |>.mpr ⟨trivial, fun s _ => EventLoop.along_nil _ _ _⟩
  · intro s hs
    have hempty : ((driver exact oneChannel).stateAfter initial
        (acquireClose ++ [.stop, .open 1 none])).map (fun t => (t.dataQueue, t.running)) =
          some ([], []) := by decide +kernel
    rw [hs] at hempty
    obtain ⟨hqueue, hrunning⟩ := Prod.mk.inj (Option.some.inj hempty)
    refine EventLoop.along_cons _ |>.mpr ⟨fun _ => ⟨hqueue, hrunning⟩, fun s _ => ?_⟩
    iterate 2 refine EventLoop.along_cons _ |>.mpr ⟨trivial, fun s _ => ?_⟩
    exact EventLoop.along_cons _ |>.mpr ⟨trivial, fun s _ => EventLoop.along_nil _ _ _⟩

/-- The acquisition is stopped before its batch is fetched, and the device closed and started
again. -/
def reacquire : List Event :=
  [.open 1 none, .start (.finite 1000) none, .callbackReads sample 5, .callbackPuts 0, .stop,
    .close none, .open 1 none, .start (.finite 1000) none, .fetchAnalog]

/-- The device streams on after `stop()`, and the second fetch returns the batch of the first
acquisition. -/
theorem stopped_stream_goes_on :
    ((driver exact oneChannel).stateAfter initial (reacquire.take 5)).map State.streaming =
        some true ∧
      Action.fetched ⟨sample, 5, 1⟩ ⟨[.finite 1], 5, some 1000000⟩ ∈
        (driver exact oneChannel).actions initial reacquire := by
  decide +kernel

end Instro.Daq.Labjack
