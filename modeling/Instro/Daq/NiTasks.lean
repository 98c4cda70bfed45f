import Instro.Daq.NiMirror

/-!
# Starting and stopping the tasks of the NI driver

`start()` starts its tasks one by one and then captures the sample rate; it takes nothing back. So a
call that raises has started nothing only if it raises at its first task or before. The set of
running types follows the tasks, but for a call of `stop()` that raises after it has stopped some.
-/

namespace Instro.Daq.Ni

open Instro.Library

/-- Whether the task of a type runs. -/
def State.runs (s : State) (channelType : ChannelType) : Bool :=
  ((s.tasks.get? channelType).map Task.running).getD false

/-- The set of running types is the types of the tasks that run. -/
def Truthful (s : State) : Prop :=
  ∀ channelType, channelType ∈ s.runningChannelTypes ↔ s.runs channelType = true

/-- A call of `start()` that raises starts nothing, and can be made again. -/
def AllOrNothing (fl : Rounding) (s : State) : Event → Prop
  | .start channelType raises sampClkRate =>
    ∀ e, (s.start fl channelType raises sampClkRate).2 = .error e →
      (∀ type, (s.start fl channelType raises sampClkRate).1.runs type = true → s.runs type = true) ∧
      (s.start fl channelType raises sampClkRate).1.runningChannelTypes = s.runningChannelTypes ∧
      (e ≠ .alreadyRunning → ∀ raises' sampClkRate',
        ((s.start fl channelType raises sampClkRate).1.start fl channelType raises'
          sampClkRate').2 ≠ .error .alreadyRunning)
  | _ => True

/-- The task of the type is there, and the library starts it. -/
def Startable (s : State) (raises : Finset ChannelType) (channelType : ChannelType) : Prop :=
  (s.tasks.get? channelType).isSome ∧ channelType ∉ raises

/-- The sample clock has been configured and has a rate that a period can be computed of. -/
def Captures (fl : Rounding) (s : State) (sampClkRate : Option PyFloat) : Prop :=
  ∃ requestedRate actualRate period deviation, s.aiHwTimingConfig = some requestedRate ∧
    sampClkRate = some actualRate ∧
      (PyFloat.div fl (.finite 1000000000) actualRate >>= PyFloat.round) = .ok period ∧
        ((actualRate.sub fl requestedRate).abs).div fl requestedRate = .ok deviation

/-- `start()` is refused; or its first task does not start; or all do, and the rate of the analog
inputs is captured if they are among them. `stop()` raises before it has stopped a task that ran. -/
def Clean (fl : Rounding) (s : State) : Event → Prop
  | .start channelType raises sampClkRate =>
    (s.runningChannelTypes ∩ (s.channelTypes channelType).toFinset).Nonempty ∨
      (∃ first, (s.channelTypes channelType).head? = some first ∧ ¬ Startable s raises first) ∨
      (∀ type ∈ s.channelTypes channelType, Startable s raises type) ∧
        (.analogInput ∈ s.channelTypes channelType → Captures fl s sampClkRate)
  | .stop none raises =>
    (∃ type ∈ s.tasks.keys, type ∈ raises) →
      ∀ type ∈ s.tasks.keys.takeWhile (· ∉ raises), s.runs type = false
  | _ => True

section Runs

variable {s : State}

theorem runs_set (s : State) (channelType : ChannelType) (task : Task) (type : ChannelType) :
    State.runs { s with tasks := s.tasks.set channelType task } type =
      if type = channelType then task.running else s.runs type := by
  unfold State.runs
  dsimp only
  split_ifs with h
  · rw [h, Dict.get?_set_self]
    rfl
  · rw [Dict.get?_set_ne h]

theorem runs_setRunning {channelType : ChannelType} (h : (s.tasks.get? channelType).isSome)
    (running : Bool) (type : ChannelType) :
    (s.setRunning channelType running).runs type =
      if type = channelType then running else s.runs type := by
  obtain ⟨task, htask⟩ := Option.isSome_iff_exists.mp h
  unfold State.setRunning
  rw [htask]
  exact runs_set s channelType _ type

theorem keys_setRunning (s : State) (channelType : ChannelType) (running : Bool) :
    (s.setRunning channelType running).tasks.keys = s.tasks.keys := by
  unfold State.setRunning
  cases h : s.tasks.get? channelType with
  | none => rfl
  | some task =>
    show (s.tasks.set channelType _).keys = _
    rw [Dict.keys_set, if_pos (Dict.mem_keys_iff.mpr ⟨task, h⟩)]

theorem runningChannelTypes_setRunning (s : State) (channelType : ChannelType) (running : Bool) :
    (s.setRunning channelType running).runningChannelTypes = s.runningChannelTypes := by
  unfold State.setRunning
  cases s.tasks.get? channelType <;> rfl

theorem aiHwTimingConfig_setRunning (s : State) (channelType : ChannelType) (running : Bool) :
    (s.setRunning channelType running).aiHwTimingConfig = s.aiHwTimingConfig := by
  unfold State.setRunning
  cases s.tasks.get? channelType <;> rfl

theorem isSome_task_iff {channelType : ChannelType} :
    (s.tasks.get? channelType).isSome ↔ channelType ∈ s.tasks.keys := by
  rw [Dict.mem_keys_iff, Option.isSome_iff_exists]

end Runs

/-! ## Starting -/

/-- One turn of the loop of `start()`. -/
def State.startTask (s : State) (channelType : ChannelType) : State :=
  { s.setRunning channelType true with
    runningChannelTypes := insert channelType (s.setRunning channelType true).runningChannelTypes }

section Start

variable {s : State} {raises : Finset ChannelType} {channelTypes : List ChannelType}

/-- The loop goes through, or stops at the first task that does not start. -/
theorem startTasks_cases (s : State) (raises : Finset ChannelType) (channelTypes : List ChannelType) :
    (∀ type ∈ channelTypes, Startable s raises type) ∧
        s.startTasks raises channelTypes = (channelTypes.foldl State.startTask s, .ok ()) ∨
      ∃ started type rest e, channelTypes = started ++ type :: rest ∧
        (∀ type ∈ started, Startable s raises type) ∧ ¬ Startable s raises type ∧
          s.startTasks raises channelTypes = (started.foldl State.startTask s, .error e) ∧
            e ≠ .alreadyRunning := by
  induction channelTypes generalizing s with
  | nil => exact .inl ⟨fun _ h => absurd h List.not_mem_nil, rfl⟩
  | cons channelType channelTypes ih =>
    unfold State.startTasks
    split_ifs with hnone hraises
    · refine .inr ⟨[], channelType, channelTypes, _, rfl, fun _ h => absurd h List.not_mem_nil, ?_,
        rfl, by rintro ⟨⟩⟩
      rintro ⟨hsome, -⟩
      rw [Option.isNone_iff_eq_none.mp hnone] at hsome
      cases hsome
    · exact .inr ⟨[], channelType, channelTypes, _, rfl, fun _ h => absurd h List.not_mem_nil,
        fun h => h.2 hraises, rfl, by rintro ⟨⟩⟩
    · have hfirst : Startable s raises channelType := by
        refine ⟨?_, hraises⟩
        rw [Option.isSome_iff_ne_none]
        exact fun h => hnone (Option.isNone_iff_eq_none.mpr h)
      have hstartable : ∀ type, Startable (s.startTask channelType) raises type ↔
          Startable s raises type := by
        intro type
        unfold Startable
        rw [isSome_task_iff, isSome_task_iff]
        show type ∈ (s.setRunning channelType true).tasks.keys ∧ _ ↔ _
        rw [keys_setRunning]
      rcases ih (s.startTask channelType) with ⟨hall, heq⟩ | ⟨started, type, rest, e, rfl, hall, hnot, heq, he⟩
      · refine .inl ⟨List.forall_mem_cons.mpr ⟨hfirst, fun type htype => ?_⟩, heq⟩
        exact (hstartable type).mp (hall type htype)
      · refine .inr ⟨channelType :: started, type, rest, e, rfl, ?_, ?_, heq, he⟩
        · exact List.forall_mem_cons.mpr ⟨hfirst, fun t ht => (hstartable t).mp (hall t ht)⟩
        · exact fun h => hnot ((hstartable type).mpr h)

/-- What has been started: the tasks run, and their types are in the set. -/
theorem startTasks_state (h : ∀ type ∈ channelTypes, (s.tasks.get? type).isSome) :
    (∀ type, (channelTypes.foldl State.startTask s).runs type =
      (decide (type ∈ channelTypes) || s.runs type)) ∧
    (∀ type, type ∈ (channelTypes.foldl State.startTask s).runningChannelTypes ↔
      type ∈ channelTypes ∨ type ∈ s.runningChannelTypes) ∧
    (channelTypes.foldl State.startTask s).tasks.keys = s.tasks.keys ∧
    (channelTypes.foldl State.startTask s).aiHwTimingConfig = s.aiHwTimingConfig := by
  induction channelTypes generalizing s with
  | nil => simp
  | cons channelType channelTypes ih =>
    obtain ⟨hfirst, hrest⟩ := List.forall_mem_cons.mp h
    have hkeys : (s.startTask channelType).tasks.keys = s.tasks.keys :=
      keys_setRunning s channelType true
    obtain ⟨hruns, htypes, hkeys', hconfig⟩ := @ih (s.startTask channelType) fun type htype => by
      rw [isSome_task_iff, hkeys, ← isSome_task_iff]
      exact hrest type htype
    rw [List.foldl_cons]
    refine ⟨fun type => ?_, fun type => ?_, hkeys'.trans hkeys,
      hconfig.trans (aiHwTimingConfig_setRunning s channelType true)⟩
    · rw [hruns, show (s.startTask channelType).runs type = _ from runs_setRunning hfirst true type]
      by_cases htype : type = channelType <;> simp [htype]
    · rw [htypes]
      unfold State.startTask
      rw [Finset.mem_insert, runningChannelTypes_setRunning, List.mem_cons]
      tauto

theorem captureSampleRate_eq_ok_iff {fl : Rounding} {t : State} {sampClkRate : Option PyFloat}
    (hconfig : t.aiHwTimingConfig = s.aiHwTimingConfig)
    (htask : (t.tasks.get? .analogInput).isSome) :
    t.captureSampleRate fl sampClkRate = .ok () ↔ Captures fl s sampClkRate := by
  obtain ⟨task, htask⟩ := Option.isSome_iff_exists.mp htask
  unfold State.captureSampleRate Captures
  rw [hconfig, htask]
  cases s.aiHwTimingConfig with
  | none => exact iff_of_false nofun (by simp)
  | some requestedRate =>
    cases sampClkRate with
    | none => exact iff_of_false nofun (by simp)
    | some actualRate =>
      show (raiseAs Error.python _ >>= fun _ => raiseAs Error.python _ >>= fun _ => _) = _ ↔ _
      rw [bind_eq_ok]
      constructor
      · rintro ⟨period, hperiod, hdeviation⟩
        obtain ⟨deviation, hdeviation, -⟩ := bind_eq_ok.mp hdeviation
        exact ⟨requestedRate, actualRate, period, deviation, rfl, rfl,
          raiseAs_eq_ok.mp hperiod, raiseAs_eq_ok.mp hdeviation⟩
      · rintro ⟨_, _, period, deviation, hrequested, hactual, hperiod, hdeviation⟩
        obtain rfl := Option.some.inj hrequested
        obtain rfl := Option.some.inj hactual
        exact ⟨period, raiseAs_eq_ok.mpr hperiod,
          bind_eq_ok.mpr ⟨deviation, raiseAs_eq_ok.mpr hdeviation, rfl⟩⟩

theorem raiseAs_ne {α : Type} {x : Except PyException α} :
    raiseAs Error.python x ≠ .error .alreadyRunning := by
  cases x <;> exact nofun

theorem captureSampleRate_ne {fl : Rounding} {sampClkRate : Option PyFloat} :
    s.captureSampleRate fl sampClkRate ≠ .error .alreadyRunning := by
  unfold State.captureSampleRate
  cases s.aiHwTimingConfig with
  | none => exact nofun
  | some requestedRate =>
    cases s.tasks.get? .analogInput with
    | none => exact nofun
    | some task =>
      cases sampClkRate with
      | none => exact nofun
      | some actualRate =>
        intro h
        change (raiseAs Error.python _ >>= fun _ => raiseAs Error.python _ >>= fun _ => _) = _ at h
        rcases bind_eq_error.mp h with h | ⟨_, -, h⟩
        · exact raiseAs_ne h
        · rcases bind_eq_error.mp h with h | ⟨_, -, h⟩
          · exact raiseAs_ne h
          · cases h

/-- **Step lemma.** After any start the set of running types is still true. -/
theorem truthful_startTasks (h : Truthful s) (hall : ∀ type ∈ channelTypes, (s.tasks.get? type).isSome) :
    Truthful (channelTypes.foldl State.startTask s) := by
  obtain ⟨hruns, htypes, -, -⟩ := startTasks_state hall
  intro type
  rw [htypes, hruns, h type]
  simp

/-- Where something has been started, the set has changed. -/
theorem runningChannelTypes_ne {type : ChannelType}
    (hall : ∀ type ∈ channelTypes, (s.tasks.get? type).isSome) (htype : type ∈ channelTypes)
    (hnot : type ∉ s.runningChannelTypes) :
    (channelTypes.foldl State.startTask s).runningChannelTypes ≠ s.runningChannelTypes := by
  intro heq
  apply hnot
  rw [← heq]
  exact ((startTasks_state hall).2.1 type).mpr (.inl htype)

/-- What `start()` does: it is refused; or halts at a task that does not start; or starts them all, and
captures the sample rate if the analog inputs are among them. -/
inductive Starts (fl : Rounding) (s : State) (channelTypes : List ChannelType)
    (raises : Finset ChannelType) (sampClkRate : Option PyFloat) :
    State → Except Error Unit → Prop
  | refused (hrefused : (s.runningChannelTypes ∩ channelTypes.toFinset).Nonempty) :
    Starts fl s channelTypes raises sampClkRate s (.error .alreadyRunning)
  | halted (started : List ChannelType) (type : ChannelType) (rest : List ChannelType) (e : Error)
      (hfree : ∀ type ∈ channelTypes, type ∉ s.runningChannelTypes)
      (htypes : channelTypes = started ++ type :: rest)
      (hall : ∀ type ∈ started, Startable s raises type) (hstops : ¬ Startable s raises type)
      (he : e ≠ .alreadyRunning) :
    Starts fl s channelTypes raises sampClkRate (started.foldl State.startTask s) (.error e)
  | started (hfree : ∀ type ∈ channelTypes, type ∉ s.runningChannelTypes)
      (hall : ∀ type ∈ channelTypes, Startable s raises type) :
    Starts fl s channelTypes raises sampClkRate (channelTypes.foldl State.startTask s)
      (if .analogInput ∈ channelTypes then
        (channelTypes.foldl State.startTask s).captureSampleRate fl sampClkRate
      else .ok ())

theorem not_refused_iff :
    ¬ (s.runningChannelTypes ∩ channelTypes.toFinset).Nonempty ↔
      ∀ type ∈ channelTypes, type ∉ s.runningChannelTypes := by
  constructor
  · intro h type htype hrunning
    exact h ⟨type, Finset.mem_inter.mpr ⟨hrunning, List.mem_toFinset.mpr htype⟩⟩
  · rintro h ⟨type, hmem⟩
    obtain ⟨hrunning, htype⟩ := Finset.mem_inter.mp hmem
    exact h type (List.mem_toFinset.mp htype) hrunning

theorem starts (fl : Rounding) (s : State) (channelType : Option ChannelType)
    (raises : Finset ChannelType) (sampClkRate : Option PyFloat) :
    Starts fl s (s.channelTypes channelType) raises sampClkRate
      (s.start fl channelType raises sampClkRate).1 (s.start fl channelType raises sampClkRate).2 := by
  unfold State.start
  dsimp only
  by_cases hrefused : (s.runningChannelTypes ∩ (s.channelTypes channelType).toFinset).Nonempty
  · rw [if_pos hrefused]
    exact .refused hrefused
  · have hfree := not_refused_iff.mp hrefused
    rw [if_neg hrefused]
    rcases startTasks_cases s raises (s.channelTypes channelType) with
      ⟨hall, heq⟩ | ⟨started, type, rest, e, htypes, hall, hstops, heq, he⟩
    · have hstarted : Starts fl s (s.channelTypes channelType) raises sampClkRate _ _ :=
        .started hfree hall
      rw [heq]
      dsimp only
      split_ifs at hstarted ⊢
      · exact hstarted
      · exact hstarted
    · rw [heq]
      exact .halted started type rest e hfree htypes hall hstops he

section Cases

variable {fl : Rounding} {s' : State} {sampClkRate : Option PyFloat} {result : Except Error Unit}

/-- **Step lemma.** After any start the set of running types is still true. -/
theorem Starts.truthful (h : Starts fl s channelTypes raises sampClkRate s' result)
    (hs : Truthful s) : Truthful s' := by
  cases h with
  | refused hrefused => exact hs
  | halted started type rest e hfree htypes hall hstops he =>
    exact truthful_startTasks hs fun type htype => (hall type htype).1
  | started hfree hall => exact truthful_startTasks hs fun type htype => (hall type htype).1

/-- Only a type that runs makes a start refused. -/
theorem Starts.not_alreadyRunning (h : Starts fl s channelTypes raises sampClkRate s' result)
    (hfree : ∀ type ∈ channelTypes, type ∉ s.runningChannelTypes) :
    result ≠ .error .alreadyRunning := by
  cases h with
  | refused hrefused => exact absurd hrefused (not_refused_iff.mpr hfree)
  | halted started type rest e _ htypes hall hstops he => exact fun h => he (Except.error.inj h)
  | started _ hall =>
    split_ifs
    · exact captureSampleRate_ne
    · exact nofun

/-- After all tasks have been started, the capture raises nothing exactly where it can be made. -/
theorem capture_eq_ok_iff (hall : ∀ type ∈ channelTypes, Startable s raises type)
    (hanalog : .analogInput ∈ channelTypes) :
    (channelTypes.foldl State.startTask s).captureSampleRate fl sampClkRate = .ok () ↔
      Captures fl s sampClkRate := by
  have htasks : ∀ type ∈ channelTypes, (s.tasks.get? type).isSome :=
    fun type htype => (hall type htype).1
  obtain ⟨-, -, hkeys, hconfig⟩ := startTasks_state htasks
  apply captureSampleRate_eq_ok_iff hconfig
  rw [isSome_task_iff, hkeys, ← isSome_task_iff]
  exact htasks _ hanalog

end Cases

/-- **Step lemma.** A start that raises starts nothing exactly if it is clean. -/
theorem allOrNothing_iff_clean {fl : Rounding} {channelType : Option ChannelType}
    {sampClkRate : Option PyFloat} :
    AllOrNothing fl s (.start channelType raises sampClkRate) ↔
      Clean fl s (.start channelType raises sampClkRate) := by
  have hstarts := starts fl s channelType raises sampClkRate
  unfold AllOrNothing Clean
  dsimp only
  generalize s.start fl channelType raises sampClkRate = after at *
  obtain ⟨s', result⟩ := after
  dsimp only at hstarts ⊢
  cases hstarts with
  | refused hrefused =>
    refine iff_of_true ?_ (.inl hrefused)
    rintro e he
    obtain rfl := Except.error.inj he
    exact ⟨fun _ h => h, rfl, fun hne => absurd rfl hne⟩
  | halted started type rest e hfree htypes hall hstops he =>
    cases started with
    | nil =>
      refine iff_of_true ?_ (.inr (.inl ⟨type, by rw [htypes]; rfl, hstops⟩))
      intro _ _
      refine ⟨fun _ h => h, rfl, fun _ raises' sampClkRate' => ?_⟩
      exact (starts fl s channelType raises' sampClkRate').not_alreadyRunning hfree
    | cons first started =>
      have hfirst : first ∉ s.runningChannelTypes := hfree first (htypes ▸ List.mem_cons_self)
      apply iff_of_false
      · intro h
        exact runningChannelTypes_ne (fun t ht => (hall t ht).1) List.mem_cons_self hfirst
          (h e rfl).2.1
      · rw [htypes] at hfree ⊢
        rintro (hrefused | ⟨t, ht, hnone⟩ | ⟨hall', -⟩)
        · exact not_refused_iff.mpr hfree hrefused
        · obtain rfl := Option.some.inj ht
          exact hnone (hall _ List.mem_cons_self)
        · exact hstops (hall' type (List.mem_append_right _ List.mem_cons_self))
  | started hfree hall =>
    constructor
    · intro h
      refine .inr (.inr ⟨hall, fun hanalog => (capture_eq_ok_iff hall hanalog).mp ?_⟩)
      rw [if_pos hanalog] at h
      cases hresult : ((s.channelTypes channelType).foldl State.startTask s).captureSampleRate fl
          sampClkRate with
      | ok => rfl
      | error e =>
        exact absurd (h e hresult).2.1
          (runningChannelTypes_ne (fun t ht => (hall t ht).1) hanalog (hfree _ hanalog))
    · rintro (hrefused | ⟨first, hfirst, hnone⟩ | ⟨-, hcapture⟩) e he
      · exact absurd hrefused (not_refused_iff.mpr hfree)
      · exact absurd (hall first (List.mem_of_head? hfirst)) hnone
      · split_ifs at he with hanalog
        rw [(capture_eq_ok_iff hall hanalog).mpr (hcapture hanalog)] at he
        cases he

end Start

/-! ## Stopping -/

section Stop

variable {s : State} {raises : Finset ChannelType} {channelTypes : List ChannelType}

/-- A task that is stopped does not run, whether it is there or not. -/
theorem runs_setRunning_false (s : State) (channelType type : ChannelType) :
    (s.setRunning channelType false).runs type =
      if type = channelType then false else s.runs type := by
  cases h : s.tasks.get? channelType with
  | some task => exact runs_setRunning (by rw [h]; rfl) false type
  | none =>
    have hsame : s.setRunning channelType false = s := by
      unfold State.setRunning
      rw [h]
    rw [hsame]
    split_ifs with htype
    · unfold State.runs
      rw [htype, h]
      rfl
    · rfl

/-- The loop goes through, or ends at the first task the library raises at. -/
theorem stopTasks_cases (s : State) (raises : Finset ChannelType) (channelTypes : List ChannelType) :
    (∀ type ∈ channelTypes, type ∉ raises) ∧ s.stopTasks raises channelTypes =
        (channelTypes.foldl (fun s type => s.setRunning type false) s, .ok ()) ∨
      ∃ stopped type rest, channelTypes = stopped ++ type :: rest ∧
        (∀ type ∈ stopped, type ∉ raises) ∧ type ∈ raises ∧ s.stopTasks raises channelTypes =
          (stopped.foldl (fun s type => s.setRunning type false) s, .error .daqmx) := by
  induction channelTypes generalizing s with
  | nil => exact .inl ⟨fun _ h => absurd h List.not_mem_nil, rfl⟩
  | cons channelType channelTypes ih =>
    unfold State.stopTasks
    split_ifs with hraises
    · exact .inr ⟨[], channelType, channelTypes, rfl, fun _ h => absurd h List.not_mem_nil,
        hraises, rfl⟩
    · rcases ih (s.setRunning channelType false) with
        ⟨hall, heq⟩ | ⟨stopped, type, rest, rfl, hall, htype, heq⟩
      · exact .inl ⟨List.forall_mem_cons.mpr ⟨hraises, hall⟩, heq⟩
      · exact .inr ⟨channelType :: stopped, type, rest, rfl,
          List.forall_mem_cons.mpr ⟨hraises, hall⟩, htype, heq⟩

theorem stopTasks_state (s : State) (channelTypes : List ChannelType) :
    (∀ type, (channelTypes.foldl (fun s type => s.setRunning type false) s).runs type =
      if type ∈ channelTypes then false else s.runs type) ∧
    (channelTypes.foldl (fun s type => s.setRunning type false) s).runningChannelTypes =
      s.runningChannelTypes := by
  induction channelTypes generalizing s with
  | nil => simp
  | cons channelType channelTypes ih =>
    obtain ⟨hruns, htypes⟩ := ih (s.setRunning channelType false)
    rw [List.foldl_cons]
    refine ⟨fun type => ?_, htypes.trans (runningChannelTypes_setRunning s channelType false)⟩
    rw [hruns, runs_setRunning_false]
    by_cases htype : type = channelType <;> simp [htype]

theorem mem_keys_of_runs {type : ChannelType} (h : s.runs type = true) : type ∈ s.tasks.keys := by
  unfold State.runs at h
  rw [Dict.mem_keys_iff]
  cases htask : s.tasks.get? type with
  | none =>
    rw [htask] at h
    cases h
  | some task => exact ⟨task, rfl⟩

/-- Where only tasks have been stopped, the set is true exactly if none of them ran. -/
theorem truthful_stopTasks_iff (h : Truthful s) (stopped : List ChannelType) :
    Truthful (stopped.foldl (fun s type => s.setRunning type false) s) ↔
      ∀ type ∈ stopped, s.runs type = false := by
  obtain ⟨hruns, htypes⟩ := stopTasks_state s stopped
  constructor
  · intro hafter type htype
    have hnot : ¬ type ∈ s.runningChannelTypes := by
      rw [← htypes, hafter type, hruns, if_pos htype]
      exact nofun
    rw [h type] at hnot
    exact Bool.eq_false_iff.mpr hnot
  · intro hnone type
    rw [htypes, hruns, h type]
    split_ifs with hin
    · rw [hnone type hin]
      exact iff_of_false nofun nofun
    · exact Iff.rfl

/-- **Step lemma.** A call of `stop()` leaves the set true exactly if it is clean. -/
theorem truthful_stop_iff (h : Truthful s) (fl : Rounding) (channelType : Option ChannelType) :
    Truthful (s.stop channelType raises).1 ↔ Clean fl s (.stop channelType raises) := by
  unfold State.stop
  cases channelType with
  | some channelType =>
    refine iff_of_true ?_ trivial
    dsimp only
    split_ifs
    · exact h
    · exact h
    · intro type
      show type ∈ (s.setRunning channelType false).runningChannelTypes.erase channelType ↔
        (s.setRunning channelType false).runs type = true
      rw [runs_setRunning_false, runningChannelTypes_setRunning, Finset.mem_erase, h type]
      split_ifs with htype
      · exact iff_of_false (fun hne => hne.1 htype) not_false
      · exact and_iff_right htype
  | none =>
    dsimp only
    rcases stopTasks_cases s raises s.tasks.keys with
      ⟨hall, heq⟩ | ⟨stopped, type, rest, hkeys, hall, htype, heq⟩
    · rw [heq]
      have hnone : ¬ ∃ type ∈ s.tasks.keys, type ∈ raises := by
        rintro ⟨type, hmem, hraises⟩
        exact hall type hmem hraises
      refine iff_of_true ?_ fun hsome => absurd hsome hnone
      intro type
      refine iff_of_false (Finset.notMem_empty type) ?_
      show ¬ (s.tasks.keys.foldl (fun s type => s.setRunning type false) s).runs type = true
      rw [(stopTasks_state s s.tasks.keys).1]
      split_ifs with hmem
      · exact not_false
      · exact fun hruns => hmem (mem_keys_of_runs hruns)
    · have htake : s.tasks.keys.takeWhile (· ∉ raises) = stopped := by
        rw [hkeys, List.takeWhile_append_of_pos (by simpa using hall),
          List.takeWhile_cons_of_neg (by simpa using htype), List.append_nil]
      have hmem : type ∈ s.tasks.keys := hkeys ▸ List.mem_append_right _ List.mem_cons_self
      rw [heq]
      refine (truthful_stopTasks_iff h stopped).trans ?_
      show _ ↔ (_ → ∀ type ∈ s.tasks.keys.takeWhile (· ∉ raises), s.runs type = false)
      rw [htake]
      exact ⟨fun hnone _ => hnone, fun hclean => hclean ⟨type, hmem, htype⟩⟩

end Stop

/-! ## Runs -/

section Run

variable {fl : Rounding} {s t : State}

theorem Truthful.same (h : Truthful s) (hruns : ∀ type, t.runs type = s.runs type)
    (htypes : t.runningChannelTypes = s.runningChannelTypes) : Truthful t := by
  intro type
  rw [hruns, htypes]
  exact h type

/-- A task that is made does not run. -/
theorem runs_getTask {channelType : ChannelType} {raises : Option NiCall} {made : State × Task}
    (h : s.getTask channelType raises = .ok made) :
    (∀ type, made.1.runs type = s.runs type) ∧ made.2.running = s.runs channelType ∧
      made.1.runningChannelTypes = s.runningChannelTypes := by
  rcases getTask_cases s channelType raises with
    ⟨task, htask, heq⟩ | ⟨-, -, heq⟩ | ⟨hnone, -, heq⟩
  · obtain rfl := Except.ok.inj (heq.symm.trans h)
    refine ⟨fun _ => rfl, ?_, rfl⟩
    unfold State.runs
    rw [htask]
    rfl
  · cases heq.symm.trans h
  · obtain rfl := Except.ok.inj (heq.symm.trans h)
    have hfalse : s.runs channelType = false := by
      unfold State.runs
      rw [hnone]
      rfl
    refine ⟨fun type => ?_, hfalse.symm, rfl⟩
    rw [runs_set]
    split_ifs with htype
    · rw [htype, hfalse]
    · rfl

theorem runs_setBank (s : State) (direction : Direction) (bank : LineBank) (type : ChannelType) :
    (s.setBank direction bank).runs type = s.runs type := by
  cases direction <;> rfl

theorem runningChannelTypes_setBank (s : State) (direction : Direction) (bank : LineBank) :
    (s.setBank direction bank).runningChannelTypes = s.runningChannelTypes := by
  cases direction <;> rfl

theorem truthful_configureLineChannel (h : Truthful s) (direction : Direction)
    (physicalChannel : String) (logic : Logic) (channelAlias : Option String) (further : ℕ)
    (raises : Option NiCall) :
    Truthful (s.configureLineChannel direction physicalChannel logic channelAlias further raises).1 := by
  unfold State.configureLineChannel
  cases buildLineChannel physicalChannel logic channelAlias with
  | error e => exact h
  | ok channel =>
    dsimp only
    cases hget : s.getTask direction.channelType raises with
    | error e => exact h
    | ok made =>
      obtain ⟨hruns, htask, htypes⟩ := runs_getTask hget
      dsimp only
      split_ifs
      · apply h.same
        · exact fun type => (runs_setBank _ _ _ type).trans (hruns type)
        · exact (runningChannelTypes_setBank _ _ _).trans htypes
      · apply h.same
        · intro type
          rw [runs_setBank, runs_set]
          split_ifs with htype
          · rw [htype]
            exact htask
          · exact hruns type
        · exact (runningChannelTypes_setBank _ _ _).trans htypes

/-- **Step lemma.** From a true set, a step is clean exactly if it ends in one and is all or
nothing. -/
theorem clean_step_iff (h : Truthful s) (event : Event) :
    Clean fl s event ↔ Truthful (step fl s event).1 ∧ AllOrNothing fl s event := by
  cases event with
  | start channelType raises sampClkRate =>
    rw [← allOrNothing_iff_clean]
    exact (and_iff_right ((starts fl s channelType raises sampClkRate).truthful h)).symm
  | stop channelType raises =>
    rw [← truthful_stop_iff h fl channelType]
    exact (and_iff_left trivial).symm
  | configureLine direction physicalChannel logic channelAlias further raises =>
    exact iff_of_true trivial ⟨truthful_configureLineChannel h direction physicalChannel logic
      channelAlias further raises, trivial⟩
  | writeLine channelAlias data raises =>
    refine iff_of_true trivial ⟨?_, trivial⟩
    unfold step State.writeDigitalLine
    dsimp only
    cases s.outputs.channels.get? channelAlias with
    | none => exact h
    | some channel => cases s.tasks.get? .digitalOutput <;> exact h
  | readLine channelAlias bits raises =>
    refine iff_of_true trivial ⟨?_, trivial⟩
    unfold step
    dsimp only
    cases s.inputs.channels.get? channelAlias with
    | none => exact h
    | some channel =>
      obtain ⟨linesState, heq, -⟩ := alike_readDigitalLine s channel bits raises
      dsimp only
      rw [heq]
      exact h
  | configureAiChannel raises =>
    refine iff_of_true trivial ⟨?_, trivial⟩
    show Truthful (s.configureAiChannel raises).1
    unfold State.configureAiChannel
    cases hget : s.getTask .analogInput raises with
    | error e => exact h
    | ok made => exact h.same (runs_getTask hget).1 (runs_getTask hget).2.2
  | configureAiHwTiming sampleRate raises =>
    refine iff_of_true trivial ⟨?_, trivial⟩
    show Truthful (s.configureAiHwTiming sampleRate raises).1
    unfold State.configureAiHwTiming
    cases hget : s.getTask .analogInput raises with
    | error e => exact h
    | ok made =>
      have hmade := h.same (runs_getTask hget).1 (runs_getTask hget).2.2
      dsimp only
      split_ifs <;> exact hmade

/-- **Starts are all or nothing, and the set of running types is true, exactly in the clean runs.** -/
theorem starts_all_or_nothing_iff (h : Truthful s) (run : List Event) :
    (driver fl).Throughout Truthful s run ∧ (driver fl).Along (AllOrNothing fl) s run ↔
      (driver fl).Along (Clean fl) s run := by
  refine (driver fl).throughout_and_along_iff (fun t event ht => ?_) h
  rw [clean_step_iff ht event]
  refine and_congr_left fun _ => ?_
  constructor
  · intro hafter t' ht'
    obtain rfl := Option.some.inj ht'
    exact hafter
  · exact fun hafter => hafter _ rfl

end Run

/-! ## A start that raises halfway -/

theorem truthful_initial : Truthful initial := by
  intro type
  exact iff_of_false (Finset.notMem_empty type) nofun

/-- A task of analog inputs with a sample clock, and one of digital outputs. -/
def configured : List Event :=
  [.configureAiChannel none, .configureAiHwTiming (.finite 1000) none,
    .configureLine .output "Dev1/port0/line0" .high none 0 none]

/-- Both are started and stopped. -/
def startedAndStopped : List Event :=
  configured ++ [.start none ∅ (some (.finite 1000)), .stop none ∅]

/-- The digital task does not start; then it would. -/
def startedTwice : List Event :=
  configured ++ [.start none {.digitalOutput} (some (.finite 1000)),
    .start none ∅ (some (.finite 1000))]

theorem clean_startedAndStopped :
    (driver exact).Along (Clean exact) initial startedAndStopped := by
  refine (EventLoop.along_cons _).mpr ⟨trivial, fun s hs => ?_⟩
  obtain rfl := Option.some.inj hs
  refine (EventLoop.along_cons _).mpr ⟨trivial, fun s hs => ?_⟩
  obtain rfl := Option.some.inj hs
  refine (EventLoop.along_cons _).mpr ⟨trivial, fun s hs => ?_⟩
  obtain rfl := Option.some.inj hs
  refine (EventLoop.along_cons _).mpr ⟨.inr (.inr ⟨?_, fun _ => ?_⟩), fun s hs => ?_⟩
  · unfold Startable
    decide +kernel
  · exact ⟨.finite 1000, .finite 1000, 1000000, .finite 0, rfl, rfl, by decide +kernel,
      by decide +kernel⟩
  · exact (EventLoop.along_cons _).mpr
      ⟨fun ⟨type, _, h⟩ => absurd h (Finset.notMem_empty type), fun s _ => EventLoop.along_nil _ _ _⟩

theorem starts_all_or_nothing_stopped :
    (driver exact).Throughout Truthful initial startedAndStopped ∧
      (driver exact).Along (AllOrNothing exact) initial startedAndStopped :=
  (starts_all_or_nothing_iff truthful_initial startedAndStopped).mpr clean_startedAndStopped

/-- The analog task runs on after the start that raises, and the second start is refused. -/
theorem halfway_start_blocks :
    ¬ (driver exact).Along (AllOrNothing exact) initial startedTwice ∧
      (driver exact).actions initial startedTwice = [.raised .daqmx, .raised .alreadyRunning] := by
  refine ⟨fun h => ?_, by decide +kernel⟩
  have hstart := h configured (.start none {.digitalOutput} (some (.finite 1000))) _
    ⟨[.start none ∅ (some (.finite 1000))], rfl⟩ rfl .daqmx (by decide +kernel)
  exact absurd hstart.2.1 (by decide +kernel)

end Instro.Daq.Ni
