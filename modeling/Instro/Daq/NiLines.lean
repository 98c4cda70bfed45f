import Instro.Daq.Ni

/-!
# Digital lines of the NI driver

What each call does to the lines of the tasks and to the dictionaries of the driver. A call that
configures a line sets its key before it reaches the library; a read stores the whole response; the
calls about whole tasks leave the lines alone.
-/

namespace Instro.Daq.Ni

open Instro.Library

/-! ## Lines -/

/-- The lines of the task of a direction, in task order. -/
def State.lines (s : State) (direction : Direction) : List String :=
  ((s.tasks.get? direction.channelType).map Task.lines).getD []

/-- The call gets as far as the library, which has the task or makes it. -/
def Reaches (s : State) (direction : Direction) (raises : Option NiCall) : Prop :=
  (s.tasks.get? direction.channelType).isSome ∨ raises ≠ some .newTask

section Views

variable {s : State} {direction : Direction}

@[simp] theorem bank_setBank_self (s : State) (direction : Direction) (bank : LineBank) :
    (s.setBank direction bank).bank direction = bank := by
  cases direction <;> rfl

theorem bank_setBank_ne {direction' : Direction} (h : direction' ≠ direction) (bank : LineBank) :
    (s.setBank direction bank).bank direction' = s.bank direction' := by
  cases direction <;> cases direction' <;> first | rfl | exact absurd rfl h

@[simp] theorem lines_setBank (s : State) (direction direction' : Direction) (bank : LineBank) :
    (s.setBank direction bank).lines direction' = s.lines direction' := by
  cases direction <;> rfl

theorem channelType_inj {direction' : Direction} (h : direction.channelType = direction'.channelType) :
    direction = direction' := by
  cases direction <;> cases direction' <;> first | rfl | cases h

/-- The lines after a task has been put in place. -/
theorem lines_set (s : State) (channelType : ChannelType) (task : Task) (direction : Direction) :
    State.lines { s with tasks := s.tasks.set channelType task } direction =
      if direction.channelType = channelType then task.lines else s.lines direction := by
  unfold State.lines
  dsimp only
  split_ifs with h
  · rw [h, Dict.get?_set_self]
    rfl
  · rw [Dict.get?_set_ne h]

theorem lines_setRunning (channelType : ChannelType) (running : Bool) (direction : Direction) :
    (s.setRunning channelType running).lines direction = s.lines direction := by
  unfold State.setRunning
  cases h : s.tasks.get? channelType with
  | none => rfl
  | some task =>
    show State.lines { s with tasks := s.tasks.set channelType { task with running } } direction = _
    rw [lines_set]
    split_ifs with htype
    · unfold State.lines
      rw [htype, h]
      rfl
    · rfl

theorem bank_setRunning (channelType : ChannelType) (running : Bool) (direction : Direction) :
    (s.setRunning channelType running).bank direction = s.bank direction := by
  unfold State.setRunning
  cases s.tasks.get? channelType <;> cases direction <;> rfl

/-- `_get_task` finds the task, fails to make it, or makes it without channels. -/
theorem getTask_cases (s : State) (channelType : ChannelType) (raises : Option NiCall) :
    (∃ task, s.tasks.get? channelType = some task ∧ s.getTask channelType raises = .ok (s, task)) ∨
    (s.tasks.get? channelType = none ∧ raises = some .newTask ∧
      s.getTask channelType raises = .error .daqmx) ∨
    (s.tasks.get? channelType = none ∧ raises ≠ some .newTask ∧
      s.getTask channelType raises =
        .ok ({ s with tasks := s.tasks.set channelType ⟨[], false⟩ }, ⟨[], false⟩)) := by
  unfold State.getTask
  cases h : s.tasks.get? channelType with
  | some task => exact .inl ⟨task, rfl, rfl⟩
  | none =>
    by_cases hraises : raises = some .newTask
    · exact .inr (.inl ⟨rfl, hraises, if_pos hraises⟩)
    · exact .inr (.inr ⟨rfl, hraises, if_neg hraises⟩)

/-- A task that is made has no lines, as before. -/
theorem getTask_lines {channelType : ChannelType} {raises : Option NiCall} {t : State} {task : Task}
    (h : s.getTask channelType raises = .ok (t, task)) :
    (∀ direction, t.lines direction = s.lines direction) ∧
      (∀ direction, t.bank direction = s.bank direction) ∧
      (∀ direction, direction.channelType = channelType → task.lines = s.lines direction) ∧
      ((s.tasks.get? channelType).isSome → t = s) := by
  rcases getTask_cases s channelType raises with
    ⟨task', htask, heq⟩ | ⟨-, -, heq⟩ | ⟨hnone, -, heq⟩
  · obtain ⟨rfl, rfl⟩ := Prod.mk.inj (Except.ok.inj (heq.symm.trans h))
    refine ⟨fun _ => rfl, fun _ => rfl, ?_, fun _ => rfl⟩
    rintro direction rfl
    unfold State.lines
    rw [htask]
    rfl
  · cases heq.symm.trans h
  · obtain ⟨rfl, rfl⟩ := Prod.mk.inj (Except.ok.inj (heq.symm.trans h))
    have hempty : ∀ direction : Direction, direction.channelType = channelType →
        s.lines direction = [] := by
      rintro direction rfl
      unfold State.lines
      rw [hnone]
      rfl
    refine ⟨fun direction => ?_, fun direction => by cases direction <;> rfl, ?_, ?_⟩
    · rw [lines_set]
      split_ifs with htype
      · exact (hempty direction htype).symm
      · rfl
    · exact fun direction htype => (hempty direction htype).symm
    · rw [hnone]
      exact nofun

theorem reaches_iff {raises : Option NiCall} :
    Reaches s direction raises ↔ ∃ t, s.getTask direction.channelType raises = .ok t := by
  unfold Reaches
  rcases getTask_cases s direction.channelType raises with
    ⟨task, htask, heq⟩ | ⟨hnone, hraises, heq⟩ | ⟨-, hraises, heq⟩
  · exact iff_of_true (.inl (by rw [htask]; rfl)) ⟨_, heq⟩
  · apply iff_of_false
    · rintro (hsome | hne)
      · rw [hnone] at hsome
        cases hsome
      · exact hne hraises
    · rintro ⟨t, ht⟩
      cases heq.symm.trans ht
  · exact iff_of_true (.inr hraises) ⟨_, heq⟩

end Views

/-! ## What a call does to the lines -/

/-- The end of a call that configures a line: nothing was done; the key has been set; or the library
has added the line as well. -/
inductive Configures (s : State) (direction : Direction) (physicalChannel : String) (logic : Logic)
    (channelAlias : Option String) (further : ℕ) (raises : Option NiCall) :
    State → Except Error Unit → Prop
  | rejected (e : Error)
      (hnot : ∀ channel, buildLineChannel physicalChannel logic channelAlias = .ok channel →
        ¬ Reaches s direction raises) :
    Configures s direction physicalChannel logic channelAlias further raises s (.error e)
  | failed (channel : DigitalLineChannel) (t : State)
      (hbuild : buildLineChannel physicalChannel logic channelAlias = .ok channel)
      (hreaches : Reaches s direction raises) (hraises : raises = some .addChan)
      (hlines : ∀ direction', t.lines direction' = s.lines direction')
      (hbanks : ∀ direction', t.bank direction' = s.bank direction')
      (hsame : (s.tasks.get? direction.channelType).isSome → t = s) :
    Configures s direction physicalChannel logic channelAlias further raises
      (t.setBank direction { s.bank direction with
        linesState := (s.bank direction).linesState.set channel.channelAlias false })
      (.error .daqmx)
  | added (channel : DigitalLineChannel) (t : State)
      (hbuild : buildLineChannel physicalChannel logic channelAlias = .ok channel)
      (hreaches : Reaches s direction raises) (hraises : raises ≠ some .addChan)
      (hlines : t.lines direction = s.lines direction ++
        channel.channelAlias :: List.replicate further channel.channelAlias)
      (hothers : ∀ direction', direction' ≠ direction → t.lines direction' = s.lines direction')
      (hbanks : ∀ direction', t.bank direction' = s.bank direction') :
    Configures s direction physicalChannel logic channelAlias further raises
      (t.setBank direction
        { linesState := (s.bank direction).linesState.set channel.channelAlias false
          channels := (s.bank direction).channels.set channel.channelAlias channel })
      (.ok ())

theorem configures (s : State) (direction : Direction) (physicalChannel : String) (logic : Logic)
    (channelAlias : Option String) (further : ℕ) (raises : Option NiCall) :
    Configures s direction physicalChannel logic channelAlias further raises
      (s.configureLineChannel direction physicalChannel logic channelAlias further raises).1
      (s.configureLineChannel direction physicalChannel logic channelAlias further raises).2 := by
  unfold State.configureLineChannel
  cases hbuild : buildLineChannel physicalChannel logic channelAlias with
  | error e =>
    apply Configures.rejected
    rw [hbuild]
    exact nofun
  | ok channel =>
    dsimp only
    cases hget : s.getTask direction.channelType raises with
    | error e =>
      apply Configures.rejected
      intro _ _ hreaches
      obtain ⟨t, ht⟩ := reaches_iff.mp hreaches
      cases hget.symm.trans ht
    | ok made =>
      obtain ⟨t, task⟩ := made
      have hreaches : Reaches s direction raises := reaches_iff.mpr ⟨_, hget⟩
      obtain ⟨hlines, hbanks, htask, hsame⟩ := getTask_lines hget
      dsimp only
      rw [hbanks direction]
      split_ifs with hraises
      · exact .failed channel t hbuild hreaches hraises hlines hbanks hsame
      · refine .added channel { t with tasks := t.tasks.set direction.channelType _ } hbuild hreaches
          hraises ?_ ?_ ?_
        · rw [lines_set, if_pos rfl, htask direction rfl]
        · intro direction' hne
          rw [lines_set, if_neg fun h => hne (channelType_inj h), hlines]
        · intro direction'
          rw [← hbanks direction']
          cases direction' <;> rfl

/-- Nothing that a line task sees. -/
structure SameLines (s s' : State) : Prop where
  lines : ∀ direction, s'.lines direction = s.lines direction
  outputs : s'.outputs = s.outputs
  channels : s'.inputs.channels = s.inputs.channels
  keys : s'.inputs.linesState.keys = s.inputs.linesState.keys

theorem SameLines.refl (s : State) : SameLines s s := ⟨fun _ => rfl, rfl, rfl, rfl⟩

theorem SameLines.trans {s t u : State} (h : SameLines s t) (h' : SameLines t u) : SameLines s u :=
  ⟨fun direction => (h'.lines direction).trans (h.lines direction), h'.outputs.trans h.outputs,
    h'.channels.trans h.channels, h'.keys.trans h.keys⟩

theorem SameLines.of_banks {s s' : State} (hlines : ∀ direction, s'.lines direction = s.lines direction)
    (hbanks : ∀ direction, s'.bank direction = s.bank direction) : SameLines s s' :=
  ⟨hlines, hbanks .output, congrArg LineBank.channels (hbanks .input),
    congrArg (fun bank => bank.linesState.keys) (hbanks .input)⟩

theorem SameLines.of_getTask {s t : State} {channelType : ChannelType} {raises : Option NiCall}
    {task : Task} (h : s.getTask channelType raises = .ok (t, task)) : SameLines s t :=
  .of_banks (getTask_lines h).1 (getTask_lines h).2.1

theorem SameLines.setTypes {s t : State} (h : SameLines s t) (types : Finset ChannelType) :
    SameLines s { t with runningChannelTypes := types } :=
  h.trans (.of_banks (fun _ => rfl) fun direction => by cases direction <;> rfl)

theorem sameLines_setRunning (s : State) (channelType : ChannelType) (running : Bool) :
    SameLines s (s.setRunning channelType running) :=
  .of_banks (lines_setRunning channelType running) (bank_setRunning channelType running)

theorem sameLines_startTasks (raises : Finset ChannelType) (s : State)
    (channelTypes : List ChannelType) : SameLines s (s.startTasks raises channelTypes).1 := by
  induction channelTypes generalizing s with
  | nil => exact .refl s
  | cons channelType channelTypes ih =>
    unfold State.startTasks
    split_ifs
    · exact .refl s
    · exact .refl s
    · exact ((sameLines_setRunning s channelType true).setTypes _).trans (ih _)

theorem sameLines_stopTasks (raises : Finset ChannelType) (s : State)
    (channelTypes : List ChannelType) : SameLines s (s.stopTasks raises channelTypes).1 := by
  induction channelTypes generalizing s with
  | nil => exact .refl s
  | cons channelType channelTypes ih =>
    unfold State.stopTasks
    split_ifs
    · exact .refl s
    · exact (sameLines_setRunning s channelType false).trans (ih _)

theorem sameLines_start (fl : Rounding) (s : State) (channelType : Option ChannelType)
    (raises : Finset ChannelType) (sampClkRate : Option PyFloat) :
    SameLines s (s.start fl channelType raises sampClkRate).1 := by
  have hstarted := sameLines_startTasks raises s (s.channelTypes channelType)
  unfold State.start
  dsimp only
  by_cases hguard : (s.runningChannelTypes ∩ (s.channelTypes channelType).toFinset).Nonempty
  · rw [if_pos hguard]
    exact .refl s
  · rw [if_neg hguard]
    split
    · rename_i t e heq
      rw [heq] at hstarted
      exact hstarted
    · rename_i t heq
      rw [heq] at hstarted
      split_ifs <;> exact hstarted

theorem sameLines_stop (s : State) (channelType : Option ChannelType)
    (raises : Finset ChannelType) : SameLines s (s.stop channelType raises).1 := by
  unfold State.stop
  cases channelType with
  | some channelType =>
    dsimp only
    split_ifs
    · exact .refl s
    · exact .refl s
    · exact (sameLines_setRunning s channelType false).setTypes _
  | none =>
    have hstopped := sameLines_stopTasks raises s s.tasks.keys
    dsimp only
    split
    · rename_i t e heq
      rw [heq] at hstopped
      exact hstopped
    · rename_i t heq
      rw [heq] at hstopped
      exact hstopped.setTypes _

theorem sameLines_configureAiChannel (s : State) (raises : Option NiCall) :
    SameLines s (s.configureAiChannel raises).1 := by
  unfold State.configureAiChannel
  cases h : s.getTask .analogInput raises with
  | error e => exact .refl s
  | ok made => exact .of_getTask h

theorem sameLines_configureAiHwTiming (s : State) (sampleRate : PyFloat) (raises : Option NiCall) :
    SameLines s (s.configureAiHwTiming sampleRate raises).1 := by
  unfold State.configureAiHwTiming
  cases h : s.getTask .analogInput raises with
  | error e => exact .refl s
  | ok made =>
    dsimp only
    split_ifs
    · exact .of_getTask h
    · exact (SameLines.of_getTask h).trans
        (.of_banks (fun _ => rfl) fun direction => by cases direction <;> rfl)

/-! ## Reading -/

theorem respond_toList (task : Task) (bits : ℕ → Bool) :
    (State.respond task bits).toList = (List.range task.lines.length).map bits := by
  unfold State.respond
  split
  · rename_i bit hbit
    exact hbit.symm
  · rfl

/-- The loop leaves the keys as they are. -/
theorem keys_storeResponse {keys : List String} {response : List Bool}
    {linesState : Dict String Bool} (h : ∀ key ∈ keys, key ∈ linesState.keys) :
    (State.storeResponse keys response linesState).1.keys = linesState.keys := by
  induction keys generalizing response linesState with
  | nil => rfl
  | cons key keys ih =>
    cases response with
    | nil => rfl
    | cons bit response =>
      have hkeys : (linesState.set key bit).keys = linesState.keys := by
        rw [Dict.keys_set, if_pos (h key List.mem_cons_self)]
      unfold State.storeResponse
      rw [ih fun key' hkey' => by rw [hkeys]; exact h key' (List.mem_cons_of_mem key hkey'), hkeys]

/-- The loop goes through exactly if there is a bit for each key. -/
theorem storeResponse_result (keys : List String) (response : List Bool)
    (linesState : Dict String Bool) :
    (State.storeResponse keys response linesState).2 =
      if keys.length ≤ response.length then .ok () else .error (.python .indexError) := by
  induction keys generalizing response linesState with
  | nil => rfl
  | cons key keys ih =>
    cases response with
    | nil => rfl
    | cons bit response =>
      unfold State.storeResponse
      rw [ih]
      simp only [List.length_cons, Nat.add_le_add_iff_right]

/-- What a read returns or raises, which the stored bits have no part in. -/
def readResult (task : Task) (keys : List String) (channel : DigitalLineChannel)
    (bits : ℕ → Bool) : Action :=
  if task.lines.length < keys.length then .raised (.python .indexError)
  else
    match keys.idxOf? channel.channelAlias with
    | none => .raised (.python .valueError)
    | some index =>
      if index < task.lines.length then
        .returned (match channel.logic with | .high => bits index | .low => !bits index).toNat
      else .raised (.python .indexError)

theorem readDigitalLine_actions {s : State} {task : Task} (h : s.tasks.get? .digitalInput = some task)
    (channel : DigitalLineChannel) (bits : ℕ → Bool) :
    (s.readDigitalLine channel bits false).2 =
      [readResult task s.inputs.linesState.keys channel bits] := by
  have hkeys := @keys_storeResponse s.inputs.linesState.keys (State.respond task bits).toList
    s.inputs.linesState fun _ hkey => hkey
  have hresult := storeResponse_result s.inputs.linesState.keys (State.respond task bits).toList
    s.inputs.linesState
  unfold State.readDigitalLine readResult
  rw [h]
  dsimp only
  rw [if_neg (by decide)]
  rw [hkeys, hresult, respond_toList, List.length_map, List.length_range]
  by_cases hlength : s.inputs.linesState.keys.length ≤ task.lines.length
  · rw [if_pos hlength, if_neg (by omega)]
    dsimp only
    cases s.inputs.linesState.keys.idxOf? channel.channelAlias with
    | none => rfl
    | some index =>
      dsimp only
      by_cases hindex : index < task.lines.length
      · rw [if_pos hindex, List.getElem?_map, List.getElem?_range hindex]
        rfl
      · rw [if_neg hindex, List.getElem?_eq_none (by simpa using hindex)]
  · rw [if_neg hlength, if_pos (by omega)]

/-- The state with another stored response. -/
def State.withInputs (s : State) (linesState : Dict String Bool) : State :=
  { s with inputs := { s.inputs with linesState } }

/-- Two states that differ at most in the values of the stored response. -/
def Alike (s t : State) : Prop :=
  ∃ linesState, t = s.withInputs linesState ∧ linesState.keys = s.inputs.linesState.keys

theorem Alike.refl (s : State) : Alike s s := ⟨s.inputs.linesState, rfl, rfl⟩

theorem Alike.symm {s t : State} (h : Alike s t) : Alike t s := by
  obtain ⟨linesState, rfl, hkeys⟩ := h
  exact ⟨s.inputs.linesState, rfl, hkeys.symm⟩

theorem Alike.trans {s t u : State} (h : Alike s t) (h' : Alike t u) : Alike s u := by
  obtain ⟨linesState, rfl, hkeys⟩ := h
  obtain ⟨linesState', rfl, hkeys'⟩ := h'
  exact ⟨linesState', rfl, hkeys'.trans hkeys⟩

theorem SameLines.of_alike {s t : State} (h : Alike s t) : SameLines s t := by
  obtain ⟨linesState, rfl, hkeys⟩ := h
  exact ⟨fun _ => rfl, rfl, rfl, hkeys⟩

/-- A read changes nothing else. -/
theorem alike_readDigitalLine (s : State) (channel : DigitalLineChannel) (bits : ℕ → Bool)
    (raises : Bool) : Alike s (s.readDigitalLine channel bits raises).1 := by
  unfold State.readDigitalLine
  cases s.tasks.get? .digitalInput with
  | none => exact .refl s
  | some task =>
    have hstored : Alike s (s.withInputs (State.storeResponse s.inputs.linesState.keys
        (State.respond task bits).toList s.inputs.linesState).1) :=
      ⟨_, rfl, keys_storeResponse fun _ hkey => hkey⟩
    dsimp only
    split_ifs
    · exact .refl s
    · split
      · exact hstored
      · split
        · exact hstored
        · split <;> exact hstored

/-! ## Steps -/

/-- No line is written. -/
def Silent (actions : List Action) : Prop := ∀ channel data sent, .wrote channel data sent ∉ actions

theorem silent_raisedBy (result : Except Error Unit) : Silent (raisedBy result) := by
  intro channel data sent h
  cases result with
  | ok => exact absurd h List.not_mem_nil
  | error e => cases List.mem_singleton.mp h

theorem silent_singleton {action : Action} (h : ∀ channel data sent, action ≠ .wrote channel data sent) :
    Silent [action] :=
  fun channel data sent hmem => h channel data sent (List.mem_singleton.mp hmem).symm

theorem silent_readDigitalLine (s : State) (channel : DigitalLineChannel) (bits : ℕ → Bool)
    (raises : Bool) : Silent (s.readDigitalLine channel bits raises).2 := by
  unfold State.readDigitalLine
  cases s.tasks.get? .digitalInput with
  | none => exact silent_singleton nofun
  | some task =>
    dsimp only
    split_ifs
    · exact silent_singleton nofun
    · split
      · exact silent_singleton nofun
      · split
        · exact silent_singleton nofun
        · split <;> exact silent_singleton nofun

/-- What a step does to the lines: a call that configures a line, a write of the line task, or
nothing. -/
inductive LineMoves (s : State) : Event → State → List Action → Prop
  | configures (direction : Direction) (physicalChannel : String) (logic : Logic)
      (channelAlias : Option String) (further : ℕ) (raises : Option NiCall) (s' : State)
      (result : Except Error Unit)
      (h : Configures s direction physicalChannel logic channelAlias further raises s' result) :
    LineMoves s (.configureLine direction physicalChannel logic channelAlias further raises) s'
      (raisedBy result)
  | writes (channelAlias : String) (data : ℤ) (raises : Bool) (channel : DigitalLineChannel)
      (linesState : Dict String Bool) (rest : List Action)
      (hchannel : s.outputs.channels.get? channelAlias = some channel)
      (hlinesState : linesState =
        s.outputs.linesState.set channel.channelAlias (adjusted channel.logic data))
      (hrest : Silent rest) :
    LineMoves s (.writeLine channelAlias data raises)
      { s with outputs := { s.outputs with linesState } }
      (.wrote channel data linesState.values :: rest)
  | keeps (event : Event) (s' : State) (actions : List Action)
      (hevent : ∀ direction physicalChannel logic channelAlias further raises,
        event ≠ .configureLine direction physicalChannel logic channelAlias further raises)
      (hsame : SameLines s s') (hactions : Silent actions) :
    LineMoves s event s' actions

theorem lineMoves_step (fl : Rounding) (s : State) (event : Event) :
    LineMoves s event (step fl s event).1 (step fl s event).2 := by
  cases event with
  | configureLine direction physicalChannel logic channelAlias further raises =>
    exact .configures direction physicalChannel logic channelAlias further raises _ _
      (configures s direction physicalChannel logic channelAlias further raises)
  | writeLine channelAlias data raises =>
    unfold step
    dsimp only
    cases hchannel : s.outputs.channels.get? channelAlias with
    | none => exact .keeps _ _ _ nofun (.refl s) (silent_singleton nofun)
    | some channel =>
      dsimp only
      unfold State.writeDigitalLine
      cases s.tasks.get? .digitalOutput with
      | none => exact .keeps _ _ _ nofun (.refl s) (silent_singleton nofun)
      | some task =>
        refine .writes channelAlias data raises channel _ _ hchannel rfl ?_
        cases raises with
        | true => exact silent_singleton nofun
        | false => exact fun _ _ _ => List.not_mem_nil
  | readLine channelAlias bits raises =>
    unfold step
    dsimp only
    cases s.inputs.channels.get? channelAlias with
    | none => exact .keeps _ _ _ nofun (.refl s) (silent_singleton nofun)
    | some channel =>
      exact .keeps _ _ _ nofun (.of_alike (alike_readDigitalLine s channel bits raises))
        (silent_readDigitalLine s channel bits raises)
  | configureAiChannel raises =>
    exact .keeps _ _ _ nofun (sameLines_configureAiChannel s raises) (silent_raisedBy _)
  | configureAiHwTiming sampleRate raises =>
    exact .keeps _ _ _ nofun (sameLines_configureAiHwTiming s sampleRate raises) (silent_raisedBy _)
  | start channelType raises sampClkRate =>
    exact .keeps _ _ _ nofun (sameLines_start fl s channelType raises sampClkRate)
      (silent_raisedBy _)
  | stop channelType raises =>
    exact .keeps _ _ _ nofun (sameLines_stop s channelType raises) (silent_raisedBy _)

end Instro.Daq.Ni
