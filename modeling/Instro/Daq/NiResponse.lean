import Instro.Daq.NiLines

/-!
# The stored response

A read of the lines stores the response under their keys, and takes its own line out of the
response. So the stored values have no part in anything the driver does.
-/

namespace Instro.Daq.Ni

open Instro.Library

section StoredResponse

variable {fl : Rounding} {s t : State}

theorem getTask_withInputs (s : State) (linesState : Dict String Bool) (channelType : ChannelType)
    (raises : Option NiCall) :
    (s.withInputs linesState).getTask channelType raises =
      (s.getTask channelType raises).map fun made => (made.1.withInputs linesState, made.2) := by
  have htasks : (s.withInputs linesState).tasks = s.tasks := rfl
  unfold State.getTask
  rw [htasks]
  cases s.tasks.get? channelType with
  | some task => rfl
  | none =>
    dsimp only
    split_ifs <;> rfl

theorem getTask_inputs {channelType : ChannelType} {raises : Option NiCall} {made : State × Task}
    (h : s.getTask channelType raises = .ok made) : made.1.inputs = s.inputs :=
  (getTask_lines h).2.1 .input

theorem setRunning_withInputs (s : State) (linesState : Dict String Bool) (channelType : ChannelType)
    (running : Bool) :
    (s.withInputs linesState).setRunning channelType running =
      (s.setRunning channelType running).withInputs linesState := by
  have htasks : (s.withInputs linesState).tasks = s.tasks := rfl
  unfold State.setRunning
  rw [htasks]
  cases s.tasks.get? channelType <;> rfl

theorem startTasks_withInputs (linesState : Dict String Bool) (raises : Finset ChannelType)
    (s : State) (channelTypes : List ChannelType) :
    (s.withInputs linesState).startTasks raises channelTypes =
      ((s.startTasks raises channelTypes).1.withInputs linesState,
        (s.startTasks raises channelTypes).2) := by
  induction channelTypes generalizing s with
  | nil => rfl
  | cons channelType channelTypes ih =>
    unfold State.startTasks
    rw [setRunning_withInputs]
    show (if (s.tasks.get? channelType).isNone then _ else _) = _
    split_ifs
    · rfl
    · rfl
    · exact ih { s.setRunning channelType true with
        runningChannelTypes := insert channelType (s.setRunning channelType true).runningChannelTypes }

theorem stopTasks_withInputs (linesState : Dict String Bool) (raises : Finset ChannelType)
    (s : State) (channelTypes : List ChannelType) :
    (s.withInputs linesState).stopTasks raises channelTypes =
      ((s.stopTasks raises channelTypes).1.withInputs linesState,
        (s.stopTasks raises channelTypes).2) := by
  induction channelTypes generalizing s with
  | nil => rfl
  | cons channelType channelTypes ih =>
    unfold State.stopTasks
    rw [setRunning_withInputs]
    split_ifs
    · rfl
    · exact ih (s.setRunning channelType false)

theorem configureLineChannel_alike (h : Alike s t) (direction : Direction) (physicalChannel : String)
    (logic : Logic) (channelAlias : Option String) (further : ℕ) (raises : Option NiCall) :
    (t.configureLineChannel direction physicalChannel logic channelAlias further raises).2 =
        (s.configureLineChannel direction physicalChannel logic channelAlias further raises).2 ∧
      Alike (s.configureLineChannel direction physicalChannel logic channelAlias further raises).1
        (t.configureLineChannel direction physicalChannel logic channelAlias further raises).1 := by
  obtain ⟨linesState, rfl, hkeys⟩ := h
  unfold State.configureLineChannel
  cases buildLineChannel physicalChannel logic channelAlias with
  | error e => exact ⟨rfl, linesState, rfl, hkeys⟩
  | ok channel =>
    dsimp only
    rw [getTask_withInputs]
    cases hget : s.getTask direction.channelType raises with
    | error e => exact ⟨rfl, linesState, rfl, hkeys⟩
    | ok made =>
      have hinputs := getTask_inputs hget
      rw [← hinputs] at hkeys
      have hset : (linesState.set channel.channelAlias false).keys =
          (made.1.inputs.linesState.set channel.channelAlias false).keys := by
        rw [Dict.keys_set, Dict.keys_set, hkeys]
      dsimp only [Except.map]
      cases direction with
      | input => split_ifs <;> exact ⟨rfl, _, rfl, hset⟩
      | output => split_ifs <;> exact ⟨rfl, linesState, rfl, hkeys⟩

theorem readDigitalLine_alike (h : Alike s t) (channel : DigitalLineChannel) (bits : ℕ → Bool)
    (raises : Bool) :
    (t.readDigitalLine channel bits raises).2 = (s.readDigitalLine channel bits raises).2 ∧
      Alike (s.readDigitalLine channel bits raises).1 (t.readDigitalLine channel bits raises).1 := by
  refine ⟨?_, ((alike_readDigitalLine s channel bits raises).symm.trans h).trans
    (alike_readDigitalLine t channel bits raises)⟩
  obtain ⟨linesState, rfl, hkeys⟩ := h
  have htasks : (s.withInputs linesState).tasks = s.tasks := rfl
  · cases htask : s.tasks.get? .digitalInput with
    | none =>
      unfold State.readDigitalLine
      rw [htasks, htask]
    | some task =>
      cases raises with
      | true =>
        unfold State.readDigitalLine
        rw [htasks, htask]
        rfl
      | false =>
        rw [readDigitalLine_actions htask, @readDigitalLine_actions (s.withInputs linesState) task htask]
        show [readResult task linesState.keys channel bits] = _
        rw [hkeys]

theorem configureAiChannel_withInputs (s : State) (linesState : Dict String Bool)
    (raises : Option NiCall) :
    (s.withInputs linesState).configureAiChannel raises =
      ((s.configureAiChannel raises).1.withInputs linesState, (s.configureAiChannel raises).2) := by
  unfold State.configureAiChannel
  rw [getTask_withInputs]
  cases s.getTask .analogInput raises <;> rfl

theorem configureAiHwTiming_withInputs (s : State) (linesState : Dict String Bool)
    (sampleRate : PyFloat) (raises : Option NiCall) :
    (s.withInputs linesState).configureAiHwTiming sampleRate raises =
      ((s.configureAiHwTiming sampleRate raises).1.withInputs linesState,
        (s.configureAiHwTiming sampleRate raises).2) := by
  unfold State.configureAiHwTiming
  rw [getTask_withInputs]
  cases s.getTask .analogInput raises with
  | error e => rfl
  | ok made =>
    dsimp only [Except.map]
    split_ifs <;> rfl

theorem start_withInputs (s : State) (linesState : Dict String Bool) (fl : Rounding)
    (channelType : Option ChannelType) (raises : Finset ChannelType)
    (sampClkRate : Option PyFloat) :
    (s.withInputs linesState).start fl channelType raises sampClkRate =
      ((s.start fl channelType raises sampClkRate).1.withInputs linesState,
        (s.start fl channelType raises sampClkRate).2) := by
  unfold State.start
  dsimp only
  rw [show (s.withInputs linesState).channelTypes channelType = s.channelTypes channelType from rfl,
    show (s.withInputs linesState).runningChannelTypes = s.runningChannelTypes from rfl,
    startTasks_withInputs]
  by_cases hguard : (s.runningChannelTypes ∩ (s.channelTypes channelType).toFinset).Nonempty
  · rw [if_pos hguard, if_pos hguard]
  · rw [if_neg hguard, if_neg hguard]
    obtain ⟨t, result⟩ := s.startTasks raises (s.channelTypes channelType)
    cases result with
    | error e => rfl
    | ok =>
      dsimp only
      split_ifs <;> rfl

theorem stop_withInputs (s : State) (linesState : Dict String Bool)
    (channelType : Option ChannelType) (raises : Finset ChannelType) :
    (s.withInputs linesState).stop channelType raises =
      ((s.stop channelType raises).1.withInputs linesState, (s.stop channelType raises).2) := by
  unfold State.stop
  cases channelType with
  | some channelType =>
    dsimp only
    rw [setRunning_withInputs,
      show (s.withInputs linesState).tasks.get? channelType = s.tasks.get? channelType from rfl]
    split_ifs <;> rfl
  | none =>
    dsimp only
    rw [show (s.withInputs linesState).tasks = s.tasks from rfl, stopTasks_withInputs]
    obtain ⟨t, result⟩ := s.stopTasks raises s.tasks.keys
    cases result <;> rfl

/-- The calls that have no part in the lines. -/
theorem alike_of_withInputs {linesState : Dict String Bool} {after after' : State × Except Error Unit}
    (hkeys : linesState.keys = s.inputs.linesState.keys) (hsame : SameLines s after.1)
    (h : after' = (after.1.withInputs linesState, after.2)) :
    raisedBy after'.2 = raisedBy after.2 ∧ Alike after.1 after'.1 := by
  subst h
  exact ⟨rfl, linesState, rfl, hkeys.trans hsame.keys.symm⟩

/-- **Step lemma.** States that differ in the stored response do the same and stay alike. -/
theorem step_alike (h : Alike s t) (event : Event) :
    (step fl t event).2 = (step fl s event).2 ∧
      Alike (step fl s event).1 (step fl t event).1 := by
  cases event with
  | configureLine direction physicalChannel logic channelAlias further raises =>
    obtain ⟨hresult, hstate⟩ := configureLineChannel_alike h direction physicalChannel logic
      channelAlias further raises
    exact ⟨congrArg raisedBy hresult, hstate⟩
  | readLine channelAlias bits raises =>
    unfold step
    have hchannels : t.inputs.channels = s.inputs.channels := (SameLines.of_alike h).channels
    dsimp only
    rw [hchannels]
    cases s.inputs.channels.get? channelAlias with
    | none => exact ⟨rfl, h⟩
    | some channel => exact readDigitalLine_alike h channel bits raises
  | writeLine channelAlias data raises =>
    obtain ⟨linesState, rfl, hkeys⟩ := h
    unfold step State.writeDigitalLine
    dsimp only [State.withInputs]
    cases s.outputs.channels.get? channelAlias with
    | none => exact ⟨rfl, linesState, rfl, hkeys⟩
    | some channel =>
      cases s.tasks.get? .digitalOutput <;> exact ⟨rfl, linesState, rfl, hkeys⟩
  | configureAiChannel raises =>
    obtain ⟨linesState, rfl, hkeys⟩ := h
    exact alike_of_withInputs hkeys (sameLines_configureAiChannel s raises)
      (configureAiChannel_withInputs s linesState raises)
  | configureAiHwTiming sampleRate raises =>
    obtain ⟨linesState, rfl, hkeys⟩ := h
    exact alike_of_withInputs hkeys (sameLines_configureAiHwTiming s sampleRate raises)
      (configureAiHwTiming_withInputs s linesState sampleRate raises)
  | start channelType raises sampClkRate =>
    obtain ⟨linesState, rfl, hkeys⟩ := h
    exact alike_of_withInputs hkeys (sameLines_start fl s channelType raises sampClkRate)
      (start_withInputs s linesState fl channelType raises sampClkRate)
  | stop channelType raises =>
    obtain ⟨linesState, rfl, hkeys⟩ := h
    exact alike_of_withInputs hkeys (sameLines_stop s channelType raises)
      (stop_withInputs s linesState channelType raises)

end StoredResponse

end Instro.Daq.Ni
