import Instro.Psu.Protection

/-!
# Settings

The voltage and the current of a channel are regulated in the same way: a setpoint below a
protection level below a limit. Each setter checks one neighbour, and that keeps the whole chain.
-/

namespace Instro.Psu

open Instro.Library

/-! ## The chain -/

/-- `0 <= setpoint <= level <= maximum`, as floats compare. -/
structure Chain (setpoint level maximum : PyFloat) : Prop where
  nonneg : (PyFloat.finite 0).le setpoint = true
  below : setpoint.le level = true
  limited : level.le maximum = true

namespace Chain

variable {setpoint level maximum value : PyFloat}

theorem maximum_nonneg (h : Chain setpoint level maximum) :
    (PyFloat.finite 0).le maximum = true :=
  PyFloat.le_trans h.nonneg (PyFloat.le_trans h.below h.limited)

/-- What is asked for by name is in the range as well. -/
theorem of_ranged (h : Chain setpoint level maximum) (hvalue : Ranged (.finite 0) maximum value) :
    (PyFloat.finite 0).le value = true ∧ value.le maximum = true := by
  rcases hvalue with rfl | rfl | hvalue
  · exact ⟨h.maximum_nonneg, PyFloat.le_self_of_le h.limited⟩
  · exact ⟨rfl, h.maximum_nonneg⟩
  · exact hvalue

theorem set (h : Chain setpoint level maximum) (hvalue : Ranged (.finite 0) maximum value)
    (hlevel : level.lt value = false) : Chain value level maximum := by
  obtain ⟨hnonneg, -⟩ := h.of_ranged hvalue
  refine ⟨hnonneg, ?_, h.limited⟩
  exact PyFloat.le_of_not_lt (PyFloat.le_self_of_le hnonneg) (PyFloat.le_self_of_le h.below) hlevel

theorem protect (h : Chain setpoint level maximum) (hvalue : Ranged (.finite 0) maximum value)
    (hsetpoint : value.lt setpoint = false) : Chain setpoint value maximum := by
  obtain ⟨hnonneg, hmax⟩ := h.of_ranged hvalue
  refine ⟨h.nonneg, ?_, hmax⟩
  exact PyFloat.le_of_not_lt (PyFloat.le_self_of_le h.nonneg) (PyFloat.le_self_of_le hnonneg)
    hsetpoint

/-- A reset puts the level at the limit and the setpoint at 0. -/
theorem reset (h : (PyFloat.finite 0).le maximum = true) : Chain (.finite 0) maximum maximum :=
  ⟨rfl, h, PyFloat.le_self_of_le h⟩

end Chain

/-! ## Channels -/

/-- Both chains of a channel. -/
structure SimulatedPSUChannel.InRange (ch : SimulatedPSUChannel) : Prop where
  voltage : Chain ch.voltageSetpoint ch.overvoltageProtectionLevel ch.voltageMax
  current : Chain ch.currentLimit ch.overcurrentProtectionLevel ch.currentMax

namespace SimulatedPSUChannel

variable {fl : Rounding} {ch ch' : SimulatedPSUChannel}

theorem InRange.updated (h : ch.InRange) : (ch.updated fl).InRange := by
  obtain ⟨_, _, _, _, _, _, _, _, hupdated⟩ := updated_frame fl ch
  rw [hupdated]
  exact ⟨h.voltage, h.current⟩

theorem InRange.edit {Loads : PyFloat → Prop} (h : ch.InRange) (hedit : Edit Loads ch ch') :
    ch'.InRange := by
  cases hedit with
  | voltage hrange hlevel => exact ⟨h.voltage.set hrange hlevel, h.current⟩
  | current hrange hlevel => exact ⟨h.voltage, h.current.set hrange hlevel⟩
  | ocpLevel hrange hlimit => exact ⟨h.voltage, h.current.protect hrange hlimit⟩
  | ovpLevel hrange hsetpoint => exact ⟨h.voltage.protect hrange hsetpoint, h.current⟩
  | ocpState enable => exact ⟨h.voltage, h.current⟩
  | ovpState enable => exact ⟨h.voltage, h.current⟩
  | outputOn => exact ⟨h.voltage, h.current⟩
  | outputOff => exact ⟨h.voltage, h.current⟩
  | clearTrip => exact ⟨h.voltage, h.current⟩
  | remoteSense enable => exact ⟨h.voltage, h.current⟩
  | load param hvalue => cases param <;> exact ⟨h.voltage, h.current⟩

theorem inRange_reset (hvoltage : (PyFloat.finite 0).le ch.voltageMax = true)
    (hcurrent : (PyFloat.finite 0).le ch.currentMax = true) : ch.reset.InRange :=
  ⟨.reset hvoltage, .reset hcurrent⟩

end SimulatedPSUChannel

/-- A finite limit that is not negative. -/
theorem nonneg_of_limit {value : PyFloat} (hfinite : value.isFinite = true)
    (hmin : value.lt channelMin = false) : (PyFloat.finite 0).le value = true :=
  le_of_values_of_not_lt ⟨0, rfl⟩ (value_of_isFinite hfinite) (Bool.eq_false_iff.mp hmin)

theorem inRange_stable (fl : Rounding) (Loads : PyFloat → Prop) :
    Stable fl Loads SimulatedPSUChannel.InRange where
  init _ := ⟨.reset rfl, .reset rfl⟩
  updated h := h.updated
  edit h hedit := (h.edit hedit).updated
  reset h := SimulatedPSUChannel.inRange_reset h.voltage.maximum_nonneg h.current.maximum_nonneg
  limit h param hfinite hmin := by
    have hnonneg := nonneg_of_limit hfinite hmin
    cases param with
    | voltage => exact SimulatedPSUChannel.inRange_reset hnonneg h.current.maximum_nonneg
    | current => exact SimulatedPSUChannel.inRange_reset h.voltage.maximum_nonneg hnonneg

/-! ## The settings of a run -/

/-- **Settings.** After any operations every channel is in range, and a command that queues an error
other than a trip leaves every channel as it was. -/
theorem settings_invariant (fl : Rounding) (py : PyText) (channelIds : List ℤ)
    (ops : List Operation) (psu : SimulatedPSU) (hfinite : ∀ op ∈ ops, op.FiniteLimit py)
    (hrun : (psuLoop fl py).stateAfter (.ofIds channelIds) ops = some psu) :
    (∀ ch ∈ psu.channels, ch.InRange) ∧
      ∀ line gauss response psu',
        processScpiCommand fl py gauss psu line = .ok (response, psu') →
          (∃ err ∈ queuedErrors psu psu', ¬ err.IsTrip) → psu'.channels = psu.channels := by
  have henters : ∀ op ∈ ops, op.Enters (fun _ => True) py := fun op hop => (hfinite op hop).enters
  refine ⟨(inRange_stable fl _).run henters hrun, ?_⟩
  rintro line gauss response psu' hprocess ⟨err, hmem, htrip⟩
  have hsettled := (settled_stable fl _).run henters hrun
  have haccounted : Accounted fl (fun _ => True) psu psu' := processScpiCommand_accounted hprocess
  rcases haccounted.errors with hsame | hupdated | htrips
  · exact hsame
  · rw [hupdated, map_updated_of_settled hsettled]
  · exact absurd (htrips err hmem) htrip

/-- ASCII letters, decimal digits without a sign, and `inf`. -/
def openText : PyText :=
  { asciiText with
    float := fun text => if text = "inf".toList then some (.inf false) else asciiText.float text }

/-- The load of the first channel is taken off while it delivers 5 V. -/
def openRun : List Operation :=
  [.promptSetLimit 2 .voltage (some "30".toList),
    .command "VOLT 5".toList fun mean _ => mean,
    .command "CURR 2".toList fun mean _ => mean,
    .command "OUTP1 ON".toList fun mean _ => mean,
    .promptSet 1 .load (some "inf".toList)]

theorem openRun_finiteLimit : ∀ op ∈ openRun, op.FiniteLimit openText := by
  unfold openRun
  simp only [List.forall_mem_cons]
  refine ⟨fun value h => ?_, trivial, trivial, trivial, trivial,
    fun _ hmem => absurd hmem List.not_mem_nil⟩
  obtain rfl : PyFloat.finite (30 : ℕ) = value := Option.some.inj h
  rfl

/-- After the run 61 V are refused and change nothing. -/
theorem settings_invariant_openRun :
    ∃ psu psu', (psuLoop exact openText).stateAfter (.init 2) openRun = some psu ∧
      psu.channels.map (·.load.resistance) = [.inf false, .finite 1000] ∧
      (∀ ch ∈ psu.channels, ch.InRange) ∧
      processScpiCommand exact openText (fun mean _ => mean) psu "VOLT 61".toList = .ok (none, psu') ∧
      queuedErrors psu psu' = [.dataOutOfRange] ∧ psu'.channels = psu.channels := by
  have hloads : (((psuLoop exact openText).stateAfter (.init 2) openRun).map fun psu =>
      (psu.channels.map (·.load.resistance),
        (processScpiCommand exact openText (fun mean _ => mean) psu "VOLT 61".toList).toOption.map
          fun outcome => (outcome.1, queuedErrors psu outcome.2))) =
        some ([.inf false, .finite 1000], some (none, [.dataOutOfRange])) := by decide +kernel
  obtain ⟨psu, hpsu, hafter⟩ := Option.map_eq_some_iff.mp hloads
  obtain ⟨hresistance, houtcome⟩ := Prod.mk.inj hafter
  obtain ⟨⟨response, psu'⟩, hprocess, hqueued⟩ := Option.map_eq_some_iff.mp houtcome
  obtain ⟨rfl, herrors⟩ := Prod.mk.inj hqueued
  have hok := toOption_eq_some.mp hprocess
  obtain ⟨hrange, hkept⟩ :=
    settings_invariant exact openText _ openRun psu openRun_finiteLimit hpsu
  refine ⟨psu, psu', hpsu, hresistance, hrange, hok, herrors, hkept _ _ _ _ hok ?_⟩
  exact ⟨.dataOutOfRange, by rw [herrors]; exact List.mem_singleton_self _, by decide⟩

end Instro.Psu
