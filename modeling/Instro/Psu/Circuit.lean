import Instro.Psu.Simulator

/-!
# The circuit of a channel

A voltage source in series with the probe leads and with a load, which is a resistance and an
electromotive force. The source holds the sensed voltage at the setpoint, unless the current would be
above the limit. Where it sees no resistance, nothing it can do changes what it senses.
-/

namespace Instro.Psu

open Instro.Library

/-- The quantities of a circuit. -/
structure Circuit where
  voltageSetpoint : ℚ
  currentLimit : ℚ
  rLoad : ℚ
  rProbe : ℚ
  emf : ℚ
  voltageSetpoint_nonneg : 0 ≤ voltageSetpoint
  currentLimit_nonneg : 0 ≤ currentLimit
  rLoad_nonneg : 0 ≤ rLoad
  rProbe_nonneg : 0 ≤ rProbe

namespace Circuit

/-- The channel is set to these quantities. -/
structure Of (c : Circuit) (ch : SimulatedPSUChannel) : Prop where
  voltageSetpoint : ch.voltageSetpoint.value? = some c.voltageSetpoint
  currentLimit : ch.currentLimit.value? = some c.currentLimit
  resistance : ch.load.resistance.value? = some c.rLoad
  probeResistance : ch.load.probeResistance.value? = some c.rProbe
  emf : ch.load.emf.value? = some c.emf

/-- The resistance between the points at which the voltage is sensed. -/
def rTotal (c : Circuit) (remoteSense : Bool) : ℚ :=
  if remoteSense then c.rLoad else c.rLoad + c.rProbe

/-- The source sees no resistance, and the load drives it above the setpoint. -/
def Overdriven (c : Circuit) (remoteSense : Bool) : Prop :=
  c.rTotal remoteSense = 0 ∧ c.voltageSetpoint < c.emf

/-- What a channel shows is a state of the circuit. -/
structure Solved (c : Circuit) (ch : SimulatedPSUChannel) (load terminal i sensed : ℚ) :
    Prop where
  loadVoltage : ch.loadVoltage.value? = some load
  terminalVoltage : ch.terminalVoltage.value? = some terminal
  current : ch.current.value? = some i
  senseVoltage : ch.senseVoltage.value? = some sensed
  load_eq : load = i * c.rLoad + c.emf
  probe_eq : terminal - load = i * c.rProbe
  current_le : i ≤ c.currentLimit
  mode : ch.mode = .cv ∨ ch.mode = .cc
  cv : ch.mode = .cv → sensed = c.voltageSetpoint
  cc : ch.mode = .cc → i = c.currentLimit

variable {c : Circuit} {ch : SimulatedPSUChannel}

theorem rTotal_nonneg (c : Circuit) (remoteSense : Bool) : 0 ≤ c.rTotal remoteSense := by
  have hload := c.rLoad_nonneg
  have hprobe := c.rProbe_nonneg
  unfold rTotal
  split_ifs
  · exact hload
  · exact add_nonneg hload hprobe

theorem Of.rTotal (h : c.Of ch) : (ch.rTotal exact).value? = some (c.rTotal ch.remoteSense) := by
  unfold SimulatedPSUChannel.rTotal Circuit.rTotal
  split_ifs
  · exact h.resistance
  · exact PyFloat.value?_add h.resistance h.probeResistance

/-- The current at which the load has the setpoint: none is needed, none is enough, or it is given by
the resistance. -/
theorem Of.demand (h : c.Of ch) :
    (c.rTotal ch.remoteSense = 0 ∧ c.voltageSetpoint ≠ c.emf ∧ ch.demand exact = .inf false) ∨
      ∃ i, (ch.demand exact).value? = some i ∧
        i * c.rTotal ch.remoteSense = c.voltageSetpoint - c.emf ∧
        (c.rTotal ch.remoteSense = 0 → i = 0) := by
  have hdifference := PyFloat.value?_sub h.voltageSetpoint h.emf
  have hfinite : (ch.rTotal exact).isFinite = true := by
    unfold PyFloat.isFinite
    rw [h.rTotal]
    rfl
  have hzero : ∀ {x q}, PyFloat.value? x = some q → x.eq (.finite 0) = decide (q = 0) :=
    fun hx => PyFloat.eq_of_values hx rfl
  unfold SimulatedPSUChannel.demand
  dsimp only
  rw [hzero h.rTotal, hzero hdifference]
  by_cases hr : c.rTotal ch.remoteSense = 0
  · rw [if_pos (decide_eq_true hr)]
    by_cases hsame : c.voltageSetpoint - c.emf = 0
    · rw [if_pos (decide_eq_true hsame)]
      exact .inr ⟨0, rfl, by rw [zero_mul, hsame], fun _ => rfl⟩
    · rw [if_neg (by simpa using hsame)]
      exact .inl ⟨hr, fun heq => hsame (sub_eq_zero.mpr heq), rfl⟩
  · rw [if_neg (by simpa using hr), if_neg (not_not.mpr hfinite)]
    exact .inr ⟨_, PyFloat.value?_quotient hdifference h.rTotal, div_mul_cancel₀ _ hr,
      fun h0 => absurd h0 hr⟩

/-- The source holds the setpoint with a current the limit allows. -/
theorem solved_cv (h : c.Of ch) {i : ℚ} (hi : (ch.demand exact).value? = some i)
    (hsolves : i * c.rTotal ch.remoteSense = c.voltageSetpoint - c.emf) (hle : i ≤ c.currentLimit) :
    ∃ load terminal,
      c.Solved (ch.updateVoltageSource exact) load terminal i c.voltageSetpoint := by
  have hcv : (ch.demand exact).le ch.currentLimit = true := by
    rw [PyFloat.le_of_values hi h.currentLimit]
    exact decide_eq_true hle
  have hdrop := PyFloat.value?_mul hi h.probeResistance
  unfold SimulatedPSUChannel.updateVoltageSource
  dsimp only
  rw [if_pos hcv]
  cases hremote : ch.remoteSense with
  | true =>
    rw [hremote] at hsolves
    refine ⟨_, _, h.voltageSetpoint, PyFloat.value?_add h.voltageSetpoint hdrop, hi,
      h.voltageSetpoint, ?_, by ring, hle, .inl rfl, fun _ => rfl, nofun⟩
    have hload : i * c.rLoad = c.voltageSetpoint - c.emf := hsolves
    linarith
  | false =>
    rw [hremote] at hsolves
    refine ⟨_, _, PyFloat.value?_sub h.voltageSetpoint hdrop, h.voltageSetpoint, hi,
      h.voltageSetpoint, ?_, by ring, hle, .inl rfl, fun _ => rfl, nofun⟩
    have htotal : i * (c.rLoad + c.rProbe) = c.voltageSetpoint - c.emf := hsolves
    linarith

/-- The source delivers the current limit, and the sensed voltage is what comes of it. -/
theorem solved_cc (h : c.Of ch) (hcc : (ch.demand exact).le ch.currentLimit = false) :
    ∃ load terminal, c.Solved (ch.updateVoltageSource exact) load terminal c.currentLimit
      (c.currentLimit * c.rTotal ch.remoteSense + c.emf) := by
  have hload := PyFloat.value?_add (PyFloat.value?_mul h.currentLimit h.resistance) h.emf
  have hterminal :=
    PyFloat.value?_add hload (PyFloat.value?_mul h.currentLimit h.probeResistance)
  have hfinite : ch.load.resistance.isFinite = true := by
    unfold PyFloat.isFinite
    rw [h.resistance]
    rfl
  unfold SimulatedPSUChannel.updateVoltageSource
  dsimp only
  rw [if_neg (ne_true_of_eq_false hcc), if_pos hfinite]
  refine ⟨_, _, hload, hterminal, h.currentLimit, ?_, rfl, by ring, le_rfl, .inr rfl, nofun,
    fun _ => rfl⟩
  unfold SimulatedPSUChannel.senseVoltage Circuit.rTotal
  cases hremote : ch.remoteSense with
  | true => exact hload
  | false =>
    have hsum : c.currentLimit * (c.rLoad + c.rProbe) + c.emf =
        c.currentLimit * c.rLoad + c.emf + c.currentLimit * c.rProbe := by ring
    rw [if_neg Bool.false_ne_true, if_neg Bool.false_ne_true, hsum]
    exact hterminal

/-- **The circuit law.** What a channel shows solves its circuit, and the sensed voltage is at most the
setpoint, unless the source sees no resistance and the load drives it: then it senses the load. -/
theorem circuit_law (h : c.Of ch) :
    ∃ load terminal i sensed, c.Solved (ch.updateVoltageSource exact) load terminal i sensed ∧
      (sensed ≤ c.voltageSetpoint ↔ ¬c.Overdriven ch.remoteSense) ∧
      (c.Overdriven ch.remoteSense → sensed = c.emf) := by
  have hlimit := c.currentLimit_nonneg
  unfold Overdriven
  rcases h.demand with ⟨hr, hne, hinf⟩ | ⟨i, hi, hsolves, hzero⟩
  · -- Without resistance the source delivers the limit, whichever way the difference goes.
    have hcc : (ch.demand exact).le ch.currentLimit = false := by
      rw [hinf]
      exact PyFloat.not_inf_le h.currentLimit
    obtain ⟨load, terminal, hsolved⟩ := solved_cc h hcc
    refine ⟨load, terminal, _, _, hsolved, ?_, ?_⟩
    · rw [hr, mul_zero, zero_add]
      constructor
      · exact fun hle hover => absurd hover.2 (not_lt.mpr hle)
      · exact fun hnot => not_lt.mp fun hlt => hnot ⟨rfl, hlt⟩
    · intro _
      rw [hr, mul_zero, zero_add]
  · by_cases hle : i ≤ c.currentLimit
    · obtain ⟨load, terminal, hsolved⟩ := solved_cv h hi hsolves hle
      have hsame : c.rTotal ch.remoteSense = 0 → c.voltageSetpoint = c.emf := by
        intro hr
        rw [hr, mul_zero] at hsolves
        linarith
      refine ⟨load, terminal, i, _, hsolved, iff_of_true le_rfl ?_, ?_⟩
      · exact fun hover => absurd (hsame hover.1) hover.2.ne
      · exact fun hover => hsame hover.1
    · have hcc : (ch.demand exact).le ch.currentLimit = false := by
        rw [PyFloat.le_of_values hi h.currentLimit]
        exact decide_eq_false hle
      have hr : c.rTotal ch.remoteSense ≠ 0 := by
        intro hr
        rw [hzero hr] at hle
        exact hle hlimit
      obtain ⟨load, terminal, hsolved⟩ := solved_cc h hcc
      refine ⟨load, terminal, _, _, hsolved, iff_of_true ?_ fun hover => hr hover.1,
        fun hover => absurd hover.1 hr⟩
      have hless : c.currentLimit * c.rTotal ch.remoteSense ≤ i * c.rTotal ch.remoteSense :=
        mul_le_mul_of_nonneg_right (not_le.mp hle).le (c.rTotal_nonneg _)
      linarith

/-- A source of 5 V, at most 1 A, on a load of 6 V without resistance. -/
def opposed : Circuit where
  voltageSetpoint := 5
  currentLimit := 1
  rLoad := 0
  rProbe := 0
  emf := 6
  voltageSetpoint_nonneg := by norm_num
  currentLimit_nonneg := by norm_num
  rLoad_nonneg := le_rfl
  rProbe_nonneg := le_rfl

def opposedChannel : SimulatedPSUChannel :=
  { SimulatedPSUChannel.init 1 ⟨.finite 0, .finite 6, .finite 0⟩ with
    voltageSetpoint := .finite 5
    currentLimit := .finite 1 }

theorem opposed_of : opposed.Of opposedChannel := ⟨rfl, rfl, rfl, rfl, rfl⟩

theorem circuit_law_opposed :
    ∃ load terminal i sensed,
      opposed.Solved (opposedChannel.updateVoltageSource exact) load terminal i sensed ∧
      (sensed ≤ 5 ↔ ¬opposed.Overdriven false) ∧ (opposed.Overdriven false → sensed = 6) :=
  circuit_law opposed_of

theorem sensed_above_setpoint :
    ¬∀ (c : Circuit) (ch : SimulatedPSUChannel), c.Of ch →
      ∃ load terminal i sensed, c.Solved (ch.updateVoltageSource exact) load terminal i sensed ∧
        sensed ≤ c.voltageSetpoint := by
  intro hall
  obtain ⟨load, terminal, i, sensed, hsolved, hle⟩ := hall opposed opposedChannel opposed_of
  have hsensed : (opposedChannel.updateVoltageSource exact).senseVoltage = .finite 6 := by
    decide +kernel
  have hvalue := hsolved.senseVoltage
  rw [hsensed] at hvalue
  obtain rfl := Option.some.inj hvalue
  exact absurd hle (by decide +kernel)

end Circuit

end Instro.Psu
