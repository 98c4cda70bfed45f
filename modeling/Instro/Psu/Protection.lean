import Instro.Psu.Operations

/-!
# Protection

`_update` computes what is observed from the settings alone, so updating twice is updating once, and
every operation leaves every channel as `_update` leaves it. In such a state nothing is delivered
while the output is off, and an enabled protection holds the output to its level.
-/

namespace Instro.Psu

open Instro.Library

namespace SimulatedPSUChannel

/-! ## Settled channels -/

/-- The channel with other observed values. -/
def observe (ch : SimulatedPSUChannel) (mode : OperatingMode)
    (current loadVoltage terminalVoltage : PyFloat) : SimulatedPSUChannel :=
  { ch with
    mode := mode
    current := current
    loadVoltage := loadVoltage
    terminalVoltage := terminalVoltage }

/-- `_update` changes nothing and queues nothing. -/
def Settled (fl : Rounding) (ch : SimulatedPSUChannel) : Prop := ch.update fl = (ch, [])

variable {fl : Rounding} {ch : SimulatedPSUChannel}

/-- The source changes what is observed only. -/
theorem updateVoltageSource_eq_observe (fl : Rounding) (ch : SimulatedPSUChannel) :
    ∃ mode current loadVoltage terminalVoltage,
      ch.updateVoltageSource fl = ch.observe mode current loadVoltage terminalVoltage := by
  unfold updateVoltageSource
  dsimp only
  split_ifs
  · exact ⟨_, _, _, _, rfl⟩
  · exact ⟨_, _, _, _, rfl⟩
  · exact ⟨_, _, _, _, rfl⟩
  · exact ⟨_, _, _, _, rfl⟩

/-- The source does not depend on what is observed. -/
theorem updateVoltageSource_observe (mode : OperatingMode)
    (current loadVoltage terminalVoltage : PyFloat) :
    (ch.observe mode current loadVoltage terminalVoltage).updateVoltageSource fl =
      ch.updateVoltageSource fl := by
  have hdemand : (ch.observe mode current loadVoltage terminalVoltage).demand fl =
      ch.demand fl := rfl
  unfold updateVoltageSource
  rw [hdemand]
  rfl

theorem updateVoltageSource_idem (fl : Rounding) (ch : SimulatedPSUChannel) :
    (ch.updateVoltageSource fl).updateVoltageSource fl = ch.updateVoltageSource fl := by
  obtain ⟨mode, current, loadVoltage, terminalVoltage, h⟩ := updateVoltageSource_eq_observe fl ch
  rw [h, updateVoltageSource_observe, h]

/-- `_update` changes what is observed, the latch, the output and the flags of a trip. -/
theorem updated_frame (fl : Rounding) (ch : SimulatedPSUChannel) :
    ∃ mode current loadVoltage terminalVoltage latched enabled overvoltage overcurrent,
      ch.updated fl = { ch.observe mode current loadVoltage terminalVoltage with
        protectionLatched := latched
        outputEnabled := enabled
        overvoltageTripped := overvoltage
        overcurrentTripped := overcurrent } := by
  obtain ⟨mode, current, loadVoltage, terminalVoltage, hsource⟩ :=
    updateVoltageSource_eq_observe fl ch
  unfold updated update
  rw [hsource]
  dsimp only
  split_ifs
  · exact ⟨.off, .finite 0, .finite 0, .finite 0, ch.protectionLatched, ch.outputEnabled,
      ch.overvoltageTripped, ch.overcurrentTripped, rfl⟩
  · exact ⟨.off, .finite 0, .finite 0, .finite 0, true, false, true, ch.overcurrentTripped, rfl⟩
  · exact ⟨.off, .finite 0, .finite 0, .finite 0, true, false, ch.overvoltageTripped, true, rfl⟩
  · exact ⟨mode, current, loadVoltage, terminalVoltage, ch.protectionLatched, ch.outputEnabled,
      ch.overvoltageTripped, ch.overcurrentTripped, rfl⟩

theorem update_of_off (h : ¬ ch.outputEnabled = true ∨ ch.protectionLatched = true) :
    ch.update fl = (ch.deEnergize, []) := by
  unfold update
  rw [if_pos h]

/-- A channel that delivers nothing, and has its output off, is settled. -/
theorem settled_of_off (h : ch.deEnergize = ch) (hoff : ¬ ch.outputEnabled = true) :
    ch.Settled fl := by
  unfold Settled
  rw [update_of_off (.inl hoff), h]

/-- **Updating twice is updating once.** -/
theorem settled_updated (fl : Rounding) (ch : SimulatedPSUChannel) :
    (ch.updated fl).Settled fl := by
  by_cases hoff : ¬ ch.outputEnabled = true ∨ ch.protectionLatched = true
  · unfold updated
    rw [update_of_off hoff]
    have hagain : ch.deEnergize.update fl = (ch.deEnergize.deEnergize, []) := update_of_off hoff
    exact hagain
  · obtain ⟨mode, current, loadVoltage, terminalVoltage, hsource⟩ :=
      updateVoltageSource_eq_observe fl ch
    have hidem := updateVoltageSource_idem fl ch
    unfold updated update
    rw [if_neg hoff]
    dsimp only
    split_ifs with hovp hocp
    · exact settled_of_off rfl (by nofun)
    · exact settled_of_off rfl (by nofun)
    · have hon : ¬ (¬ (ch.updateVoltageSource fl).outputEnabled = true ∨
          (ch.updateVoltageSource fl).protectionLatched = true) := by
        rw [hsource]
        exact hoff
      unfold Settled update
      rw [if_neg hon, hidem]
      dsimp only
      rw [if_neg hovp, if_neg hocp]

/-- Where nothing trips, a settled channel with its output on is as the source leaves it. -/
theorem Settled.on (h : ch.Settled fl) (hon : ch.outputEnabled = true)
    (hlatch : ch.protectionLatched = false) :
    ch.updateVoltageSource fl = ch ∧
      ¬ (ch.overvoltageProtectionEnabled = true ∧
        ch.overvoltageProtectionLevel.lt ch.senseVoltage = true) ∧
      ¬ (ch.overcurrentProtectionEnabled = true ∧
        ch.overcurrentProtectionLevel.lt ch.current.abs = true) := by
  unfold Settled update at h
  rw [if_neg (by simp [hon, hlatch])] at h
  dsimp only at h
  split_ifs at h with hovp hocp
  · exact absurd (Prod.mk.inj h).2 (List.cons_ne_nil _ _)
  · exact absurd (Prod.mk.inj h).2 (List.cons_ne_nil _ _)
  · have hsource := (Prod.mk.inj h).1
    rw [hsource] at hovp hocp
    exact ⟨hsource, hovp, hocp⟩

end SimulatedPSUChannel

theorem settled_stable (fl : Rounding) (Loads : PyFloat → Prop) :
    Stable fl Loads (SimulatedPSUChannel.Settled fl) where
  init _ := SimulatedPSUChannel.settled_of_off rfl (by nofun)
  updated _ := SimulatedPSUChannel.settled_updated fl _
  edit _ _ := SimulatedPSUChannel.settled_updated fl _
  reset _ := SimulatedPSUChannel.settled_of_off rfl (by nofun)
  limit _ _ _ _ := SimulatedPSUChannel.settled_of_off rfl (by nofun)

/-- A power supply of settled channels is unchanged by `_update`. -/
theorem map_updated_of_settled {fl : Rounding} {channels : List SimulatedPSUChannel}
    (h : ∀ ch ∈ channels, ch.Settled fl) : channels.map (·.updated fl) = channels := by
  refine (List.map_congr_left fun ch hch => ?_).trans (List.map_id channels)
  exact congrArg Prod.fst (h ch hch)

theorem update_of_settled {fl : Rounding} {psu : SimulatedPSU}
    (h : ∀ ch ∈ psu.channels, ch.Settled fl) : psu.update fl = psu := by
  have herrors : (psu.channels.flatMap fun ch => (ch.update fl).2) = [] := by
    rw [List.flatMap_eq_nil_iff]
    intro ch hch
    rw [h ch hch]
  unfold SimulatedPSU.update
  rw [map_updated_of_settled h, herrors, List.append_nil]

/-! ## Trips -/

/-- A channel is latched by one protection, with its output off, or by none. -/
def SimulatedPSUChannel.FlagsOk (ch : SimulatedPSUChannel) : Prop :=
  (ch.protectionLatched = true ∧ ch.outputEnabled = false ∧
      ch.overvoltageTripped ≠ ch.overcurrentTripped) ∨
    (ch.protectionLatched = false ∧ ch.overvoltageTripped = false ∧ ch.overcurrentTripped = false)

namespace SimulatedPSUChannel

variable {fl : Rounding} {ch ch' : SimulatedPSUChannel}

theorem FlagsOk.updated (h : ch.FlagsOk) : (ch.updated fl).FlagsOk := by
  unfold SimulatedPSUChannel.updated
  by_cases hoff : ¬ ch.outputEnabled = true ∨ ch.protectionLatched = true
  · rw [update_of_off hoff]
    exact h
  · obtain ⟨mode, current, loadVoltage, terminalVoltage, hsource⟩ :=
      updateVoltageSource_eq_observe fl ch
    obtain ⟨hlatch, hov, hoc⟩ := h.resolve_left fun h => hoff (.inr h.1)
    unfold update
    rw [if_neg hoff, hsource]
    dsimp only
    -- a trip sets its own flag only
    split_ifs
    · refine .inl ⟨rfl, rfl, ?_⟩
      show true ≠ ch.overcurrentTripped
      rw [hoc]
      decide
    · refine .inl ⟨rfl, rfl, ?_⟩
      show ch.overvoltageTripped ≠ true
      rw [hov]
      decide
    · exact .inr ⟨hlatch, hov, hoc⟩

theorem flagsOk_clearTrip (ch : SimulatedPSUChannel) : ch.clearTrip.FlagsOk := .inr ⟨rfl, rfl, rfl⟩

theorem FlagsOk.edit {Loads : PyFloat → Prop} (h : ch.FlagsOk) (hedit : Edit Loads ch ch') :
    ch'.FlagsOk := by
  cases hedit with
  | voltage hrange hlevel => exact h
  | current hrange hlevel => exact h
  | ocpLevel hrange hlimit => exact h
  | ovpLevel hrange hsetpoint => exact h
  | ocpState enable => exact h
  | ovpState enable => exact h
  | outputOn => exact .inr ⟨rfl, rfl, rfl⟩
  | outputOff => exact h.imp_left fun ⟨hlatch, _, htripped⟩ => ⟨hlatch, rfl, htripped⟩
  | clearTrip => exact flagsOk_clearTrip ch
  | remoteSense enable => exact h
  | load param hvalue => cases param <;> exact h

end SimulatedPSUChannel

theorem flagsOk_stable (fl : Rounding) (Loads : PyFloat → Prop) :
    Stable fl Loads SimulatedPSUChannel.FlagsOk where
  init _ := .inr ⟨rfl, rfl, rfl⟩
  updated h := h.updated
  edit h hedit := (h.edit hedit).updated
  reset _ := .inr ⟨rfl, rfl, rfl⟩
  limit _ _ _ _ := .inr ⟨rfl, rfl, rfl⟩

/-! ## Finite settings -/

/-- All settings of the channel and its load are finite. -/
structure SimulatedPSUChannel.FiniteSettings (ch : SimulatedPSUChannel) : Prop where
  voltageMax : ∃ q, ch.voltageMax.value? = some q
  currentMax : ∃ q, ch.currentMax.value? = some q
  voltageSetpoint : ∃ q, ch.voltageSetpoint.value? = some q
  currentLimit : ∃ q, ch.currentLimit.value? = some q
  ovpLevel : ∃ q, ch.overvoltageProtectionLevel.value? = some q
  ocpLevel : ∃ q, ch.overcurrentProtectionLevel.value? = some q
  resistance : ∃ q, ch.load.resistance.value? = some q
  emf : ∃ q, ch.load.emf.value? = some q
  probeResistance : ∃ q, ch.load.probeResistance.value? = some q

theorem value_of_isFinite {x : PyFloat} (h : x.isFinite = true) : ∃ q, x.value? = some q :=
  Option.isSome_iff_exists.mp h

/-- A number in a finite range is finite. -/
theorem value_of_ranged {maximum value : PyFloat} (hmax : ∃ q, maximum.value? = some q)
    (h : Ranged (.finite 0) maximum value) : ∃ q, value.value? = some q := by
  obtain ⟨q, hq⟩ := hmax
  rcases h with rfl | rfl | ⟨hmin, hle⟩
  · exact ⟨q, hq⟩
  · exact ⟨0, rfl⟩
  · exact PyFloat.value_of_between rfl hq hmin hle

namespace SimulatedPSUChannel

variable {fl : Rounding} {ch ch' : SimulatedPSUChannel}

theorem FiniteSettings.updated (h : ch.FiniteSettings) : (ch.updated fl).FiniteSettings := by
  obtain ⟨_, _, _, _, _, _, _, _, hupdated⟩ := updated_frame fl ch
  rw [hupdated]
  exact { h with }

theorem FiniteSettings.edit (h : ch.FiniteSettings)
    (hedit : Edit (fun value => value.isFinite = true) ch ch') : ch'.FiniteSettings := by
  cases hedit with
  | voltage hrange hlevel => exact { h with voltageSetpoint := value_of_ranged h.voltageMax hrange }
  | current hrange hlevel => exact { h with currentLimit := value_of_ranged h.currentMax hrange }
  | ocpLevel hrange hlimit => exact { h with ocpLevel := value_of_ranged h.currentMax hrange }
  | ovpLevel hrange hsetpoint => exact { h with ovpLevel := value_of_ranged h.voltageMax hrange }
  | ocpState enable => exact { h with }
  | ovpState enable => exact { h with }
  | outputOn => exact { h with }
  | outputOff => exact { h with }
  | clearTrip => exact { h with }
  | remoteSense enable => exact { h with }
  | load param hfinite =>
    cases param with
    | load => exact { h with resistance := value_of_isFinite hfinite }
    | emf => exact { h with emf := value_of_isFinite hfinite }
    | probe => exact { h with probeResistance := value_of_isFinite hfinite }

theorem FiniteSettings.reset (h : ch.FiniteSettings) : ch.reset.FiniteSettings :=
  ⟨h.voltageMax, h.currentMax, ⟨0, rfl⟩, ⟨0, rfl⟩, h.voltageMax, h.currentMax, h.resistance, h.emf,
    h.probeResistance⟩

theorem FiniteSettings.setLimit (h : ch.FiniteSettings) (param : LimitParam) {value : PyFloat}
    (hfinite : value.isFinite = true) : (ch.setLimit param value).FiniteSettings := by
  cases param with
  | voltage => exact { h with voltageMax := value_of_isFinite hfinite }
  | current => exact { h with currentMax := value_of_isFinite hfinite }

end SimulatedPSUChannel

theorem finiteSettings_stable (fl : Rounding) :
    Stable fl (fun value => value.isFinite = true) SimulatedPSUChannel.FiniteSettings where
  init _ := ⟨⟨60, rfl⟩, ⟨10, rfl⟩, ⟨0, rfl⟩, ⟨0, rfl⟩, ⟨60, rfl⟩, ⟨10, rfl⟩, ⟨1000, rfl⟩, ⟨0, rfl⟩,
    ⟨10, rfl⟩⟩
  updated h := h.updated
  edit h hedit := (h.edit hedit).updated
  reset h := h.reset
  limit h param hfinite _ := (h.setLimit param hfinite).reset

/-! ## Exact arithmetic -/

namespace SimulatedPSUChannel

variable {ch : SimulatedPSUChannel}

theorem rTotal_finite (h : ch.FiniteSettings) : ∃ q, (ch.rTotal exact).value? = some q := by
  obtain ⟨r, hr⟩ := h.resistance
  obtain ⟨p, hp⟩ := h.probeResistance
  unfold rTotal
  split_ifs
  · exact ⟨r, hr⟩
  · exact ⟨r + p, PyFloat.value?_add hr hp⟩

/-- The load draws a finite current, or one beyond every limit. -/
theorem demand_finite (h : ch.FiniteSettings) :
    (∃ q, (ch.demand exact).value? = some q) ∨ ch.demand exact = .inf false := by
  obtain ⟨v, hv⟩ := h.voltageSetpoint
  obtain ⟨e, he⟩ := h.emf
  obtain ⟨total, htotal⟩ := rTotal_finite h
  unfold demand
  dsimp only
  split_ifs
  · exact .inl ⟨0, rfl⟩
  · exact .inr rfl
  · exact .inl ⟨_, PyFloat.value?_quotient (PyFloat.value?_sub hv he) htotal⟩
  · exact .inl ⟨0, rfl⟩

/-- What the source delivers is finite. -/
theorem updateVoltageSource_finite (h : ch.FiniteSettings) :
    (∃ q, (ch.updateVoltageSource exact).current.value? = some q) ∧
      ∃ q, (ch.updateVoltageSource exact).senseVoltage.value? = some q := by
  obtain ⟨v, hv⟩ := h.voltageSetpoint
  obtain ⟨e, he⟩ := h.emf
  obtain ⟨r, hr⟩ := h.resistance
  obtain ⟨p, hp⟩ := h.probeResistance
  obtain ⟨l, hl⟩ := h.currentLimit
  have hload := PyFloat.value?_add (PyFloat.value?_mul hl hr) he
  unfold updateVoltageSource senseVoltage
  dsimp only
  by_cases hcv : (ch.demand exact).le ch.currentLimit = true
  · obtain ⟨i, hi⟩ : ∃ q, (ch.demand exact).value? = some q := by
      refine (demand_finite h).resolve_right fun hinf => ?_
      rw [hinf, PyFloat.not_inf_le hl] at hcv
      exact Bool.false_ne_true hcv
    rw [if_pos hcv]
    cases hremote : ch.remoteSense with
    | true => exact ⟨⟨i, hi⟩, ⟨v, hv⟩⟩
    | false => exact ⟨⟨i, hi⟩, ⟨v, hv⟩⟩
  · rw [if_neg hcv, if_pos (by unfold PyFloat.isFinite; rw [hr]; rfl)]
    cases hremote : ch.remoteSense with
    | true => exact ⟨⟨l, hl⟩, ⟨_, hload⟩⟩
    | false => exact ⟨⟨l, hl⟩, ⟨_, PyFloat.value?_add hload (PyFloat.value?_mul hl hp)⟩⟩

end SimulatedPSUChannel

/-! ## Soundness -/

/-- What the protection promises of a channel. -/
structure SimulatedPSUChannel.Protected (ch : SimulatedPSUChannel) : Prop where
  latched : ch.protectionLatched = true → ch.outputEnabled = false
  tripped : ch.protectionLatched = true ↔ ch.overvoltageTripped ≠ ch.overcurrentTripped
  off : ch.outputEnabled = false → ch.terminalVoltage = .finite 0 ∧ ch.loadVoltage = .finite 0 ∧
    ch.current = .finite 0 ∧ ch.mode = .off
  overvoltage : ch.outputEnabled = true → ch.overvoltageProtectionEnabled = true →
    ch.senseVoltage.le ch.overvoltageProtectionLevel = true
  overcurrent : ch.outputEnabled = true → ch.overcurrentProtectionEnabled = true →
    ch.current.abs.le ch.overcurrentProtectionLevel = true

/-- A finite float that is not above another is at most it. -/
theorem le_of_values_of_not_lt {x y : PyFloat} (hx : ∃ q, x.value? = some q)
    (hy : ∃ q, y.value? = some q) (h : ¬ y.lt x = true) : x.le y = true := by
  obtain ⟨p, hp⟩ := hx
  obtain ⟨q, hq⟩ := hy
  rw [PyFloat.lt_of_values hq hp, decide_eq_true_iff] at h
  rw [PyFloat.le_of_values hp hq]
  exact decide_eq_true (not_lt.mp h)

namespace SimulatedPSUChannel

variable {fl : Rounding} {ch : SimulatedPSUChannel}

/-- A settled channel whose output is off delivers nothing. -/
theorem Settled.off (h : ch.Settled fl) (hoff : ch.outputEnabled = false) : ch.deEnergize = ch := by
  unfold Settled at h
  rw [update_of_off (.inl (by simp [hoff]))] at h
  exact (Prod.mk.inj h).1

theorem protected_of_settled (hsettled : ch.Settled exact) (hflags : ch.FlagsOk)
    (hfinite : ch.FiniteSettings) : ch.Protected := by
  have hon : ch.outputEnabled = true → ch.protectionLatched = false := by
    intro hon
    rcases hflags with ⟨-, hoff, -⟩ | ⟨hlatch, -, -⟩
    · rw [hon] at hoff
      cases hoff
    · exact hlatch
  refine ⟨fun hlatch => ?_, ?_, fun hoff => ?_, fun henabled hovp => ?_, fun henabled hocp => ?_⟩
  · rcases hflags with ⟨-, hoff, -⟩ | ⟨hunlatched, -, -⟩
    · exact hoff
    · rw [hlatch] at hunlatched
      cases hunlatched
  · rcases hflags with ⟨hlatch, -, htripped⟩ | ⟨hlatch, hov, hoc⟩
    · exact ⟨fun _ => htripped, fun _ => hlatch⟩
    · rw [hlatch, hov, hoc]
      exact ⟨nofun, fun h => absurd rfl h⟩
  · have hde := hsettled.off hoff
    rw [← hde]
    exact ⟨rfl, rfl, rfl, rfl⟩
  · obtain ⟨hsource, hsense, -⟩ := hsettled.on henabled (hon henabled)
    have hvalue := (updateVoltageSource_finite hfinite).2
    rw [hsource] at hvalue
    exact le_of_values_of_not_lt hvalue hfinite.ovpLevel fun h => hsense ⟨hovp, h⟩
  · obtain ⟨hsource, -, hcurrent⟩ := hsettled.on henabled (hon henabled)
    obtain ⟨i, hi⟩ := (updateVoltageSource_finite hfinite).1
    rw [hsource] at hi
    exact le_of_values_of_not_lt ⟨_, PyFloat.value?_abs hi⟩ hfinite.ocpLevel
      fun h => hcurrent ⟨hocp, h⟩

end SimulatedPSUChannel

/-- **Protection.** After any operations every channel is protected, and `_update` changes no
channel and queues no error. -/
theorem protection_sound (py : PyText) (channelIds : List ℤ) (ops : List Operation)
    (psu : SimulatedPSU) (hfinite : ∀ op ∈ ops, op.Finite py)
    (hrun : (psuLoop exact py).stateAfter (.ofIds channelIds) ops = some psu) :
    (∀ ch ∈ psu.channels, ch.Protected) ∧ psu.update exact = psu := by
  have henters : ∀ op ∈ ops, op.Enters (fun value => value.isFinite = true) py :=
    fun op hop => (hfinite op hop).enters
  have hsettled := (settled_stable exact _).run henters hrun
  have hflags := (flagsOk_stable exact _).run henters hrun
  have hsettings := (finiteSettings_stable exact).run henters hrun
  refine ⟨fun ch hch => ?_, update_of_settled hsettled⟩
  exact SimulatedPSUChannel.protected_of_settled (hsettled ch hch) (hflags ch hch)
    (hsettings ch hch)

/-! ## A trip -/

/-- ASCII letters, and decimal digits without a sign. -/
def asciiText : PyText where
  upperChar c := [c.toUpper]
  float text :=
    if text ≠ [] ∧ text.all PyText.isDigit then
      (PyText.toInt text).toOption.map fun n => .finite n
    else none

/-- The load drives current back into a supply that allows none. -/
def tripRun : List Operation :=
  [.command "CURR:PROT 0".toList fun mean _ => mean,
    .command "curr:prot:stat on".toList fun mean _ => mean,
    .command "OUTP1 ON".toList fun mean _ => mean,
    .promptSet 1 .emf (some "30".toList)]

theorem tripRun_finite : ∀ op ∈ tripRun, op.Finite asciiText := by
  unfold tripRun
  simp only [List.forall_mem_cons]
  refine ⟨trivial, trivial, trivial, fun value h => ?_, fun _ hmem => absurd hmem List.not_mem_nil⟩
  obtain rfl : PyFloat.finite (30 : ℕ) = value := Option.some.inj h
  rfl

/-- The first channel is latched, the second one is not. -/
theorem protection_sound_tripRun :
    ∃ psu, ((psuLoop exact asciiText).stateAfter (.init 2) tripRun = some psu ∧
        psu.channels.map (·.protectionLatched) = [true, false]) ∧
      (∀ ch ∈ psu.channels, ch.Protected) ∧ psu.update exact = psu := by
  have hlatched : (((psuLoop exact asciiText).stateAfter (.init 2) tripRun).map
      fun psu => psu.channels.map (·.protectionLatched)) = some [true, false] := by decide +kernel
  obtain ⟨psu, hpsu, hflags⟩ := Option.map_eq_some_iff.mp hlatched
  exact ⟨psu, ⟨hpsu, hflags⟩, protection_sound asciiText _ tripRun psu tripRun_finite hpsu⟩

end Instro.Psu
