import Instro.Psu.DriverRuns

/-!
# What the driver reads back

The levels and states of the protection and the sense mode of a channel are read back as they were last
set, whatever else was done on the way. A set counts if it raises nothing, or if the protection trips
right after it.
-/

namespace Instro.Psu

open Instro.Library
open Instro.Psu.Bk914x (Method Value)
open Instro.Psu.Simulated

/-! ## The last accepted setting -/

/-- What is held until it is set again. The output and what is measured change of themselves. -/
def Reading.Held : Reading → Prop
  | voltage => False
  | current => False
  | output => False
  | _ => True

/-- The reading that a setting determines, and what it will be. -/
def Setting.holds : Setting → Option (Reading × Value)
  | voltage _ => none
  | currentLimit _ => none
  | output _ => none
  | ovpLevel v => some (.ovpLevel, .float v)
  | ovpState enable => some (.ovpState, .bool enable)
  | ocpLevel i => some (.ocpLevel, .float i)
  | ocpState enable => some (.ocpState, .bool enable)
  | remoteSense enable => some (.remoteSense, .bool enable)

/-- The setting has been made, though its channel may have tripped. -/
def accepted : Except Raised Value → Bool
  | .ok _ => true
  | .error raised => raised = Bench.report .overvoltageProtectionTripped ∨
      raised = Bench.report .overcurrentProtectionTripped

/-- What is known of a reading of a channel after a call with its outcome. -/
def remember (fl : Rounding) (reading : Reading) (channel : ℤ) (value : Value)
    (entry : (Method × ℤ) × Except Raised Value) : Value :=
  match demand fl entry.1.1 with
  | .set setting =>
    match setting.holds with
    | some (held, value') =>
      if held = reading ∧ entry.1.2 = channel ∧ accepted entry.2 then value' else value
    | none => value
  | _ => value

/-- What was last set, of the calls that were accepted. -/
def lastAccepted (fl : Rounding) (reading : Reading) (channel : ℤ) (initial : Value)
    (history : List ((Method × ℤ) × Except Raised Value)) : Value :=
  history.foldl (remember fl reading channel) initial

/-! ## One call -/

section Step

variable {fl : Rounding} {gauss : ℕ → PyFloat → PyFloat → PyFloat} {bench : Bench} {channel id : ℤ}
  {ch ch' : SimulatedPSUChannel} {setting : Setting} {reading : Reading} {err : SCPIError}

theorem accepted_report (err : SCPIError) :
    accepted (.error (Bench.report err)) = true ↔ err.IsTrip := by
  cases err <;> decide +kernel

/-- A setting is not refused with a trip. -/
theorem apply_not_isTrip (h : setting.apply ch = .error err) : ¬ err.IsTrip := by
  have hnumber : ∀ {c d : Prop} [Decidable c] [Decidable d] {e : SCPIError}
      {result : SimulatedPSUChannel}, ¬ e.IsTrip →
      (do ensure c SCPIError.dataOutOfRange; ensure d e; return result) = .error err →
        ¬ err.IsTrip := by
    intro c d _ _ e result he h
    rcases bind_eq_error.mp h with h | ⟨_, -, h⟩
    · rw [← (ensure_eq_error.mp h).2]
      decide
    · rcases bind_eq_error.mp h with h | ⟨_, -, h⟩
      · rwa [← (ensure_eq_error.mp h).2]
      · cases h
  cases setting with
  | voltage v => exact hnumber (by decide) h
  | currentLimit i => exact hnumber (by decide) h
  | output enable => cases h
  | ovpLevel v => exact hnumber (by decide) h
  | ovpState enable => cases h
  | ocpLevel i => exact hnumber (by decide) h
  | ocpState enable => cases h
  | remoteSense enable => cases h

/-- `_update` leaves what is held. -/
theorem of_updated (hheld : reading.Held) (noise : PyFloat → PyFloat → PyFloat)
    (ch : SimulatedPSUChannel) : reading.of fl noise (ch.updated fl) = reading.of fl noise ch := by
  obtain ⟨_, _, _, _, _, _, _, _, hupdated⟩ := SimulatedPSUChannel.updated_frame fl ch
  rw [hupdated]
  cases reading with
  | voltage => cases hheld
  | current => cases hheld
  | output => cases hheld
  | ovpLevel => rfl
  | ovpState => rfl
  | ocpLevel => rfl
  | ocpState => rfl
  | remoteSense => rfl

/-- A setting changes the reading it determines, and no other that is held. -/
theorem of_apply (hheld : reading.Held) (noise : PyFloat → PyFloat → PyFloat)
    (h : setting.apply ch = .ok ch') :
    ch'.channelId = ch.channelId ∧ reading.of fl noise ch' =
      match setting.holds with
      | some (held, value) => if held = reading then value else reading.of fl noise ch
      | none => reading.of fl noise ch := by
  cases setting with
  | voltage v =>
    obtain rfl := number_taken h
    exact ⟨rfl, by cases reading <;> rfl⟩
  | currentLimit i =>
    obtain rfl := number_taken h
    exact ⟨rfl, by cases reading <;> rfl⟩
  | output enable =>
    obtain rfl := Except.ok.inj h
    cases enable with
    | true => exact ⟨rfl, by cases reading <;> first | rfl | cases hheld⟩
    | false => exact ⟨rfl, by cases reading <;> first | rfl | cases hheld⟩
  | ovpLevel v =>
    obtain rfl := number_taken h
    exact ⟨rfl, by cases reading <;> rfl⟩
  | ovpState enable =>
    obtain rfl := Except.ok.inj h
    exact ⟨rfl, by cases reading <;> rfl⟩
  | ocpLevel i =>
    obtain rfl := number_taken h
    exact ⟨rfl, by cases reading <;> rfl⟩
  | ocpState enable =>
    obtain rfl := Except.ok.inj h
    exact ⟨rfl, by cases reading <;> rfl⟩
  | remoteSense enable =>
    -- the sense mode decides which voltage is measured
    obtain rfl := Except.ok.inj h
    exact ⟨rfl, by cases reading <;> first | rfl | cases hheld⟩

/-- What is found after a channel was put. -/
theorem channel_put (hid : ch'.channelId = id) (hfind : bench.channel id = some ch) (channel : ℤ) :
    (bench.put id ch').channel channel = if channel = id then some ch' else bench.channel channel := by
  unfold Bench.channel Bench.put at *
  dsimp only
  generalize bench.channels = channels at hfind ⊢
  induction channels with
  | nil => cases hfind
  | cons old channels ih =>
    by_cases hold : old.channelId = id
    · rw [replaceF_same hold]
      by_cases hchannel : channel = id
      · rw [if_pos hchannel, List.find?_cons_of_pos (by simp [hid, hchannel])]
      · have hne : ¬ id = channel := fun h => hchannel h.symm
        rw [if_neg hchannel, List.find?_cons_of_neg (by simp [hid, hne]),
          List.find?_cons_of_neg (by simp [hold, hne])]
    · rw [List.find?_cons_of_neg (by simp [hold])] at hfind
      rw [replaceF_other hold]
      by_cases hchannel : old.channelId = channel
      · have hne : ¬ channel = id := fun h => hold (hchannel.trans h)
        rw [if_neg hne, List.find?_cons_of_pos (by simp [hchannel]),
          List.find?_cons_of_pos (by simp [hchannel])]
      · rw [List.find?_cons_of_neg (by simp [hchannel]), ih hfind,
          List.find?_cons_of_neg (by simp [hchannel])]

theorem channelId_of_find (h : bench.channel id = some ch) : ch.channelId = id := by
  simpa using List.find?_some h

theorem set_of_absent (h : bench.channel id = none) :
    bench.set fl id setting = (.error (Bench.report .headerSuffixOutOfRange), bench.sent) := by
  unfold Bench.set
  rw [h]

theorem set_of_refused (h : bench.channel id = some ch) (happly : setting.apply ch = .error err) :
    bench.set fl id setting = (.error (Bench.report err), bench.sent) := by
  unfold Bench.set
  rw [h]
  dsimp only
  rw [happly]

theorem set_of_made (h : bench.channel id = some ch) (happly : setting.apply ch = .ok ch') :
    bench.set fl id setting =
      (Bench.outcome .none (ch'.update fl).2, (bench.put id (ch'.updated fl)).sent) := by
  unfold Bench.set
  rw [h]
  dsimp only
  rw [happly]

/-- A setting that is made is accepted, whether the protection trips or not. -/
theorem accepted_update (fl : Rounding) (ch : SimulatedPSUChannel) :
    accepted (Bench.outcome .none (ch.update fl).2) = true := by
  have htrips : ∀ err ∈ (ch.update fl).2, err.IsTrip := fun err => isTrip_of_mem_update
  generalize (ch.update fl).2 = errs at htrips ⊢
  cases errs with
  | nil => rfl
  | cons err errs => exact (accepted_report err).mpr (htrips err List.mem_cons_self)

/-- A set leaves the reading of a channel as it is remembered. -/
theorem reading_set (hheld : reading.Held) (noise : PyFloat → PyFloat → PyFloat)
    (hfind : bench.channel channel = some ch) (id : ℤ) (setting : Setting) :
    ∃ ch', (bench.set fl id setting).2.channel channel = some ch' ∧
      reading.of fl noise ch' =
        match setting.holds with
        | some (held, value') =>
          if held = reading ∧ id = channel ∧ accepted (bench.set fl id setting).1 then value'
          else reading.of fl noise ch
        | none => reading.of fl noise ch := by
  have hkept : ∀ {c : Prop} [Decidable c], ¬ c → ∀ value, reading.of fl noise ch =
      if c then value else reading.of fl noise ch := fun hc value => (if_neg hc).symm
  cases hid : bench.channel id with
  | none =>
    -- a channel that is not there is not the one that is read
    have hne : id ≠ channel := by
      rintro rfl
      rw [hfind] at hid
      cases hid
    rw [set_of_absent hid]
    refine ⟨ch, hfind, ?_⟩
    cases setting.holds with
    | none => rfl
    | some held => exact hkept (fun h => hne h.2.1) _
  | some old =>
    cases happly : setting.apply old with
    | error err =>
      have hrefused : ¬ accepted (.error (Bench.report err)) = true :=
        fun h => apply_not_isTrip happly ((accepted_report err).mp h)
      rw [set_of_refused hid happly]
      refine ⟨ch, hfind, ?_⟩
      cases setting.holds with
      | none => rfl
      | some held => exact hkept (fun h => hrefused h.2.2) _
    | ok made =>
      obtain ⟨hsame, hmade⟩ := @of_apply fl old made setting reading hheld noise happly
      have hmadeId : (made.updated fl).channelId = id := by
        obtain ⟨_, _, _, _, _, _, _, _, hframe⟩ := SimulatedPSUChannel.updated_frame fl made
        rw [hframe]
        exact hsame.trans (channelId_of_find hid)
      have haccepted := accepted_update fl made
      have hput := channel_put hmadeId hid channel
      rw [set_of_made hid happly]
      by_cases hchannel : channel = id
      · obtain rfl := hchannel
        obtain rfl : old = ch := Option.some.inj (hid.symm.trans hfind)
        refine ⟨made.updated fl, hput.trans (if_pos rfl), ?_⟩
        rw [of_updated hheld, hmade]
        cases setting.holds with
        | none => rfl
        | some held => simp [haccepted]
      · refine ⟨ch, hput.trans ((if_neg hchannel).trans hfind), ?_⟩
        cases setting.holds with
        | none => rfl
        | some held => exact hkept (fun h => hchannel h.2.1.symm) _

/-- **Step lemma.** A call leaves the reading of a channel as it is remembered. -/
theorem reading_perform (hheld : reading.Held) (noise : PyFloat → PyFloat → PyFloat)
    (hfind : bench.channel channel = some ch) (call : Method × ℤ) :
    ∃ ch', (bench.perform fl gauss call.2 (demand fl call.1)).2.channel channel = some ch' ∧
      reading.of fl noise ch' = remember fl reading channel (reading.of fl noise ch)
        (call, (bench.perform fl gauss call.2 (demand fl call.1)).1) := by
  unfold remember
  cases hdemand : demand fl call.1 with
  | set setting => exact reading_set hheld noise hfind call.2 setting
  | unsupported feature => exact ⟨ch, hfind, rfl⟩
  | read what =>
    refine ⟨ch, ?_, rfl⟩
    unfold Bench.perform Bench.read
    dsimp only
    cases bench.channel call.2 with
    | none => exact hfind
    | some _ => exact hfind

end Step

/-! ## Runs -/

section Runs

variable {py : PyText} {gauss : ℕ → PyFloat → PyFloat → PyFloat} {bench : Bench} {channel : ℤ}
  {ch : SimulatedPSUChannel} {reading : Reading} {calls : List (Method × ℤ)}

/-- **Run lemma.** After any calls the reading of a channel is what is remembered of them. -/
theorem reading_run {fl : Rounding} (hheld : reading.Held) (noise : PyFloat → PyFloat → PyFloat)
    (hfind : bench.channel channel = some ch) (calls : List (Method × ℤ)) :
    ∃ bench' ch', (Bench.loop fl gauss).stateAfter bench calls = some bench' ∧
      bench'.channel channel = some ch' ∧
      reading.of fl noise ch' = lastAccepted fl reading channel (reading.of fl noise ch)
        (calls.zip ((Bench.loop fl gauss).actions bench calls)) := by
  induction calls generalizing bench ch with
  | nil => exact ⟨bench, ch, rfl, hfind, rfl⟩
  | cons call calls ih =>
    obtain ⟨ch₁, hfind₁, hreading⟩ := @reading_perform fl gauss bench channel ch reading hheld noise
      hfind call
    obtain ⟨bench', ch', hrun, hfind', hlast⟩ := ih hfind₁
    refine ⟨bench', ch', hrun, hfind', ?_⟩
    rw [hlast, hreading]
    rfl

/-- **What was set is read back.** After any calls a level or a state of a channel is read as the last of
the calls that was accepted for it has set it, and as it was before where there is none. -/
theorem reads_last_accepted (hpy : py.Documented double)
    (hgauss : ∀ n mean deviation, FloatFormat.binary64.IsFloat (gauss n mean deviation))
    {channels : List SimulatedPSUChannel} (hquiet : ∀ ch ∈ channels, ch.Quiet)
    (hcalls : ∀ call ∈ calls, Addressed call.2) (hchannel : Addressed channel)
    (hfind : channels.find? (fun ch => ch.channelId = channel) = some ch) {method : Method}
    (hmethod : demand double method = .read reading) (hheld : reading.Held) :
    let outcomes := (driver double py gauss).actions (connect ⟨channels, []⟩) calls
    (driver double py gauss).actions (connect ⟨channels, []⟩) (calls ++ [(method, channel)]) =
      outcomes ++ [.ok (lastAccepted double reading channel (reading.of double (gauss 0) ch)
        (calls.zip outcomes))] := by
  dsimp only
  obtain ⟨hactions, link, bench, hlink, hbench, hrepresents, -, -⟩ :=
    driver_follows hpy hgauss (represents_connect hquiet) hcalls
  obtain ⟨bench', ch', hrun, hfind', hlast⟩ :=
    @reading_run gauss ⟨channels, 0⟩ channel ch reading double hheld (gauss 0) hfind calls
  obtain rfl : bench' = bench := Option.some.inj (hrun.symm.trans hbench)
  have hcall : ∀ call ∈ [(method, channel)], Addressed call.2 := List.forall_mem_singleton.mpr hchannel
  have hread := (driver_follows hpy hgauss hrepresents hcall).1
  rw [EventLoop.actions_append _ hlink, hread, hactions]
  congr 1
  show [(bench'.perform double gauss channel (demand double method)).1] ++ [] = _
  have hnoise : reading.of double (gauss bench'.commands) ch' = reading.of double (gauss 0) ch' := by
    cases reading with
    | voltage => cases hheld
    | current => cases hheld
    | _ => rfl
  have hperform : (bench'.perform double gauss channel (.read reading)).1 =
      .ok (reading.of double (gauss bench'.commands) ch') := by
    unfold Bench.perform Bench.read
    dsimp only
    rw [hfind']
  rw [hmethod, hperform, hnoise, hlast]
  rfl

/-- The level that was set before is read back after a call on a channel that there is not. -/
theorem reads_last_accepted_calls :
    (driver double numeralText noiseless).actions (connect (.ofIds [1]))
        (benchCalls ++ [(.getOvercurrentProtectionLevel, 1)]) =
      (driver double numeralText noiseless).actions (connect (.ofIds [1])) benchCalls ++
        [.ok (.float (.finite 1))] := by
  have hread := @reads_last_accepted numeralText noiseless 1 (.init 1 defaultLoad) .ocpLevel benchCalls
    numeralText_documented isFloat_noiseless _ (quiet_ofIds [1]) addressed_benchCalls
    ⟨by decide, by decide⟩ rfl .getOvercurrentProtectionLevel rfl trivial
  have hfollows := (driver_follows numeralText_documented isFloat_noiseless
    (represents_connect (quiet_ofIds [1])) addressed_benchCalls).1
  refine hread.trans (congrArg (fun value => _ ++ [Except.ok value]) ?_)
  rw [hfollows]
  decide +kernel

end Runs

end Instro.Psu
