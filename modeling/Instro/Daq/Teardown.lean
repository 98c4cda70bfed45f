import Instro.Instrument.BufferLifecycle

/-!
# Teardown of a DAQ

`close` runs the `stop` of the DAQ, then closes the publishers one after the other, then the driver.
Nothing catches what one of them raises, so what comes after it is not called.
-/

namespace Instro.Daq

open Instro.Library Instro.Instrument

/-- The instrument, and whether the DAQ was opened. -/
structure InstroDAQ where
  instrument : Instrument.State
  isOpen : Bool

/-- What happens around a `close`: whether it is called on the daemon thread, which cannot join itself,
and which of the calls it makes raise. The channel buffer does not raise. -/
structure Surroundings where
  onDaemonThread : Bool
  driverStopRaises : Bool
  publisherRaises : ℕ → Bool
  driverCloseRaises : Bool

inductive TeardownError
  | cannotJoinCurrentThread
  | assertionError
  | driverStop
  | publisher (n : ℕ)
  | driverClose
  deriving DecidableEq

/-- The calls of a teardown that are seen outside. -/
inductive TeardownCall
  | closesPublisher (p : Publisher)
  | stopsDriver
  | closesDriver
  deriving DecidableEq

/-- The calls made so far, the DAQ after them, and what the last one raised. -/
structure Progress where
  calls : List TeardownCall
  daq : InstroDAQ
  raised : Option TeardownError

/-- The statements that follow, unless one has raised. -/
def Progress.andThen (r : Progress) (next : InstroDAQ → Progress) : Progress :=
  match r.raised with
  | some _ => r
  | none => ⟨r.calls ++ (next r.daq).calls, (next r.daq).daq, (next r.daq).raised⟩

namespace InstroDAQ

variable (env : Surroundings) (daq : InstroDAQ)

/-- `Instrument.stop` -/
def stopDaemon : Progress :=
  if daq.instrument.thread = .alive then
    let s : Instrument.State := { daq.instrument with stopEvent := true }
    if env.onDaemonThread then ⟨[], { daq with instrument := s }, some .cannotJoinCurrentThread⟩
    else
      let s : Instrument.State := { s with thread := .exited }
      match s.channelBuffer with
      | none => ⟨[], { daq with instrument := s }, some .assertionError⟩
      | some b =>
        ⟨[.closesPublisher (.channelBuffer b)],
          { daq with instrument := s.dropChannelBuffer b }, none⟩
  else ⟨[], daq, none⟩

/-- `stop` -/
def stop : Progress :=
  (daq.stopDaemon env).andThen fun daq =>
    if daq.isOpen then ⟨[.stopsDriver], daq, if env.driverStopRaises then some .driverStop else none⟩
    else ⟨[], daq, none⟩

/-- `publisher.close()` -/
def closePublisher (p : Publisher) : Progress where
  calls := [.closesPublisher p]
  daq := { daq with instrument := { daq.instrument with closed := daq.instrument.closed ++ [p] } }
  raised :=
    match p with
    | .given n => if env.publisherRaises n then some (.publisher n) else none
    | .channelBuffer _ => none

def closePublishers (daq : InstroDAQ) : List Publisher → Progress
  | [] => ⟨[], daq, none⟩
  | p :: ps => (daq.closePublisher env p).andThen fun daq => daq.closePublishers ps

/-- `Instrument.close` -/
def closeInstrument : Progress :=
  (daq.stop env).andThen fun daq => daq.closePublishers env daq.instrument.publishers

/-- `self._driver.close()`, and `_is_open` is cleared. -/
def closeDriver : Progress :=
  if env.driverCloseRaises then ⟨[.closesDriver], daq, some .driverClose⟩
  else ⟨[.closesDriver], { daq with isOpen := false }, none⟩

def close : Progress := (daq.closeInstrument env).andThen fun daq => daq.closeDriver env

end InstroDAQ

/-! ## What a teardown owes -/

/-- Every publisher is closed, and so is the driver. -/
structure TearsDown (env : Surroundings) (daq : InstroDAQ) : Prop where
  publishers : ∀ p ∈ daq.instrument.publishers, .closesPublisher p ∈ (daq.close env).calls
  driver : .closesDriver ∈ (daq.close env).calls

/-- The `stop` of the teardown raises: it cannot join the daemon, its assertion fails, or the driver of
an open DAQ raises. -/
def StopRaises (env : Surroundings) (daq : InstroDAQ) : Prop :=
  daq.instrument.thread = .alive ∧
      (env.onDaemonThread = true ∨ daq.instrument.channelBuffer = none) ∨
    daq.isOpen = true ∧ env.driverStopRaises = true

/-- Nothing that comes before the driver raises. -/
def Undisturbed (env : Surroundings) (daq : InstroDAQ) : Prop :=
  ¬ StopRaises env daq ∧
    ∀ n, .given n ∈ daq.instrument.publishers → env.publisherRaises n = false

/-- In the states an instrument gets to, the assertion holds. -/
theorem stopRaises_iff_of_sound {env : Surroundings} {daq : InstroDAQ}
    (hsound : Sound daq.instrument) :
    StopRaises env daq ↔ daq.instrument.thread = .alive ∧ env.onDaemonThread = true ∨
      daq.isOpen = true ∧ env.driverStopRaises = true := by
  unfold StopRaises
  apply or_congr_left
  apply and_congr_right
  intro halive
  obtain ⟨b, hb⟩ := Option.isSome_iff_exists.mp (hsound.running halive)
  rw [hb, or_iff_left nofun]

section Progress

variable {r : Progress} {next : InstroDAQ → Progress}

theorem andThen_of_none (h : r.raised = none) :
    r.andThen next = ⟨r.calls ++ (next r.daq).calls, (next r.daq).daq, (next r.daq).raised⟩ := by
  unfold Progress.andThen
  rw [h]

theorem andThen_of_raised (h : r.raised ≠ none) : r.andThen next = r := by
  obtain ⟨e, he⟩ := Option.ne_none_iff_exists'.mp h
  unfold Progress.andThen
  rw [he]

/-- Statements raise nothing exactly if neither part does. -/
theorem andThen_raised_eq_none :
    (r.andThen next).raised = none ↔ r.raised = none ∧ (next r.daq).raised = none := by
  by_cases h : r.raised = none
  · rw [andThen_of_none h]
    simp [h]
  · rw [andThen_of_raised h]
    simp [h]

theorem calls_subset_andThen : r.calls ⊆ (r.andThen next).calls := by
  by_cases h : r.raised = none
  · rw [andThen_of_none h]
    exact List.subset_append_left _ _
  · rw [andThen_of_raised h]
    exact fun _ => id

theorem mem_andThen_calls {call : TeardownCall} (h : call ∈ (r.andThen next).calls) :
    call ∈ r.calls ∨ call ∈ (next r.daq).calls := by
  by_cases hraised : r.raised = none
  · rw [andThen_of_none hraised] at h
    exact List.mem_append.mp h
  · rw [andThen_of_raised hraised] at h
    exact .inl h

end Progress

section Teardown

variable {env : Surroundings} {daq : InstroDAQ} {p : Publisher}

/-- What a `stop` of the daemon that raises nothing has done: there was no daemon, or its buffer is
closed and off the list. -/
theorem stopDaemon_cases (h : (daq.stopDaemon env).raised = none) :
    daq.stopDaemon env = ⟨[], daq, none⟩ ∨ ∃ b s, daq.instrument.channelBuffer = some b ∧
      s.publishers = daq.instrument.publishers.erase (.channelBuffer b) ∧
        daq.stopDaemon env = ⟨[.closesPublisher (.channelBuffer b)], ⟨s, daq.isOpen⟩, none⟩ := by
  unfold InstroDAQ.stopDaemon at h ⊢
  dsimp only at h ⊢
  split_ifs at h ⊢ with halive hdaemon
  · cases hbuffer : daq.instrument.channelBuffer with
    | none =>
      rw [hbuffer] at h
      cases h
    | some b => exact .inr ⟨b, _, rfl, rfl, rfl⟩
  · exact .inl rfl

theorem stopDaemon_raised : (daq.stopDaemon env).raised = none ↔
    ¬ (daq.instrument.thread = .alive ∧
      (env.onDaemonThread = true ∨ daq.instrument.channelBuffer = none)) := by
  unfold InstroDAQ.stopDaemon
  dsimp only
  split_ifs with halive hdaemon
  · simp [halive, hdaemon]
  · cases hbuffer : daq.instrument.channelBuffer with
    | none => simp [halive]
    | some b => simp [hdaemon]
  · simp [halive]

/-- A publisher that the `stop` takes off the list is closed by it. -/
theorem stopDaemon_publishers (h : (daq.stopDaemon env).raised = none)
    (hp : p ∈ daq.instrument.publishers) :
    .closesPublisher p ∈ (daq.stopDaemon env).calls ∨
      p ∈ (daq.stopDaemon env).daq.instrument.publishers := by
  rcases stopDaemon_cases h with heq | ⟨b, s, -, hs, heq⟩
  · rw [heq]
    exact .inr hp
  · rw [heq]
    dsimp only
    rw [hs]
    by_cases hb : p = .channelBuffer b
    · exact .inl (hb ▸ List.mem_cons_self)
    · exact .inr ((List.mem_erase_of_ne hb).mpr hp)

/-- The given publishers stay on the list. -/
theorem given_mem_stopDaemon (h : (daq.stopDaemon env).raised = none) {n : ℕ} :
    .given n ∈ (daq.stopDaemon env).daq.instrument.publishers ↔
      .given n ∈ daq.instrument.publishers := by
  rcases stopDaemon_cases h with heq | ⟨b, s, -, hs, heq⟩
  · rw [heq]
  · rw [heq]
    dsimp only
    rw [hs]
    exact List.mem_erase_of_ne nofun

/-- What the driver's `stop` does to the DAQ: nothing. -/
theorem stop_daq (h : (daq.stopDaemon env).raised = none) :
    (daq.stop env).daq = (daq.stopDaemon env).daq ∧
      (daq.stopDaemon env).calls ⊆ (daq.stop env).calls := by
  refine ⟨?_, calls_subset_andThen⟩
  unfold InstroDAQ.stop
  rw [andThen_of_none h]
  dsimp only
  split_ifs <;> rfl

theorem stop_raised : (daq.stop env).raised = none ↔ ¬ StopRaises env daq := by
  unfold InstroDAQ.stop StopRaises
  rw [andThen_raised_eq_none, stopDaemon_raised, not_or, ← stopDaemon_raised]
  apply and_congr_right
  intro h
  have hopen : (daq.stopDaemon env).daq.isOpen = daq.isOpen := by
    rcases stopDaemon_cases h with heq | ⟨b, s, -, -, heq⟩
    · rw [heq]
    · rw [heq]
  rw [hopen]
  cases daq.isOpen <;> cases env.driverStopRaises <;> simp

theorem closePublishers_raised (ps : List Publisher) :
    (daq.closePublishers env ps).raised = none ↔
      ∀ n, .given n ∈ ps → env.publisherRaises n = false := by
  induction ps generalizing daq with
  | nil => exact iff_of_true rfl fun _ h => absurd h List.not_mem_nil
  | cons p ps ih =>
    have hfirst : (daq.closePublisher env p).raised = none ↔
        ∀ n, .given n = p → env.publisherRaises n = false := by
      unfold InstroDAQ.closePublisher
      cases p with
      | given n => simp
      | channelBuffer b => simp
    unfold InstroDAQ.closePublishers
    rw [andThen_raised_eq_none, ih, hfirst, ← forall_and]
    apply forall_congr'
    intro n
    rw [List.mem_cons, or_imp]

theorem closePublishers_calls (ps : List Publisher) (h : (daq.closePublishers env ps).raised = none) :
    (daq.closePublishers env ps).calls = ps.map .closesPublisher := by
  induction ps generalizing daq with
  | nil => rfl
  | cons p ps ih =>
    unfold InstroDAQ.closePublishers at h ⊢
    obtain ⟨hfirst, hrest⟩ := andThen_raised_eq_none.mp h
    rw [andThen_of_none hfirst]
    dsimp only
    rw [ih hrest]
    rfl

/-- The part before the driver raises nothing exactly if it is undisturbed. -/
theorem closeInstrument_raised :
    (daq.closeInstrument env).raised = none ↔ Undisturbed env daq := by
  unfold InstroDAQ.closeInstrument Undisturbed
  rw [andThen_raised_eq_none, stop_raised]
  apply and_congr_right
  intro hstop
  have hdaemon := (andThen_raised_eq_none.mp (stop_raised.mpr hstop)).1
  rw [closePublishers_raised, (stop_daq hdaemon).1]
  apply forall_congr'
  intro n
  rw [given_mem_stopDaemon hdaemon]

theorem closesDriver_not_mem_stop : .closesDriver ∉ (daq.stop env).calls := by
  intro hmem
  rcases mem_andThen_calls hmem with hmem | hmem
  · unfold InstroDAQ.stopDaemon at hmem
    dsimp only at hmem
    split_ifs at hmem
    · cases hmem
    · cases hbuffer : daq.instrument.channelBuffer with
      | none =>
        rw [hbuffer] at hmem
        cases hmem
      | some b =>
        rw [hbuffer] at hmem
        cases List.mem_singleton.mp hmem
    · cases hmem
  · by_cases hopen : (daq.stopDaemon env).daq.isOpen = true
    · rw [if_pos hopen] at hmem
      cases List.mem_singleton.mp hmem
    · rw [if_neg hopen] at hmem
      exact List.not_mem_nil hmem

theorem closesDriver_not_mem_publishers (ps : List Publisher) :
    .closesDriver ∉ (daq.closePublishers env ps).calls := by
  induction ps generalizing daq with
  | nil => exact List.not_mem_nil
  | cons p ps ih =>
    intro hmem
    rcases mem_andThen_calls hmem with hmem | hmem
    · cases List.mem_singleton.mp hmem
    · exact ih hmem

/-- Only `closeDriver` closes the driver. -/
theorem closesDriver_not_mem : .closesDriver ∉ (daq.closeInstrument env).calls := by
  intro hmem
  rcases mem_andThen_calls hmem with hmem | hmem
  · exact closesDriver_not_mem_stop hmem
  · exact closesDriver_not_mem_publishers _ hmem

/-- **Teardown.** `close` closes every publisher and the driver exactly if neither the `stop` nor a
publisher raises. -/
theorem tearsDown_iff (env : Surroundings) (daq : InstroDAQ) :
    TearsDown env daq ↔ Undisturbed env daq := by
  constructor
  · rintro ⟨-, hdriver⟩
    rw [← closeInstrument_raised]
    by_contra hraised
    unfold InstroDAQ.close at hdriver
    rw [andThen_of_raised hraised] at hdriver
    exact closesDriver_not_mem hdriver
  · intro h
    have hraised := closeInstrument_raised.mpr h
    have hclose : (daq.close env).calls = (daq.closeInstrument env).calls ++ [.closesDriver] := by
      unfold InstroDAQ.close
      rw [andThen_of_none hraised]
      unfold InstroDAQ.closeDriver
      split_ifs <;> rfl
    obtain ⟨hstop, hpublishers⟩ := andThen_raised_eq_none.mp hraised
    have hdaemon := (andThen_raised_eq_none.mp hstop).1
    constructor
    · intro p hp
      rw [hclose]
      apply List.mem_append_left
      unfold InstroDAQ.closeInstrument
      rcases stopDaemon_publishers hdaemon hp with hcall | hmem
      · exact calls_subset_andThen ((stop_daq hdaemon).2 hcall)
      · rw [andThen_of_none hstop]
        apply List.mem_append_right
        rw [closePublishers_calls _ hpublishers, (stop_daq hdaemon).1]
        exact List.mem_map_of_mem hmem
    · rw [hclose]
      exact List.mem_append_right _ List.mem_cons_self

end Teardown

/-- An open DAQ with two publishers that was never started. -/
def twoPublishers : InstroDAQ := ⟨Instrument.initial 2, true⟩

/-- The first publisher raises: the second one and the driver stay open. -/
theorem raising_publisher_skips_driver :
    ¬ TearsDown ⟨false, false, fun n => n = 0, false⟩ twoPublishers ∧
      (twoPublishers.close ⟨false, false, fun n => n = 0, false⟩).calls =
        [.stopsDriver, .closesPublisher (.given 0)] := by
  refine ⟨fun h => ?_, by decide⟩
  exact absurd h.driver (by decide)

end Instro.Daq
