import Instro.Instrument.Packaging
import Instro.Library.Mutex
import Instro.Psu.DriverRuns
import Instro.Psu.DriverSteps

/-!
# The power supply

`InstroPSU`: its methods call the driver behind a lock, and publish what comes of it after they have
released the lock. The caller and the background daemon are threads like any others.
-/

namespace Instro.Psu.InstroPSU

open Instro.Library
open Instro.Instrument (Labels)
open Instro.Psu.Bk914x (Method Value)
open Instro.Psu.Simulated (Addressed Link Raised connect lines)

/-- A call of one of the methods. -/
structure Call where
  method : Method
  channel : ℤ
  kwargs : Dict String String

inductive Published
  | command (command : Instrument.Command)
  | measurement (measurement : Daq.Measurement)
  deriving DecidableEq

/-- What a method raises. -/
inductive Failure (ε : Type)
  | driver (e : ε)
  | python (e : PyException)
  deriving DecidableEq

/-- `channel_suffix` -/
def channelSuffix : Method → String
  | .setVoltage _ | .getVoltage => "voltage"
  | .setCurrentLimit _ | .getCurrent => "current"
  | .outputEnable _ | .getOutputStatus => "enabled"
  | .setOvervoltageProtectionLevel _ | .getOvervoltageProtectionLevel => "ovp"
  | .setOvervoltageProtectionEnabled _ | .getOvervoltageProtectionEnabled => "ovp.enabled"
  | .setOvervoltageProtectionDelay _ | .getOvervoltageProtectionDelay => "ovp.delay"
  | .setOvercurrentProtectionLevel _ | .getOvercurrentProtectionLevel => "ocp"
  | .setOvercurrentProtectionEnabled _ | .getOvercurrentProtectionEnabled => "ocp.enabled"
  | .setRemoteSenseEnabled _ | .getRemoteSenseEnabled => "remote_sense"

/-- `legacy_suffix` -/
def legacySuffix : Method → String
  | .setVoltage _ | .getVoltage => "v"
  | .setCurrentLimit _ | .getCurrent => "i"
  | .outputEnable _ | .getOutputStatus => "en"
  | .setOvervoltageProtectionLevel _ | .getOvervoltageProtectionLevel => "ovp"
  | .setOvervoltageProtectionEnabled _ | .getOvervoltageProtectionEnabled => "ovp_en"
  | .setOvervoltageProtectionDelay _ | .getOvervoltageProtectionDelay => "ovp_delay"
  | .setOvercurrentProtectionLevel _ | .getOvercurrentProtectionLevel => "ocp"
  | .setOvercurrentProtectionEnabled _ | .getOvercurrentProtectionEnabled => "ocp_en"
  | .setRemoteSenseEnabled _ | .getRemoteSenseEnabled => "rs"

/-- The `value` of a command; a measurement has none. -/
def commandValue : Method → Option PyValue
  | .setVoltage x | .setCurrentLimit x | .setOvervoltageProtectionLevel x
  | .setOvervoltageProtectionDelay x | .setOvercurrentProtectionLevel x => some (.num (.float x))
  | .outputEnable b | .setOvervoltageProtectionEnabled b | .setOvercurrentProtectionEnabled b
  | .setRemoteSenseEnabled b => some (.bool b)
  | _ => none

/-- What a driver returns, as a value that `float` takes. -/
def pyValue : Value → Option PyValue
  | .none => none
  | .float x => some (.num (.float x))
  | .bool b => some (.bool b)

section Methods

variable {ε : Type} (labels : Labels) (fl : Rounding)

/-- `_execute_command` after the driver's call. -/
def afterCommand (call : Call) (value : PyValue) (timestamp : ℤ) : Except (Failure ε) Published :=
  let descriptor := labels.descriptor call.channel (legacySuffix call.method) (channelSuffix call.method)
  (Published.command <$>
    labels.packageCommand fl (descriptor ++ ".cmd") (.value value) timestamp call.kwargs).mapError .python

/-- `_execute_measurement` after the driver's call. -/
def afterMeasurement (call : Call) (val : Value) (timestamp : ℤ) : Except (Failure ε) Published :=
  let descriptor := labels.descriptor call.channel (legacySuffix call.method) (channelSuffix call.method)
  match pyValue val with
  | none => .error (.python .typeError)
  | some value =>
    (Published.measurement <$>
      labels.packageMeasurement fl descriptor value timestamp call.kwargs).mapError .python

/-- What a method publishes or raises. An exception of the driver leaves before the time is read. -/
def outcome (call : Call) (result : Except ε Value) (timestamp : ℤ) :
    Except (Failure ε) Published :=
  match result with
  | .error e => .error (.driver e)
  | .ok val =>
    match commandValue call.method with
    | some value => afterCommand labels fl call value timestamp
    | none => afterMeasurement labels fl call val timestamp

end Methods

/-! ## Threads -/

/-- A driver behind `_resource_lock`. -/
def locked {σ ε : Type} (driver : ℤ → Method → AtomicSteps σ (Except ε Value)) :
    LockedObject σ Call (Except ε Value) := fun call => driver call.channel call.method

/-- What a thread has published and raised, in order. -/
def publishedBy {ι ε : Type} [DecidableEq ι] (labels : Labels) (fl : Rounding) (i : ι)
    (log : List (ι × LockedObject.Seen Call (Except ε Value) ℤ)) : List (Except (Failure ε) Published) :=
  (LockedObject.returnedBy i log).map fun (call, result, timestamp) =>
    outcome labels fl call result timestamp

/-! ## The simulator behind the lock -/

section Simulated

open LockedObject (Threads Move Seen releases invokedBy releasedBy calling)

variable {ι : Type} {py : PyText} {gauss : ℕ → PyFloat → PyFloat → PyFloat}

/-- The call of the driver. -/
def Call.driverCall (call : Call) : Method × ℤ := (call.method, call.channel)

/-- The driver behind the lock, called by one thread alone, is the driver. -/
theorem alone_eq_driver (link : Link) (calls : List Call) :
    (locked (lines double py gauss)).alone.actions link calls =
        (Simulated.driver double py gauss).actions link (calls.map Call.driverCall) ∧
      (locked (lines double py gauss)).alone.stateAfter link calls =
        (Simulated.driver double py gauss).stateAfter link (calls.map Call.driverCall) := by
  refine EventLoop.run_map _ _ (fun link call => ?_) link calls
  have hrealizes : (lines double py gauss call.channel call.method).Realizes
      (Simulated.run double py gauss call.channel call.method) :=
    Simulated.realizes_run call.channel call.method
  show ([((lines double py gauss call.channel call.method).eval link).1],
    some ((lines double py gauss call.channel call.method).eval link).2) = _
  rw [hrealizes link]
  rfl

/-- What the threads see is what they would see of a bench, one call at a time. -/
structure AsBench [DecidableEq ι] (gauss : ℕ → PyFloat → PyFloat → PyFloat)
    (channels : List SimulatedPSUChannel)
    (threads : Threads ι Link Call (Except Raised Value) ℤ)
    (log : List (ι × Seen Call (Except Raised Value) ℤ)) : Prop where
  /-- The calls have the results they have on the bench, in the order of their releases. -/
  results : (releases log).map (fun done => done.2.2.1) =
    (Bench.loop double gauss).actions ⟨channels, 0⟩
      ((releases log).map fun done => done.2.1.driverCall)
  /-- Each of them has been released after it was invoked, and before it published. -/
  invoked : ∀ i, invokedBy i log = (releasedBy i log).map Prod.fst ++ (threads.stages i).pending
  published : ∀ labels i, ((releasedBy i log).map fun (call, result, timestamp) =>
      outcome labels double call result timestamp) =
    publishedBy labels double i log ++
      ((threads.stages i).unreturned.map fun (call, result, timestamp) =>
        outcome labels double call result timestamp)
  /-- When the lock is free, the power supply is as the bench. -/
  bench : threads.owner = none → ∃ bench,
    (Bench.loop double gauss).stateAfter ⟨channels, 0⟩
      ((releases log).map fun done => done.2.1.driverCall) = some bench ∧
    threads.shared.server.served.psu = ⟨bench.channels, []⟩

theorem asBench_of_linear [DecidableEq ι] (hpy : py.Documented double)
    (hgauss : ∀ n mean deviation, FloatFormat.binary64.IsFloat (gauss n mean deviation))
    {channels : List SimulatedPSUChannel} (hquiet : ∀ ch ∈ channels, ch.Quiet)
    {threads : Threads ι Link Call (Except Raised Value) ℤ}
    {log : List (ι × Seen Call (Except Raised Value) ℤ)}
    (hlinear : LockedObject.Linear (locked (lines double py gauss)) (connect ⟨channels, []⟩) threads log)
    (haddressed : ∀ done ∈ releases log, Addressed done.2.1.channel) :
    AsBench gauss channels threads log := by
  obtain ⟨link, hlink, hresults, hwork⟩ := hlinear.alone
  obtain ⟨haloneActions, haloneState⟩ :=
    @alone_eq_driver py gauss (connect ⟨channels, []⟩) ((releases log).map fun done => done.2.1)
  have hcalls : ((releases log).map fun done => done.2.1).map Call.driverCall =
      (releases log).map fun done => done.2.1.driverCall := List.map_map
  rw [hcalls] at haloneActions haloneState
  have hchannels : ∀ call ∈ (releases log).map fun done => done.2.1.driverCall, Addressed call.2 := by
    intro call hcall
    obtain ⟨done, hdone, rfl⟩ := List.mem_map.mp hcall
    exact haddressed done hdone
  obtain ⟨hactions, link', bench, hlink', hbench, hrepresents, -, -⟩ :=
    driver_follows hpy hgauss (represents_connect hquiet) hchannels
  refine ⟨hresults.symm.trans (haloneActions.trans hactions), hlinear.invoked, ?_, ?_⟩
  · intro labels i
    rw [hlinear.returned i, List.map_append]
    rfl
  · intro hfree
    refine ⟨bench, hbench, ?_⟩
    cases hwork with
    | free _ hshared =>
      have hsame : link = link' :=
        Option.some.inj (hlink.symm.trans (haloneState.trans hlink'))
      rw [hshared, hsame]
      exact hrepresents.link_at.psu_eq
    | held howner => cases hfree.symm.trans howner

/-- Any number of threads that call the methods of a power supply over the simulator's driver, however
their lines follow each other. -/
theorem psu_linearizable [DecidableEq ι] (hpy : py.Documented double)
    (hgauss : ∀ n mean deviation, FloatFormat.binary64.IsFloat (gauss n mean deviation))
    {channels : List SimulatedPSUChannel} (hquiet : ∀ ch ∈ channels, ch.Quiet)
    {moves : List (ι × Move Call ℤ)}
    (hmoves : ∀ i call, (i, .invoke call) ∈ moves → Addressed call.channel)
    {threads : Threads ι Link Call (Except Raised Value) ℤ}
    (h : (calling (locked (lines double py gauss))).stateAfter (.initial (connect ⟨channels, []⟩)) moves =
      some threads) :
    AsBench gauss channels threads
      ((calling (locked (lines double py gauss))).actions (.initial (connect ⟨channels, []⟩)) moves) :=
  asBench_of_linear hpy hgauss hquiet (LockedObject.linear_run h) fun _ hdone =>
    hmoves _ _ (LockedObject.mem_moves_of_released h hdone)

/-- A thread sets a protection level, and another one that waits for the lock meanwhile reads it. -/
def contendedMoves : List (Bool × Move Call ℤ) :=
  [(false, .invoke ⟨.setOvercurrentProtectionLevel (.finite 1), 1, .ofList []⟩), (false, .acquire),
    (false, .step), (true, .invoke ⟨.getOvercurrentProtectionLevel, 1, .ofList []⟩), (false, .step),
    (false, .step), (false, .release 0), (true, .acquire), (true, .step), (false, .finish),
    (true, .step), (true, .step), (true, .step), (true, .step), (true, .release 7)]

theorem addressed_contendedMoves (i : Bool) (call : Call)
    (h : (i, .invoke call) ∈ contendedMoves) : Addressed call.channel := by
  have hone : call.channel = 1 := by
    simp only [contendedMoves, List.mem_cons, Prod.mk.injEq, Move.invoke.injEq, List.not_mem_nil,
      reduceCtorEq, and_false, or_false, false_or] at h
    rcases h with ⟨-, rfl⟩ | ⟨-, rfl⟩ <;> rfl
  rw [hone]
  exact addressed_benchCalls (.setVoltage (.finite 5), 1) (by simp [benchCalls])

theorem psu_linearizable_contended :
    ∃ threads : Threads Bool Link Call (Except Raised Value) ℤ,
      AsBench noiseless (SimulatedPSU.ofIds [1]).channels threads
        ((calling (locked (lines double numeralText noiseless))).actions
          (.initial (connect (.ofIds [1]))) contendedMoves) ∧
      (releases ((calling (locked (lines double numeralText noiseless))).actions
          (.initial (connect (.ofIds [1]))) contendedMoves)).map (fun done => done.2.2.1.toOption) =
        [some .none, some (.float (.finite 1))] := by
  have hmoves : ((calling (locked (lines double numeralText noiseless))).stateAfter
      (.initial (connect (.ofIds [1]))) contendedMoves).isSome = true := by
    decide +kernel
  obtain ⟨threads, h⟩ := Option.isSome_iff_exists.mp hmoves
  refine ⟨threads, psu_linearizable numeralText_documented isFloat_noiseless (quiet_ofIds [1])
    addressed_contendedMoves h, ?_⟩
  decide +kernel

end Simulated

end Instro.Psu.InstroPSU
