import Instro.Library.Checked
import Instro.Scope.Scope
import Mathlib.Data.Int.ConditionallyCompleteOrder

/-!
# Single and continuous acquisitions

A fetch waits for an acquisition of its own exactly while a single one is awaited. `run` does not say that
none is awaited any more, and it does not forget when the last one was complete.
-/

namespace Instro.Scope

open Instro.Library

/-! ## What the calls tell -/

/-- The methods that start and stop the acquisition. -/
inductive Control
  | run
  | stop
  | single
  deriving DecidableEq

/-- A `run` or a `single` that has succeeded with its time, a `stop_acquisition` that has
succeeded, or word that the acquisition is complete. -/
inductive Event
  | run (timestamp : ℤ)
  | stop
  | single (timestamp : ℤ)
  | complete
  deriving DecidableEq

/-- What the events come to. -/
structure Track where
  /-- The last of `run`, `stop_acquisition` and `single` to succeed. -/
  control : Option Control
  /-- The time of the last `run` or `single` to succeed. -/
  started : Option ℤ
  /-- The acquisition of a `single` has not been recorded as complete. -/
  awaiting : Bool
  /-- An acquisition has been recorded as complete. -/
  recorded : Bool
  /-- The last start is a `run`, and no acquisition has been recorded as complete since. -/
  continuous : Bool
  deriving DecidableEq

namespace Track

def initial : Track := ⟨none, none, false, false, false⟩

variable (track : Track)

/-- The acquisition that is awaited is recorded as complete. -/
def record : Track :=
  if track.awaiting then { track with awaiting := false, recorded := true, continuous := false }
  else track

theorem record_awaiting : track.record.awaiting = false := by
  unfold record
  split_ifs with h
  · rfl
  · exact Bool.eq_false_of_not_eq_true h

def after : Event → Track
  | .run timestamp =>
    { track with control := some .run, started := some timestamp, continuous := true }
  | .stop => { track.record with control := some .stop }
  | .single timestamp =>
    { track with
      control := some .single, started := some timestamp, awaiting := true, continuous := false }
  | .complete => track.record

end Track

theorem Track.continuous_after {track : Track} {event : Event} (h : track.continuous = false)
    (hrun : ∀ timestamp, event ≠ .run timestamp) : (track.after event).continuous = false := by
  have hrecord : track.record.continuous = false := by
    unfold Track.record
    split_ifs
    · rfl
    · exact h
  cases event with
  | run timestamp => exact absurd rfl (hrun timestamp)
  | stop => exact hrecord
  | single timestamp => rfl
  | complete => exact hrecord

def DriverCall.isDigitize : DriverCall → Bool
  | digitize _ => true
  | _ => false

/-- A `digitize` that has returned. -/
def Made.digitized (made : Made) : Bool := made.call.isDigitize && made.returned

/-- The time of the command of a call that has succeeded. -/
def commanded (done : Done Bench Made Raised Value) : Option ℤ :=
  match done.result with
  | .ok (.command command) => some command.timestamp
  | _ => none

/-- What a call tells. -/
def Call.events (call : Call) (done : Done Bench Made Raised Value) : List Event :=
  match call.method with
  | .run _ _ => (commanded done).toList.map .run
  | .stopAcquisition _ _ => (commanded done).toList.map fun _ => .stop
  | .single _ _ => (commanded done).toList.map .single
  | .getAcquisitionState answer _ =>
    if answer = .ok .STOPPED then (commanded done).toList.map fun _ => .complete else []
  | .fetchWaveform _ _ _ _ _ => if done.shown.any Made.digitized then [.complete] else []
  | .measure _ _ _ _ _ _ _ => if done.shown.any Made.digitized then [.complete] else []

/-- The scope, and what the calls so far have told. -/
structure Session where
  bench : Bench
  track : Track

def Session.initial (labels : Instrument.Labels) : Session := ⟨⟨⟨labels, false, none⟩, 0⟩, .initial⟩

def Session.after (fl : Rounding) (clock : ℕ → ℤ) (s : Session) (call : Call) : Session :=
  let done := call.perform fl clock s.bench
  ⟨done.state, (call.events done).foldl Track.after s.track⟩

/-- The scope over calls of its methods. -/
def session (fl : Rounding) (clock : ℕ → ℤ) : EventLoop Session Call Made where
  step s call := ((call.perform fl clock s.bench).shown, some (s.after fl clock call))

/-- The scope digitizes only for a single acquisition that is awaited, and what is returned is not stamped
with a time before the last start. -/
structure Kept (fl : Rounding) (clock : ℕ → ℤ) (s : Session) (call : Call) : Prop where
  digitizes : ∀ made ∈ (call.perform fl clock s.bench).shown, made.call.isDigitize = true →
    s.track.control = some .single ∧ s.track.awaiting = true
  stamps : ∀ stamped, (call.perform fl clock s.bench).result = .ok (.stamped stamped) →
    ∀ t ∈ s.track.started, t ≤ stamped.timestamp

/-- In continuous acquisition, a reading finds no single acquisition awaited, and where one has been
recorded it raises. -/
def Track.Reads (track : Track) (returns : Bool) : Prop :=
  track.continuous = true → track.awaiting = false ∧ (track.recorded = true → returns = false)

def Safe (s : Session) (call : Call) : Prop :=
  match call.method with
  | .fetchWaveform _ _ _ answer errors => s.track.Reads (answer.returns && errors.returns)
  | .measure _ _ _ setup _ answer errors =>
    setup.returns = true → s.track.Reads (answer.returns && errors.returns)
  | _ => True

/-! ## What the scope remembers -/

/-- What the scope remembers of what the calls have told. -/
structure Tracked (clock : ℕ → ℤ) (s : Session) : Prop where
  armed : s.bench.scope.acquisitionArmed = s.track.awaiting
  recorded : s.bench.scope.lastAcquisitionTs.isSome = s.track.recorded
  last_lt : ∀ t ∈ s.bench.scope.lastAcquisitionTs, t < clock s.bench.reads
  started_lt : ∀ t ∈ s.track.started, t < clock s.bench.reads
  awaited : s.track.awaiting = true →
    s.track.control = some (if s.track.continuous then .run else .single)
  continuous : s.track.continuous = true → s.track.started.isSome = true
  fresh_iff : s.track.awaiting = false → ∀ t ∈ s.bench.scope.lastAcquisitionTs,
    ∀ t' ∈ s.track.started, t' ≤ t ↔ s.track.continuous = false

/-- The acquisition that is armed is recorded with the time. -/
def Bench.recorded (clock : ℕ → ℤ) (bench : Bench) : Bench :=
  bench.tick.setScope (·.record (clock bench.reads))

section Track

variable {clock : ℕ → ℤ} {bench : Bench} {track : Track}

theorem tracked_initial (labels : Instrument.Labels) : Tracked clock (.initial labels) where
  armed := rfl
  recorded := rfl
  last_lt := nofun
  started_lt := nofun
  awaited := nofun
  continuous := nofun
  fresh_iff _ := nofun

variable (hclock : StrictMono clock) (h : Tracked clock ⟨bench, track⟩)
include hclock h

/-- The clock is read. -/
theorem Tracked.tick : Tracked clock ⟨bench.tick, track⟩ := by
  have hlt : clock bench.reads < clock (bench.reads + 1) := hclock (Nat.lt_succ_self _)
  exact { h with
    last_lt := fun t ht => (h.last_lt t ht).trans hlt
    started_lt := fun t ht => (h.started_lt t ht).trans hlt }

theorem Tracked.run : Tracked clock ⟨bench.tick, track.after (.run (clock bench.reads))⟩ := by
  have hlt : clock bench.reads < clock (bench.reads + 1) := hclock (Nat.lt_succ_self _)
  refine
    { armed := h.armed
      recorded := h.recorded
      last_lt := fun t ht => (h.last_lt t ht).trans hlt
      started_lt := ?_
      awaited := fun _ => rfl
      continuous := fun _ => rfl
      fresh_iff := ?_ }
  · rintro t ⟨⟩
    exact hlt
  · rintro - t ht t' ⟨⟩
    exact iff_of_false (h.last_lt t ht).not_ge Bool.noConfusion

theorem Tracked.single : Tracked clock
    ⟨bench.tick.setScope fun scope => { scope with acquisitionArmed := true },
      track.after (.single (clock bench.reads))⟩ := by
  have hlt : clock bench.reads < clock (bench.reads + 1) := hclock (Nat.lt_succ_self _)
  refine
    { armed := rfl
      recorded := h.recorded
      last_lt := fun t ht => (h.last_lt t ht).trans hlt
      started_lt := ?_
      awaited := fun _ => rfl
      continuous := nofun
      fresh_iff := nofun }
  rintro t ⟨⟩
  exact hlt

/-- A single acquisition that is awaited is recorded as complete. -/
theorem Tracked.record (harmed : bench.scope.acquisitionArmed = true) :
    Tracked clock ⟨bench.recorded clock, track.record⟩ := by
  have hlt : clock bench.reads < clock (bench.reads + 1) := hclock (Nat.lt_succ_self _)
  have hawaiting : track.awaiting = true := h.armed.symm.trans harmed
  have hrecord : track.record =
      { track with awaiting := false, recorded := true, continuous := false } := if_pos hawaiting
  rw [hrecord]
  refine
    { armed := rfl
      recorded := rfl
      last_lt := ?_
      started_lt := fun t ht => (h.started_lt t ht).trans hlt
      awaited := nofun
      continuous := nofun
      fresh_iff := ?_ }
  · rintro t ⟨⟩
    exact hlt
  · rintro - t ⟨⟩ t' ht'
    exact iff_of_true (h.started_lt t' ht').le rfl

/-- The acquisition is complete, whether one is awaited or not. -/
theorem Tracked.complete : Tracked clock
    ⟨bench.tick.setScope fun scope =>
      if scope.acquisitionArmed then scope.record (clock bench.reads) else scope, track.record⟩ := by
  obtain ⟨⟨labels, armed, last⟩, reads⟩ := bench
  cases armed with
  | true => exact h.record hclock rfl
  | false =>
    have hawaiting : track.awaiting = false := h.armed.symm
    have hrecord : track.record = track := by
      unfold Track.record
      rw [hawaiting, if_neg Bool.noConfusion]
    rw [hrecord]
    exact h.tick hclock

omit hclock h in
theorem Tracked.stop (h : Tracked clock ⟨bench, track.record⟩) :
    Tracked clock ⟨bench, track.after .stop⟩ :=
  have hawaiting : track.record.awaiting = false := track.record_awaiting
  { h with awaited := fun h => absurd (hawaiting.symm.trans h) Bool.noConfusion }

end Track

/-! ## What a call does -/

section Calls

variable {fl : Rounding} {clock : ℕ → ℤ} {bench : Bench}

/-- What `checked` shows. -/
def checkedShown {β : Type} (call : DriverCall) (answer : Answer β) (errors : Answer Unit) :
    List Made :=
  ⟨call, answer.returns⟩ :: if answer.returns then [⟨.checkErrors, errors.returns⟩] else []

theorem not_isDigitize_of_mem_checkedShown {β : Type} {call : DriverCall}
    (hcall : call.isDigitize = false) (answer : Answer β) (errors : Answer Unit) :
    ∀ made ∈ checkedShown call answer errors, made.call.isDigitize = false := by
  unfold checkedShown
  split_ifs
  · simpa using ⟨hcall, rfl⟩
  · simpa using hcall

/-- What `checked` gives. -/
def checkedResult {β : Type} (answer : Answer β) (errors : Answer Unit) : Except Raised β :=
  (answer.bind fun val => errors.map fun _ => val).mapError .driver

section Acquired

variable {β : Type} (timeout : PyFloat) (call : DriverCall) (answer : Answer β)
  (errors : Answer Unit)

/-- The acquisition that is armed does not come. -/
theorem acquired_of_error (harmed : bench.scope.acquisitionArmed = true) (e : String) :
    acquired clock timeout (.error e) call answer errors bench =
      ⟨bench, [⟨.digitize timeout, false⟩], .error (.driver e)⟩ := by
  obtain ⟨⟨labels, armed, last⟩, reads⟩ := bench
  obtain rfl : armed = true := harmed
  rfl

theorem acquired_of_armed (harmed : bench.scope.acquisitionArmed = true) :
    acquired clock timeout (.ok ()) call answer errors bench =
      ⟨bench.recorded clock, ⟨.digitize timeout, true⟩ :: checkedShown call answer errors,
        (fun val => (val, clock bench.reads)) <$> checkedResult answer errors⟩ := by
  obtain ⟨⟨labels, armed, last⟩, reads⟩ := bench
  obtain rfl : armed = true := harmed
  cases answer with
  | error e => rfl
  | ok val => cases errors <;> rfl

/-- No acquisition is armed: the time is that of the last, or it is read from the clock. -/
theorem acquired_of_idle (clock : ℕ → ℤ) (harmed : bench.scope.acquisitionArmed = false)
    (digitize : Answer Unit) :
    ∃ bench', (bench' = bench ∨ bench' = bench.tick) ∧
      acquired clock timeout digitize call answer errors bench =
        ⟨bench', checkedShown call answer errors,
          (fun val => (val, bench.scope.lastAcquisitionTs.getD (clock bench.reads))) <$>
            checkedResult answer errors⟩ := by
  obtain ⟨⟨labels, armed, last⟩, reads⟩ := bench
  obtain rfl : armed = false := harmed
  cases answer with
  | error e => exact ⟨_, .inl rfl, rfl⟩
  | ok val =>
    cases errors with
    | error e => exact ⟨_, .inl rfl, rfl⟩
    | ok _ =>
      cases last with
      | some timestamp => exact ⟨_, .inl rfl, rfl⟩
      | none => exact ⟨_, .inr rfl, rfl⟩

end Acquired

/-- What is given carries the time. -/
theorem snd_of_stamped {β : Type} {result : Except Raised β} {t : ℤ} {c : β × ℤ}
    (h : (fun val => (val, t)) <$> result = .ok c) : c.2 = t := by
  obtain ⟨val, -, rfl⟩ := map_eq_ok.mp h
  rfl

theorem returns_iff_stamped {β : Type} (answer : Answer β) (errors : Answer Unit) (t : ℤ) :
    (answer.returns && errors.returns) = true ↔
      ∃ c, (fun val => (val, t)) <$> checkedResult answer errors = .ok c := by
  cases answer with
  | error e => exact iff_of_false Bool.noConfusion nofun
  | ok val =>
    cases errors with
    | error e => exact iff_of_false Bool.noConfusion nofun
    | ok _ => exact iff_of_true rfl ⟨(val, t), rfl⟩

theorem any_digitized_eq_false {shown : List Made}
    (h : ∀ made ∈ shown, made.call.isDigitize = false) : shown.any Made.digitized = false := by
  rw [List.any_eq_false]
  intro made hmade
  unfold Made.digitized
  rw [h made hmade]
  exact Bool.noConfusion

/-- How a reading goes: what it shows and leaves, and the time it gives what it returns. -/
structure Acquires {γ : Type} (clock : ℕ → ℤ) (bench : Bench) (returns : Bool) (stamp : γ → ℤ)
    (done : Done Bench Made Raised γ) : Prop where
  digitizes : bench.scope.acquisitionArmed = true ↔ ∃ made ∈ done.shown, made.call.isDigitize = true
  digitized : done.shown.any Made.digitized = true →
    bench.scope.acquisitionArmed = true ∧ done.state = bench.recorded clock
  waiting : done.shown.any Made.digitized = false → done.state = bench ∨ done.state = bench.tick
  stamps : ∀ c, done.result = .ok c → stamp c =
    if bench.scope.acquisitionArmed then clock bench.reads
    else bench.scope.lastAcquisitionTs.getD (clock bench.reads)
  returns : bench.scope.acquisitionArmed = false → (returns = true ↔ ∃ c, done.result = .ok c)

theorem acquires_of_armed {β : Type} (harmed : bench.scope.acquisitionArmed = true)
    (timeout : PyFloat) (digitize : Answer Unit) (call : DriverCall) (answer : Answer β)
    (errors : Answer Unit) :
    Acquires clock bench (answer.returns && errors.returns) Prod.snd
      (acquired clock timeout digitize call answer errors bench) := by
  have hfirst : ∀ {returned : Bool} {rest : List Made},
      ∃ made ∈ (⟨.digitize timeout, returned⟩ :: rest : List Made), made.call.isDigitize = true :=
    ⟨_, List.mem_cons_self, rfl⟩
  have hidle : bench.scope.acquisitionArmed ≠ false := by rw [harmed]; exact Bool.noConfusion
  cases digitize with
  | error e =>
    rw [acquired_of_error timeout call answer errors harmed e]
    exact ⟨iff_of_true harmed hfirst, nofun, fun _ => .inl rfl, nofun, fun h => absurd h hidle⟩
  | ok _ =>
    rw [acquired_of_armed timeout call answer errors harmed]
    refine ⟨iff_of_true harmed hfirst, fun _ => ⟨harmed, rfl⟩, nofun, fun c hc => ?_,
      fun h => absurd h hidle⟩
    rw [harmed, if_pos rfl]
    exact snd_of_stamped hc

theorem acquires_acquired {β : Type} {call : DriverCall} (hcall : call.isDigitize = false)
    (timeout : PyFloat) (digitize : Answer Unit) (answer : Answer β) (errors : Answer Unit) :
    Acquires clock bench (answer.returns && errors.returns) Prod.snd
      (acquired clock timeout digitize call answer errors bench) := by
  cases harmed : bench.scope.acquisitionArmed with
  | true => exact acquires_of_armed harmed timeout digitize call answer errors
  | false =>
    have hshown := not_isDigitize_of_mem_checkedShown hcall answer errors
    obtain ⟨bench', hbench', heq⟩ := acquired_of_idle timeout call answer errors clock harmed
      digitize
    rw [heq]
    refine ⟨?_, fun h => ?_, fun _ => hbench', fun c hc => ?_, fun _ => ?_⟩
    · rw [harmed]
      refine iff_of_false Bool.noConfusion ?_
      rintro ⟨made, hmade, hdigitize⟩
      rw [hshown made hmade] at hdigitize
      cases hdigitize
    · rw [any_digitized_eq_false hshown] at h
      cases h
    · rw [harmed, if_neg Bool.noConfusion]
      exact snd_of_stamped hc
    · exact returns_iff_stamped answer errors _

/-- A call of the driver that goes before. -/
theorem Acquires.cons {γ : Type} {returns : Bool} {stamp : γ → ℤ} {done : Done Bench Made Raised γ}
    {made : Made} (h : Acquires clock bench returns stamp done)
    (hmade : made.call.isDigitize = false) :
    Acquires clock bench returns stamp ⟨done.state, made :: done.shown, done.result⟩ := by
  have hany : (made :: done.shown).any Made.digitized = done.shown.any Made.digitized := by
    rw [List.any_cons, Made.digitized, hmade, Bool.false_and, Bool.false_or]
  refine ⟨?_, ?_, ?_, h.stamps, h.returns⟩
  · rw [h.digitizes]
    simp [hmade]
  · rw [hany]
    exact h.digitized
  · rw [hany]
    exact h.waiting

/-- What follows a reading packs what it gave. -/
theorem Acquires.bind {γ δ : Type} {returns : Bool} {stamp : γ → ℤ} {stamp' : δ → ℤ} {x : Act γ}
    {k : γ → Act δ} (h : Acquires clock bench returns stamp (x bench))
    (hk : ∀ c bench, ∃ d, k c bench = ⟨bench, [], .ok d⟩ ∧ stamp' d = stamp c) :
    Acquires clock bench returns stamp' ((x >>= k) bench) := by
  cases hx : (x bench).result with
  | error e =>
    rw [Procedure.bind_of_error hx]
    refine ⟨h.digitizes, h.digitized, h.waiting, nofun, fun harmed => ?_⟩
    rw [h.returns harmed, hx]
    exact iff_of_false nofun nofun
  | ok c =>
    obtain ⟨d, hd, hstamp⟩ := hk c (x bench).state
    rw [Procedure.bind_of_ok hx, hd]
    simp only [List.append_nil]
    refine ⟨h.digitizes, h.digitized, h.waiting, ?_, fun harmed => ?_⟩
    · rintro d' ⟨⟩
      exact hstamp.trans (h.stamps c hx)
    · exact (h.returns harmed).trans (iff_of_true ⟨c, hx⟩ ⟨d, rfl⟩)

theorem acquires_fetchWaveform (kwargs : Dict String String) (channel : ℤ) (timeout : PyFloat)
    (digitize : Answer Unit) (answer : Answer WaveformData) (errors : Answer Unit) :
    Acquires clock bench (answer.returns && errors.returns) Stamped.timestamp
      (fetchWaveform clock kwargs channel timeout digitize answer errors bench) :=
  (acquires_acquired rfl timeout digitize answer errors).bind fun _ _ => ⟨_, rfl, rfl⟩

theorem acquires_measure (kwargs : Dict String String) (measurementType : ScopeMeasurementType)
    (channel : ℤ) (timeout : PyFloat) (digitize : Answer Unit) (answer : Answer PyFloat)
    (errors : Answer Unit) :
    Acquires clock bench (answer.returns && errors.returns) Stamped.timestamp
      (measure fl clock kwargs measurementType channel timeout (.ok ()) digitize answer errors
        bench) := by
  have h : Acquires clock bench (answer.returns && errors.returns) Stamped.timestamp
      ((acquired clock timeout digitize (.measure measurementType channel) answer errors >>=
        fun p => packageValue fl kwargs measurementType channel p.1 p.2) bench) :=
    (acquires_acquired rfl timeout digitize answer errors).bind fun _ _ => ⟨_, rfl, rfl⟩
  exact h.cons rfl

end Calls

/-! ## Steps -/

section Steps

variable {fl : Rounding} {clock : ℕ → ℤ} {s : Session} {call : Call} {x : Act Stamped}
  {returns : Bool}

theorem perform_eq_of_map (s : Session) (hperform : call.perform fl clock = Value.stamped <$> x) :
    call.perform fl clock s.bench =
      ⟨(x s.bench).state, (x s.bench).shown, (x s.bench).result.map .stamped⟩ := by
  rw [hperform, Procedure.map_apply]

theorem Tracked.reading (hclock : StrictMono clock) (h : Tracked clock s)
    (hperform : call.perform fl clock = Value.stamped <$> x)
    (hevents : ∀ done, call.events done = if done.shown.any Made.digitized then [.complete] else [])
    (hx : Acquires clock s.bench returns Stamped.timestamp (x s.bench)) :
    Tracked clock (s.after fl clock call) := by
  unfold Session.after
  simp only [perform_eq_of_map s hperform, hevents]
  cases hany : (x s.bench).shown.any Made.digitized with
  | true =>
    obtain ⟨harmed, hstate⟩ := hx.digitized hany
    rw [hstate]
    exact h.record hclock harmed
  | false =>
    rcases hx.waiting hany with hstate | hstate
    · rw [hstate]
      exact h
    · rw [hstate]
      exact h.tick hclock

/-- A reading keeps to the acquisitions exactly where it can. -/
theorem kept_iff_reads (h : Tracked clock s) (hperform : call.perform fl clock = Value.stamped <$> x)
    (hx : Acquires clock s.bench returns Stamped.timestamp (x s.bench)) :
    Kept fl clock s call ↔ s.track.Reads returns := by
  have happly := perform_eq_of_map s hperform
  have hresult : ∀ {stamped}, (call.perform fl clock s.bench).result = .ok (.stamped stamped) ↔
      (x s.bench).result = .ok stamped := by
    intro stamped
    rw [happly]
    cases (x s.bench).result with
    | error e => exact iff_of_false nofun nofun
    | ok stamped' => simp [Except.map]
  cases harmed : s.bench.scope.acquisitionArmed with
  | true =>
    -- The reading digitizes, and is stamped with the time after that.
    have hawaiting : s.track.awaiting = true := h.armed.symm.trans harmed
    constructor
    · intro hkept hcontinuous
      obtain ⟨made, hmade, hdigitize⟩ := hx.digitizes.mp harmed
      rw [← congrArg Done.shown happly] at hmade
      have hsingle := (hkept.digitizes made hmade hdigitize).1
      rw [h.awaited hawaiting, hcontinuous] at hsingle
      cases hsingle
    · intro hreads
      have hcontinuous : s.track.continuous = false := by
        rw [← Bool.not_eq_true]
        intro hcontinuous
        rw [(hreads hcontinuous).1] at hawaiting
        cases hawaiting
      refine ⟨fun _ _ _ => ⟨?_, hawaiting⟩, fun stamped hstamped t ht => ?_⟩
      · rw [h.awaited hawaiting, hcontinuous]
        rfl
      · rw [hx.stamps stamped (hresult.mp hstamped), harmed]
        exact (h.started_lt t ht).le
  | false =>
    have hawaiting : s.track.awaiting = false := h.armed.symm.trans harmed
    have hstamp : ∀ {stamped}, (call.perform fl clock s.bench).result = .ok (.stamped stamped) →
        stamped.timestamp = s.bench.scope.lastAcquisitionTs.getD (clock s.bench.reads) := by
      intro stamped hstamped
      have hstamp := hx.stamps stamped (hresult.mp hstamped)
      rwa [harmed, if_neg Bool.noConfusion] at hstamp
    constructor
    · intro hkept hcontinuous
      refine ⟨hawaiting, fun hrecorded => ?_⟩
      rw [← Bool.not_eq_true, hx.returns harmed]
      rintro ⟨stamped, hstamped⟩
      -- The last acquisition was complete before the start.
      obtain ⟨t, ht⟩ := Option.isSome_iff_exists.mp (h.recorded.trans hrecorded)
      obtain ⟨t', ht'⟩ := Option.isSome_iff_exists.mp (h.continuous hcontinuous)
      have hle := hkept.stamps stamped (hresult.mpr hstamped) t' ht'
      rw [hstamp (hresult.mpr hstamped), ht, Option.getD_some,
        h.fresh_iff hawaiting t ht t' ht', hcontinuous] at hle
      cases hle
    · intro hreads
      refine ⟨fun made hmade hdigitize => ?_, fun stamped hstamped t' ht' => ?_⟩
      · rw [happly] at hmade
        have harmed' := hx.digitizes.mpr ⟨made, hmade, hdigitize⟩
        rw [harmed] at harmed'
        cases harmed'
      · rw [hstamp hstamped]
        cases hlast : s.bench.scope.lastAcquisitionTs with
        | none => exact (h.started_lt t' ht').le
        | some t =>
          refine (h.fresh_iff hawaiting t hlast t' ht').mpr ?_
          rw [← Bool.not_eq_true]
          intro hcontinuous
          have hrecorded : s.track.recorded = true := by rw [← h.recorded, hlast]; rfl
          have hraises := (hreads hcontinuous).2 hrecorded
          have hreturns := (hx.returns harmed).mpr ⟨stamped, hresult.mp hstamped⟩
          rw [hraises] at hreturns
          cases hreturns

/-- A method that is no reading makes its call of the driver, and returns a command. -/
inductive Commands (bench : Bench) (done : Done Bench Made Raised Value) : Prop
  | intro {β : Type} (call : DriverCall) (answer : Answer β) (errors : Answer Unit)
    (hcall : call.isDigitize = false) (hshown : done.shown = checkedShown call answer errors)
    (hresult : ∀ stamped, done.result ≠ .ok (.stamped stamped))

theorem Commands.kept (h : Commands s.bench (call.perform fl clock s.bench)) :
    Kept fl clock s call := by
  obtain ⟨driverCall, answer, errors, hcall, hshown, hresult⟩ := h
  refine ⟨fun made hmade hdigitize => ?_, fun stamped h => absurd h (hresult stamped)⟩
  rw [hshown] at hmade
  rw [not_isDigitize_of_mem_checkedShown hcall answer errors made hmade] at hdigitize
  cases hdigitize

/-- A step keeps to the acquisitions exactly when it is safe. -/
theorem kept_iff_safe (h : Tracked clock s) : Kept fl clock s call ↔ Safe s call := by
  obtain ⟨method, kwargs⟩ := call
  cases method with
  | run answer errors =>
    refine iff_of_true (Commands.kept ⟨.run, answer, errors, rfl, ?_, ?_⟩) trivial
    · cases answer <;> cases errors <;> rfl
    · cases answer <;> cases errors <;> exact nofun
  | stopAcquisition answer errors =>
    refine iff_of_true (Commands.kept ⟨.stop, answer, errors, rfl, ?_, ?_⟩) trivial
    · cases answer <;> cases errors <;> rfl
    · cases answer <;> cases errors <;> exact nofun
  | single answer errors =>
    refine iff_of_true (Commands.kept ⟨.single, answer, errors, rfl, ?_, ?_⟩) trivial
    · cases answer <;> cases errors <;> rfl
    · cases answer <;> cases errors <;> exact nofun
  | getAcquisitionState answer errors =>
    refine iff_of_true (Commands.kept ⟨.getAcquisitionState, answer, errors, rfl, ?_, ?_⟩) trivial
    · cases answer <;> cases errors <;> rfl
    · cases answer <;> cases errors <;> exact nofun
  | fetchWaveform channel timeout digitize answer errors =>
    exact kept_iff_reads h rfl (acquires_fetchWaveform kwargs channel timeout digitize answer errors)
  | measure measurementType channel timeout setup digitize answer errors =>
    cases setup with
    | ok _ =>
      exact (kept_iff_reads h rfl (acquires_measure kwargs measurementType channel timeout digitize
        answer errors)).trans ⟨fun hreads _ => hreads, fun hsafe => hsafe rfl⟩
    | error e =>
      refine iff_of_true ⟨fun made hmade hdigitize => ?_, nofun⟩ nofun
      obtain rfl := List.mem_singleton.mp hmade
      cases hdigitize

theorem Tracked.after (hclock : StrictMono clock) (h : Tracked clock s) (call : Call) :
    Tracked clock (s.after fl clock call) := by
  obtain ⟨method, kwargs⟩ := call
  cases method with
  | run answer errors =>
    cases answer with
    | error e => exact h
    | ok _ =>
      cases errors with
      | error e => exact h.tick hclock
      | ok _ => exact h.run hclock
  | single answer errors =>
    cases answer with
    | error e => exact h
    | ok _ =>
      cases errors with
      | error e => exact h.tick hclock
      | ok _ => exact h.single hclock
  | stopAcquisition answer errors =>
    cases answer with
    | error e => exact h
    | ok _ =>
      cases errors with
      | error e => exact h.tick hclock
      | ok _ => exact (h.complete hclock).stop
  | getAcquisitionState answer errors =>
    cases answer with
    | error e => exact h
    | ok val =>
      cases val with
      | RUNNING =>
        cases errors with
        | error e => exact h.tick hclock
        | ok _ =>
          show Tracked clock ⟨s.bench.tick.setScope fun scope =>
            if scope.acquisitionArmed ∧ AcquisitionState.RUNNING = .STOPPED then
              scope.record (clock s.bench.reads) else scope, s.track⟩
          simp only [reduceCtorEq, and_false, if_false]
          exact h.tick hclock
      | STOPPED =>
        cases errors with
        | error e => exact h.tick hclock
        | ok _ =>
          show Tracked clock ⟨s.bench.tick.setScope fun scope =>
            if scope.acquisitionArmed ∧ AcquisitionState.STOPPED = .STOPPED then
              scope.record (clock s.bench.reads) else scope, s.track.record⟩
          simp only [and_true]
          exact h.complete hclock
  | fetchWaveform channel timeout digitize answer errors =>
    exact h.reading hclock rfl (fun _ => rfl)
      (acquires_fetchWaveform kwargs channel timeout digitize answer errors)
  | measure measurementType channel timeout setup digitize answer errors =>
    cases setup with
    | ok _ =>
      exact h.reading hclock rfl (fun _ => rfl)
        (acquires_measure kwargs measurementType channel timeout digitize answer errors)
    | error e => exact h

end Steps

/-! ## Runs -/

theorem Tracked.step {fl : Rounding} {clock : ℕ → ℤ} {s s' : Session} {call : Call}
    (hclock : StrictMono clock) (h : Tracked clock s)
    (hs' : ((session fl clock).step s call).2 = some s') : Tracked clock s' := by
  obtain rfl := Option.some.inj hs'
  exact h.after hclock call

/-- Over any calls, the scope digitizes only for a single acquisition that is awaited, and stamps nothing
with a time before the last start, exactly where every reading in continuous acquisition finds no single
one awaited, and none recorded or an error. -/
theorem acquisitions_kept_iff (fl : Rounding) {clock : ℕ → ℤ} (hclock : StrictMono clock)
    (labels : Instrument.Labels) (calls : List Call) :
    (session fl clock).Along (Kept fl clock) (.initial labels) calls ↔
      (session fl clock).Along Safe (.initial labels) calls :=
  (session fl clock).along_congr (tracked_initial labels) (fun _ _ _ h hs' => h.step hclock hs')
    fun _ _ h => kept_iff_safe h

/-- Only a `run` tells of a run. -/
theorem Call.not_run_of_mem_events {call : Call} (done : Done Bench Made Raised Value)
    (hcall : ∀ answer errors, call.method ≠ .run answer errors) :
    ∀ event ∈ call.events done, ∀ timestamp, event ≠ .run timestamp := by
  obtain ⟨method, kwargs⟩ := call
  have hmap : ∀ {event event' : Event} {times : List ℤ}, event ∈ times.map (fun _ => event') →
      event = event' := by
    intro event event' times h
    obtain ⟨_, -, heq⟩ := List.mem_map.mp h
    exact heq.symm
  rintro event hevent timestamp rfl
  unfold Call.events at hevent
  cases method with
  | run answer errors => exact hcall answer errors rfl
  | stopAcquisition answer errors => cases hmap hevent
  | single answer errors =>
    obtain ⟨_, -, heq⟩ := List.mem_map.mp hevent
    cases heq
  | getAcquisitionState answer errors =>
    simp only at hevent
    split_ifs at hevent
    · cases hmap hevent
    · cases hevent
  | fetchWaveform channel timeout digitize answer errors =>
    simp only at hevent
    split_ifs at hevent
    · simp at hevent
    · cases hevent
  | measure measurementType channel timeout setup digitize answer errors =>
    simp only at hevent
    split_ifs at hevent
    · simp at hevent
    · cases hevent

/-- Without continuous acquisition nothing goes wrong. -/
theorem acquisitions_kept_of_no_run {fl : Rounding} {clock : ℕ → ℤ} (hclock : StrictMono clock)
    {labels : Instrument.Labels} {calls : List Call}
    (hcalls : ∀ call ∈ calls, ∀ answer errors, call.method ≠ .run answer errors) :
    (session fl clock).Along (Kept fl clock) (.initial labels) calls := by
  intro pre call s hpre hs
  -- No run has been told of, and the scope remembers what has been.
  have hinv : Tracked clock s ∧ s.track.continuous = false := by
    refine (session fl clock).stateAfter_induction (P := fun pre s =>
      (∀ call ∈ pre, ∀ answer errors, call.method ≠ .run answer errors) →
        Tracked clock s ∧ s.track.continuous = false) ?_ ?_ hs ?_
    · exact fun _ => ⟨tracked_initial labels, rfl⟩
    · intro pre s call s' ih hs' hno
      obtain ⟨hpre, hcall⟩ := List.forall_mem_append.mp hno
      obtain ⟨htracked, hcontinuous⟩ := ih hpre
      refine ⟨htracked.step hclock hs', ?_⟩
      obtain rfl := Option.some.inj hs'
      have hevents := Call.not_run_of_mem_events (call.perform fl clock s.bench)
        (hcall call (List.mem_singleton_self call))
      exact List.foldlRecOn _ Track.after hcontinuous
        fun track htrack event hevent => track.continuous_after htrack (hevents event hevent)
    · exact fun c hc => hcalls c (hpre.subset (List.mem_append_left _ hc))
  obtain ⟨htracked, hcontinuous⟩ := hinv
  rw [kept_iff_safe htracked]
  have hreads : ∀ returns, s.track.Reads returns := by
    intro returns h
    rw [hcontinuous] at h
    cases h
  obtain ⟨method, kwargs⟩ := call
  cases method with
  | fetchWaveform channel timeout digitize answer errors => exact hreads _
  | measure measurementType channel timeout setup digitize answer errors => exact fun _ => hreads _
  | _ => trivial

def succeed : Answer Unit := .ok ()

def fetch : Method := .fetchWaveform 1 (.finite 5) succeed (.ok ⟨[0], [.finite 1]⟩) succeed

def scopeLabels : Instrument.Labels := ⟨"scope", false, ∅⟩

/-- A fetch in continuous acquisition, and one of a single acquisition after it. -/
theorem acquisitions_kept_run :
    (session exact Nat.cast).Along (Kept exact Nat.cast) (.initial scopeLabels)
      [⟨.run succeed succeed, ∅⟩, ⟨fetch, ∅⟩, ⟨.single succeed succeed, ∅⟩, ⟨fetch, ∅⟩] := by
  refine (acquisitions_kept_iff exact (fun _ _ h => Int.ofNat_lt.mpr h) scopeLabels _).mpr ?_
  refine ((session exact Nat.cast).along_cons).mpr ⟨trivial, ?_⟩
  rintro s ⟨⟩
  refine ((session exact Nat.cast).along_cons).mpr ⟨fun _ => ⟨rfl, nofun⟩, ?_⟩
  rintro s ⟨⟩
  refine ((session exact Nat.cast).along_cons).mpr ⟨trivial, ?_⟩
  rintro s ⟨⟩
  refine ((session exact Nat.cast).along_cons).mpr ⟨nofun, ?_⟩
  exact fun s' _ => (session exact Nat.cast).along_nil Safe s'

/-- A fetch in continuous acquisition takes a single shot, if a single acquisition was armed before, and it
is stamped with a time before the start, if one was complete. -/
theorem run_after_single :
    (session exact Nat.cast).actions (.initial scopeLabels)
      [⟨.single succeed succeed, ∅⟩, ⟨.run succeed succeed, ∅⟩, ⟨fetch, ∅⟩] =
        [⟨.single, true⟩, ⟨.checkErrors, true⟩, ⟨.run, true⟩, ⟨.checkErrors, true⟩,
          ⟨.digitize (.finite 5), true⟩, ⟨.fetchWaveform 1, true⟩, ⟨.checkErrors, true⟩] ∧
    ¬ (session exact Nat.cast).Along (Kept exact Nat.cast) (.initial scopeLabels)
      [⟨.single succeed succeed, ∅⟩, ⟨.run succeed succeed, ∅⟩, ⟨fetch, ∅⟩] ∧
    ¬ (session exact Nat.cast).Along (Kept exact Nat.cast) (.initial scopeLabels)
      [⟨.single succeed succeed, ∅⟩, ⟨fetch, ∅⟩, ⟨.run succeed succeed, ∅⟩, ⟨fetch, ∅⟩] := by
  refine ⟨rfl, fun h => ?_, fun h => ?_⟩
  · have hfetch := h [⟨.single succeed succeed, ∅⟩, ⟨.run succeed succeed, ∅⟩] _ _
      List.prefix_rfl rfl
    have hcontrol := hfetch.digitizes ⟨.digitize (.finite 5), true⟩ List.mem_cons_self rfl
    exact absurd hcontrol.1 (by decide)
  · have hfetch := h [⟨.single succeed succeed, ∅⟩, ⟨fetch, ∅⟩, ⟨.run succeed succeed, ∅⟩] _ _
      List.prefix_rfl rfl
    exact absurd (hfetch.stamps _ rfl 2 rfl) (by decide)

end Instro.Scope
