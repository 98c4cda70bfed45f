import Instro.Publishers.ChannelBuffer

/-!
# What a `get` comes to

A `get` may return a measurement or raise one of its three errors. Something else escapes it in two
cases only: it takes the monitor back in its second wait after `close()` has dropped the channel it
counts the points of, and it goes to sleep for longer than a lock may be waited for. It neither
returns nor raises if it goes to sleep until a time that never comes. In all other cases it goes
from one wait to the next, and leaves each of them at the first turn after its time is up.
-/

namespace Instro.Publishers

open Instro.Library

variable {α β τ : Type} {p : Publisher α β τ} {fl : Rounding} {timeoutMax : PyFloat}

/-! ## The buffers -/

/-- A channel that has values has timestamps, and only such a channel has a count. -/
structure ChannelBuffer.Sound (s : ChannelBuffer β τ) : Prop where
  timestamps : ∀ name, (s.values name).isSome → (s.timestamps name).isSome
  counted : ∀ name, 0 < s.totalAddedCount name → (s.values name).isSome

namespace ChannelBuffer

variable {s : ChannelBuffer β τ} {channelName : String}

theorem sound_empty (maxlen : ℤ) : (empty maxlen : ChannelBuffer β τ).Sound where
  timestamps _ h := absurd h Bool.false_ne_true
  counted _ h := absurd h (Nat.lt_irrefl 0)

theorem sound_close (s : ChannelBuffer β τ) : s.close.Sound where
  timestamps _ h := absurd h Bool.false_ne_true
  counted _ h := absurd h (Nat.lt_irrefl 0)

/-- An entry that is set is there, and no other changes. -/
theorem isSome_update {γ : Type} (f : String → Option γ) (x : γ) (name : String) :
    (Function.update f channelName (some x) name).isSome =
      (decide (name = channelName) || (f name).isSome) := by
  by_cases h : name = channelName
  · subst h
    simp
  · simp [h]

theorem Sound.setValues (hs : s.Sound) (hhas : (s.values channelName).isSome) (buffer : β) :
    (s.setValues channelName buffer).Sound := by
  have hsame : ∀ name, ((s.setValues channelName buffer).values name).isSome =
      (s.values name).isSome := by
    intro name
    refine (isSome_update s.values buffer name).trans ?_
    by_cases h : name = channelName
    · subst h
      simp [hhas]
    · simp [h]
  constructor
  · intro name h
    rw [hsame] at h
    exact hs.timestamps name h
  · intro name h
    rw [hsame]
    exact hs.counted name h

theorem Sound.setTimestamps (hs : s.Sound) (buffer : τ) :
    (s.setTimestamps channelName buffer).Sound where
  timestamps name h := by
    refine (isSome_update s.timestamps buffer name).trans ?_
    rw [hs.timestamps name h, Bool.or_true]
  counted := hs.counted

theorem Sound.addCount (hs : s.Sound) (hhas : (s.values channelName).isSome) (n : ℕ) :
    (s.addCount channelName n).Sound where
  timestamps := hs.timestamps
  counted name h := by
    by_cases hname : name = channelName
    · subst hname
      exact hhas
    · apply hs.counted name
      have hcount : 0 < Function.update s.totalAddedCount channelName
          (s.totalAddedCount channelName + n) name := h
      rwa [Function.update_of_ne hname] at hcount

/-- After `_ensure_channel` the channel is there, unless it raised. -/
theorem Sound.ensureChannel (hs : s.Sound) :
    (s.ensureChannel p channelName).1.Sound ∧
      ((s.ensureChannel p channelName).2 = .ok () →
        ((s.ensureChannel p channelName).1.values channelName).isSome) := by
  unfold ChannelBuffer.ensureChannel
  split_ifs with hhas
  · exact ⟨hs, fun _ => hhas⟩
  · cases hnew : p.values.new s.maxlen with
    | error e => exact ⟨hs, nofun⟩
    | ok values =>
      obtain ⟨timestamps, htimestamps⟩ := p.timestamps_new_ok hnew
      dsimp only [ChannelBuffer.setValues]
      rw [htimestamps]
      have hsome : (Function.update s.values channelName (some values) channelName).isSome := by
        simp
      refine ⟨⟨?_, ?_⟩, fun _ => hsome⟩
      · intro name h
        refine (isSome_update s.timestamps timestamps name).trans ?_
        have h := (isSome_update s.values values name).symm.trans h
        by_cases hname : name = channelName
        · simp [hname]
        · simp only [hname, decide_false, Bool.false_or] at h
          simp [hname, hs.timestamps name h]
      · intro name h
        refine (isSome_update s.values values name).trans ?_
        rw [hs.counted name h, Bool.or_true]

/-- The statements leave a sound buffer that has the channel so. -/
def KeepsChannel (channelName : String) (s : ChannelBuffer β τ) : Prop :=
  s.Sound ∧ (s.values channelName).isSome

theorem keepsChannel_extendValues (hs : KeepsChannel channelName s) (values : List α) :
    KeepsChannel channelName (s.extendValues p channelName values).1 := by
  unfold extendValues
  split
  · exact hs
  · split
    · exact hs
    · rename_i buffer _
      exact ⟨hs.1.setValues hs.2 buffer, by simp [setValues]⟩

theorem keepsChannel_extendTimestamps (hs : KeepsChannel channelName s) (timestamps : List ℤ) :
    KeepsChannel channelName (s.extendTimestamps p channelName timestamps).1 := by
  unfold extendTimestamps
  split
  · exact hs
  · split
    · exact hs
    · rename_i buffer _
      exact ⟨hs.1.setTimestamps buffer, hs.2⟩

end ChannelBuffer

/-- What holds after the first statements, and is kept by the next ones. -/
theorem Statements.andThen_fst {I J : ChannelBuffer β τ → Prop} {r : Statements β τ}
    {next : ChannelBuffer β τ → Statements β τ} (hraised : I r.1) (hok : r.2 = .ok () → J r.1)
    (hnext : ∀ s, J s → I (next s).1) : I (r.andThen next).1 := by
  obtain ⟨s, result⟩ := r
  cases result with
  | error e => exact hraised
  | ok u => exact hnext s (hok rfl)

namespace ChannelBuffer

variable {s : ChannelBuffer β τ}

theorem Sound.publishChannel (hs : s.Sound) (channelName : String) (timestamps : List ℤ)
    (values : List α) : (s.publishChannel p channelName timestamps values).1.Sound := by
  obtain ⟨hensured, hhas⟩ := @Sound.ensureChannel _ _ _ p s channelName hs
  refine Statements.andThen_fst (J := KeepsChannel channelName) hensured
    (fun h => ⟨hensured, hhas h⟩) fun s hs => ?_
  have hvalues := keepsChannel_extendValues (p := p) hs values
  refine Statements.andThen_fst (J := KeepsChannel channelName) hvalues.1 (fun _ => hvalues)
    fun s hs => ?_
  have htimestamps := keepsChannel_extendTimestamps (p := p) hs timestamps
  refine Statements.andThen_fst (J := KeepsChannel channelName) htimestamps.1 (fun _ => htimestamps)
    fun s hs => ?_
  exact hs.1.addCount hs.2 values.length

theorem Sound.publishChannels (timestamps : List ℤ) (channels : List (String × List α)) :
    ∀ {s : ChannelBuffer β τ}, s.Sound → (publishChannels p timestamps s channels).1.Sound := by
  induction channels with
  | nil => exact fun hs => hs
  | cons channel channels ih =>
    intro s hs
    have hfirst := hs.publishChannel (p := p) channel.1 timestamps channel.2
    exact Statements.andThen_fst hfirst (fun _ => hfirst) fun s hs => ih hs

end ChannelBuffer

/-! ## Reading -/

namespace ChannelBuffer

variable {s : ChannelBuffer β τ} {channelName : String}

theorem hasChannel_iff :
    s.hasChannel channelName = true ↔ ∃ points, s.pointsInBuffer p channelName = .ok points := by
  unfold hasChannel pointsInBuffer
  cases s.values channelName with
  | none => simp
  | some buffer => simp

/-- The samples of a channel that is there can be read. -/
theorem Sound.latest_ok (hs : s.Sound) (hhas : s.hasChannel channelName = true) (length : ℕ) :
    ∃ data, s.latest p channelName length = .ok data := by
  obtain ⟨buffer, hbuffer⟩ := Option.isSome_iff_exists.mp hhas
  obtain ⟨stamps, hstamps⟩ := Option.isSome_iff_exists.mp (hs.timestamps channelName hhas)
  obtain ⟨values, hvalues⟩ :=
    p.values_getLatest_ok buffer (min length (p.values.length buffer))
  obtain ⟨timestamps, htimestamps⟩ :=
    p.timestamps_getLatest_ok stamps (min length (p.values.length buffer))
  refine ⟨⟨[(channelName, values)], timestamps⟩, ?_⟩
  unfold latest pointsInBuffer getValues getTimestamps
  rw [hbuffer, hstamps]
  dsimp only [bind, Except.bind]
  rw [hvalues, htimestamps]
  rfl

end ChannelBuffer

/-! ## Turns -/

/-- A measurement, or one of the three errors of `get`. -/
def Documented : Except GetError (Measurement α) → Prop
  | .error (.python _) => False
  | _ => True

/-- The turn ends with an exception that `get` does not document. -/
def Turn.Escapes : Turn α → Prop
  | .ends result => ¬Documented result
  | .goesOn _ => False

section Turns

variable {s : ChannelBuffer β τ} {call : Call} {round : Round}

theorem documented_latest (hs : s.Sound) (hhas : s.hasChannel call.channelName = true) :
    Documented (escapes (s.latest p call.channelName call.length)) := by
  obtain ⟨data, hdata⟩ := hs.latest_ok (p := p) hhas call.length
  rw [hdata]
  trivial

theorem documented_accumulated (hs : s.Sound) (hhas : s.hasChannel call.channelName = true) :
    Documented (accumulated p s call) := by
  obtain ⟨points, hpoints⟩ := ChannelBuffer.hasChannel_iff (p := p).mp hhas
  have hlatest := documented_latest (p := p) hs hhas
  rw [accumulated_of_points hpoints]
  split_ifs with hfew
  · trivial
  · exact hlatest

/-- A count that has been reached is the count of a channel that is there. -/
theorem documented_received (hs : s.Sound) {startCount : ℕ}
    (h : startCount + call.length ≤ s.totalAddedCount call.channelName ∨ s.closed = true) :
    Documented (received p s call startCount) := by
  unfold received
  split_ifs with hfew
  · trivial
  · apply documented_latest hs
    apply hs.counted
    have hlength := call.length_pos
    rcases h with hcount | hclosed
    · omega
    · have := not_lt.mp fun h => hfew ⟨hclosed, h⟩
      omega

/-- The channel is open, and holds too few points. -/
def TooFew (p : Publisher α β τ) (s : ChannelBuffer β τ) (call : Call) : Prop :=
  s.closed = false ∧ ∃ points, s.pointsInBuffer p call.channelName = .ok points ∧
    points < call.length

theorem pointsWait_eq_goesOn_iff {phase : Phase} :
    pointsWait p s call round = .goesOn phase ↔
      ∃ endtime, round = .waits endtime ∧ TooFew p s call ∧ phase = .awaitsPoints endtime := by
  unfold pointsWait TooFew
  cases hpoints : s.pointsInBuffer p call.channelName with
  | error e => simp
  | ok points =>
    dsimp only
    split_ifs with hdone
    · refine iff_of_false nofun ?_
      rintro ⟨-, -, ⟨hopen, _, hsame, hfew⟩, -⟩
      obtain rfl := Except.ok.inj hsame
      rcases hdone with h | h
      · omega
      · rw [hopen] at h
        cases h
    · obtain ⟨hfew, hopen⟩ := not_or.mp hdone
      cases round <;> simp_all [eq_comm (a := phase)]

theorem newWait_eq_goesOn_iff {startCount : ℕ} {left : PyFloat} {phase : Phase} :
    newWait p s call startCount left round = .goesOn phase ↔
      ∃ endtime, round = .waits endtime ∧ s.closed = false ∧
        s.totalAddedCount call.channelName < startCount + call.length ∧
        phase = .awaitsNew startCount left endtime := by
  unfold newWait
  split_ifs with hdone
  · refine iff_of_false nofun ?_
    rintro ⟨-, -, hopen, hfew, -⟩
    rcases hdone with h | h
    · omega
    · rw [hopen] at h
      cases h
  · obtain ⟨hfew, hopen⟩ := not_or.mp hdone
    cases round <;> simp_all [eq_comm (a := phase)]

theorem escapes_pointsWait_iff (hs : s.Sound) :
    (pointsWait p s call round).Escapes ↔
      s.hasChannel call.channelName = false ∨ round = .overflows ∧ TooFew p s call := by
  unfold pointsWait TooFew
  cases hhas : s.hasChannel call.channelName with
  | false =>
    have hnone : s.values call.channelName = none := by
      simpa [ChannelBuffer.hasChannel] using hhas
    unfold ChannelBuffer.pointsInBuffer
    rw [hnone]
    simp [Turn.Escapes, Documented]
  | true =>
    obtain ⟨points, hpoints⟩ := ChannelBuffer.hasChannel_iff (p := p).mp hhas
    have hdocumented := documented_accumulated (p := p) hs hhas
    rw [hpoints]
    dsimp only
    split_ifs with hdone
    · refine iff_of_false (fun h => h hdocumented) ?_
      rintro (h | ⟨-, hopen, _, hsame, hfew⟩)
      · cases h
      · obtain rfl := Except.ok.inj hsame
        rcases hdone with h | h
        · omega
        · rw [hopen] at h
          cases h
    · obtain ⟨hfew, hopen⟩ := not_or.mp hdone
      cases round <;> simp_all [Turn.Escapes, Documented]

theorem escapes_newWait_iff (hs : s.Sound) {startCount : ℕ} {left : PyFloat} :
    (newWait p s call startCount left round).Escapes ↔
      round = .overflows ∧ s.closed = false ∧
        s.totalAddedCount call.channelName < startCount + call.length := by
  unfold newWait
  split_ifs with hdone
  · refine iff_of_false (fun h => h (documented_received hs hdone)) ?_
    rintro ⟨-, hopen, hfew⟩
    rcases hdone with h | h
    · omega
    · rw [hopen] at h
      cases h
  · obtain ⟨hfew, hopen⟩ := not_or.mp hdone
    cases round <;> simp_all [Turn.Escapes, Documented]

variable {startTime now later : PyFloat}

/-- The second wait follows at once, and is to be slept for longer than a lock allows. -/
def SecondOverflows (p : Publisher α β τ) (fl : Rounding) (timeoutMax : PyFloat)
    (s : ChannelBuffer β τ) (call : Call) (startTime now : PyFloat) : Prop :=
  call.waitForNewSamples = false ∧ before (.finite 0) (remaining fl call startTime now) = true ∧
    before timeoutMax (remaining fl call startTime now) = true ∧ TooFew p s call

theorem firstRound_eq_waits {timeout endtime : PyFloat} :
    firstRound fl timeoutMax timeout now = .waits endtime ↔
      before timeoutMax timeout = false ∧ endtime = PyFloat.add fl now timeout := by
  unfold firstRound
  split_ifs with h
  · simp [h]
  · simp [h, eq_comm]

theorem nextRound_eq_waits {endtime endtime' : PyFloat} :
    nextRound fl timeoutMax endtime now = .waits endtime' ↔
      notAfter (PyFloat.sub fl endtime now) (.finite 0) = false ∧
        before timeoutMax (PyFloat.sub fl endtime now) = false ∧ endtime' = endtime := by
  unfold nextRound
  dsimp only
  split_ifs with hover hlong
  · simp [hover]
  · simp [hlong]
  · simp [hover, hlong, eq_comm]

theorem firstRound_eq_overflows {timeout : PyFloat} :
    firstRound fl timeoutMax timeout now = .overflows ↔ before timeoutMax timeout = true := by
  unfold firstRound
  split_ifs with h
  · exact iff_of_true rfl h
  · exact iff_of_false nofun h

theorem nextRound_eq_overflows {endtime : PyFloat} :
    nextRound fl timeoutMax endtime now = .overflows ↔
      notAfter (PyFloat.sub fl endtime now) (.finite 0) = false ∧
        before timeoutMax (PyFloat.sub fl endtime now) = true := by
  unfold nextRound
  dsimp only
  split_ifs with hover hlong
  · simp [hover]
  · simp [hover, hlong]
  · simp [hlong]

theorem escapes_channelFound_iff (hs : s.Sound)
    (hfound : s.hasChannel call.channelName = true ∨ s.closed = true) :
    (channelFound p fl timeoutMax s call startTime now later).Escapes ↔
      SecondOverflows p fl timeoutMax s call startTime now := by
  unfold channelFound SecondOverflows
  dsimp only
  split_ifs with hclosed hmode hleft
  · refine iff_of_false (fun h => h trivial) ?_
    rintro ⟨-, -, -, hopen, -⟩
    rw [hclosed] at hopen
    cases hopen
  · refine iff_of_false id ?_
    rintro ⟨hbuffer, -⟩
    rw [hmode] at hbuffer
    cases hbuffer
  · have hhas : s.hasChannel call.channelName = true := hfound.resolve_right hclosed
    rw [escapes_pointsWait_iff hs, firstRound_eq_overflows, hhas]
    simp [hleft, hmode]
  · have hhas : s.hasChannel call.channelName = true := hfound.resolve_right hclosed
    refine iff_of_false (fun h => h (documented_accumulated hs hhas)) ?_
    rintro ⟨-, h, -⟩
    exact hleft h

theorem escapes_channelWait_iff (hs : s.Sound) :
    (channelWait p fl timeoutMax s call startTime round now later).Escapes ↔
      (round = .overflows ∧ s.hasChannel call.channelName = false ∧ s.closed = false) ∨
        SecondOverflows p fl timeoutMax s call startTime now := by
  unfold channelWait
  split_ifs with hfound
  · rw [escapes_channelFound_iff hs hfound]
    refine (or_iff_right ?_).symm
    rintro ⟨-, hnone, hopen⟩
    rw [hnone, hopen] at hfound
    simp at hfound
  · obtain ⟨hnone, hopen⟩ := not_or.mp hfound
    have hno : ¬SecondOverflows p fl timeoutMax s call startTime now := by
      rintro ⟨-, -, -, -, points, hpoints, -⟩
      exact hnone (ChannelBuffer.hasChannel_iff.mpr ⟨points, hpoints⟩)
    rw [or_iff_left hno]
    cases round <;> simp_all [Turn.Escapes, Documented]

/-- The second wait follows at once, and is to be slept for until the phase says. -/
def SecondSleeps (p : Publisher α β τ) (fl : Rounding) (timeoutMax : PyFloat)
    (s : ChannelBuffer β τ) (call : Call) (startTime now later : PyFloat) (phase : Phase) : Prop :=
  call.waitForNewSamples = false ∧ before (.finite 0) (remaining fl call startTime now) = true ∧
    before timeoutMax (remaining fl call startTime now) = false ∧ TooFew p s call ∧
    phase = .awaitsPoints (PyFloat.add fl later (remaining fl call startTime now))

theorem channelFound_eq_goesOn_iff {phase : Phase} :
    channelFound p fl timeoutMax s call startTime now later = .goesOn phase ↔
      (s.closed = false ∧ call.waitForNewSamples = true ∧
        phase = .appeared (remaining fl call startTime now)) ∨
        SecondSleeps p fl timeoutMax s call startTime now later phase := by
  unfold channelFound SecondSleeps
  dsimp only
  split_ifs with hclosed hmode hleft
  · simp [hclosed, TooFew]
  · simp [hclosed, hmode, eq_comm (a := phase)]
  · rw [pointsWait_eq_goesOn_iff]
    simp only [firstRound_eq_waits, hmode, hleft, hclosed]
    constructor
    · rintro ⟨endtime, ⟨hlong, rfl⟩, hfew, rfl⟩
      exact .inr ⟨trivial, trivial, hlong, hfew, rfl⟩
    · rintro (⟨-, h, -⟩ | ⟨-, -, hlong, hfew, rfl⟩)
      · cases h
      · exact ⟨_, ⟨hlong, rfl⟩, hfew, rfl⟩
  · simp [hmode, hleft]

theorem channelWait_eq_goesOn_iff {phase : Phase} :
    channelWait p fl timeoutMax s call startTime round now later = .goesOn phase ↔
      (∃ endtime, round = .waits endtime ∧ s.hasChannel call.channelName = false ∧
        s.closed = false ∧ phase = .awaitsChannel endtime) ∨
      (s.hasChannel call.channelName = true ∧ s.closed = false ∧ call.waitForNewSamples = true ∧
        phase = .appeared (remaining fl call startTime now)) ∨
      SecondSleeps p fl timeoutMax s call startTime now later phase := by
  unfold channelWait
  split_ifs with hfound
  · rw [channelFound_eq_goesOn_iff]
    have hhas : s.closed = false → s.hasChannel call.channelName = true :=
      fun hopen => hfound.resolve_right (by simp [hopen])
    constructor
    · rintro (⟨hopen, hmode, hphase⟩ | hsecond)
      · exact .inr (.inl ⟨hhas hopen, hopen, hmode, hphase⟩)
      · exact .inr (.inr hsecond)
    · rintro (⟨-, -, hnone, hopen, -⟩ | ⟨-, hopen, hmode, hphase⟩ | hsecond)
      · rw [hhas hopen] at hnone
        cases hnone
      · exact .inl ⟨hopen, hmode, hphase⟩
      · exact .inr hsecond
  · obtain ⟨hnone, hopen⟩ := not_or.mp hfound
    have hno : ¬SecondSleeps p fl timeoutMax s call startTime now later phase := by
      rintro ⟨-, -, -, ⟨-, points, hpoints, -⟩, -⟩
      exact hnone (ChannelBuffer.hasChannel_iff.mpr ⟨points, hpoints⟩)
    rw [or_iff_left hno]
    cases round <;> simp_all [eq_comm (a := phase)]

end Turns

/-! ## Going to sleep -/

/-- A getter that has the monitor goes to sleep, for the time given and in the phase given: what it
waits for is not there, and its time is not up. -/
inductive Sleeps (p : Publisher α β τ) (fl : Rounding) (s : ChannelBuffer β τ) (getter : Getter)
    (now later : PyFloat) : PyFloat → Phase → Prop
  | channel
      (hphase : getter.phase = .called ∧ getter.call.waitForNewSamples = false ∨
        getter.phase = .missing)
      (hnone : s.hasChannel getter.call.channelName = false) (hopen : s.closed = false) :
    Sleeps p fl s getter now later getter.call.timeout
      (.awaitsChannel (PyFloat.add fl now getter.call.timeout))
  | channelAgain (endtime : PyFloat) (hphase : getter.phase = .awaitsChannel endtime)
      (hnone : s.hasChannel getter.call.channelName = false) (hopen : s.closed = false)
      (hleft : notAfter (PyFloat.sub fl endtime now) (.finite 0) = false) :
    Sleeps p fl s getter now later (PyFloat.sub fl endtime now) (.awaitsChannel endtime)
  | points
      (hphase : getter.phase = .called ∨ getter.phase = .missing ∨
        ∃ endtime, getter.phase = .awaitsChannel endtime)
      (hmode : getter.call.waitForNewSamples = false) (hfew : TooFew p s getter.call)
      (hleft : before (.finite 0) (remaining fl getter.call getter.startTime now) = true) :
    Sleeps p fl s getter now later (remaining fl getter.call getter.startTime now)
      (.awaitsPoints (PyFloat.add fl later (remaining fl getter.call getter.startTime now)))
  | pointsAgain (endtime : PyFloat) (hphase : getter.phase = .awaitsPoints endtime)
      (hfew : TooFew p s getter.call)
      (hleft : notAfter (PyFloat.sub fl endtime now) (.finite 0) = false) :
    Sleeps p fl s getter now later (PyFloat.sub fl endtime now) (.awaitsPoints endtime)
  | new (remaining : PyFloat) (hphase : getter.phase = .appeared remaining)
      (hopen : s.closed = false) :
    Sleeps p fl s getter now later remaining
      (.awaitsNew (s.totalAddedCount getter.call.channelName) remaining
        (PyFloat.add fl now remaining))
  | newAgain (startCount : ℕ) (remaining endtime : PyFloat)
      (hphase : getter.phase = .awaitsNew startCount remaining endtime) (hopen : s.closed = false)
      (hfew : s.totalAddedCount getter.call.channelName < startCount + getter.call.length)
      (hleft : notAfter (PyFloat.sub fl endtime now) (.finite 0) = false) :
    Sleeps p fl s getter now later (PyFloat.sub fl endtime now)
      (.awaitsNew startCount remaining endtime)

/-- A getter that was counting the points of its channel has lost the channel. -/
def Stranded (s : ChannelBuffer β τ) (getter : Getter) : Prop :=
  ∃ endtime, getter.phase = .awaitsPoints endtime ∧
    s.hasChannel getter.call.channelName = false

/-- The time the wait of a `get` is to end at. -/
def Phase.endtime : Phase → Option PyFloat
  | .awaitsChannel endtime => some endtime
  | .awaitsPoints endtime => some endtime
  | .awaitsNew _ _ endtime => some endtime
  | _ => none

/-- A clock will show the time. No clock comes to a nan, or to infinity. -/
def Comes (endtime : PyFloat) : Prop := ∃ time : ℚ, notAfter endtime (.finite time) = true

/-- A getter that has the monitor has not lost its channel, and does not sleep for too long, nor
until a time that never comes. -/
def Bearable (p : Publisher α β τ) (fl : Rounding) (timeoutMax : PyFloat) (s : ChannelBuffer β τ)
    (getter : Getter) (now later : PyFloat) : Prop :=
  ¬Stranded s getter ∧ ∀ waittime phase, Sleeps p fl s getter now later waittime phase →
    before timeoutMax waittime = false ∧ ∀ endtime ∈ phase.endtime, Comes endtime

/-! ## Going on in time -/

/-- How far a `get` has come. -/
def Phase.stage : Phase → ℕ
  | .called => 0
  | .missing => 1
  | .awaitsChannel _ => 2
  | .appeared _ => 3
  | .awaitsPoints _ => 4
  | .awaitsNew _ _ _ => 4

/-- The time of the wait a `get` is in is up. -/
def Overdue (fl : Rounding) (getter : Getter) (now : PyFloat) : Prop :=
  ∃ endtime ∈ getter.phase.endtime, notAfter (PyFloat.sub fl endtime now) (.finite 0) = true

/-- A `get` enters a wait for no longer than is left of its timeout. -/
def Getter.Enters (fl : Rounding) (getter : Getter) (now later : PyFloat) : Phase → Prop
  | .awaitsChannel endtime => endtime = PyFloat.add fl now getter.call.timeout
  | .appeared left => left = remaining fl getter.call getter.startTime now
  | .awaitsPoints endtime =>
    endtime = PyFloat.add fl later (remaining fl getter.call getter.startTime now)
  | .awaitsNew _ left endtime =>
    getter.phase = .appeared left ∧ endtime = PyFloat.add fl now left
  | .called => False
  | .missing => True

/-- A `get` that has not ended has come further, or is back in a wait whose time is not up. It waits
for a time that comes. -/
structure GoesOn (fl : Rounding) (getter : Getter) (now later : PyFloat) (phase : Phase) : Prop where
  advances : getter.phase.stage < phase.stage ∧ getter.Enters fl now later phase ∨
    phase = getter.phase ∧ ¬Overdue fl getter now
  comes : ∀ endtime ∈ phase.endtime, Comes endtime

/-- The outcome is documented, or the `get` goes on in time. -/
def Turn.Proper (fl : Rounding) (getter : Getter) (now later : PyFloat) : Turn α → Prop
  | .ends result => Documented result
  | .goesOn phase => GoesOn fl getter now later phase

section Turns

variable {s : ChannelBuffer β τ} {getter : Getter} {now later : PyFloat}

/-- An exception escapes only a getter that is stranded or sleeps for too long. -/
theorem stranded_or_sleeps_of_escapes (hs : s.Sound)
    (h : (turn p fl timeoutMax s getter now later).Escapes) :
    Stranded s getter ∨ ∃ waittime phase, Sleeps p fl s getter now later waittime phase ∧
      before timeoutMax waittime = true := by
  -- the second wait may follow at once in each of the first three phases
  have hsecond : (getter.phase = .called ∨ getter.phase = .missing ∨
      ∃ endtime, getter.phase = .awaitsChannel endtime) →
        SecondOverflows p fl timeoutMax s getter.call getter.startTime now →
        ∃ waittime phase, Sleeps p fl s getter now later waittime phase ∧
          before timeoutMax waittime = true := by
    rintro hphase ⟨hmode, hleft, hlong, hfew⟩
    exact ⟨_, _, .points hphase hmode hfew hleft, hlong⟩
  obtain ⟨call, startTime, phase⟩ := getter
  cases phase with
  | called =>
    unfold turn at h
    dsimp only at h
    split_ifs at h with hmode hhas
    · exact h.elim
    · exact h.elim
    · rcases (escapes_channelWait_iff hs).mp h with ⟨hround, hnone, hopen⟩ | hover
      · exact .inr ⟨_, _, .channel (.inl ⟨rfl, by simpa using hmode⟩) hnone hopen,
          firstRound_eq_overflows.mp hround⟩
      · exact .inr (hsecond (.inl rfl) hover)
  | missing =>
    rcases (escapes_channelWait_iff hs).mp h with ⟨hround, hnone, hopen⟩ | hover
    · exact .inr ⟨_, _, .channel (.inr rfl) hnone hopen, firstRound_eq_overflows.mp hround⟩
    · exact .inr (hsecond (.inr (.inl rfl)) hover)
  | awaitsChannel endtime =>
    rcases (escapes_channelWait_iff hs).mp h with ⟨hround, hnone, hopen⟩ | hover
    · obtain ⟨hleft, hlong⟩ := nextRound_eq_overflows.mp hround
      exact .inr ⟨_, _, .channelAgain endtime rfl hnone hopen hleft, hlong⟩
    · exact .inr (hsecond (.inr (.inr ⟨endtime, rfl⟩)) hover)
  | awaitsPoints endtime =>
    rcases (escapes_pointsWait_iff hs).mp h with hnone | ⟨hround, hfew⟩
    · exact .inl ⟨endtime, rfl, hnone⟩
    · obtain ⟨hleft, hlong⟩ := nextRound_eq_overflows.mp hround
      exact .inr ⟨_, _, .pointsAgain endtime rfl hfew hleft, hlong⟩
  | appeared left =>
    obtain ⟨hround, hopen, -⟩ := (escapes_newWait_iff hs).mp h
    exact .inr ⟨_, _, .new left rfl hopen, firstRound_eq_overflows.mp hround⟩
  | awaitsNew startCount left endtime =>
    obtain ⟨hround, hopen, hfew⟩ := (escapes_newWait_iff hs).mp h
    obtain ⟨hleft, hlong⟩ := nextRound_eq_overflows.mp hround
    exact .inr ⟨_, _, .newAgain startCount left endtime rfl hopen hfew hleft, hlong⟩

theorem escapes_of_stranded (hs : s.Sound) (h : Stranded s getter) :
    (turn p fl timeoutMax s getter now later).Escapes := by
  obtain ⟨call, startTime, phase⟩ := getter
  obtain ⟨endtime, hphase, hnone⟩ := h
  obtain rfl : phase = .awaitsPoints endtime := hphase
  exact (escapes_pointsWait_iff hs).mpr (.inl hnone)

/-- A turn of a getter that waits for its channel, in one of the first three phases. -/
theorem turn_eq_channelWait (hphase : getter.phase = .called ∨ getter.phase = .missing ∨
      ∃ endtime, getter.phase = .awaitsChannel endtime)
    (hmode : getter.phase = .called → getter.call.waitForNewSamples = false) :
    ∃ round, turn p fl timeoutMax s getter now later =
      channelWait p fl timeoutMax s getter.call getter.startTime round now later := by
  obtain ⟨call, startTime, phase⟩ := getter
  rcases hphase with hcalled | hmissing | ⟨endtime, hawaits⟩
  · obtain rfl : phase = .called := hcalled
    refine ⟨firstRound fl timeoutMax call.timeout now, ?_⟩
    unfold turn
    dsimp only
    rw [if_neg (by simpa using hmode rfl)]
  · obtain rfl : phase = .missing := hmissing
    exact ⟨_, rfl⟩
  · obtain rfl : phase = .awaitsChannel endtime := hawaits
    exact ⟨_, rfl⟩

theorem turn_eq_firstWait (hphase : getter.phase = .called ∧ getter.call.waitForNewSamples = false ∨
      getter.phase = .missing) :
    turn p fl timeoutMax s getter now later =
      channelWait p fl timeoutMax s getter.call getter.startTime
        (firstRound fl timeoutMax getter.call.timeout now) now later := by
  obtain ⟨call, startTime, phase⟩ := getter
  rcases hphase with ⟨hcalled, hmode⟩ | hmissing
  · obtain rfl : phase = .called := hcalled
    unfold turn
    dsimp only
    rw [if_neg (by simpa using hmode)]
  · obtain rfl : phase = .missing := hmissing
    rfl

theorem escapes_of_sleeps (hs : s.Sound) {waittime : PyFloat} {phase : Phase}
    (hsleep : Sleeps p fl s getter now later waittime phase)
    (hlong : before timeoutMax waittime = true) :
    (turn p fl timeoutMax s getter now later).Escapes := by
  cases hsleep with
  | channel hphase hnone hopen =>
    rw [turn_eq_firstWait hphase]
    exact (escapes_channelWait_iff hs).mpr
      (.inl ⟨firstRound_eq_overflows.mpr hlong, hnone, hopen⟩)
  | points hphase hmode hfew hleft =>
    obtain ⟨round, hturn⟩ := turn_eq_channelWait (p := p) (s := s) hphase fun _ => hmode
    rw [hturn]
    exact (escapes_channelWait_iff hs).mpr (.inr ⟨hmode, hleft, hlong, hfew⟩)
  | channelAgain endtime hphase hnone hopen hleft =>
    obtain ⟨call, startTime, phase⟩ := getter
    obtain rfl : phase = .awaitsChannel endtime := hphase
    exact (escapes_channelWait_iff hs).mpr
      (.inl ⟨nextRound_eq_overflows.mpr ⟨hleft, hlong⟩, hnone, hopen⟩)
  | pointsAgain endtime hphase hfew hleft =>
    obtain ⟨call, startTime, phase⟩ := getter
    obtain rfl : phase = .awaitsPoints endtime := hphase
    exact (escapes_pointsWait_iff hs).mpr
      (.inr ⟨nextRound_eq_overflows.mpr ⟨hleft, hlong⟩, hfew⟩)
  | new left hphase hopen =>
    obtain ⟨call, startTime, phase⟩ := getter
    obtain rfl : phase = .appeared waittime := hphase
    refine (escapes_newWait_iff hs).mpr ⟨firstRound_eq_overflows.mpr hlong, hopen, ?_⟩
    exact Nat.lt_add_of_pos_right call.length_pos
  | newAgain startCount left endtime hphase hopen hfew hleft =>
    obtain ⟨call, startTime, phase⟩ := getter
    obtain rfl : phase = .awaitsNew startCount left endtime := hphase
    exact (escapes_newWait_iff hs).mpr
      ⟨nextRound_eq_overflows.mpr ⟨hleft, hlong⟩, hopen, hfew⟩

/-- A getter that sleeps for no longer than a lock allows does go to sleep. -/
theorem turn_of_sleeps {waittime : PyFloat} {phase : Phase}
    (hsleep : Sleeps p fl s getter now later waittime phase)
    (hshort : before timeoutMax waittime = false) :
    turn p fl timeoutMax s getter now later = .goesOn phase := by
  cases hsleep with
  | channel hphase hnone hopen =>
    rw [turn_eq_firstWait hphase]
    exact channelWait_eq_goesOn_iff.mpr
      (.inl ⟨_, firstRound_eq_waits.mpr ⟨hshort, rfl⟩, hnone, hopen, rfl⟩)
  | points hphase hmode hfew hleft =>
    obtain ⟨round, hturn⟩ := turn_eq_channelWait (p := p) (s := s) hphase fun _ => hmode
    rw [hturn]
    exact channelWait_eq_goesOn_iff.mpr (.inr (.inr ⟨hmode, hleft, hshort, hfew, rfl⟩))
  | channelAgain endtime hphase hnone hopen hleft =>
    obtain ⟨call, startTime, phase⟩ := getter
    obtain rfl : phase = .awaitsChannel endtime := hphase
    exact channelWait_eq_goesOn_iff.mpr
      (.inl ⟨endtime, nextRound_eq_waits.mpr ⟨hleft, hshort, rfl⟩, hnone, hopen, rfl⟩)
  | pointsAgain endtime hphase hfew hleft =>
    obtain ⟨call, startTime, phase⟩ := getter
    obtain rfl : phase = .awaitsPoints endtime := hphase
    exact pointsWait_eq_goesOn_iff.mpr
      ⟨endtime, nextRound_eq_waits.mpr ⟨hleft, hshort, rfl⟩, hfew, rfl⟩
  | new left hphase hopen =>
    obtain ⟨call, startTime, phase⟩ := getter
    obtain rfl : phase = .appeared waittime := hphase
    refine newWait_eq_goesOn_iff.mpr
      ⟨_, firstRound_eq_waits.mpr ⟨hshort, rfl⟩, hopen, ?_, rfl⟩
    exact Nat.lt_add_of_pos_right call.length_pos
  | newAgain startCount left endtime hphase hopen hfew hleft =>
    obtain ⟨call, startTime, phase⟩ := getter
    obtain rfl : phase = .awaitsNew startCount left endtime := hphase
    exact newWait_eq_goesOn_iff.mpr
      ⟨endtime, nextRound_eq_waits.mpr ⟨hleft, hshort, rfl⟩, hopen, hfew, rfl⟩

/-- A call that finds its channel sleeps until there are samples, or goes on to the wait for new ones. -/
theorem sleeps_or_enters_of_found {phase : Phase}
    (hphase : getter.phase = .called ∨ getter.phase = .missing ∨
      ∃ endtime, getter.phase = .awaitsChannel endtime)
    (h : (s.hasChannel getter.call.channelName = true ∧ s.closed = false ∧
        getter.call.waitForNewSamples = true ∧
        phase = .appeared (remaining fl getter.call getter.startTime now)) ∨
      SecondSleeps p fl timeoutMax s getter.call getter.startTime now later phase) :
    (∃ waittime, Sleeps p fl s getter now later waittime phase) ∨
      phase.endtime = none ∧ getter.phase.stage < phase.stage ∧
        getter.Enters fl now later phase := by
  rcases h with ⟨-, -, -, rfl⟩ | ⟨hmode, hleft, -, hfew, rfl⟩
  · refine .inr ⟨rfl, ?_, rfl⟩
    rcases hphase with h | h | ⟨endtime, h⟩ <;> rw [h] <;> simp [Phase.stage]
  · exact .inl ⟨_, .points hphase hmode hfew hleft⟩

/-- A turn that does not end the `get` puts it to sleep, or the `get` has come further and does not
wait. -/
theorem sleeps_or_enters_of_turn {phase : Phase}
    (h : turn p fl timeoutMax s getter now later = .goesOn phase) :
    (∃ waittime, Sleeps p fl s getter now later waittime phase) ∨
      phase.endtime = none ∧ getter.phase.stage < phase.stage ∧
        getter.Enters fl now later phase := by
  obtain ⟨call, startTime, current⟩ := getter
  cases current with
  | called =>
    unfold turn at h
    dsimp only at h
    split_ifs at h with hmode hhas
    · cases h
      exact .inr ⟨rfl, by simp [Phase.stage], rfl⟩
    · cases h
      exact .inr ⟨rfl, by simp [Phase.stage], trivial⟩
    · rcases channelWait_eq_goesOn_iff.mp h with ⟨endtime, hround, hnone, hopen, rfl⟩ | hfound
      · obtain ⟨-, rfl⟩ := firstRound_eq_waits.mp hround
        exact .inl ⟨_, .channel (.inl ⟨rfl, by simpa using hmode⟩) hnone hopen⟩
      · exact sleeps_or_enters_of_found (.inl rfl) hfound
  | missing =>
    rcases channelWait_eq_goesOn_iff.mp h with ⟨endtime, hround, hnone, hopen, rfl⟩ | hfound
    · obtain ⟨-, rfl⟩ := firstRound_eq_waits.mp hround
      exact .inl ⟨_, .channel (.inr rfl) hnone hopen⟩
    · exact sleeps_or_enters_of_found (.inr (.inl rfl)) hfound
  | awaitsChannel endtime =>
    rcases channelWait_eq_goesOn_iff.mp h with ⟨endtime', hround, hnone, hopen, rfl⟩ | hfound
    · obtain ⟨hleft, -, rfl⟩ := nextRound_eq_waits.mp hround
      exact .inl ⟨_, .channelAgain endtime' rfl hnone hopen hleft⟩
    · exact sleeps_or_enters_of_found (.inr (.inr ⟨endtime, rfl⟩)) hfound
  | awaitsPoints endtime =>
    obtain ⟨endtime', hround, hfew, rfl⟩ := pointsWait_eq_goesOn_iff.mp h
    obtain ⟨hleft, -, rfl⟩ := nextRound_eq_waits.mp hround
    exact .inl ⟨_, .pointsAgain endtime' rfl hfew hleft⟩
  | appeared left =>
    obtain ⟨endtime, hround, hopen, -, rfl⟩ := newWait_eq_goesOn_iff.mp h
    obtain ⟨-, rfl⟩ := firstRound_eq_waits.mp hround
    exact .inl ⟨_, .new left rfl hopen⟩
  | awaitsNew startCount left endtime =>
    obtain ⟨endtime', hround, hopen, hfew, rfl⟩ := newWait_eq_goesOn_iff.mp h
    obtain ⟨hleft, -, rfl⟩ := nextRound_eq_waits.mp hround
    exact .inl ⟨_, .newAgain startCount left endtime' rfl hopen hfew hleft⟩

/-- Whoever goes to sleep has come further, or its time is not up. -/
theorem advances_of_sleeps {waittime : PyFloat} {phase : Phase}
    (hsleep : Sleeps p fl s getter now later waittime phase) :
    getter.phase.stage < phase.stage ∧ getter.Enters fl now later phase ∨
      phase = getter.phase ∧ ¬Overdue fl getter now := by
  have hback : ∀ {endtime}, getter.phase.endtime = some endtime →
      notAfter (PyFloat.sub fl endtime now) (.finite 0) = false → ¬Overdue fl getter now := by
    rintro endtime hend hleft ⟨endtime', hend', hover⟩
    obtain rfl := Option.some.inj (hend.symm.trans hend')
    rw [hleft] at hover
    cases hover
  cases hsleep with
  | channel hphase hnone hopen =>
    refine .inl ⟨?_, rfl⟩
    rcases hphase with ⟨h, -⟩ | h <;> rw [h] <;> simp [Phase.stage]
  | points hphase hmode hfew hleft =>
    refine .inl ⟨?_, rfl⟩
    rcases hphase with h | h | ⟨endtime, h⟩ <;> rw [h] <;> simp [Phase.stage]
  | new left hphase hopen =>
    refine .inl ⟨?_, hphase, rfl⟩
    rw [hphase]
    simp [Phase.stage]
  | channelAgain endtime hphase hnone hopen hleft =>
    exact .inr ⟨hphase.symm, hback (by rw [hphase]; rfl) hleft⟩
  | pointsAgain endtime hphase hfew hleft =>
    exact .inr ⟨hphase.symm, hback (by rw [hphase]; rfl) hleft⟩
  | newAgain startCount left endtime hphase hopen hfew hleft =>
    exact .inr ⟨hphase.symm, hback (by rw [hphase]; rfl) hleft⟩

/-- **What a getter that has the monitor must find for its turn to be a proper one.** -/
theorem proper_turn_iff (hs : s.Sound) :
    (turn p fl timeoutMax s getter now later).Proper fl getter now later ↔
      Bearable p fl timeoutMax s getter now later := by
  constructor
  · intro h
    have hno : ¬(turn p fl timeoutMax s getter now later).Escapes := by
      intro hescapes
      cases hturn : turn p fl timeoutMax s getter now later with
      | goesOn phase => rwa [hturn] at hescapes
      | ends result =>
        rw [hturn] at h hescapes
        exact hescapes h
    refine ⟨fun hstranded => hno (escapes_of_stranded hs hstranded), ?_⟩
    intro waittime phase hsleep
    have hshort : before timeoutMax waittime = false := by
      rw [← Bool.not_eq_true]
      exact fun hlong => hno (escapes_of_sleeps hs hsleep hlong)
    rw [turn_of_sleeps hsleep hshort] at h
    exact ⟨hshort, h.comes⟩
  · rintro ⟨hstranded, hsleeps⟩
    cases hturn : turn p fl timeoutMax s getter now later with
    | ends result =>
      refine Classical.byContradiction fun hnot => ?_
      have hescapes : (turn p fl timeoutMax s getter now later).Escapes := by
        rw [hturn]
        exact hnot
      rcases stranded_or_sleeps_of_escapes hs hescapes with h | ⟨waittime, phase, hsleep, hlong⟩
      · exact hstranded h
      · rw [(hsleeps waittime phase hsleep).1] at hlong
        cases hlong
    | goesOn phase =>
      rcases sleeps_or_enters_of_turn hturn with ⟨waittime, hsleep⟩ | ⟨hnone, hfurther⟩
      · exact ⟨advances_of_sleeps hsleep, (hsleeps waittime phase hsleep).2⟩
      · refine ⟨.inl hfurther, ?_⟩
        intro endtime hend
        rw [hnone] at hend
        cases hend

end Turns

/-! ## Runs -/

/-- A thread that takes the monitor back in a `get` can bear what it finds. -/
def Clean (p : Publisher α β τ) (fl : Rounding) (timeoutMax : PyFloat) (s : System β τ) :
    Event α → Prop
  | .runs thread now later => ∀ getter, s.getters thread = some getter →
    Bearable p fl timeoutMax s.buffer getter now later
  | _ => True

/-- What a `get` comes to is documented. -/
def Action.Documented : Action α → Prop
  | .got _ _ result => Publishers.Documented result
  | .published _ => True

/-- A thread that has the monitor in a `get`, and is in one still after its turn, goes on in time. -/
def InTime (p : Publisher α β τ) (fl : Rounding) (timeoutMax : PyFloat) (s : System β τ) :
    Event α → Prop
  | .runs thread now later => ∀ getter, s.getters thread = some getter → ∀ phase,
    turn p fl timeoutMax s.buffer getter now later = .goesOn phase →
      GoesOn fl getter now later phase
  | _ => True

theorem sound_step {s s' : System β τ} {event : Event α} (hs : s.buffer.Sound)
    (h : ((monitor p fl timeoutMax).step s event).2 = some s') : s'.buffer.Sound := by
  obtain ⟨actions, -, hmoves⟩ := moves_of_step h
  cases hmoves with
  | publish => exact hs.publishChannels _ _
  | close => exact ChannelBuffer.sound_close s.buffer
  | get => exact hs
  | goesOn => exact hs
  | ends => exact hs

/-- A step shows nothing but documented outcomes, and goes on in time, exactly when it is clean. -/
theorem documented_step_iff {s : System β τ} {event : Event α} (hs : s.buffer.Sound) :
    (∀ action ∈ ((monitor p fl timeoutMax).step s event).1, action.Documented) ∧
      InTime p fl timeoutMax s event ↔ Clean p fl timeoutMax s event := by
  cases event with
  | publish data => exact iff_of_true ⟨by simp [monitor, step, Action.Documented], trivial⟩ trivial
  | close => exact iff_of_true ⟨by simp [monitor, step], trivial⟩ trivial
  | get thread call now =>
    refine iff_of_true ⟨?_, trivial⟩ trivial
    unfold monitor step System.get
    dsimp only
    cases s.getters thread with
    | some getter => simp
    | none => simp
  | runs thread now later =>
    unfold monitor step System.runs Clean InTime
    dsimp only
    cases hgetter : s.getters thread with
    | none => simp
    | some getter =>
      have hproper := @proper_turn_iff α β τ p fl timeoutMax s.buffer getter now later hs
      dsimp only
      cases hturn : turn p fl timeoutMax s.buffer getter now later with
      | goesOn phase =>
        rw [hturn] at hproper
        simpa [Turn.Proper, hturn] using hproper
      | ends result =>
        rw [hturn] at hproper
        simpa [Turn.Proper, Action.Documented, hturn] using hproper

/-- **Every `get` of a run that ends returns or raises one of its three errors, and every other one
goes on in time, exactly in the clean runs.** -/
theorem gets_documented_iff (p : Publisher α β τ) (fl : Rounding) (timeoutMax : PyFloat)
    (maxlen : ℤ) (run : List (Event α)) :
    ((∀ thread call result, .got thread call result ∈
        (monitor p fl timeoutMax).actions (.initial maxlen) run → Documented result) ∧
      (monitor p fl timeoutMax).Along (InTime p fl timeoutMax) (.initial maxlen) run) ↔
      (monitor p fl timeoutMax).Along (Clean p fl timeoutMax) (.initial maxlen) run := by
  have hactions : (∀ thread call result, Action.got thread call result ∈
        (monitor p fl timeoutMax).actions (.initial maxlen) run → Documented result) ↔
      (monitor p fl timeoutMax).Along
        (fun s event => ∀ action ∈ ((monitor p fl timeoutMax).step s event).1, action.Documented)
        (.initial maxlen) run := by
    rw [← EventLoop.forall_actions_iff]
    constructor
    · intro h action haction
      cases action with
      | published result => trivial
      | got thread call result => exact h thread call result haction
    · intro h thread call result hgot
      exact h _ hgot
  rw [hactions, ← EventLoop.along_and]
  apply EventLoop.along_congr (I := fun s => s.buffer.Sound)
  · exact ChannelBuffer.sound_empty maxlen
  · intro s event s' hs hstep
    exact sound_step hs hstep
  · intro s event hs
    exact documented_step_iff hs

/-- Two samples of a channel that has one. -/
def twoSamples : Call := ⟨"c", 2, false, .finite 10, by decide⟩

/-- The publisher is closed while a thread waits for the second sample. -/
def closedWhileWaiting : List (Event ℕ) :=
  [.publish ⟨[("c", [7])], [0]⟩, .get 0 twoSamples (.finite 0),
    .runs 0 (.finite 0) (.finite 0), .close, .runs 0 (.finite 1) (.finite 1)]

/-- The `KeyError` of the predicate ends the `get`. -/
theorem key_error_escapes :
    (monitor .dequeInMemory exact (.finite 1000000)).actions (.initial 10) closedWhileWaiting =
        [.published (.ok ()), .got 0 twoSamples (.error (.python .keyError))] ∧
      ¬Documented (α := ℕ) (.error (.python .keyError)) := by
  refine ⟨?_, id⟩
  decide +kernel

end Instro.Publishers
