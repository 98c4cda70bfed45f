import Instro.Publishers.Contents
import Instro.Publishers.GetOutcomes

/-!
# The newest value of a channel

`get_single_channel_value` asks `get_channel` for one sample and no time to wait. `get_channel` puts
the name of the instrument before the name of the channel, the measurement it returns has the channel
under the full name, and `get_single_channel_value` looks it up as its caller spelled it. Whatever it
does not find is no value.
-/

namespace Instro.Publishers

open Instro.Library

variable {α τ : Type}

/-! ## The instrument -/

/-- `channel_name.startswith(f"{self.name}.")` -/
def hasPrefix (name channelName : String) : Bool :=
  (name ++ ".").toList.isPrefixOf channelName.toList

/-- The name `get_channel` looks for. -/
def fullName (name channelName : String) : String :=
  if hasPrefix name channelName then channelName else name ++ "." ++ channelName

/-- What `get_channel` raises. -/
inductive ChannelError
  /-- `RuntimeError`, "No channel buffer exists. Ensure start() was called on this instrument." -/
  | noChannelBuffer
  | get (e : GetError)
  deriving DecidableEq

/-- `except RuntimeError`. The timeouts of a channel are `TimeoutError`s. -/
def ChannelError.isRuntimeError : ChannelError → Bool
  | noChannelBuffer => true
  | get (.python .runtimeError) => true
  | get (.python .notImplementedError) => true
  | get _ => false

/-- `get_channel` of an instrument whose daemon is alive or not, when the `get` of its channel buffer
comes to `result`. -/
def getChannel (alive : Bool) (result : Except GetError (Measurement α)) :
    Except ChannelError (Measurement α) :=
  if alive then result.mapError .get else .error .noChannelBuffer

/-- The `get` of `get_single_channel_value`. -/
def singleCall (name channelName : String) : Call where
  channelName := fullName name channelName
  length := 1
  waitForNewSamples := false
  timeout := .finite 0
  length_pos := le_rfl

/-- What `get_single_channel_value` makes of what `get_channel` comes to. -/
def getSingleChannelValue (channelName : String) (cached : Except ChannelError (Measurement α)) :
    Except ChannelError (Option α) :=
  match cached with
  | .error e => if e.isRuntimeError then .error e else .ok none
  | .ok cachedMeasurement =>
    match cachedMeasurement.channelData.lookup channelName with
    | none => .ok none
    | some values => .ok values[0]?

/-- The newest sample of a channel in the buffers. -/
def ChannelBuffer.newest (s : ChannelBuffer (Deque α) τ) (channelName : String) : Option α :=
  (s.values channelName).bind fun buffer => buffer.items.getLast?

/-- A name that has the prefix is the full name, and no other. -/
theorem eq_fullName_iff {name channelName : String} :
    channelName = fullName name channelName ↔ hasPrefix name channelName = true := by
  unfold fullName
  split_ifs with h
  · exact iff_of_true rfl h
  · refine iff_of_false (fun heq => ?_) h
    have hlength := congrArg String.length heq
    rw [String.length_append, String.length_append] at hlength
    have hdot : (".").length = 1 := rfl
    omega

/-! ## What a turn comes to -/

section Turns

variable {s : ChannelBuffer (Deque α) (Deque ℤ)} {name channelName : String}

/-- What the caller gets for a result of the channel buffer. -/
def answer (channelName : String) (result : Except GetError (Measurement α)) :
    Except ChannelError (Option α) :=
  getSingleChannelValue channelName (getChannel true result)

/-- The answer of a call that comes to read the buffers. -/
def found (s : ChannelBuffer (Deque α) (Deque ℤ)) (name channelName : String) : Option α :=
  if hasPrefix name channelName then s.newest (fullName name channelName) else none

/-- Where no sample is buffered, there is none to be found. -/
theorem found_eq_none (h : s.newest (fullName name channelName) = none) :
    found s name channelName = none := by
  unfold found
  rw [h, ite_self]

theorem newest_eq_none_of_points {points : ℕ}
    (hpoints : s.pointsInBuffer .dequeInMemory (fullName name channelName) = .ok points)
    (hfew : points < 1) : s.newest (fullName name channelName) = none := by
  unfold ChannelBuffer.pointsInBuffer at hpoints
  unfold ChannelBuffer.newest
  cases hbuffer : s.values (fullName name channelName) with
  | none => rfl
  | some buffer =>
    rw [hbuffer] at hpoints
    have hlength : buffer.items.length = points := Except.ok.inj hpoints
    have hempty : buffer.items = [] := List.eq_nil_of_length_eq_zero (by omega)
    show buffer.items.getLast? = none
    rw [hempty]
    rfl

theorem newest_eq_none_of_not_hasChannel (h : s.hasChannel (fullName name channelName) = false) :
    s.newest (fullName name channelName) = none := by
  unfold ChannelBuffer.hasChannel at h
  unfold ChannelBuffer.newest
  rw [Option.isSome_eq_false_iff.mp h |> Option.isNone_iff_eq_none.mp]
  rfl

theorem head_rtake_one (items : List α) : (items.rtake (min 1 items.length))[0]? = items.getLast? := by
  unfold List.rtake
  rw [List.getElem?_drop, List.getLast?_eq_getElem?]
  congr 1
  omega

/-- The measurement has the channel under the full name. -/
theorem answer_ok (values : List α) (timestamps : List ℤ) :
    answer channelName (.ok ⟨[(fullName name channelName, values)], timestamps⟩) =
      .ok (if hasPrefix name channelName then values[0]? else none) := by
  unfold answer getChannel getSingleChannelValue
  rw [if_pos rfl]
  dsimp only [Except.mapError]
  split_ifs with hspelled
  · rw [← eq_fullName_iff.mpr hspelled, List.lookup_cons_self]
  · have hother : (channelName == fullName name channelName) = false :=
      beq_false_of_ne fun h => hspelled (eq_fullName_iff.mp h)
    rw [List.lookup_cons, hother]
    rfl

/-- A call that reads the buffers finds the newest sample, if its caller spelled the full name. -/
theorem answer_latest (hs : s.Sound) :
    answer channelName (escapes (s.latest .dequeInMemory (fullName name channelName) 1)) =
      .ok (found s name channelName) := by
  cases hbuffer : s.values (fullName name channelName) with
  | none =>
    have hnone : s.hasChannel (fullName name channelName) = false := by
      unfold ChannelBuffer.hasChannel
      rw [hbuffer]
      rfl
    rw [found_eq_none (newest_eq_none_of_not_hasChannel hnone)]
    unfold ChannelBuffer.latest ChannelBuffer.pointsInBuffer
    rw [hbuffer]
    rfl
  | some buffer =>
    have hhas : (s.values (fullName name channelName)).isSome = true := by rw [hbuffer]; rfl
    obtain ⟨stamps, hstamps⟩ := Option.isSome_iff_exists.mp (hs.timestamps _ hhas)
    have hlatest : s.latest .dequeInMemory (fullName name channelName) 1 =
        .ok ⟨[(fullName name channelName, buffer.getLatest (min 1 buffer.items.length))],
          stamps.getLatest (min 1 buffer.items.length)⟩ := by
      unfold ChannelBuffer.latest ChannelBuffer.pointsInBuffer ChannelBuffer.getValues
        ChannelBuffer.getTimestamps
      rw [hbuffer, hstamps]
      rfl
    have hnewest : s.newest (fullName name channelName) = buffer.items.getLast? := by
      unfold ChannelBuffer.newest
      rw [hbuffer]
      rfl
    rw [hlatest]
    refine (answer_ok _ _).trans ?_
    rw [buffer.getLatest_eq_rtake, head_rtake_one, ← hnewest]
    rfl

theorem answer_accumulated (hs : s.Sound) :
    answer channelName (accumulated .dequeInMemory s (singleCall name channelName)) =
      .ok (found s name channelName) := by
  cases hpoints : s.pointsInBuffer .dequeInMemory (fullName name channelName) with
  | error e =>
    have hnone : s.hasChannel (fullName name channelName) = false := by
      refine Bool.eq_false_of_not_eq_true fun h => ?_
      obtain ⟨points, h⟩ := ChannelBuffer.hasChannel_iff.mp h
      rw [h] at hpoints
      cases hpoints
    have hraises : accumulated .dequeInMemory s (singleCall name channelName) =
        escapes (s.latest .dequeInMemory (fullName name channelName) 1) := by
      unfold accumulated ChannelBuffer.latest
      dsimp only [singleCall]
      rw [hpoints]
      split_ifs with hclosed
      · rfl
      · rfl
    rw [hraises]
    exact answer_latest hs
  | ok points =>
    rw [accumulated_of_points hpoints]
    split_ifs with hfew
    · rw [found_eq_none (newest_eq_none_of_points hpoints hfew.2)]
      rfl
    · exact answer_latest hs

theorem answer_pointsWait (hs : s.Sound) {round : Round}
    {result : Except GetError (Measurement α)}
    (h : pointsWait .dequeInMemory s (singleCall name channelName) round = .ends result) :
    answer channelName result = .ok (found s name channelName) := by
  unfold pointsWait at h
  cases hpoints : s.pointsInBuffer .dequeInMemory (singleCall name channelName).channelName with
  | error e =>
    rw [hpoints] at h
    obtain rfl := Turn.ends.inj h
    unfold ChannelBuffer.pointsInBuffer at hpoints
    split at hpoints
    · rename_i hnone
      obtain rfl := Except.error.inj hpoints
      have hnone : s.values (fullName name channelName) = none := hnone
      have hnewest : s.newest (fullName name channelName) = none := by
        unfold ChannelBuffer.newest
        rw [hnone]
        rfl
      rw [found_eq_none hnewest]
      rfl
    · cases hpoints
  | ok points =>
    rw [hpoints] at h
    dsimp only at h
    split_ifs at h with hready
    · obtain rfl := Turn.ends.inj h
      exact answer_accumulated hs
    · have hfew : points < 1 := not_le.mp fun h => hready (.inl h)
      rw [found_eq_none (newest_eq_none_of_points hpoints hfew)]
      cases round with
      | waits endtime => cases h
      | gaveUp =>
        obtain rfl := Turn.ends.inj h
        rfl
      | overflows =>
        obtain rfl := Turn.ends.inj h
        rfl

variable {fl : Rounding} {timeoutMax startTime now later : PyFloat}

/-- A call that waits for its channel finds no sample after `close()`. -/
theorem answer_channelWait (hs : s.Sound) {round : Round}
    {result : Except GetError (Measurement α)}
    (h : channelWait .dequeInMemory fl timeoutMax s (singleCall name channelName) startTime round now
      later = .ends result) :
    answer channelName result = .ok (if s.closed then none else found s name channelName) := by
  unfold channelWait channelFound at h
  dsimp only at h
  split_ifs at h with hfound hclosed hmode hleft
  · obtain rfl := Turn.ends.inj h
    rw [if_pos hclosed]
    rfl
  · rw [if_neg hclosed]
    exact answer_pointsWait hs h
  · rw [if_neg hclosed]
    obtain rfl := Turn.ends.inj h
    exact answer_accumulated hs
  · obtain ⟨hnone, hopen⟩ := not_or.mp hfound
    have hnewest : s.newest (fullName name channelName) = none :=
      newest_eq_none_of_not_hasChannel (Bool.eq_false_of_not_eq_true hnone)
    rw [if_neg hopen, found_eq_none hnewest]
    cases round with
    | waits endtime => cases h
    | gaveUp =>
      obtain rfl := Turn.ends.inj h
      rfl
    | overflows =>
      obtain rfl := Turn.ends.inj h
      rfl

/-- The call is in the waits of `_get_with_buffer_wait`. -/
def Phase.InBufferWait : Phase → Prop
  | .called => True
  | .awaitsChannel _ => True
  | .awaitsPoints _ => True
  | _ => False

/-- The call is in its second wait. -/
def Phase.AwaitsPoints : Phase → Prop
  | .awaitsPoints _ => True
  | _ => False

instance : DecidablePred Phase.AwaitsPoints := fun phase => by
  unfold Phase.AwaitsPoints
  split
  · exact instDecidableTrue
  · exact instDecidableFalse

theorem answer_turn (hs : s.Sound) {phase : Phase} (hphase : phase.InBufferWait)
    {result : Except GetError (Measurement α)}
    (h : turn .dequeInMemory fl timeoutMax s ⟨singleCall name channelName, startTime, phase⟩ now
      later = .ends result) :
    answer channelName result =
      .ok (if s.closed ∧ ¬phase.AwaitsPoints then none else found s name channelName) := by
  unfold turn at h
  cases phase with
  | called =>
    have hseeks : ¬Phase.called.AwaitsPoints := id
    rw [if_congr (and_iff_left hseeks) rfl rfl]
    exact answer_channelWait hs h
  | awaitsChannel endtime =>
    have hseeks : ¬(Phase.awaitsChannel endtime).AwaitsPoints := id
    rw [if_congr (and_iff_left hseeks) rfl rfl]
    exact answer_channelWait hs h
  | awaitsPoints endtime =>
    rw [if_neg fun h => h.2 trivial]
    exact answer_pointsWait hs h
  | missing => exact hphase.elim
  | appeared left => exact hphase.elim
  | awaitsNew startCount left endtime => exact hphase.elim

/-- The answer is the newest sample exactly when there is none, or it is read, by its full name. -/
theorem answer_eq_newest_iff (hs : s.Sound) {phase : Phase} (hphase : phase.InBufferWait)
    {result : Except GetError (Measurement α)}
    (h : turn .dequeInMemory fl timeoutMax s ⟨singleCall name channelName, startTime, phase⟩ now
      later = .ends result) :
    answer channelName result = .ok (s.newest (fullName name channelName)) ↔
      s.newest (fullName name channelName) = none ∨
        hasPrefix name channelName = true ∧ (s.closed = false ∨ phase.AwaitsPoints) := by
  rw [answer_turn hs hphase h, Except.ok.injEq]
  unfold found
  cases hnewest : s.newest (fullName name channelName) with
  | none => simp
  | some x =>
    cases s.closed
    · simp
    · by_cases hpoints : phase.AwaitsPoints
      · simp [hpoints]
      · simp [hpoints]

end Turns

/-! ## Calls that end -/

section Waits

variable {β : Type} {p : Publisher α β τ} {fl : Rounding} {timeoutMax : PyFloat}
  {s : ChannelBuffer β τ} {call : Call} {startTime now later : PyFloat} {phase : Phase}

theorem goesOn_of_pointsWait {round : Round} (h : pointsWait p s call round = .goesOn phase) :
    ∃ endtime, round = .waits endtime ∧ phase = .awaitsPoints endtime := by
  unfold pointsWait at h
  split at h
  · cases h
  · split_ifs at h
    cases round with
    | waits endtime => exact ⟨endtime, rfl, (Turn.goesOn.inj h).symm⟩
    | gaveUp => cases h
    | overflows => cases h

/-- A call that does not wait for new samples goes on in one of two waits, in the second only if it
has time left. -/
theorem goesOn_of_channelWait (hwait : call.waitForNewSamples = false) {round : Round}
    (h : channelWait p fl timeoutMax s call startTime round now later = .goesOn phase) :
    (∃ endtime, round = .waits endtime ∧ phase = .awaitsChannel endtime) ∨
      before (.finite 0) (remaining fl call startTime now) = true ∧
        ∃ endtime, phase = .awaitsPoints endtime := by
  unfold channelWait channelFound at h
  dsimp only at h
  split_ifs at h with hfound hclosed hmode hleft
  · rw [hwait] at hmode
    cases hmode
  · obtain ⟨endtime, -, hphase⟩ := goesOn_of_pointsWait h
    exact .inr ⟨hleft, endtime, hphase⟩
  · cases round with
    | waits endtime => exact .inl ⟨endtime, rfl, (Turn.goesOn.inj h).symm⟩
    | gaveUp => cases h
    | overflows => cases h

theorem inBufferWait_of_goesOn {getter : Getter} (hwait : getter.call.waitForNewSamples = false)
    (hbefore : getter.phase.InBufferWait)
    (h : turn p fl timeoutMax s getter now later = .goesOn phase) : phase.InBufferWait := by
  have hchannel : ∀ {round}, channelWait p fl timeoutMax s getter.call getter.startTime round now
      later = .goesOn phase → phase.InBufferWait := by
    intro round h
    obtain ⟨endtime, -, rfl⟩ | ⟨-, endtime, rfl⟩ := goesOn_of_channelWait hwait h
    · trivial
    · trivial
  obtain ⟨call, startTime, before⟩ := getter
  unfold turn at h
  cases before with
  | called =>
    dsimp only at h hwait
    rw [hwait, if_neg Bool.false_ne_true] at h
    exact hchannel h
  | awaitsChannel endtime => exact hchannel h
  | awaitsPoints endtime =>
    obtain ⟨endtime, -, rfl⟩ := goesOn_of_pointsWait h
    trivial
  | missing => exact hbefore.elim
  | appeared left => exact hbefore.elim
  | awaitsNew startCount left endtime => exact hbefore.elim

end Waits

/-! ### The clock -/

section Clock

variable {fl : Rounding} {p q : ℚ} {x : PyFloat}

/-- Rounding keeps the order. -/
def RoundsInOrder (fl : Rounding) : Prop := ∀ {p q : ℚ}, p ≤ q → notAfter (fl p) (fl q) = true

theorem round_zero (fl : Rounding) : fl 0 = .finite 0 := fl.round_int 0 (by norm_num)

theorem sub_finite (fl : Rounding) (p q : ℚ) :
    PyFloat.sub fl (.finite p) (.finite q) = fl (p - q) := by
  unfold PyFloat.sub PyFloat.neg
  dsimp only
  split_ifs with hzero
  · rw [hzero, sub_zero]
    rfl
  · rw [sub_eq_add_neg]
    rfl

theorem not_before_of_notAfter {y : PyFloat} (h : notAfter x y = true) : before y x = false := by
  obtain ⟨a, b, ha, hb, hle⟩ := PyFloat.le_iff_place.mp h
  unfold before Number.lt
  simp only [Number.place, ha, hb]
  exact decide_eq_false hle.not_gt

theorem RoundsInOrder.notAfter_zero (hfl : RoundsInOrder fl) (h : q ≤ 0) :
    notAfter (fl q) (.finite 0) = true := by
  rw [← round_zero fl]
  exact hfl h

/-- From nothing one takes what is not negative, and has nothing left. -/
theorem RoundsInOrder.sub_notAfter_zero (hfl : RoundsInOrder fl) (h : notAfter (.finite 0) x = true) :
    notAfter (PyFloat.sub fl (.finite 0) x) (.finite 0) = true := by
  cases x with
  | finite q =>
    rw [sub_finite]
    apply hfl.notAfter_zero
    have hq : (0 : ℚ) ≤ q := by simpa [notAfter, Number.le, Number.place, PyFloat.place] using h
    linarith
  | negZero =>
    show notAfter (fl (0 + 0)) (.finite 0) = true
    exact hfl.notAfter_zero (by norm_num)
  | inf negative =>
    cases negative
    · rfl
    · cases h
  | nan => cases h

/-- A call without time has none left, if the clock does not go back. -/
theorem not_before_remaining (hfl : RoundsInOrder fl) {start now : ℚ} (h : start ≤ now)
    (name channelName : String) :
    before (.finite 0)
      (remaining fl (singleCall name channelName) (.finite start) (.finite now)) = false := by
  apply not_before_of_notAfter
  apply hfl.sub_notAfter_zero
  rw [sub_finite, ← round_zero fl]
  exact hfl (by linarith)

end Clock

/-- A call that has gone on once ends at its next turn, whatever it finds, if the clock does not go
back. -/
theorem singleCall_ends {β : Type} (p : Publisher α β τ) {fl : Rounding} (hfl : RoundsInOrder fl)
    (timeoutMax : PyFloat) (name channelName : String) {start first second : ℚ}
    (hfloat : fl first = .finite first) (hstart : start ≤ first) (hfirst : first ≤ second)
    {s s' : ChannelBuffer β τ} {phase : Phase} {later later' : PyFloat}
    (h : turn p fl timeoutMax s ⟨singleCall name channelName, .finite start, .called⟩
      (.finite first) later = .goesOn phase) :
    ∃ result, turn p fl timeoutMax s' ⟨singleCall name channelName, .finite start, phase⟩
      (.finite second) later' = .ends result := by
  have hleft := not_before_remaining hfl hstart name channelName
  obtain ⟨endtime, hround, rfl⟩ | ⟨htime, -⟩ := goesOn_of_channelWait rfl h
  · obtain rfl : fl first = endtime := by
      unfold firstRound at hround
      split_ifs at hround
      rw [← add_zero first]
      exact Round.waits.inj hround
    cases hturn : turn p fl timeoutMax s' ⟨singleCall name channelName, .finite start,
      .awaitsChannel (fl first)⟩ (.finite second) later' with
    | ends result => exact ⟨result, rfl⟩
    | goesOn phase =>
      have hgaveUp : nextRound fl timeoutMax (fl first) (.finite second) = .gaveUp := by
        unfold nextRound
        dsimp only
        rw [hfloat, sub_finite, if_pos (hfl.notAfter_zero (by linarith))]
      obtain ⟨endtime, hround, -⟩ | ⟨htime, -⟩ := goesOn_of_channelWait rfl hturn
      · rw [hgaveUp] at hround
        cases hround
      · rw [not_before_remaining hfl (hstart.trans hfirst)] at htime
        cases htime
  · rw [hleft] at htime
    cases htime

/-! ## Runs -/

section Runs

variable {fl : Rounding} {timeoutMax : PyFloat} {maxlen : ℤ} {run : List (Event α)}
  {t : System (Deque α) (Deque ℤ)}

/-- The calls that do not wait for new samples. -/
def AwaitBuffer (t : System (Deque α) (Deque ℤ)) : Prop :=
  ∀ thread getter, t.getters thread = some getter → getter.call.waitForNewSamples = false →
    getter.phase.InBufferWait

theorem AwaitBuffer.setGetter (h : AwaitBuffer t) (thread : ℕ) {getter : Option Getter}
    (hgetter : ∀ g, getter = some g → g.call.waitForNewSamples = false → g.phase.InBufferWait) :
    AwaitBuffer (t.setGetter thread getter) := by
  intro thread' g hg hwait
  by_cases hthread : thread' = thread
  · subst hthread
    rw [System.setGetter_self] at hg
    exact hgetter g hg hwait
  · rw [System.setGetter_ne hthread] at hg
    exact h thread' g hg hwait

theorem awaitBuffer_step {t t' : System (Deque α) (Deque ℤ)} {event : Event α} (ht : AwaitBuffer t)
    (h : ((monitor .dequeInMemory fl timeoutMax).step t event).2 = some t') : AwaitBuffer t' := by
  obtain ⟨actions, -, hmoves⟩ := moves_of_step h
  cases hmoves with
  | publish => exact ht
  | close => exact ht
  | get hnone =>
    apply ht.setGetter
    rintro g hg -
    obtain rfl := Option.some.inj hg
    trivial
  | @goesOn thread now later getter phase hgetter hturn =>
    apply ht.setGetter
    intro g hg hwait
    obtain rfl := Option.some.inj hg
    have hwait : getter.call.waitForNewSamples = false := hwait
    exact inBufferWait_of_goesOn hwait (ht thread getter hgetter hwait) hturn
  | ends =>
    apply ht.setGetter
    intro g hg
    cases hg

/-- **When `get_single_channel_value` returns the newest sample**, and that it returns. -/
theorem single_value_iff (name channelName : String)
    (hrun : (monitor .dequeInMemory fl timeoutMax).stateAfter (.initial maxlen) run = some t)
    {thread : ℕ} {getter : Getter} (hgetter : t.getters thread = some getter)
    (hcall : getter.call = singleCall name channelName) (now later : PyFloat) :
    (∀ result, turn .dequeInMemory fl timeoutMax t.buffer getter now later = .ends result →
      (getSingleChannelValue channelName (getChannel true result) =
          .ok (t.buffer.newest (fullName name channelName)) ↔
        t.buffer.newest (fullName name channelName) = none ∨
          hasPrefix name channelName = true ∧
            (t.buffer.closed = false ∨ getter.phase.AwaitsPoints))) ∧
      (∀ phase, turn .dequeInMemory fl timeoutMax t.buffer getter now later = .goesOn phase →
        getter.phase = .called → RoundsInOrder fl →
        ∀ start first second : ℚ, getter.startTime = .finite start → now = .finite first →
          fl first = .finite first → start ≤ first → first ≤ second →
          ∀ (s : ChannelBuffer (Deque α) (Deque ℤ)) later', ∃ result,
            turn .dequeInMemory fl timeoutMax s { getter with phase } (.finite second) later' =
              .ends result) := by
  have hreached : t.buffer.Sound ∧ AwaitBuffer t := by
    refine EventLoop.stateAfter_induction (monitor .dequeInMemory fl timeoutMax)
      (P := fun _ t => t.buffer.Sound ∧ AwaitBuffer t) ?_ ?_ hrun
    · refine ⟨ChannelBuffer.sound_empty maxlen, ?_⟩
      intro thread getter hgetter
      cases hgetter
    · rintro events t event t' ⟨hsound, hawait⟩ hstep
      exact ⟨sound_step hsound hstep, awaitBuffer_step hawait hstep⟩
  obtain ⟨call, startTime, phase⟩ := getter
  obtain rfl : call = singleCall name channelName := hcall
  constructor
  · intro result hturn
    exact answer_eq_newest_iff hreached.1 (hreached.2 _ _ hgetter rfl) hturn
  · rintro phase' hturn hphase hfl start first second hstart hnow hfloat hle hle' s later'
    obtain rfl : phase = .called := hphase
    obtain rfl : startTime = .finite start := hstart
    obtain rfl : now = .finite first := hnow
    exact singleCall_ends .dequeInMemory hfl timeoutMax name channelName hfloat hle hle' hturn

end Runs

/-- One sample of the channel `v`, and a call for it. -/
def oneSample (channelName : String) : List (Event ℕ) :=
  [.publish ⟨[("psu.v", [7])], [0]⟩, .get 0 (singleCall "psu" channelName) (.finite 0)]

def oneCaller (channelName : String) : Getter :=
  ⟨singleCall "psu" channelName, .finite 0, .called⟩

/-- The sample is in the buffers. -/
def oneSampleState (channelName : String) : System (Deque ℕ) (Deque ℤ) :=
  System.setGetter ⟨((ChannelBuffer.empty 10).publish .dequeInMemory ⟨[("psu.v", [7])], [0]⟩).1,
    fun _ => none⟩ 0 (some (oneCaller channelName))

theorem oneSample_reached (channelName : String) :
    (monitor .dequeInMemory exact (.finite 1000000)).stateAfter (.initial 10)
      (oneSample channelName) = some (oneSampleState channelName) := rfl

/-- What `get` returns for it. -/
def theSample : Except GetError (Measurement ℕ) := .ok ⟨[("psu.v", [7])], [0]⟩

theorem single_value_iff_full_name :
    getSingleChannelValue "psu.v" (getChannel true theSample) =
      .ok ((oneSampleState "psu.v").buffer.newest (fullName "psu" "psu.v")) := by
  have hgets := (single_value_iff "psu" "psu.v" (oneSample_reached "psu.v")
    (show (oneSampleState "psu.v").getters 0 = some (oneCaller "psu.v") from rfl) rfl (.finite 0)
    (.finite 0)).1
  exact (hgets theSample rfl).mpr (.inr ⟨by decide +kernel, .inl rfl⟩)

/-- Without the name of the instrument, the call finds the sample and returns `None`. -/
theorem bare_name_reads_nothing :
    turn .dequeInMemory exact (.finite 1000000) (oneSampleState "v").buffer (oneCaller "v") (.finite 0)
        (.finite 0) = .ends theSample ∧
      getSingleChannelValue "v" (getChannel true theSample) = .ok none ∧
      (oneSampleState "v").buffer.newest (fullName "psu" "v") = some 7 :=
  ⟨rfl, by decide +kernel, by decide +kernel⟩

end Instro.Publishers
