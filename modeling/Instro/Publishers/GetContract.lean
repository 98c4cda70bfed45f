import Instro.Publishers.History

/-!
# What a `get` returns

A `get` is to return as many samples as it is asked for, the latest of its channel, and when it waits
for new samples, only such as came while it waited. It reads the buffers too soon in two cases: it finds
its channel when its time is up and takes what there is, and it gets more new samples than the buffers
keep. Otherwise what it returns is what it was asked for.
-/

namespace Instro.Publishers

open Instro.Library

variable {α β τ : Type} {p : Publisher α β τ} {kept : α → α} {maxlen : ℕ} {fl : Rounding}
  {timeoutMax : PyFloat}

/-! ## Turns that return -/

/-- The call has not come beyond the wait for its channel. -/
def Phase.SeeksChannel : Phase → Prop
  | .called => True
  | .missing => True
  | .awaitsChannel _ => True
  | _ => False

section Turns

variable {s : ChannelBuffer β τ} {call : Call} {startTime now later : PyFloat} {phase : Phase}
  {data : Measurement α}

/-- The samples a call returns are the latest in the buffers. -/
def Returns (p : Publisher α β τ) (s : ChannelBuffer β τ) (call : Call) (data : Measurement α) :
    Prop :=
  s.latest p call.channelName call.length = .ok data

theorem escapes_eq_ok {γ : Type} {x : Except PyException γ} {y : γ} : escapes x = .ok y ↔ x = .ok y := by
  cases x with
  | error e => exact ⟨nofun, nofun⟩
  | ok z => exact ⟨fun h => congrArg _ (Except.ok.inj h), fun h => congrArg _ (Except.ok.inj h)⟩

theorem returns_of_accumulated (h : accumulated p s call = .ok data) :
    Returns p s call data ∧ ∀ points, s.pointsInBuffer p call.channelName = .ok points →
      s.closed = true → call.length ≤ points := by
  cases hpoints : s.pointsInBuffer p call.channelName with
  | error e =>
    have hlatest : s.latest p call.channelName call.length = .error e := by
      unfold ChannelBuffer.latest
      rw [hpoints]
      rfl
    unfold accumulated at h
    rw [hpoints, hlatest] at h
    split_ifs at h
    · cases h
    · cases h
  | ok points =>
    rw [accumulated_of_points hpoints] at h
    split_ifs at h with hfew
    refine ⟨escapes_eq_ok.mp h, ?_⟩
    intro points' hsame hclosed
    obtain rfl := Except.ok.inj hsame
    exact not_lt.mp fun h => hfew ⟨hclosed, h⟩

theorem returns_of_pointsWait {round : Round} (h : pointsWait p s call round = .ends (.ok data)) :
    Returns p s call data ∧
      ∃ points, s.pointsInBuffer p call.channelName = .ok points ∧ call.length ≤ points := by
  unfold pointsWait at h
  cases hpoints : s.pointsInBuffer p call.channelName with
  | error e =>
    rw [hpoints] at h
    cases h
  | ok points =>
    rw [hpoints] at h
    dsimp only at h
    split_ifs at h with hready
    · obtain ⟨hreturns, hclosed⟩ := returns_of_accumulated (Turn.ends.inj h)
      exact ⟨hreturns, points, rfl, hready.elim id (hclosed points hpoints)⟩
    · cases round <;> cases h

/-- A call that finds its channel returns when its time is up, or when there are points enough. -/
theorem returns_of_channelWait {round : Round}
    (h : channelWait p fl timeoutMax s call startTime round now later = .ends (.ok data)) :
    call.waitForNewSamples = false ∧ Returns p s call data ∧
      (s.closed = false ∧ before (.finite 0) (remaining fl call startTime now) = false ∨
        ∃ points, s.pointsInBuffer p call.channelName = .ok points ∧ call.length ≤ points) := by
  unfold channelWait channelFound at h
  dsimp only at h
  split_ifs at h with hfound hclosed hwait htime
  · cases h
  · obtain ⟨hreturns, hpoints⟩ := returns_of_pointsWait h
    exact ⟨Bool.eq_false_of_not_eq_true hwait, hreturns, .inr hpoints⟩
  · obtain ⟨hreturns, -⟩ := returns_of_accumulated (Turn.ends.inj h)
    exact ⟨Bool.eq_false_of_not_eq_true hwait, hreturns,
      .inl ⟨Bool.eq_false_of_not_eq_true hclosed, Bool.eq_false_of_not_eq_true htime⟩⟩
  · cases round <;> cases h

theorem returns_of_newWait {startCount : ℕ} {left : PyFloat} {round : Round}
    (h : newWait p s call startCount left round = .ends (.ok data)) :
    Returns p s call data ∧
      startCount + call.length ≤ s.totalAddedCount call.channelName := by
  unfold newWait received at h
  split_ifs at h with hready hfew
  · cases h
  · refine ⟨escapes_eq_ok.mp (Turn.ends.inj h), ?_⟩
    rcases hready with hready | hclosed
    · exact hready
    · exact not_lt.mp fun h => hfew ⟨hclosed, h⟩
  · cases round <;> cases h

/-- When a call returns samples. -/
inductive Ready (p : Publisher α β τ) (fl : Rounding) (s : ChannelBuffer β τ) (now : PyFloat)
    (getter : Getter) : Prop
  /-- It finds its channel, and its time is up. -/
  | late (hwait : getter.call.waitForNewSamples = false) (hseeks : getter.phase.SeeksChannel)
      (hclosed : s.closed = false)
      (htime : before (.finite 0) (remaining fl getter.call getter.startTime now) = false)
  /-- There are points enough. -/
  | filled {points : ℕ}
      (hwait : getter.call.waitForNewSamples = false ∨ ∃ endtime, getter.phase = .awaitsPoints endtime)
      (hpoints : s.pointsInBuffer p getter.call.channelName = .ok points)
      (hlength : getter.call.length ≤ points)
  /-- Samples enough are new. -/
  | renewed {startCount : ℕ} {left endtime : PyFloat}
      (hphase : getter.phase = .awaitsNew startCount left endtime)
      (hcount : startCount + getter.call.length ≤ s.totalAddedCount getter.call.channelName)

theorem ready_of_turn {getter : Getter}
    (h : turn p fl timeoutMax s getter now later = .ends (.ok data)) :
    Returns p s getter.call data ∧ Ready p fl s now getter := by
  obtain ⟨call, startTime, phase⟩ := getter
  have hseeks : ∀ {round}, phase.SeeksChannel →
      channelWait p fl timeoutMax s call startTime round now later = .ends (.ok data) →
      Returns p s call data ∧ Ready p fl s now ⟨call, startTime, phase⟩ := by
    intro round hphase h
    obtain ⟨hwait, hreturns, ⟨hclosed, htime⟩ | ⟨points, hpoints, hlength⟩⟩ :=
      returns_of_channelWait h
    · exact ⟨hreturns, .late hwait hphase hclosed htime⟩
    · exact ⟨hreturns, .filled (.inl hwait) hpoints hlength⟩
  unfold turn at h
  cases phase with
  | called =>
    dsimp only at h
    split_ifs at h
    exact hseeks trivial h
  | missing => exact hseeks trivial h
  | awaitsChannel endtime => exact hseeks trivial h
  | appeared left =>
    obtain ⟨-, hcount⟩ := returns_of_newWait h
    have hlength := call.length_pos
    dsimp only at hcount
    omega
  | awaitsPoints endtime =>
    obtain ⟨hreturns, points, hpoints, hlength⟩ := returns_of_pointsWait h
    exact ⟨hreturns, .filled (.inr ⟨endtime, rfl⟩) hpoints hlength⟩
  | awaitsNew startCount left endtime =>
    obtain ⟨hreturns, hcount⟩ := returns_of_newWait h
    exact ⟨hreturns, .renewed rfl hcount⟩

/-- A call whose time is up takes what there is. -/
theorem turn_late {getter : Getter} {points : ℕ} (hwait : getter.call.waitForNewSamples = false)
    (hseeks : getter.phase.SeeksChannel) (hclosed : s.closed = false)
    (htime : before (.finite 0) (remaining fl getter.call getter.startTime now) = false)
    (hpoints : s.pointsInBuffer p getter.call.channelName = .ok points) :
    turn p fl timeoutMax s getter now later =
      .ends (escapes (s.latest p getter.call.channelName getter.call.length)) := by
  obtain ⟨call, startTime, phase⟩ := getter
  have hfound : s.hasChannel call.channelName = true := by
    unfold ChannelBuffer.pointsInBuffer at hpoints
    unfold ChannelBuffer.hasChannel
    split at hpoints
    · cases hpoints
    · rename_i buffer hbuffer
      rw [hbuffer]
      rfl
  have htakes : ∀ round, channelWait p fl timeoutMax s call startTime round now later =
      .ends (escapes (s.latest p call.channelName call.length)) := by
    intro round
    unfold channelWait channelFound
    dsimp only
    rw [if_pos (.inl hfound), hclosed, if_neg Bool.false_ne_true, hwait,
      if_neg Bool.false_ne_true, htime, if_neg Bool.false_ne_true, accumulated_of_points hpoints,
      hclosed, if_neg fun h => Bool.false_ne_true h.1]
  unfold turn
  cases phase with
  | called =>
    dsimp only
    rw [hwait, if_neg Bool.false_ne_true]
    exact htakes _
  | missing => exact htakes _
  | awaitsChannel endtime => exact htakes _
  | appeared left => exact hseeks.elim
  | awaitsPoints endtime => exact hseeks.elim
  | awaitsNew startCount left endtime => exact hseeks.elim

theorem turn_renewed {getter : Getter} {startCount : ℕ} {left endtime : PyFloat}
    (hphase : getter.phase = .awaitsNew startCount left endtime)
    (hcount : startCount + getter.call.length ≤ s.totalAddedCount getter.call.channelName) :
    turn p fl timeoutMax s getter now later =
      .ends (escapes (s.latest p getter.call.channelName getter.call.length)) := by
  unfold turn newWait received
  rw [hphase]
  dsimp only
  rw [if_pos (.inl hcount), if_neg fun h => absurd h.2 (not_lt.mpr hcount)]

end Turns

/-! ## The contract -/

/-- What a `get` returns is what it was asked for: as many samples, the latest published of the channel,
and when it waits for new ones, out of those published since it began to wait. -/
def Action.Honoured (p : Publisher α β τ) (kept : α → α) (fl : Rounding) (timeoutMax : PyFloat)
    (maxlen : ℕ) (history : List (Event α)) : Action α → Prop
  | .got thread call (.ok data) =>
    let latest := (samples kept call.channelName history).rtake call.length
    latest.length = call.length ∧
      data = ⟨[(call.channelName, latest.map Prod.fst)], latest.map Prod.snd⟩ ∧
      (call.waitForNewSamples = true → ∃ since,
        WaitsSince p fl timeoutMax maxlen history thread call since ∧
          latest <:+ samples kept call.channelName since)
  | _ => True

/-- A `get` reads the buffers too soon. -/
inductive FallsShort (p : Publisher α β τ) (fl : Rounding) (s : System β τ) : Event α → Prop
  /-- It finds its channel when its time is up, and there are too few points. -/
  | late {thread now later getter points} (hgetter : s.getters thread = some getter)
      (hwait : getter.call.waitForNewSamples = false) (hseeks : getter.phase.SeeksChannel)
      (hclosed : s.buffer.closed = false)
      (htime : before (.finite 0) (remaining fl getter.call getter.startTime now) = false)
      (hpoints : s.buffer.pointsInBuffer p getter.call.channelName = .ok points)
      (hfew : points < getter.call.length) : FallsShort p fl s (.runs thread now later)
  /-- It gets its new samples, more than the buffers keep. -/
  | long {thread now later getter startCount left endtime} (hgetter : s.getters thread = some getter)
      (hphase : getter.phase = .awaitsNew startCount left endtime)
      (hcount : startCount + getter.call.length ≤
        s.buffer.totalAddedCount getter.call.channelName)
      (hlong : s.buffer.maxlen < getter.call.length) : FallsShort p fl s (.runs thread now later)

/-- What a call returns of a record. -/
theorem ChannelBuffer.Represents.returns {s : ChannelBuffer β τ} {ledger : Ledger α} {call : Call}
    {data : Measurement α} (hmaxlen : 1 ≤ maxlen) (h : s.Represents p maxlen ledger)
    (hreturns : Returns p s call data) :
    ∃ record, ledger call.channelName = some record ∧
      data = record.latest maxlen call.channelName call.length := by
  unfold Returns at hreturns
  rw [h.latest_eq hmaxlen] at hreturns
  cases hrecord : ledger call.channelName with
  | none =>
    rw [hrecord] at hreturns
    cases hreturns
  | some record =>
    rw [hrecord] at hreturns
    exact ⟨record, rfl, (Except.ok.inj hreturns).symm⟩

/-- The end of a suffix that is long enough is the end of the list. -/
theorem rtake_of_suffix {γ : Type} {xs ys : List γ} (h : xs <:+ ys) {n : ℕ} (hn : n ≤ xs.length) :
    ys.rtake n = xs.rtake n := by
  obtain ⟨earlier, rfl⟩ := h
  exact rtake_append_of_le_length hn

/-- A call that falls short returns what there is, which is less than it was asked for. -/
theorem FallsShort.returns {s : System β τ} {event : Event α} {ledger : Ledger α} (hmaxlen : 1 ≤ maxlen)
    (hledger : s.buffer.Represents p maxlen ledger) (h : FallsShort p fl s event) :
    ∃ thread call, ∃ record : Record α, min maxlen record.values.length < call.length ∧
      .got thread call (.ok (record.latest maxlen call.channelName call.length)) ∈
        ((monitor p fl timeoutMax).step s event).1 := by
  have hturn : ∃ thread now later getter, ∃ record : Record α, event = .runs thread now later ∧
      s.getters thread = some getter ∧ ledger getter.call.channelName = some record ∧
      min maxlen record.values.length < getter.call.length ∧
      turn p fl timeoutMax s.buffer getter now later =
        .ends (escapes (s.buffer.latest p getter.call.channelName getter.call.length)) := by
    cases h with
    | @late thread now later getter points hgetter hwait hseeks hclosed htime hpoints hfew =>
      have hturn := @turn_late _ _ _ p fl timeoutMax _ _ later _ _ hwait hseeks hclosed htime hpoints
      rw [hledger.pointsInBuffer_eq hmaxlen] at hpoints
      cases hrecord : ledger getter.call.channelName with
      | none =>
        rw [hrecord] at hpoints
        cases hpoints
      | some record =>
        rw [hrecord] at hpoints
        obtain rfl := Except.ok.inj hpoints
        exact ⟨thread, now, later, getter, record, rfl, hgetter, hrecord, hfew, hturn⟩
    | @long thread now later getter startCount left endtime hgetter hphase hcount hlong =>
      have hturn := @turn_renewed _ _ _ p fl timeoutMax _ now later _ _ _ _ hphase hcount
      have hpos := getter.call.length_pos
      rw [hledger.maxlen_eq] at hlong
      rw [hledger.count_eq] at hcount
      unfold Ledger.record at hcount
      cases hrecord : ledger getter.call.channelName with
      | none =>
        rw [hrecord] at hcount
        have hnone : startCount + getter.call.length ≤ 0 := hcount
        omega
      | some record =>
        exact ⟨thread, now, later, getter, record, rfl, hgetter, hrecord, by omega, hturn⟩
  obtain ⟨thread, now, later, getter, record, rfl, hgetter, hrecord, hfew, hturn⟩ := hturn
  refine ⟨thread, getter.call, record, hfew, ?_⟩
  rw [hledger.latest_eq hmaxlen, hrecord] at hturn
  unfold monitor step System.runs
  dsimp only
  rw [hgetter]
  dsimp only
  rw [hturn]
  exact List.mem_singleton_self _

/-- The samples since then are the end of all samples. -/
theorem WaitsSince.samples {history since : List (Event α)} {thread : ℕ} {call : Call}
    (h : WaitsSince p fl timeoutMax maxlen history thread call since) :
    Publishers.samples kept call.channelName since <:+
      Publishers.samples kept call.channelName history := by
  obtain ⟨earlier, now, later, -, -, -, rfl, -⟩ := h
  unfold Publishers.samples
  rw [List.flatMap_append, List.flatMap_cons]
  exact (List.suffix_append _ _).trans (List.suffix_append _ _)

/-- The latest samples of a record are what is asked for, if it and the buffers have enough. -/
theorem honoured_latest {history : List (Event α)} {record : Record α} {thread : ℕ} {call : Call}
    (heven : record.Even) (hsamples : record.samples <:+ samples kept call.channelName history)
    (hmaxlen : call.length ≤ maxlen) (hlength : call.length ≤ record.values.length)
    (hwait : call.waitForNewSamples = true → ∃ since,
      WaitsSince p fl timeoutMax maxlen history thread call since ∧
        (samples kept call.channelName history).rtake call.length <:+
          samples kept call.channelName since) :
    (Action.got thread call (.ok (record.latest maxlen call.channelName call.length))).Honoured
      p kept fl timeoutMax maxlen history := by
  have hlatest := rtake_of_suffix hsamples (heven.length_samples.symm ▸ hlength)
  refine ⟨?_, ?_, hwait⟩
  · rw [hlatest, length_rtake, heven.length_samples, min_eq_left hlength]
  · rw [hlatest]
    exact heven.latest maxlen call.channelName hmaxlen hlength

/-- A step returns what is asked for exactly when it does not fall short. -/
theorem honoured_step_iff (hmaxlen : 1 ≤ maxlen) {history : List (Event α)} {s : System β τ}
    (h : Tracks p kept fl timeoutMax maxlen history s) (event : Event α) :
    (∀ action ∈ ((monitor p fl timeoutMax).step s event).1,
        action.Honoured p kept fl timeoutMax maxlen history) ↔ ¬FallsShort p fl s event := by
  obtain ⟨ledger, hledger, hrecords⟩ := h.ledger
  constructor
  · intro hall hshort
    obtain ⟨thread, call, record, hfew, hgot⟩ := hshort.returns hmaxlen hledger
    obtain ⟨hlength, hdata, -⟩ := hall _ hgot
    have hvalues : record.values.rtake _ = _ :=
      congrArg Prod.snd (List.head_eq_of_cons_eq (congrArg Measurement.channelData hdata))
    have hvalues := congrArg List.length hvalues
    rw [List.length_map, hlength, length_rtake] at hvalues
    omega
  · intro hnot action haction
    obtain ⟨actions, s', haction, hmoves⟩ := moves_of_mem haction
    cases hmoves with
    | publish =>
      obtain rfl := List.mem_singleton.mp haction
      trivial
    | close => cases haction
    | get => cases haction
    | goesOn => cases haction
    | @ends thread now later getter result hgetter hturn =>
      obtain rfl := List.mem_singleton.mp haction
      cases result with
      | error e => trivial
      | ok data =>
        obtain ⟨hreturns, hready⟩ := ready_of_turn hturn
        obtain ⟨record, hrecord, rfl⟩ := hledger.returns hmaxlen hreturns
        have hpoints := hledger.pointsInBuffer_eq hmaxlen getter.call.channelName
        have hcount := hledger.count_eq getter.call.channelName
        have hknown := hrecords getter.call.channelName
        unfold Ledger.record at hcount hknown
        rw [hrecord] at hpoints hcount hknown
        obtain ⟨heven, hsamples⟩ := hknown
        cases hready with
        | late hwait hseeks hclosed htime =>
          have henough : getter.call.length ≤ min maxlen record.values.length :=
            not_lt.mp fun hfew => hnot (.late hgetter hwait hseeks hclosed htime hpoints hfew)
          refine honoured_latest heven hsamples (by omega) (by omega) fun h => ?_
          exact absurd (hwait.symm.trans h) Bool.false_ne_true
        | filled hwait hsame hlength =>
          obtain rfl := Except.ok.inj (hpoints.symm.trans hsame)
          have hwait : getter.call.waitForNewSamples = false := by
            obtain ⟨call, startTime, phase⟩ := getter
            rcases hwait with hwait | ⟨endtime, hphase⟩
            · exact hwait
            · obtain rfl : phase = _ := hphase
              exact h.points hgetter
          refine honoured_latest heven hsamples (by omega) (by omega) fun h => ?_
          exact absurd (hwait.symm.trans h) Bool.false_ne_true
        | @renewed startCount left endtime hphase hnew =>
          have hfits : ¬s.buffer.maxlen < getter.call.length :=
            fun hlong => hnot (.long hgetter hphase hnew hlong)
          rw [hledger.maxlen_eq] at hfits
          have hlength : getter.call.length ≤ record.values.length := by
            have hlast : s.buffer.totalAddedCount getter.call.channelName = record.values.length :=
              hcount
            omega
          refine honoured_latest heven hsamples (by omega) hlength fun _ => ?_
          obtain ⟨call, startTime, phase⟩ := getter
          obtain rfl : phase = _ := hphase
          obtain ⟨since, hsince, hbound⟩ := h.waits hgetter
          have hmany : call.length ≤ (samples kept call.channelName since).length :=
            Nat.le_of_add_le_add_left (hnew.trans hbound)
          refine ⟨since, hsince, ?_⟩
          rw [rtake_of_suffix hsince.samples hmany]
          exact List.drop_suffix _ _

/-- **What `get` returns.** Along every run, each call that returns gets exactly the samples it asked
for, if and only if no call falls short. -/
theorem gets_honoured_iff (p : Publisher α β τ) (kept : α → α) (fl : Rounding) (timeoutMax : PyFloat)
    {maxlen : ℕ} (hmaxlen : 1 ≤ maxlen) {run : List (Event α)}
    (hrun : ∀ event ∈ run, event.Regular p kept) :
    (∀ history event s, history ++ [event] <+: run →
        (monitor p fl timeoutMax).stateAfter (.initial maxlen) history = some s →
        ∀ action ∈ ((monitor p fl timeoutMax).step s event).1,
          action.Honoured p kept fl timeoutMax maxlen history) ↔
      (monitor p fl timeoutMax).Along (fun s event => ¬FallsShort p fl s event)
        (.initial maxlen) run := by
  have htracks : ∀ history s, history <+: run →
      (monitor p fl timeoutMax).stateAfter (.initial maxlen) history = some s →
      Tracks p kept fl timeoutMax maxlen history s := by
    intro history
    induction history using List.reverseRecOn with
    | nil =>
      intro s _ hs
      obtain rfl := Option.some.inj hs
      exact tracks_initial
    | append_singleton history event ih =>
      intro s hhistory hs
      obtain ⟨s₁, hs₁, hstep⟩ := (EventLoop.stateAfter_append_singleton _).mp hs
      have hbefore := ih s₁ ((List.prefix_append _ _).trans hhistory) hs₁
      have hevent : event ∈ run := hhistory.subset (List.mem_append_right _ List.mem_cons_self)
      exact hbefore.step hmaxlen hs₁ (hrun event hevent) hstep
  apply forall_congr'
  intro history
  apply forall_congr'
  intro event
  apply forall_congr'
  intro s
  constructor
  · intro h hhistory hs
    have hbefore := htracks history s ((List.prefix_append _ _).trans hhistory) hs
    exact (honoured_step_iff hmaxlen hbefore event).mp (h hhistory hs)
  · intro h hhistory hs
    have hbefore := htracks history s ((List.prefix_append _ _).trans hhistory) hs
    exact (honoured_step_iff hmaxlen hbefore event).mpr (h hhistory hs)

theorem one_le_two_samples : 1 ≤ 2 := by decide

/-- Two samples of a channel, and a second to wait for them. -/
def twoInTime : Call := ⟨"c", 2, false, .finite 1, one_le_two_samples⟩

/-- The second one comes while the call waits. -/
def askedInTime : List (Event ℕ) :=
  [.publish ⟨[("c", [7])], [0]⟩, .get 0 twoInTime (.finite 0), .runs 0 (.finite 0) (.finite 0),
    .publish ⟨[("c", [8])], [1]⟩, .runs 0 (.finite (1 / 2)) (.finite (1 / 2))]

/-- Two samples of a channel, and no time to wait for them. -/
def twoAtOnce : Call := ⟨"c", 2, false, .finite 0, one_le_two_samples⟩

/-- They are asked for when there is one. -/
def askedTooSoon : List (Event ℕ) :=
  [.publish ⟨[("c", [7])], [0]⟩, .get 0 twoAtOnce (.finite 0), .runs 0 (.finite 0) (.finite 0)]

theorem regular_publish_one (value : ℕ) (timestamp : ℤ) :
    (Event.publish ⟨[("c", [value])], [timestamp]⟩).Regular
      (.dequeInMemory : Publisher ℕ _ _) id := by
  refine ⟨⟨fun _ _ _ _ => rfl, fun _ _ => rfl⟩, ?_⟩
  intro channel hchannel
  obtain rfl := List.mem_singleton.mp hchannel
  rfl

theorem askedTooSoon_regular :
    ∀ event ∈ askedTooSoon, event.Regular (.dequeInMemory : Publisher ℕ _ _) id := by
  intro event hevent
  unfold askedTooSoon at hevent
  simp only [List.mem_cons, List.not_mem_nil, or_false] at hevent
  rcases hevent with rfl | rfl | rfl
  · exact regular_publish_one 7 0
  · trivial
  · trivial

theorem askedInTime_regular :
    ∀ event ∈ askedInTime, event.Regular (.dequeInMemory : Publisher ℕ _ _) id := by
  intro event hevent
  unfold askedInTime at hevent
  simp only [List.mem_cons, List.not_mem_nil, or_false] at hevent
  rcases hevent with rfl | rfl | rfl | rfl | rfl
  · exact regular_publish_one 7 0
  · trivial
  · trivial
  · exact regular_publish_one 8 1
  · trivial

theorem askedInTime_along :
    (monitor .dequeInMemory exact (.finite 1000000)).Along
      (fun s event => ¬FallsShort .dequeInMemory exact s event) (.initial (10 : ℕ)) askedInTime := by
  refine EventLoop.along_cons _ |>.mpr ⟨nofun, fun s hs => ?_⟩
  obtain rfl := Option.some.inj hs
  refine EventLoop.along_cons _ |>.mpr ⟨nofun, fun s hs => ?_⟩
  obtain rfl := Option.some.inj hs
  refine EventLoop.along_cons _ |>.mpr ⟨?_, fun s hs => ?_⟩
  · rintro (⟨⟨⟩, -, -, -, htime, -, -⟩ | ⟨⟨⟩, ⟨⟩, -, -⟩)
    exact absurd htime (by decide +kernel)
  obtain rfl := Option.some.inj hs
  refine EventLoop.along_cons _ |>.mpr ⟨nofun, fun s hs => ?_⟩
  obtain rfl := Option.some.inj hs
  refine EventLoop.along_cons _ |>.mpr ⟨?_, fun s _ => EventLoop.along_nil _ _ _⟩
  rintro (⟨⟨⟩, -, -, -, htime, -, -⟩ | ⟨⟨⟩, ⟨⟩, -, -⟩)
  exact absurd htime (by decide +kernel)

/-- The call that waits returns both samples, and they are what it asked for. -/
theorem gets_honoured_iff_askedInTime :
    ∃ s, (monitor .dequeInMemory exact (.finite 1000000)).stateAfter (.initial (10 : ℕ))
        (askedInTime.take 4) = some s ∧
      .got 0 twoInTime (.ok ⟨[("c", [7, 8])], [0, 1]⟩) ∈
        ((monitor .dequeInMemory exact (.finite 1000000)).step s
          (.runs 0 (.finite (1 / 2)) (.finite (1 / 2)))).1 ∧
      (Action.got 0 twoInTime (.ok ⟨[("c", [7, 8])], [0, 1]⟩)).Honoured .dequeInMemory id exact
        (.finite 1000000) 10 (askedInTime.take 4) := by
  have hhonoured := (gets_honoured_iff .dequeInMemory id exact (.finite 1000000) (by decide)
    askedInTime_regular).mpr askedInTime_along
  refine ⟨_, rfl, by decide +kernel, ?_⟩
  exact hhonoured (askedInTime.take 4) (.runs 0 (.finite (1 / 2)) (.finite (1 / 2))) _ List.prefix_rfl
    rfl _ (by decide +kernel)

/-- The call that has no time returns one sample of two. -/
theorem returned_short :
    (∀ event ∈ askedTooSoon, event.Regular (.dequeInMemory : Publisher ℕ _ _) id) ∧
    ∃ s, (monitor .dequeInMemory exact (.finite 1000000)).stateAfter (.initial (10 : ℕ))
        (askedTooSoon.take 2) = some s ∧
      .got 0 twoAtOnce (.ok ⟨[("c", [7])], [0]⟩) ∈
        ((monitor .dequeInMemory exact (.finite 1000000)).step s (.runs 0 (.finite 0) (.finite 0))).1 ∧
      ¬(Action.got 0 twoAtOnce (.ok ⟨[("c", [7])], [0]⟩)).Honoured .dequeInMemory id exact
        (.finite 1000000) 10 (askedTooSoon.take 2) :=
  ⟨askedTooSoon_regular, _, rfl, by decide +kernel, fun hhonoured => absurd hhonoured.1 (by decide)⟩

end Instro.Publishers
