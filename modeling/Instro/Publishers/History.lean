import Instro.Publishers.Ledger

/-!
# What has been published of a channel

The samples of a channel in a run are the values published of it, each with its timestamp. The ledger
has the end of them, those since the last `close`. A `get` that waits for new samples knows from the
count how many have come since.
-/

namespace Instro.Publishers

open Instro.Library

variable {α β τ : Type} {p : Publisher α β τ} {kept : α → α} {maxlen : ℕ} {fl : Rounding}
  {timeoutMax : PyFloat}

/-! ## Samples -/

/-- What a measurement has of a channel, each value as it is stored. -/
def Measurement.samples (kept : α → α) (channelName : String) (data : Measurement α) :
    List (α × ℤ) :=
  data.channelData.flatMap fun channel =>
    if channel.1 = channelName then (channel.2.map kept).zip data.timestamps else []

/-- Every value has a timestamp. -/
def Measurement.Even (data : Measurement α) : Prop :=
  ∀ channel ∈ data.channelData, channel.2.length = data.timestamps.length

def Event.samples (kept : α → α) (channelName : String) : Event α → List (α × ℤ)
  | .publish data => data.samples kept channelName
  | _ => []

/-- What the events publish of a channel. -/
def samples (kept : α → α) (channelName : String) (events : List (Event α)) : List (α × ℤ) :=
  events.flatMap (Event.samples kept channelName)

theorem samples_append_singleton (channelName : String) (events : List (Event α)) (event : Event α) :
    samples kept channelName (events ++ [event]) =
      samples kept channelName events ++ event.samples kept channelName := by
  unfold samples
  rw [List.flatMap_append, List.flatMap_singleton]

def Record.samples (record : Record α) : List (α × ℤ) := record.values.zip record.timestamps

def Record.Even (record : Record α) : Prop := record.values.length = record.timestamps.length

theorem Record.Even.length_samples {record : Record α} (h : record.Even) :
    record.samples.length = record.values.length := by
  unfold Record.samples
  rw [List.length_zip, ← h, min_self]

/-- The latest samples of a record, values and timestamps apart. -/
theorem Record.Even.latest {record : Record α} (h : record.Even) (maxlen : ℕ) (channelName : String)
    {length : ℕ} (hmaxlen : length ≤ maxlen) (hlength : length ≤ record.values.length) :
    record.latest maxlen channelName length =
      ⟨[(channelName, (record.samples.rtake length).map Prod.fst)],
        (record.samples.rtake length).map Prod.snd⟩ := by
  unfold Record.latest Record.samples
  rw [min_eq_left (by omega), map_rtake, map_rtake, List.map_fst_zip h.le, List.map_snd_zip h.ge]

namespace Ledger

variable {ledger : Ledger α} {channelName : String}

/-- What is published of a channel is added to its record. -/
theorem record_publish (hledger : ∀ name, (ledger.record name).Even) {data : Measurement α}
    (hdata : data.Even) (channelName : String) :
    ((ledger.publish (data.map kept)).record channelName).Even ∧
      ((ledger.publish (data.map kept)).record channelName).samples =
        (ledger.record channelName).samples ++ data.samples kept channelName := by
  obtain ⟨channels, timestamps⟩ := data
  unfold publish Measurement.map Measurement.samples
  dsimp only
  induction channels generalizing ledger with
  | nil => exact ⟨hledger channelName, (List.append_nil _).symm⟩
  | cons channel channels ih =>
    have hlength : (channel.2.map kept).length = timestamps.length := by
      rw [List.length_map]
      exact hdata channel List.mem_cons_self
    have hadd : ∀ name, ((ledger.add timestamps (channel.1, channel.2.map kept)).record name).Even ∧
        ((ledger.add timestamps (channel.1, channel.2.map kept)).record name).samples =
          (ledger.record name).samples ++
            if channel.1 = name then (channel.2.map kept).zip timestamps else [] := by
      intro name
      rw [record_add]
      by_cases hname : name = channel.1
      · rw [if_pos hname, if_pos hname.symm]
        refine ⟨?_, List.zip_append (hledger name)⟩
        unfold Record.Even Record.append
        rw [List.length_append, List.length_append, hlength, hledger name]
      · rw [if_neg hname, if_neg (Ne.symm hname), List.append_nil]
        exact ⟨hledger name, rfl⟩
    obtain ⟨heven, hsamples⟩ :=
      ih (fun name => (hadd name).1) fun c hc => hdata c (List.mem_cons_of_mem channel hc)
    refine ⟨heven, ?_⟩
    rw [List.map_cons, List.foldl_cons, hsamples, (hadd channelName).2, List.flatMap_cons,
      List.append_assoc]

end Ledger

/-! ## What a run leaves -/

/-- What is published in a run is fit for the publisher, and every value has a timestamp. -/
def Event.Regular (p : Publisher α β τ) (kept : α → α) : Event α → Prop
  | .publish data => p.Fits kept data ∧ data.Even
  | _ => True

/-- Since before the events in `since`, the thread has been in the wait of this call for new samples:
then it took the monitor to begin it. -/
def WaitsSince (p : Publisher α β τ) (fl : Rounding) (timeoutMax : PyFloat) (maxlen : ℕ)
    (history : List (Event α)) (thread : ℕ) (call : Call) (since : List (Event α)) : Prop :=
  ∃ earlier now later s startTime remaining,
    history = earlier ++ .runs thread now later :: since ∧
    (monitor p fl timeoutMax).stateAfter (.initial maxlen) earlier = some s ∧
    s.getters thread = some ⟨call, startTime, .appeared remaining⟩ ∧
    ∀ call' now', .get thread call' now' ∉ since

theorem WaitsSince.append {history since : List (Event α)} {thread : ℕ} {call : Call}
    (h : WaitsSince p fl timeoutMax maxlen history thread call since) {event : Event α}
    (hevent : ∀ call' now', event ≠ .get thread call' now') :
    WaitsSince p fl timeoutMax maxlen (history ++ [event]) thread call (since ++ [event]) := by
  obtain ⟨earlier, now, later, s, startTime, remaining, rfl, hs, hgetter, hsame⟩ := h
  refine ⟨earlier, now, later, s, startTime, remaining, ?_, hs, hgetter, ?_⟩
  · rw [List.append_assoc, List.cons_append]
  · intro call' now' hmem
    rcases List.mem_append.mp hmem with hmem | hmem
    · exact hsame call' now' hmem
    · exact hevent call' now' (List.mem_singleton.mp hmem).symm

/-- What the buffers and the threads are after the events of a run. -/
structure Tracks (p : Publisher α β τ) (kept : α → α) (fl : Rounding) (timeoutMax : PyFloat)
    (maxlen : ℕ) (history : List (Event α)) (s : System β τ) : Prop where
  ledger : ∃ ledger, s.buffer.Represents p maxlen ledger ∧ ∀ name, (ledger.record name).Even ∧
    (ledger.record name).samples <:+ samples kept name history
  waits : ∀ {thread call startTime startCount remaining endtime},
    s.getters thread = some ⟨call, startTime, .awaitsNew startCount remaining endtime⟩ →
    ∃ since, WaitsSince p fl timeoutMax maxlen history thread call since ∧
      s.buffer.totalAddedCount call.channelName ≤
        startCount + (samples kept call.channelName since).length
  points : ∀ {thread call startTime endtime},
    s.getters thread = some ⟨call, startTime, .awaitsPoints endtime⟩ →
    call.waitForNewSamples = false

theorem tracks_initial : Tracks p kept fl timeoutMax maxlen [] (.initial maxlen) where
  ledger := ⟨.clear, ChannelBuffer.represents_empty p maxlen, fun _ => ⟨rfl, List.nil_suffix⟩⟩
  waits h := nomatch h
  points h := nomatch h

/-- Only a call that does not wait for new samples goes on to count the points. -/
theorem turn_awaitsPoints {s : ChannelBuffer β τ} {getter : Getter} {now later endtime : PyFloat}
    (h : turn p fl timeoutMax s getter now later = .goesOn (.awaitsPoints endtime)) :
    getter.call.waitForNewSamples = false ∨ ∃ endtime, getter.phase = .awaitsPoints endtime := by
  have hchannel : ∀ start round, channelWait p fl timeoutMax s getter.call start round now later =
      .goesOn (.awaitsPoints endtime) → getter.call.waitForNewSamples = false := by
    intro start round h
    unfold channelWait channelFound at h
    dsimp only at h
    split_ifs at h with hfound hclosed hwait htime
    · cases h
    · exact Bool.eq_false_of_not_eq_true hwait
    · cases round <;> cases h
  have hnew : ∀ count left round, newWait p s getter.call count left round ≠
      .goesOn (.awaitsPoints endtime) := by
    intro count left round h
    unfold newWait at h
    split_ifs at h
    cases round <;> cases h
  obtain ⟨call, startTime, phase⟩ := getter
  unfold turn at h
  cases phase with
  | called =>
    dsimp only at h
    split_ifs at h
    · cases h
    · cases h
    · exact .inl (hchannel _ _ h)
  | missing => exact .inl (hchannel _ _ h)
  | appeared left => exact absurd h (hnew _ _ _)
  | awaitsChannel endtime => exact .inl (hchannel _ _ h)
  | awaitsPoints endtime => exact .inr ⟨endtime, rfl⟩
  | awaitsNew startCount left endtime => exact absurd h (hnew _ _ _)

/-- A call is in the wait for new samples only when it has begun it in this turn or was in it. -/
theorem turn_awaitsNew {s : ChannelBuffer β τ} {getter : Getter} {now later : PyFloat}
    {startCount : ℕ} {left endtime : PyFloat}
    (h : turn p fl timeoutMax s getter now later = .goesOn (.awaitsNew startCount left endtime)) :
    (∃ left, getter.phase = .appeared left ∧
        startCount = s.totalAddedCount getter.call.channelName) ∨
      ∃ left endtime, getter.phase = .awaitsNew startCount left endtime := by
  have hpoints : ∀ round, pointsWait p s getter.call round ≠
      .goesOn (.awaitsNew startCount left endtime) := by
    intro round h
    unfold pointsWait at h
    split at h
    · cases h
    · split_ifs at h
      cases round <;> cases h
  have hchannel : ∀ start round, channelWait p fl timeoutMax s getter.call start round now later ≠
      .goesOn (.awaitsNew startCount left endtime) := by
    intro start round h
    unfold channelWait channelFound at h
    dsimp only at h
    split_ifs at h with hfound hclosed hwait htime
    · cases h
    · exact hpoints _ h
    · cases round <;> cases h
  have hnew : ∀ count left' round, newWait p s getter.call count left' round =
      .goesOn (.awaitsNew startCount left endtime) → startCount = count := by
    intro count left' round h
    unfold newWait at h
    split_ifs at h
    cases round with
    | waits endtime =>
      cases h
      rfl
    | gaveUp => cases h
    | overflows => cases h
  obtain ⟨call, startTime, phase⟩ := getter
  unfold turn at h
  cases phase with
  | called =>
    dsimp only at h
    split_ifs at h
    · cases h
    · cases h
    · exact absurd h (hchannel _ _)
  | missing => exact absurd h (hchannel _ _)
  | appeared left' => exact .inl ⟨left', rfl, hnew _ _ _ h⟩
  | awaitsChannel endtime' => exact absurd h (hchannel _ _)
  | awaitsPoints endtime' => exact absurd h (hpoints _)
  | awaitsNew startCount' left' endtime' =>
    obtain rfl := hnew _ _ _ h
    exact .inr ⟨left', endtime', rfl⟩

/-- A thread that an event leaves alone waits on, and what is published meanwhile is counted. -/
theorem Tracks.waits_append {history : List (Event α)} {s s' : System β τ} {event : Event α}
    (h : Tracks p kept fl timeoutMax maxlen history s)
    (hcount : ∀ name, s'.buffer.totalAddedCount name ≤
      s.buffer.totalAddedCount name + (event.samples kept name).length)
    {thread : ℕ} {call : Call} {startTime : PyFloat} {startCount : ℕ} {left endtime : PyFloat}
    (hgetter : s.getters thread = some ⟨call, startTime, .awaitsNew startCount left endtime⟩)
    (hevent : ∀ call' now', event ≠ .get thread call' now') :
    ∃ since, WaitsSince p fl timeoutMax maxlen (history ++ [event]) thread call since ∧
      s'.buffer.totalAddedCount call.channelName ≤
        startCount + (samples kept call.channelName since).length := by
  obtain ⟨since, hsince, hbound⟩ := h.waits hgetter
  refine ⟨since ++ [event], hsince.append hevent, ?_⟩
  rw [samples_append_singleton, List.length_append]
  have hmore := hcount call.channelName
  omega

/-- An event that publishes nothing and changes one thread leaves the ledger and the other threads as
they were. -/
theorem Tracks.setGetter {history : List (Event α)} {s : System β τ} {event : Event α}
    (h : Tracks p kept fl timeoutMax maxlen history s) {thread : ℕ} {getter : Option Getter}
    (hsamples : ∀ name, event.samples kept name = [])
    (hevent : ∀ thread' call now, event = .get thread' call now → thread' = thread)
    (hwaits : ∀ {call startTime startCount left endtime},
      getter = some ⟨call, startTime, .awaitsNew startCount left endtime⟩ →
      ∃ since, WaitsSince p fl timeoutMax maxlen (history ++ [event]) thread call since ∧
        s.buffer.totalAddedCount call.channelName ≤
          startCount + (samples kept call.channelName since).length)
    (hpoints : ∀ {call startTime endtime},
      getter = some ⟨call, startTime, .awaitsPoints endtime⟩ → call.waitForNewSamples = false) :
    Tracks p kept fl timeoutMax maxlen (history ++ [event]) (s.setGetter thread getter) := by
  obtain ⟨ledger, hledger, hrecords⟩ := h.ledger
  constructor
  · refine ⟨ledger, hledger, fun name => ⟨(hrecords name).1, ?_⟩⟩
    rw [samples_append_singleton, hsamples, List.append_nil]
    exact (hrecords name).2
  · intro thread' call startTime startCount left endtime hgetter
    by_cases hne : thread' = thread
    · subst hne
      rw [System.setGetter_self] at hgetter
      exact hwaits hgetter
    · rw [System.setGetter_ne hne] at hgetter
      refine h.waits_append (fun name => Nat.le_add_right _ _) hgetter ?_
      intro call' now' hget
      exact hne (hevent thread' call' now' hget)
  · intro thread' call startTime endtime hgetter
    by_cases hne : thread' = thread
    · subst hne
      rw [System.setGetter_self] at hgetter
      exact hpoints hgetter
    · rw [System.setGetter_ne hne] at hgetter
      exact h.points hgetter

/-- After the event the history is longer by it. -/
theorem Tracks.step (hmaxlen : 1 ≤ maxlen) {history : List (Event α)} {s s' : System β τ}
    {event : Event α} (hs : (monitor p fl timeoutMax).stateAfter (.initial maxlen) history = some s)
    (h : Tracks p kept fl timeoutMax maxlen history s) (hevent : event.Regular p kept)
    (hstep : ((monitor p fl timeoutMax).step s event).2 = some s') :
    Tracks p kept fl timeoutMax maxlen (history ++ [event]) s' := by
  obtain ⟨actions, -, hmoves⟩ := moves_of_step hstep
  cases hmoves with
  | @publish data =>
    obtain ⟨ledger, hledger, hrecords⟩ := h.ledger
    obtain ⟨after, hpublish, -, hafter⟩ := hledger.publish hmaxlen hevent.1
    have hrecord := @Ledger.record_publish _ kept ledger (fun name => (hrecords name).1) _ hevent.2
    rw [hpublish]
    constructor
    · refine ⟨_, hafter, fun name => ⟨(hrecord name).1, ?_⟩⟩
      obtain ⟨earlier, hearlier⟩ := (hrecords name).2
      refine ⟨earlier, ?_⟩
      rw [(hrecord name).2, samples_append_singleton, ← hearlier, List.append_assoc]
      rfl
    · intro thread call startTime startCount left endtime hgetter
      refine h.waits_append ?_ hgetter nofun
      intro name
      show after.totalAddedCount name ≤ _
      rw [hafter.count_eq, hledger.count_eq, ← (hrecord name).1.length_samples, (hrecord name).2,
        List.length_append, (hrecords name).1.length_samples]
      exact le_rfl
    · exact h.points
  | close =>
    obtain ⟨ledger, hledger, -⟩ := h.ledger
    refine ⟨⟨.clear, hledger.close, fun name => ⟨rfl, List.nil_suffix⟩⟩, ?_, h.points⟩
    intro thread call startTime startCount left endtime hgetter
    exact h.waits_append (fun name => Nat.zero_le _) hgetter nofun
  | @get thread call now hnone =>
    refine h.setGetter (fun _ => rfl) ?_ nofun nofun
    intro thread' call' now' hsame
    cases hsame
    rfl
  | @goesOn thread now later getter phase hsome hturn =>
    obtain ⟨call, startTime, before⟩ := getter
    refine h.setGetter (fun _ => rfl) nofun ?_ ?_
    · intro call' startTime' startCount left endtime hgetter
      cases hgetter
      rcases turn_awaitsNew hturn with ⟨left', hphase, hstart⟩ | ⟨left', endtime', hphase⟩
      · -- The wait begins here, with nothing published since.
        obtain rfl : before = _ := hphase
        refine ⟨[], ⟨history, now, later, s, startTime, left', rfl, hs, hsome, nofun⟩, ?_⟩
        exact hstart.ge
      · obtain rfl : before = _ := hphase
        exact h.waits_append (fun name => Nat.le_add_right _ _) hsome nofun
    · intro call' startTime' endtime hgetter
      cases hgetter
      rcases turn_awaitsPoints hturn with hwait | ⟨endtime', hphase⟩
      · exact hwait
      · obtain rfl : before = _ := hphase
        exact h.points hsome
  | @ends thread now later getter result hsome hturn =>
    exact h.setGetter (fun _ => rfl) nofun nofun nofun

end Instro.Publishers
