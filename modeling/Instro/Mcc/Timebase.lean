import Instro.Daq.HWTimestamper
import Instro.Library.Checked
import Instro.Library.Stride
import Instro.Mcc.Integrity
import Mathlib.Tactic.LinearCombination

/-!
# The timebase

`_read_to_measurements` publishes each returned window with timestamps that continue from the window
before. The samples that an overrun skips are not counted, so the timestamps follow the stream
exactly when no status read between two returned windows finds that samples have been overwritten.
-/

namespace Instro.Mcc

open Instro.Daq Instro.Library

variable {α β : Type}

/-! ## Measurements -/

structure Measurement (β : Type) where
  channelData : List (String × List β)
  timestamps : List ℤ

/-- The timestamps of a batch. A period of 0 counts as none. -/
def batchTimestamps (timestamper : Option HWTimestamper) (response : MCCDAQData β)
    (samplesPerChannel : ℕ) : Except PyException (Option HWTimestamper × List ℤ) :=
  if response.dt ≠ 0 then do
    let (timestamper, timestamps) ←
      match timestamper with
      | none => HWTimestamper.seed response.timestamp response.dt samplesPerChannel
      | some timestamper => timestamper.nextBatch response.dt samplesPerChannel
    return (some timestamper, timestamps)
  else .ok (timestamper, [response.timestamp])

/-- `_read_to_measurements` -/
def readToMeasurements (daqName : String) (channelList : List String) (response : MCCDAQData β)
    (timestamper : Option HWTimestamper) :
    Except PyException (Measurement β × Option HWTimestamper) := do
  let numChannels := channelList.length
  ensure (numChannels ≠ 0) .zeroDivisionError
  let samplesPerChannel := response.data.length / numChannels
  let channelData := channelList.mapIdx fun i channel =>
    (daqName ++ "." ++ channel, stride numChannels i response.data)
  let (timestamper, timestamps) ← batchTimestamps timestamper response samplesPerChannel
  return (⟨channelData, timestamps⟩, timestamper)

/-- The measurements of the windows that `fetch_analog` returns, one after the other. -/
def publish (daqName : String) (channelList : List String) :
    Option HWTimestamper → List (Fetched β) → Except PyException (List (Fetched β × Measurement β))
  | _, [] => .ok []
  | timestamper, window :: windows => do
    let (measurement, timestamper) ←
      readToMeasurements daqName channelList window.response timestamper
    let rest ← publish daqName channelList timestamper windows
    return (window, measurement) :: rest

/-- The windows that the actions return. -/
def windowsOf (acts : List (Action β)) : List (Fetched β) :=
  acts.filterMap fun
    | .returned window => some window
    | _ => none

/-- The scan index and the timestamp of every sample that a measurement publishes of a channel. -/
def samplesOf (numChans channel : ℕ) (p : Fetched β × Measurement β) : List (ℕ × ℤ) :=
  let values := ((p.2.channelData.map Prod.snd)[channel]?).getD []
  ((List.range values.length).map fun j =>
    (p.1.readOrigin + channel + j * numChans) / numChans).zip p.2.timestamps

/-- Two published samples of a channel are as many periods apart as their scans. -/
def TimebaseHolds (scan : Scan α β) (published : List (Fetched β × Measurement β)) : Prop :=
  ∀ channel, channel < scan.numChans → ∀ p ∈ published, ∀ q ∈ published,
    ∀ a ∈ samplesOf scan.numChans channel p, ∀ b ∈ samplesOf scan.numChans channel q,
      b.2 - a.2 = ((b.1 : ℤ) - a.1) * scan.actualSamplePeriod

/-- No overrun lies between two returned windows. -/
def NoOverrun (acts : List (Action β)) : Prop :=
  ∀ pre first mid later post, acts = pre ++ .returned first :: (mid ++ .returned later :: post) →
    ∀ samplesLost, .overrun samplesLost ∉ mid

/-- At the `n`-th event of a run a fetch returns. The clock showed `timestamp` at its status read. -/
def ReturnsAt (scan : Scan α β) (stream contents : ℕ → α) (es : List Event) (timestamp : ℤ)
    (n : ℕ) : Prop :=
  (scanLoop scan stream).At (fun s e => Returns s timestamp e) (started scan contents) es n

/-- The `n`-th event of a run is a status read that finds the next sample overwritten. -/
def SkipsAt (scan : Scan α β) (stream contents : ℕ → α) (es : List Event) (n : ℕ) : Prop :=
  (scanLoop scan stream).At (fun s e => Skips s e) (started scan contents) es n

/-- No status read between two fetches that return finds the next sample overwritten. -/
def NoSkip (scan : Scan α β) (stream contents : ℕ → α) (es : List Event) : Prop :=
  ∀ i j k timestamp timestamp', i < j → j < k → ReturnsAt scan stream contents es timestamp i →
    SkipsAt scan stream contents es j → ¬ReturnsAt scan stream contents es timestamp' k

/-! ## Batches -/

section Batches

variable {scan : Scan α β} {daqName : String} {channelList : List String}
  {window : Fetched β} {timestamper : Option HWTimestamper}

/-- What a window has to be for its measurement: of the size and the period of the scan. -/
structure Batch (scan : Scan α β) (window : Fetched β) : Prop where
  aligned : scan.numChans ∣ window.readOrigin
  length : window.response.data.length = scan.fetchSize
  period : window.response.dt = scan.actualSamplePeriod

theorem samplesPerChannel_pos (hbuffer : 0 < scan.bufferSize) : 0 < scan.samplesPerChannel := by
  unfold Scan.bufferSize Scan.fetchSize at hbuffer
  exact Nat.pos_of_mul_pos_left (Nat.pos_of_mul_pos_right hbuffer)

/-- The values of the channels of a window. -/
def channelDataOf (daqName : String) (channelList : List String) (window : Fetched β) :
    List (String × List β) :=
  channelList.mapIdx fun i channel =>
    (daqName ++ "." ++ channel, stride channelList.length i window.response.data)

theorem readToMeasurements_eq (hbuffer : 0 < scan.bufferSize)
    (hlist : channelList.length = scan.numChans) (hwindow : Batch scan window) :
    readToMeasurements daqName channelList window.response timestamper = (do
      let (timestamper, timestamps) ←
        batchTimestamps timestamper window.response scan.samplesPerChannel
      return (⟨channelDataOf daqName channelList window, timestamps⟩, timestamper)) := by
  have hpos := numChans_pos hbuffer
  have hcount : window.response.data.length / channelList.length = scan.samplesPerChannel := by
    rw [hwindow.length, hlist]
    exact Nat.mul_div_cancel_left _ hpos
  unfold readToMeasurements
  dsimp only
  rw [ensure_pos (by rw [hlist]; omega), hcount]
  rfl

/-- The samples of a channel and their timestamps. -/
theorem samplesOf_eq (hbuffer : 0 < scan.bufferSize)
    (hlist : channelList.length = scan.numChans) (hwindow : Batch scan window) {channel : ℕ}
    (hchannel : channel < scan.numChans) (timestamps : List ℤ) :
    samplesOf scan.numChans channel
        (window, ⟨channelDataOf daqName channelList window, timestamps⟩) =
      ((List.range scan.samplesPerChannel).map
        fun j => window.readOrigin / scan.numChans + j).zip timestamps := by
  have hpos := numChans_pos hbuffer
  have hvalues : ((channelDataOf daqName channelList window).map Prod.snd)[channel]? =
      some (stride scan.numChans channel window.response.data) := by
    unfold channelDataOf
    rw [List.getElem?_map, List.getElem?_mapIdx,
      List.getElem?_eq_getElem (by rw [hlist]; exact hchannel)]
    show some (stride channelList.length channel window.response.data) = _
    rw [hlist]
  have hlength : (stride scan.numChans channel window.response.data).length =
      scan.samplesPerChannel := by
    rw [length_stride hpos hchannel, hwindow.length]
    show (scan.numChans * scan.samplesPerChannel + _) / _ = _
    rw [Nat.mul_add_div hpos, Nat.div_eq_of_lt (by omega), Nat.add_zero]
  unfold samplesOf
  dsimp only
  rw [hvalues, Option.getD_some, hlength]
  congr 1
  refine List.map_congr_left fun j _ => ?_
  obtain ⟨k, hk⟩ := hwindow.aligned
  rw [hk, Nat.mul_div_cancel_left k hpos, Nat.add_assoc, Nat.mul_add_div hpos,
    Nat.add_mul_div_right _ _ hpos, Nat.div_eq_of_lt hchannel, Nat.zero_add]

/-- The values of a channel are its samples, one for each scan of the window. -/
theorem stride_eq_stream {stream : ℕ → α} {acts : List (Action β)}
    (hwindow : WindowAt scan stream acts window) {channel : ℕ} (hchannel : channel < scan.numChans)
    {j : ℕ} (hj : j < scan.samplesPerChannel) :
    (stride scan.numChans channel window.response.data)[j]? =
      some (scan.toEng channel (stream (window.readOrigin + (channel + j * scan.numChans)))) := by
  have hpos : 0 < scan.numChans := by omega
  have hlast : channel + j * scan.numChans < scan.fetchSize := by
    have hle : (j + 1) * scan.numChans ≤ scan.samplesPerChannel * scan.numChans :=
      Nat.mul_le_mul_right _ hj
    unfold Scan.fetchSize
    rw [Nat.add_mul, Nat.one_mul, Nat.mul_comm scan.samplesPerChannel] at hle
    omega
  obtain ⟨k, hk⟩ := hwindow.aligned
  rw [getElem?_stride hpos, hwindow.data, trueWindow, List.getElem?_map,
    List.getElem?_range hlast, Option.map_some]
  have hmod : (window.readOrigin + (channel + j * scan.numChans)) % scan.numChans = channel := by
    rw [hk, Nat.mul_add_mod, Nat.add_mul_mod_self_right, Nat.mod_eq_of_lt hchannel]
  rw [hmod]

/-- The first timestamp of a batch: of the seed, or one period after the batch before. -/
def batchStart (scan : Scan α β) (timestamper : Option HWTimestamper) (window : Fetched β) : ℤ :=
  match timestamper with
  | none =>
    window.response.timestamp - scan.actualSamplePeriod * (scan.samplesPerChannel - 1)
  | some timestamper => timestamper.lastTimestamp + scan.actualSamplePeriod

theorem batchTimestamps_eq (hbuffer : 0 < scan.bufferSize) (hwindow : Batch scan window)
    (hperiod : scan.actualSamplePeriod ≠ 0) :
    batchTimestamps timestamper window.response scan.samplesPerChannel =
      .ok (some ⟨batchStart scan timestamper window +
          (scan.samplesPerChannel - 1) * scan.actualSamplePeriod⟩,
        spaced (batchStart scan timestamper window) scan.actualSamplePeriod
          scan.samplesPerChannel) := by
  have hpos := samplesPerChannel_pos hbuffer
  unfold batchTimestamps batchStart
  rw [hwindow.period, if_pos hperiod]
  cases timestamper with
  | none =>
    dsimp only
    rw [HWTimestamper.seed_eq _ _ hpos]
    have hlast : window.response.timestamp -
        (scan.actualSamplePeriod : ℤ) * (scan.samplesPerChannel - 1) +
          (scan.samplesPerChannel - 1) * scan.actualSamplePeriod = window.response.timestamp := by
      ring
    rw [hlast]
    rfl
  | some timestamper =>
    dsimp only
    rw [HWTimestamper.nextBatch_eq _ _ hpos]
    have hlast : timestamper.lastTimestamp + (scan.actualSamplePeriod : ℤ) +
        (scan.samplesPerChannel - 1) * scan.actualSamplePeriod =
          timestamper.lastTimestamp + scan.samplesPerChannel * scan.actualSamplePeriod := by
      ring
    rw [hlast]
    rfl

/-- The measurement of a window whose first timestamp is `start`. -/
def measurementAt (scan : Scan α β) (daqName : String) (channelList : List String) (start : ℤ)
    (window : Fetched β) : Fetched β × Measurement β :=
  (window, ⟨channelDataOf daqName channelList window,
    spaced start scan.actualSamplePeriod scan.samplesPerChannel⟩)

theorem publish_cons (hbuffer : 0 < scan.bufferSize) (hlist : channelList.length = scan.numChans)
    (hwindow : Batch scan window) (hperiod : scan.actualSamplePeriod ≠ 0)
    (windows : List (Fetched β)) :
    publish daqName channelList timestamper (window :: windows) = (do
      let rest ← publish daqName channelList
        (some ⟨batchStart scan timestamper window +
          (scan.samplesPerChannel - 1) * scan.actualSamplePeriod⟩) windows
      return measurementAt scan daqName channelList (batchStart scan timestamper window) window ::
        rest) := by
  rw [publish, readToMeasurements_eq hbuffer hlist hwindow,
    batchTimestamps_eq hbuffer hwindow hperiod]
  rfl

/-- Batch after batch the timestamps go on without a gap. -/
theorem publish_some (hbuffer : 0 < scan.bufferSize) (hlist : channelList.length = scan.numChans)
    (hperiod : scan.actualSamplePeriod ≠ 0) {windows : List (Fetched β)}
    (hwindows : ∀ window ∈ windows, Batch scan window) (last : ℤ) :
    publish daqName channelList (some ⟨last⟩) windows =
      .ok (windows.mapIdx fun i window => measurementAt scan daqName channelList
        (last + (i * scan.samplesPerChannel + 1) * scan.actualSamplePeriod) window) := by
  induction windows generalizing last with
  | nil => rfl
  | cons window windows ih =>
    rw [publish_cons hbuffer hlist (hwindows window List.mem_cons_self) hperiod,
      ih fun w hw => hwindows w (List.mem_cons_of_mem _ hw), List.mapIdx_cons]
    show Except.ok (_ :: _) = _
    congr 3
    · show last + _ = _
      rw [Nat.cast_zero, Int.zero_mul, Int.zero_add, Int.one_mul]
    · funext i w
      congr 1
      show last + _ + _ + _ = _
      push_cast
      ring

/-- The first window sets the clock. -/
theorem publish_none (daqName : String) (hbuffer : 0 < scan.bufferSize)
    (hlist : channelList.length = scan.numChans) (hperiod : scan.actualSamplePeriod ≠ 0)
    {windows : List (Fetched β)}
    (hwindows : ∀ window ∈ windows, Batch scan window) :
    ∃ start : ℤ, publish daqName channelList none windows =
      .ok (windows.mapIdx fun i window => measurementAt scan daqName channelList
        (start + i * scan.samplesPerChannel * scan.actualSamplePeriod) window) := by
  cases windows with
  | nil => exact ⟨0, rfl⟩
  | cons window windows =>
    refine ⟨batchStart scan none window, ?_⟩
    rw [publish_cons hbuffer hlist (hwindows window List.mem_cons_self) hperiod,
      publish_some hbuffer hlist hperiod fun w hw => hwindows w (List.mem_cons_of_mem _ hw),
      List.mapIdx_cons]
    show Except.ok (_ :: _) = _
    congr 3
    · rw [Nat.cast_zero, Int.zero_mul, Int.zero_mul, Int.add_zero]
    · funext i w
      congr 1
      push_cast
      ring

/-- Without a period every batch carries the time of its read. -/
theorem publish_zero (hbuffer : 0 < scan.bufferSize) (hlist : channelList.length = scan.numChans)
    (hperiod : scan.actualSamplePeriod = 0) {windows : List (Fetched β)}
    (hwindows : ∀ window ∈ windows, Batch scan window) :
    publish daqName channelList timestamper windows =
      .ok (windows.map fun window =>
        (window, ⟨channelDataOf daqName channelList window, [window.response.timestamp]⟩)) := by
  induction windows with
  | nil => rfl
  | cons window windows ih =>
    have hwindow := hwindows window List.mem_cons_self
    have hstamps : batchTimestamps timestamper window.response scan.samplesPerChannel =
        .ok (timestamper, [window.response.timestamp]) := by
      unfold batchTimestamps
      rw [if_neg (by rw [hwindow.period, hperiod]; exact fun h => h rfl)]
    rw [publish, readToMeasurements_eq hbuffer hlist hwindow, hstamps]
    show (publish daqName channelList timestamper windows >>= _) = _
    rw [ih fun w hw => hwindows w (List.mem_cons_of_mem _ hw)]
    rfl

end Batches

/-! ## Skipped samples -/

section Skipped

variable {scan : Scan α β} {stream : ℕ → α} {acts : List (Action β)} {daqName : String}
  {channelList : List String}

/-- How many samples an action skips. -/
def Action.skipped : Action β → ℕ
  | .overrun samplesLost => samplesLost
  | _ => 0

def skippedBy (acts : List (Action β)) : ℕ := (acts.map Action.skipped).sum

theorem windowsOf_append (acts acts' : List (Action β)) :
    windowsOf (acts ++ acts') = windowsOf acts ++ windowsOf acts' :=
  List.filterMap_append

theorem windowsOf_returned (window : Fetched β) (acts : List (Action β)) :
    windowsOf (.returned window :: acts) = window :: windowsOf acts := rfl

theorem skippedBy_append (acts acts' : List (Action β)) :
    skippedBy (acts ++ acts') = skippedBy acts + skippedBy acts' := by
  unfold skippedBy
  rw [List.map_append, List.sum_append]

theorem skippedBy_returned (window : Fetched β) (acts : List (Action β)) :
    skippedBy (.returned window :: acts) = skippedBy acts := by
  unfold skippedBy
  rw [List.map_cons, List.sum_cons]
  exact Nat.zero_add _

/-- What has been consumed was returned or skipped. -/
theorem consumedBy_eq (scan : Scan α β) (acts : List (Action β)) :
    consumedBy scan acts = (windowsOf acts).length * scan.fetchSize + skippedBy acts := by
  induction acts with
  | nil => rw [consumedBy, skippedBy, windowsOf]; simp
  | cons a acts ih =>
    have hcons : consumedBy scan (a :: acts) = a.moved scan + consumedBy scan acts :=
      List.sum_cons
    have hskip : skippedBy (a :: acts) = a.skipped + skippedBy acts := List.sum_cons
    rw [hcons, hskip, ih]
    cases a with
    | returned window =>
      rw [windowsOf_returned, List.length_cons, Nat.add_mul]
      show scan.fetchSize + _ = _ + (0 + _)
      omega
    | overrun samplesLost =>
      show samplesLost + _ = (windowsOf acts).length * _ + (samplesLost + _)
      omega
    | timeout =>
      show 0 + _ = (windowsOf acts).length * _ + (0 + _)
      omega

/-- Nothing is skipped where there is no overrun, and only there if every overrun is a loss. -/
theorem skippedBy_eq_zero_iff
    (hoverruns : ∀ samplesLost, .overrun samplesLost ∈ acts → 0 < samplesLost) :
    skippedBy acts = 0 ↔ ∀ samplesLost, .overrun samplesLost ∉ acts := by
  unfold skippedBy
  rw [List.sum_eq_zero_iff_forall_eq_nat]
  constructor
  · intro hzero samplesLost hmem
    have hlost : samplesLost = 0 := hzero _ (List.mem_map_of_mem hmem)
    have hpos := hoverruns samplesLost hmem
    omega
  · intro hnone n hn
    obtain ⟨a, ha, rfl⟩ := List.mem_map.mp hn
    cases a with
    | overrun samplesLost => exact absurd ha (hnone samplesLost)
    | timeout => rfl
    | returned window => rfl

/-- The `i`-th window and the actions before it. -/
theorem windowsOf_getElem? {i : ℕ} {window : Fetched β} :
    (windowsOf acts)[i]? = some window ↔
      ∃ pre post, acts = pre ++ .returned window :: post ∧ (windowsOf pre).length = i := by
  constructor
  · intro h
    induction acts generalizing i with
    | nil => cases h
    | cons a acts ih =>
      cases a with
      | returned first =>
        rw [windowsOf_returned] at h
        cases i with
        | zero =>
          obtain rfl := Option.some.inj h
          exact ⟨[], acts, rfl, rfl⟩
        | succ i =>
          obtain ⟨pre, post, rfl, rfl⟩ := ih h
          exact ⟨.returned first :: pre, post, rfl, rfl⟩
      | overrun samplesLost =>
        obtain ⟨pre, post, rfl, rfl⟩ := ih h
        exact ⟨.overrun samplesLost :: pre, post, rfl, rfl⟩
      | timeout =>
        obtain ⟨pre, post, rfl, rfl⟩ := ih h
        exact ⟨.timeout :: pre, post, rfl, rfl⟩
  · rintro ⟨pre, post, rfl, rfl⟩
    rw [windowsOf_append, windowsOf_returned, List.getElem?_append_right le_rfl, Nat.sub_self]
    rfl

/-- No overrun lies between two windows exactly when as much was skipped before the one as before
the other. -/
theorem noOverrun_iff (hoverruns : ∀ samplesLost, .overrun samplesLost ∈ acts → 0 < samplesLost) :
    NoOverrun acts ↔ ∀ pre first post pre' later post', acts = pre ++ .returned first :: post →
      acts = pre' ++ .returned later :: post' → skippedBy pre = skippedBy pre' := by
  have hmid : ∀ {pre first mid later post},
      acts = pre ++ .returned first :: (mid ++ .returned later :: post) →
        ∀ samplesLost, .overrun samplesLost ∈ mid → 0 < samplesLost := by
    intro pre first mid later post hsplit samplesLost hmem
    refine hoverruns samplesLost ?_
    rw [hsplit]
    simp [hmem]
  have hbetween : ∀ (pre : List (Action β)) first mid,
      skippedBy (pre ++ .returned first :: mid) = skippedBy pre + skippedBy mid := by
    intro pre first mid
    rw [skippedBy_append, skippedBy_returned]
  constructor
  · intro h pre first post pre' later post' hsplit hsplit'
    -- the later of the two windows comes after the other one
    have hordered : ∀ {pre first post pre' later post' mid},
        acts = pre ++ .returned first :: post → acts = pre' ++ .returned later :: post' →
        pre' = pre ++ mid → skippedBy pre = skippedBy pre' := by
      intro pre first post pre' later post' mid hsplit hsplit' hpre
      rw [hpre, hsplit, List.append_assoc] at hsplit'
      rw [hpre]
      cases mid with
      | nil => rw [List.append_nil]
      | cons a mid =>
        obtain ⟨rfl, hpost⟩ := List.cons.inj (List.append_cancel_left hsplit')
        rw [hpost] at hsplit
        have hzero := (skippedBy_eq_zero_iff (hmid hsplit)).mpr (h pre first mid later post' hsplit)
        rw [hbetween, hzero, Nat.add_zero]
    rcases List.append_eq_append_iff.mp (hsplit.symm.trans hsplit') with
      ⟨mid, hpre, -⟩ | ⟨mid, hpre, -⟩
    · exact hordered hsplit hsplit' hpre
    · exact (hordered hsplit' hsplit hpre).symm
  · intro h pre first mid later post hsplit
    have hsame := h pre first _ (pre ++ .returned first :: mid) later post hsplit
      (by rw [hsplit, List.append_assoc, List.cons_append])
    rw [hbetween] at hsame
    exact (skippedBy_eq_zero_iff (hmid hsplit)).mp (by omega)

end Skipped

/-! ## Returns and skips of a run -/

section Events

variable {scan : Scan α β} {stream contents : ℕ → α} {es : List Event} {s : System scan}

/-- In a run every event shows what it does in a state of the invariant. -/
theorem shows_of_after (hbuffer : 0 < scan.bufferSize) {e : Event}
    (h : (scanLoop scan stream).stateAfter (started scan contents) es = some s) :
    Shows s e ((scanLoop scan stream).step s e).1 :=
  shows_step hbuffer (run_ok hbuffer h).inv e

theorem Shows.length_le {e : Event} {actions : List (Action β)} (h : Shows s e actions) :
    actions.length ≤ 1 := by
  cases h with
  | nothing => exact Nat.zero_le 1
  | timeout => exact le_rfl
  | overrun => exact le_rfl
  | returned => exact le_rfl

theorem returns_unique {e : Event} {timestamp timestamp' : ℤ} (h : Returns s timestamp e)
    (h' : Returns s timestamp' e) : timestamp = timestamp' := by
  cases e with
  | step timedOut clock =>
    obtain ⟨readOrigin, snapshot, hpc, -⟩ := h
    obtain ⟨readOrigin', snapshot', hpc', -⟩ := h'
    exact (Pc.copy.inj (hpc.symm.trans hpc')).2.1
  | _ => exact h.elim

theorem Shows.of_returns {e : Event} {actions : List (Action β)} (h : Shows s e actions)
    {timestamp : ℤ} (hreturns : Returns s timestamp e) :
    ∃ window : Fetched β, window.response.timestamp = timestamp ∧ actions = [.returned window] := by
  cases h with
  | nothing _ hno => exact absurd hreturns (hno timestamp)
  | timeout _ hno => exact absurd hreturns (hno timestamp)
  | overrun _ hskips =>
    cases e with
    | step timedOut clock =>
      obtain ⟨readOrigin, snapshot, hpc, -⟩ := hreturns
      have hpoll := hskips.1
      rw [hpc] at hpoll
      cases hpoll
    | _ => exact hreturns.elim
  | returned window _ hwindow => exact ⟨window, returns_unique hwindow hreturns, rfl⟩

theorem Shows.of_skips {e : Event} {actions : List (Action β)} (h : Shows s e actions)
    (hskips : Skips s e) : ∃ samplesLost, actions = [.overrun samplesLost] := by
  cases h with
  | nothing hno => exact absurd hskips hno
  | timeout hno => exact absurd hskips hno
  | overrun samplesLost => exact ⟨samplesLost, rfl⟩
  | returned _ hno => exact absurd hskips hno

theorem Shows.returns {e : Event} {window : Fetched β} (h : Shows s e [.returned window]) :
    Returns s window.response.timestamp e := by
  cases h with
  | returned _ _ hreturns => exact hreturns

theorem Shows.skips {e : Event} {samplesLost : ℕ} (h : Shows s e [.overrun samplesLost]) :
    Skips s e := by
  cases h with
  | overrun _ hskips => exact hskips

/-- The events that return and the windows returned. -/
theorem returnsAt_iff (hbuffer : 0 < scan.bufferSize) {timestamp : ℤ} {n : ℕ} :
    ReturnsAt scan stream contents es timestamp n ↔ ∃ window : Fetched β,
      window.response.timestamp = timestamp ∧
        (scanLoop scan stream).At (fun t e => ((scanLoop scan stream).step t e).1 =
          [.returned window]) (started scan contents) es n := by
  constructor
  · rintro ⟨t, e, ht, he, hreturns⟩
    obtain ⟨window, hstamp, hacts⟩ :=
      (shows_of_after (e := e) hbuffer ht).of_returns hreturns
    exact ⟨window, hstamp, t, e, ht, he, hacts⟩
  · rintro ⟨window, rfl, hat⟩
    refine hat.mono _ fun t e ht hacts => ?_
    have hshows := shows_of_after (e := e) hbuffer ht
    rw [hacts] at hshows
    exact hshows.returns

theorem skipsAt_iff (hbuffer : 0 < scan.bufferSize) {n : ℕ} :
    SkipsAt scan stream contents es n ↔ ∃ samplesLost,
      (scanLoop scan stream).At (fun t e => ((scanLoop scan stream).step t e).1 =
        [.overrun samplesLost]) (started scan contents) es n := by
  constructor
  · rintro ⟨t, e, ht, he, hskips⟩
    obtain ⟨samplesLost, hacts⟩ := (shows_of_after (e := e) hbuffer ht).of_skips hskips
    exact ⟨samplesLost, t, e, ht, he, hacts⟩
  · rintro ⟨samplesLost, hat⟩
    refine hat.mono _ fun t e ht hacts => ?_
    have hshows := shows_of_after (e := e) hbuffer ht
    rw [hacts] at hshows
    exact hshows.skips

theorem along_length_le (hbuffer : 0 < scan.bufferSize) :
    (scanLoop scan stream).Along (fun t e => ((scanLoop scan stream).step t e).1.length ≤ 1)
      (started scan contents) es :=
  fun _ _ _ _ ht => (shows_of_after hbuffer ht).length_le

/-- An action of a run, the event that shows it, and the actions before it. -/
theorem at_of_actionsOf (hbuffer : 0 < scan.bufferSize) {a : Action β}
    {pre post : List (Action β)} (h : actionsOf scan stream contents es = pre ++ a :: post) :
    ∃ n, (scanLoop scan stream).At (fun t e => ((scanLoop scan stream).step t e).1 = [a])
        (started scan contents) es n ∧ actionsOf scan stream contents (es.take n) = pre :=
  EventLoop.at_of_actions _ (along_length_le hbuffer) h

/-- Overruns between returned windows are skips between fetches that return. -/
theorem noSkip_iff (hbuffer : 0 < scan.bufferSize) :
    NoSkip scan stream contents es ↔ NoOverrun (actionsOf scan stream contents es) := by
  constructor
  · intro h pre first mid later post hsplit samplesLost hmem
    obtain ⟨mid, mid', rfl⟩ := List.append_of_mem hmem
    have hlast : actionsOf scan stream contents es =
        (pre ++ .returned first :: (mid ++ .overrun samplesLost :: mid')) ++
          .returned later :: post := by
      rw [hsplit]
      simp
    obtain ⟨k, hk, hbefore⟩ := at_of_actionsOf hbuffer hlast
    have hskipped : actionsOf scan stream contents (es.take k) =
        (pre ++ .returned first :: mid) ++ .overrun samplesLost :: mid' := by
      rw [hbefore]
      simp
    obtain ⟨j, hj, hbefore⟩ := at_of_actionsOf hbuffer hskipped
    obtain ⟨i, hi, -⟩ := at_of_actionsOf hbuffer hbefore
    rw [List.take_take] at hi
    obtain ⟨hjk, hj⟩ := (EventLoop.at_take_iff _).mp hj
    obtain ⟨hij, hi⟩ := (EventLoop.at_take_iff _).mp hi
    exact h i j k _ _ (lt_of_lt_of_le hij (min_le_left j k)) hjk
      ((returnsAt_iff hbuffer).mpr ⟨first, rfl, hi⟩) ((skipsAt_iff hbuffer).mpr ⟨samplesLost, hj⟩)
      ((returnsAt_iff hbuffer).mpr ⟨later, rfl, hk⟩)
  · intro h i j k timestamp timestamp' hij hjk hi hj hk
    obtain ⟨first, -, hi⟩ := (returnsAt_iff hbuffer).mp hi
    obtain ⟨samplesLost, hj⟩ := (skipsAt_iff hbuffer).mp hj
    obtain ⟨later, -, hk⟩ := (returnsAt_iff hbuffer).mp hk
    obtain ⟨post, hpost⟩ := EventLoop.actions_of_at _ hk
    obtain ⟨mid', hmid'⟩ :=
      EventLoop.actions_of_at _ ((EventLoop.at_take_iff _).mpr ⟨hjk, hj⟩)
    rw [List.take_take, min_eq_left hjk.le] at hmid'
    obtain ⟨mid, hmid⟩ := EventLoop.actions_of_at _ ((EventLoop.at_take_iff _).mpr ⟨hij, hi⟩)
    refine h (actionsOf scan stream contents ((es.take j).take i)) first
      (mid ++ .overrun samplesLost :: mid') later post ?_ samplesLost
      (List.mem_append_right _ List.mem_cons_self)
    unfold actionsOf
    rw [hpost, hmid', hmid]
    simp

/-- The clock readings of the returned windows. -/
theorem forall_returnsAt_iff (hbuffer : 0 < scan.bufferSize) :
    (∀ i j timestamp timestamp', ReturnsAt scan stream contents es timestamp i →
        ReturnsAt scan stream contents es timestamp' j → timestamp = timestamp') ↔
      ∀ first ∈ windowsOf (actionsOf scan stream contents es),
        ∀ later ∈ windowsOf (actionsOf scan stream contents es),
          first.response.timestamp = later.response.timestamp := by
  have hreturned : ∀ {window : Fetched β},
      window ∈ windowsOf (actionsOf scan stream contents es) ↔
        ∃ n, (scanLoop scan stream).At (fun t e => ((scanLoop scan stream).step t e).1 =
          [.returned window]) (started scan contents) es n := by
    intro window
    constructor
    · intro hmem
      obtain ⟨i, hi⟩ := List.getElem?_of_mem hmem
      obtain ⟨pre, post, hsplit, -⟩ := windowsOf_getElem?.mp hi
      obtain ⟨n, hn, -⟩ := at_of_actionsOf hbuffer hsplit
      exact ⟨n, hn⟩
    · rintro ⟨n, hn⟩
      obtain ⟨post, hpost⟩ := EventLoop.actions_of_at _ hn
      exact List.mem_of_getElem? (windowsOf_getElem?.mpr ⟨_, post, hpost, rfl⟩)
  constructor
  · intro h first hfirst later hlater
    obtain ⟨i, hi⟩ := hreturned.mp hfirst
    obtain ⟨j, hj⟩ := hreturned.mp hlater
    exact h i j _ _ ((returnsAt_iff hbuffer).mpr ⟨first, rfl, hi⟩)
      ((returnsAt_iff hbuffer).mpr ⟨later, rfl, hj⟩)
  · intro h i j timestamp timestamp' hi hj
    obtain ⟨first, rfl, hfirst⟩ := (returnsAt_iff hbuffer).mp hi
    obtain ⟨later, rfl, hlater⟩ := (returnsAt_iff hbuffer).mp hj
    exact h first (hreturned.mpr ⟨i, hfirst⟩) later (hreturned.mpr ⟨j, hlater⟩)

end Events

/-! ## The timebase of a run -/

section Timebase

variable {scan : Scan α β} {stream contents : ℕ → α} {es : List Event} {s : System scan}
  {daqName : String} {channelList : List String}

theorem mem_samplesOf (hbuffer : 0 < scan.bufferSize) (hlist : channelList.length = scan.numChans)
    {window : Fetched β} (hwindow : Batch scan window) {channel : ℕ}
    (hchannel : channel < scan.numChans) {start : ℤ} {x : ℕ × ℤ} :
    x ∈ samplesOf scan.numChans channel (measurementAt scan daqName channelList start window) ↔
      ∃ j < scan.samplesPerChannel, x =
        (window.readOrigin / scan.numChans + j, start + j * scan.actualSamplePeriod) := by
  unfold measurementAt
  rw [samplesOf_eq hbuffer hlist hwindow hchannel]
  unfold spaced
  rw [List.zip_map', List.mem_map]
  simp only [List.mem_range, eq_comm]

theorem first_mem_samplesOf (daqName : String) (hbuffer : 0 < scan.bufferSize)
    (hlist : channelList.length = scan.numChans) {window : Fetched β} (hwindow : Batch scan window)
    (start : ℤ) :
    (window.readOrigin / scan.numChans, start) ∈
      samplesOf scan.numChans 0 (measurementAt scan daqName channelList start window) := by
  refine (mem_samplesOf hbuffer hlist hwindow (numChans_pos hbuffer)).mpr
    ⟨0, samplesPerChannel_pos hbuffer, ?_⟩
  rw [Nat.add_zero, Nat.cast_zero, Int.zero_mul, Int.add_zero]

/-- A sample is as late as its scan, less the scans that were skipped before it. -/
theorem sample_eq (hbuffer : 0 < scan.bufferSize) (hlist : channelList.length = scan.numChans)
    {window : Fetched β} (hwindow : Batch scan window) {i skipped : ℕ}
    (horigin : window.readOrigin = i * scan.fetchSize + skipped) {channel : ℕ}
    (hchannel : channel < scan.numChans) {start : ℤ} {x : ℕ × ℤ}
    (hx : x ∈ samplesOf scan.numChans channel (measurementAt scan daqName channelList
      (start + i * scan.samplesPerChannel * scan.actualSamplePeriod) window)) :
    x.2 = start + ((x.1 : ℤ) - (skipped / scan.numChans : ℕ)) * scan.actualSamplePeriod := by
  obtain ⟨j, -, rfl⟩ := (mem_samplesOf hbuffer hlist hwindow hchannel).mp hx
  have hscan : window.readOrigin / scan.numChans =
      i * scan.samplesPerChannel + skipped / scan.numChans := by
    rw [horigin, show i * scan.fetchSize = scan.numChans * (i * scan.samplesPerChannel) by
      unfold Scan.fetchSize; ring]
    exact Nat.mul_add_div (numChans_pos hbuffer) _ _
  rw [hscan]
  push_cast
  ring

theorem batch_of_windowsOk {acts : List (Action β)} (hwindows : WindowsOk scan stream acts) :
    ∀ window ∈ windowsOf acts, Batch scan window := by
  intro window hmem
  obtain ⟨i, hi⟩ := List.getElem?_of_mem hmem
  obtain ⟨pre, post, hsplit, -⟩ := windowsOf_getElem?.mp hi
  have hwindow := hwindows pre window post hsplit
  refine ⟨hwindow.aligned, ?_, hwindow.period⟩
  rw [hwindow.data, trueWindow, List.length_map, List.length_range]

/-- The scans before the `i`-th window were returned in windows or skipped. -/
theorem origin_eq {acts : List (Action β)} (hwindows : WindowsOk scan stream acts)
    {pre post : List (Action β)} {window : Fetched β}
    (hsplit : acts = pre ++ .returned window :: post) :
    window.readOrigin = (windowsOf pre).length * scan.fetchSize + skippedBy pre ∧
      scan.numChans ∣ skippedBy pre := by
  have hwindow := hwindows pre window post hsplit
  have horigin := hwindow.origin.trans (consumedBy_eq scan pre)
  refine ⟨horigin, ?_⟩
  have haligned := hwindow.aligned
  rw [horigin] at haligned
  refine (Nat.dvd_add_right ?_).mp haligned
  exact Dvd.dvd.mul_left (Dvd.intro _ rfl) _

theorem measurement_mem {acts : List (Action β)} {f : ℕ → Fetched β → Fetched β × Measurement β}
    {pre post : List (Action β)} {window : Fetched β}
    (hsplit : acts = pre ++ .returned window :: post) :
    f (windowsOf pre).length window ∈ (windowsOf acts).mapIdx f := by
  refine List.mem_of_getElem? (i := (windowsOf pre).length) ?_
  rw [List.getElem?_mapIdx, windowsOf_getElem?.mpr ⟨pre, post, hsplit, rfl⟩]
  rfl

/-- With a period the timebase holds exactly when the same number of samples was skipped before
every window. -/
theorem timebase_of_period (hbuffer : 0 < scan.bufferSize)
    (hlist : channelList.length = scan.numChans) (hperiod : scan.actualSamplePeriod ≠ 0)
    {acts : List (Action β)} (hwindows : WindowsOk scan stream acts) (start : ℤ) :
    TimebaseHolds scan ((windowsOf acts).mapIdx fun i window =>
        measurementAt scan daqName channelList
          (start + i * scan.samplesPerChannel * scan.actualSamplePeriod) window) ↔
      ∀ pre first post pre' later post', acts = pre ++ .returned first :: post →
        acts = pre' ++ .returned later :: post' → skippedBy pre = skippedBy pre' := by
  have hpos := numChans_pos hbuffer
  have hbatch := batch_of_windowsOk hwindows
  constructor
  · intro h pre first post pre' later post' hsplit hsplit'
    obtain ⟨horigin, k, hk⟩ := origin_eq hwindows hsplit
    obtain ⟨horigin', k', hk'⟩ := origin_eq hwindows hsplit'
    have hfirst := hbatch first (by rw [hsplit, windowsOf_append]; simp [windowsOf_returned])
    have hlater := hbatch later (by rw [hsplit', windowsOf_append]; simp [windowsOf_returned])
    -- compare the first samples of the two windows
    have hx := first_mem_samplesOf daqName hbuffer hlist hfirst
      (start + (windowsOf pre).length * scan.samplesPerChannel * scan.actualSamplePeriod)
    have hy := first_mem_samplesOf daqName hbuffer hlist hlater
      (start + (windowsOf pre').length * scan.samplesPerChannel * scan.actualSamplePeriod)
    have hdiff := h 0 hpos _ (measurement_mem hsplit) _ (measurement_mem hsplit') _ hx _ hy
    rw [sample_eq hbuffer hlist hfirst horigin hpos hx,
      sample_eq hbuffer hlist hlater horigin' hpos hy, hk, hk',
      Nat.mul_div_cancel_left _ hpos, Nat.mul_div_cancel_left _ hpos] at hdiff
    have hzero : ((k : ℤ) - k') * scan.actualSamplePeriod = 0 := by
      linear_combination hdiff
    have hkk : (k : ℤ) - k' = 0 :=
      (mul_eq_zero.mp hzero).resolve_right (by exact_mod_cast hperiod)
    rw [hk, hk', show k = k' by omega]
  · intro h channel hchannel p hp q hq a ha b hb
    obtain ⟨i, hi⟩ := List.getElem?_of_mem hp
    obtain ⟨j, hj⟩ := List.getElem?_of_mem hq
    rw [List.getElem?_mapIdx, Option.map_eq_some_iff] at hi hj
    obtain ⟨first, hi, rfl⟩ := hi
    obtain ⟨later, hj, rfl⟩ := hj
    have hfirst := hbatch first (List.mem_of_getElem? hi)
    have hlater := hbatch later (List.mem_of_getElem? hj)
    obtain ⟨pre, post, hsplit, rfl⟩ := windowsOf_getElem?.mp hi
    obtain ⟨pre', post', hsplit', rfl⟩ := windowsOf_getElem?.mp hj
    rw [sample_eq hbuffer hlist hfirst (origin_eq hwindows hsplit).1 hchannel ha,
      sample_eq hbuffer hlist hlater (origin_eq hwindows hsplit').1 hchannel hb,
      h pre first post pre' later post' hsplit hsplit']
    ring

/-- Without a period every batch has one timestamp, and the timebase holds exactly when these are
the same. -/
theorem timebase_of_zero (hbuffer : 0 < scan.bufferSize)
    (hlist : channelList.length = scan.numChans) (hperiod : scan.actualSamplePeriod = 0)
    {windows : List (Fetched β)} (hwindows : ∀ window ∈ windows, Batch scan window) :
    TimebaseHolds scan (windows.map fun window =>
        (window, ⟨channelDataOf daqName channelList window, [window.response.timestamp]⟩)) ↔
      ∀ first ∈ windows, ∀ later ∈ windows,
        first.response.timestamp = later.response.timestamp := by
  have hpos := numChans_pos hbuffer
  have hsamples : ∀ window ∈ windows, ∀ {channel}, channel < scan.numChans →
      samplesOf scan.numChans channel
          (window, ⟨channelDataOf daqName channelList window, [window.response.timestamp]⟩) =
        [(window.readOrigin / scan.numChans, window.response.timestamp)] := by
    intro window hmem channel hchannel
    rw [samplesOf_eq hbuffer hlist (hwindows window hmem) hchannel]
    obtain ⟨m, hm⟩ := Nat.exists_eq_succ_of_ne_zero (samplesPerChannel_pos hbuffer).ne'
    rw [hm, Nat.succ_eq_add_one, List.range_succ_eq_map, List.map_cons, List.zip_cons_cons,
      List.zip_nil_right, Nat.add_zero]
  unfold TimebaseHolds
  rw [hperiod]
  constructor
  · intro h first hfirst later hlater
    have hdiff := h 0 hpos _ (List.mem_map_of_mem hfirst) _ (List.mem_map_of_mem hlater)
      _ (by rw [hsamples first hfirst hpos]; exact List.mem_singleton_self _)
      _ (by rw [hsamples later hlater hpos]; exact List.mem_singleton_self _)
    have hdiff : later.response.timestamp - first.response.timestamp = _ * ((0 : ℕ) : ℤ) := hdiff
    rw [Nat.cast_zero, Int.mul_zero] at hdiff
    omega
  · intro h channel hchannel p hp q hq a ha b hb
    obtain ⟨first, hfirst, rfl⟩ := List.mem_map.mp hp
    obtain ⟨later, hlater, rfl⟩ := List.mem_map.mp hq
    rw [hsamples first hfirst hchannel] at ha
    rw [hsamples later hlater hchannel] at hb
    rw [List.mem_singleton.mp ha, List.mem_singleton.mp hb, Nat.cast_zero, Int.mul_zero]
    exact sub_eq_zero.mpr (h first hfirst later hlater).symm

/-- **The timebase.** Every run publishes all its windows. Its timestamps follow the stream exactly
when no status read between two fetches that return finds the next sample overwritten. -/
theorem timebase_iff (scan : Scan α β) (stream contents : ℕ → α) (es : List Event)
    (s : System scan) (daqName : String) (channelList : List String)
    (hbuffer : 0 < scan.bufferSize) (hlist : channelList.length = scan.numChans)
    (hrun : (scanLoop scan stream).stateAfter (started scan contents) es = some s) :
    ∃ published, publish daqName channelList none
        (windowsOf (actionsOf scan stream contents es)) = .ok published ∧
      (TimebaseHolds scan published ↔
        (scan.actualSamplePeriod ≠ 0 ∧ NoSkip scan stream contents es) ∨
        (scan.actualSamplePeriod = 0 ∧ ∀ i j timestamp timestamp',
          ReturnsAt scan stream contents es timestamp i →
            ReturnsAt scan stream contents es timestamp' j → timestamp = timestamp')) := by
  have hok := run_ok hbuffer hrun
  have hbatch := batch_of_windowsOk hok.windows
  rw [forall_returnsAt_iff hbuffer]
  by_cases hperiod : scan.actualSamplePeriod = 0
  · refine ⟨_, publish_zero hbuffer hlist hperiod hbatch, ?_⟩
    rw [timebase_of_zero hbuffer hlist hperiod hbatch]
    exact ⟨fun h => .inr ⟨hperiod, h⟩, fun h => (h.resolve_left fun h => h.1 hperiod).2⟩
  · obtain ⟨start, hpublish⟩ := publish_none daqName hbuffer hlist hperiod hbatch
    refine ⟨_, hpublish, ?_⟩
    rw [timebase_of_period hbuffer hlist hperiod hok.windows, ← noOverrun_iff hok.overruns,
      ← noSkip_iff hbuffer]
    exact ⟨fun h => .inl ⟨hperiod, h⟩, fun h => (h.resolve_right fun h => hperiod h.1).2⟩

end Timebase

/-! ## A skipped scan -/

/-- Two channels, one sample of each at a fetch, a buffer of two fetches. -/
def oneSampleScan : Scan ℕ ℕ := { twoChannelScan with samplesPerChannel := 1 }

/-- Ten samples arrive before the first fetch, which goes on at sample 6. A second one follows. -/
def skippedBefore : List Event :=
  .begin :: List.replicate 10 .sample ++
    [.fetch, .step false 0, .step false 5000, .step false 0, .step false 6000, .step false 0,
      .step false 0, .step false 0] ++
    [.fetch, .step false 0, .step false 7500, .step false 0, .step false 0, .step false 0]

/-- What is skipped before the first window does not matter. -/
theorem timebase_skippedBefore :
    ∃ published, publish "daq" ["ai0", "ai1"] none
        (windowsOf (actionsOf oneSampleScan (· + 7) (fun _ => 0) skippedBefore)) = .ok published ∧
      TimebaseHolds oneSampleScan published := by
  have hsome : ((scanLoop oneSampleScan (· + 7)).stateAfter
      (started oneSampleScan fun _ => 0) skippedBefore).isSome = true := by decide +kernel
  have hacts : actionsOf oneSampleScan (· + 7) (fun _ => 0) skippedBefore =
      [.overrun 6, .returned ⟨6, ⟨[13, 14], 6000, 1000⟩⟩,
        .returned ⟨8, ⟨[15, 16], 7500, 1000⟩⟩] := by decide +kernel
  obtain ⟨s, hs⟩ := Option.isSome_iff_exists.mp hsome
  obtain ⟨published, hpublish, hiff⟩ := timebase_iff oneSampleScan (· + 7) (fun _ => 0)
    skippedBefore s "daq" ["ai0", "ai1"] (by decide) rfl hs
  refine ⟨published, hpublish, hiff.mpr (.inl ⟨by decide, (noSkip_iff (by decide)).mpr ?_⟩)⟩
  intro pre first mid later post hsplit samplesLost hmem
  rw [hacts] at hsplit
  -- there is room for an overrun between two windows only at the beginning of the three actions
  have hlength := congrArg List.length hsplit
  have hmid := List.length_pos_of_mem hmem
  have hpre : pre = [] := by
    simp only [List.length_cons, List.length_append, List.length_nil] at hlength
    exact List.eq_nil_of_length_eq_zero (by omega)
  rw [hpre] at hsplit
  exact absurd (List.cons.inj hsplit).1 nofun

/-- Eight samples arrive between two fetches, four more than the buffer keeps beside the window. -/
def skippedFetch : List Event :=
  [.begin, .sample, .sample, .fetch, .step false 0, .step false 5000, .step false 0, .step false 0,
    .step false 0] ++ List.replicate 8 .sample ++
  [.fetch, .step false 0, .step false 9000, .step false 0, .step false 9000, .step false 0,
    .step false 0, .step false 0]

/-- The second window starts at scan 3, and its timestamp is one period after that of scan 0. -/
theorem timebase_skippedFetch :
    ((scanLoop oneSampleScan (· + 7)).stateAfter
        (started oneSampleScan fun _ => 0) skippedFetch).isSome = true ∧
    ∃ published, publish "daq" ["ai0", "ai1"] none
        (windowsOf (actionsOf oneSampleScan (· + 7) (fun _ => 0) skippedFetch)) = .ok published ∧
      ¬ TimebaseHolds oneSampleScan published := by
  have hwindows : windowsOf (actionsOf oneSampleScan (· + 7) (fun _ => 0) skippedFetch) =
      [⟨0, ⟨[7, 8], 5000, 1000⟩⟩, ⟨6, ⟨[13, 14], 9000, 1000⟩⟩] := by decide +kernel
  have hpublish : publish "daq" ["ai0", "ai1"] none
      [⟨0, ⟨[7, 8], 5000, 1000⟩⟩, ⟨6, ⟨[13, 14], 9000, 1000⟩⟩] =
      .ok [(⟨0, ⟨[7, 8], 5000, 1000⟩⟩, ⟨[("daq.ai0", [7]), ("daq.ai1", [8])], [5000]⟩),
        (⟨6, ⟨[13, 14], 9000, 1000⟩⟩, ⟨[("daq.ai0", [13]), ("daq.ai1", [14])], [6000]⟩)] := rfl
  refine ⟨by decide +kernel, _, by rw [hwindows, hpublish], fun h => ?_⟩
  have hdiff := h 0 (by decide) _ List.mem_cons_self _
    (List.mem_cons_of_mem _ (List.mem_singleton_self _))
    (0, 5000) (by decide) (3, 6000) (by decide)
  exact absurd hdiff (by decide)

end Instro.Mcc
