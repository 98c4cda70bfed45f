import Instro.Mcc.Stream
import Mathlib.Tactic.Ring

/-!
# Stream integrity

What `fetch_analog` returns is a window of the stream. The invariant says what the driver knows
about the count and the copy: the count it has accumulated is the true one, and the copy holds the
stream unless the window has been overwritten, which the torn-copy guard sees.
-/

namespace Instro.Mcc

open Instro.Library

variable {α β : Type}

/-! ## The sample count -/

theorem rollover_pos : 0 < rollover := by decide

/-- The driver's counters stand for `count` samples. -/
structure Driver.Counts (d : Driver) (count : ℕ) : Prop where
  raw : d.rawCountPrev = count % rollover
  total : d.rawCountPrev + d.countOffset = count

/-- **Rollovers.** From a signed 32-bit count that is fewer than `rollover` samples ahead the driver
reconstructs the count. -/
theorem accumulateCount_eq {d : Driver} {count next : ℕ} (h : d.Counts count) (hle : count ≤ next)
    (hnear : next < count + rollover) :
    (d.accumulateCount (Int.bmod next rollover)).1 = next ∧
      (d.accumulateCount (Int.bmod next rollover)).2.Counts next ∧
      (d.accumulateCount (Int.bmod next rollover)).2.samplesConsumed = d.samplesConsumed := by
  obtain ⟨hraw, htotal⟩ := h
  have hpos : 0 < rollover := rollover_pos
  have hlow : (Int.bmod next rollover % rollover).toNat = next % rollover := by
    rw [Int.bmod_emod, ← Int.natCast_mod, Int.toNat_natCast]
  -- the count wraps around at most once
  have hwrap : next % rollover + (if next % rollover < d.rawCountPrev then
      d.countOffset + rollover else d.countOffset) = next := by
    have hcount := Nat.div_add_mod count rollover
    have hnext := Nat.div_add_mod next rollover
    have hlt := Nat.mod_lt next hpos
    have hlt' := Nat.mod_lt count hpos
    have hdiv : next / rollover = count / rollover ∨ next / rollover = count / rollover + 1 := by
      have hge := Nat.div_le_div_right (c := rollover) hle
      have hle' : next / rollover ≤ count / rollover + 1 := by
        rw [← Nat.add_div_right count hpos]
        exact Nat.div_le_div_right hnear.le
      omega
    rcases hdiv with hdiv | hdiv
    · rw [hdiv] at hnext
      split_ifs <;> omega
    · rw [hdiv, Nat.mul_add, Nat.mul_one] at hnext
      split_ifs <;> omega
  unfold Driver.accumulateCount
  rw [hlow]
  exact ⟨hwrap, ⟨rfl, hwrap⟩, rfl⟩

/-- The counts that `_accumulate_count` returns, for counters read one after another. -/
def Driver.accumulateCounts (d : Driver) : List ℤ → List ℕ
  | [] => []
  | rawCount :: rawCounts =>
    let counted := d.accumulateCount rawCount
    counted.1 :: counted.2.accumulateCounts rawCounts

/-- The counter has rolled over at most once from one count to the next. -/
def Follows (count next : ℕ) : Prop := count ≤ next ∧ next < count + rollover

theorem accumulateCounts_of_counts {d : Driver} {count : ℕ} {counts : List ℕ} (h : d.Counts count)
    (hfollows : List.IsChain Follows (count :: counts)) :
    d.accumulateCounts (counts.map fun next : ℕ => Int.bmod next rollover) = counts := by
  induction counts generalizing d count with
  | nil => rfl
  | cons next counts ih =>
    obtain ⟨⟨hle, hnear⟩, hrest⟩ := List.isChain_cons_cons.mp hfollows
    obtain ⟨hcount, hcounts, -⟩ := accumulateCount_eq h hle hnear
    rw [List.map_cons, Driver.accumulateCounts, hcount, ih hcounts hrest]

/-- **The counts behind the counter.** From the start of a scan on, the driver gets back every true count
from its signed 32-bit counter, over any number of rollovers. -/
theorem accumulateCounts_eq {counts : List ℕ} (hfollows : List.IsChain Follows (0 :: counts)) :
    Driver.start.accumulateCounts (counts.map fun count : ℕ => Int.bmod count rollover) = counts :=
  accumulateCounts_of_counts ⟨rfl, rfl⟩ hfollows

/-- Over both boundaries of the counter, twice. -/
theorem accumulateCounts_eq_rollovers :
    Driver.start.accumulateCounts
        (([0, 2 ^ 31 - 1, 2 ^ 31, 2 ^ 32 - 1, 2 ^ 32, 2 ^ 33 - 1, 2 ^ 33] : List ℕ).map
          fun count : ℕ => Int.bmod count rollover) =
      [0, 2 ^ 31 - 1, 2 ^ 31, 2 ^ 32 - 1, 2 ^ 32, 2 ^ 33 - 1, 2 ^ 33] :=
  accumulateCounts_eq (by simp [Follows, rollover])

/-! ## Windows -/

section Windows

variable {scan : Scan α β} {samplesConsumed count : ℕ}

theorem numChans_pos (hbuffer : 0 < scan.bufferSize) : 0 < scan.numChans := by
  refine Nat.pos_of_ne_zero fun h => ?_
  unfold Scan.bufferSize Scan.fetchSize at hbuffer
  rw [h, Nat.zero_mul, Nat.zero_mul] at hbuffer
  exact Nat.lt_irrefl 0 hbuffer

theorem fetchSize_le_bufferSize (hbuffer : 0 < scan.bufferSize) :
    scan.fetchSize ≤ scan.bufferSize := by
  unfold Scan.bufferSize at hbuffer ⊢
  exact Nat.le_mul_of_pos_right _ (Nat.pos_of_mul_pos_left hbuffer)

/-- Rounding up to a multiple. -/
theorem dvd_roundUp {n x : ℕ} (hn : 0 < n) :
    x ≤ (if x % n ≠ 0 then x + (n - x % n) else x) ∧
      n ∣ (if x % n ≠ 0 then x + (n - x % n) else x) := by
  have hmod := Nat.mod_lt x hn
  have hdiv := Nat.div_add_mod x n
  split_ifs with h
  · refine ⟨by omega, x / n + 1, ?_⟩
    rw [Nat.mul_add, Nat.mul_one]
    omega
  · exact ⟨le_rfl, Nat.dvd_of_mod_eq_zero (not_not.mp h)⟩

/-- After an overrun the window starts further on, at a scan boundary. -/
theorem overrun_eq_some {oldest : ℕ} (hbuffer : 0 < scan.bufferSize)
    (h : scan.overrun samplesConsumed count = some oldest) :
    samplesConsumed < oldest ∧ scan.numChans ∣ oldest := by
  have hpos := numChans_pos hbuffer
  unfold Scan.overrun at h
  by_cases hlost : samplesConsumed < count - scan.bufferSize
  · rw [if_pos hlost] at h
    obtain rfl := Option.some.inj h
    obtain ⟨hle, hdvd⟩ := dvd_roundUp (x := count - scan.bufferSize) hpos
    exact ⟨lt_of_lt_of_le hlost hle, hdvd⟩
  · rw [if_neg hlost] at h
    cases h

/-- Wrapped around or not, the slots are those of the samples of the window. -/
theorem copySlots_eq (hbuffer : 0 < scan.bufferSize) (readOrigin : ℕ) :
    scan.copySlots readOrigin =
      (List.range scan.fetchSize).map fun i => (readOrigin + i) % scan.bufferSize := by
  have hfit := fetchSize_le_bufferSize hbuffer
  have hstart := Nat.mod_lt readOrigin hbuffer
  have hlow : ∀ i, readOrigin % scan.bufferSize + i < scan.bufferSize →
      (readOrigin + i) % scan.bufferSize = readOrigin % scan.bufferSize + i := by
    intro i hi
    rw [← Nat.mod_add_mod, Nat.mod_eq_of_lt hi]
  have hhigh : ∀ i, i < scan.fetchSize → scan.bufferSize ≤ readOrigin % scan.bufferSize + i →
      (readOrigin + i) % scan.bufferSize =
        i - (scan.bufferSize - readOrigin % scan.bufferSize) := by
    intro i hi hwrap
    rw [← Nat.mod_add_mod, Nat.mod_eq_sub_mod hwrap, Nat.mod_eq_of_lt (by omega)]
    omega
  unfold Scan.copySlots
  show (if _ then _ else _) = _
  split_ifs with hwrap
  · refine List.map_congr_left fun i hi => ?_
    have hi := List.mem_range.mp hi
    exact (hlow i (by omega)).symm
  · refine List.ext_getElem (by simp; omega) fun i _ hi => ?_
    have hi : i < scan.fetchSize := by simpa using hi
    rw [List.getElem_map, List.getElem_range]
    by_cases hfirst : i < scan.bufferSize - readOrigin % scan.bufferSize
    · rw [List.getElem_append_left (by simpa using hfirst), hlow i (by omega)]
      simp
    · rw [List.getElem_append_right (by simpa using hfirst), hhigh i hi (by omega)]
      simp

/-- The window of the stream from a sample on, converted by channel. -/
def trueWindow (scan : Scan α β) (stream : ℕ → α) (readOrigin : ℕ) : List β :=
  (List.range scan.fetchSize).map fun i =>
    scan.toEng ((readOrigin + i) % scan.numChans) (stream (readOrigin + i))

theorem convert_eq {stream : ℕ → α} {readOrigin : ℕ} (haligned : scan.numChans ∣ readOrigin) :
    scan.convert ((List.range scan.fetchSize).map fun i => stream (readOrigin + i)) =
      trueWindow scan stream readOrigin := by
  unfold Scan.convert trueWindow
  refine List.ext_getElem (by simp) fun i _ _ => ?_
  obtain ⟨k, rfl⟩ := haligned
  simp

end Windows

/-! ## The invariant -/

section Invariant

/-- How far an action moves the window. -/
def Action.moved (scan : Scan α β) : Action β → ℕ
  | .overrun samplesLost => samplesLost
  | .timeout => 0
  | .returned _ => scan.fetchSize

/-- The samples that have been returned or lost. -/
def consumedBy (scan : Scan α β) (acts : List (Action β)) : ℕ :=
  (acts.map (Action.moved scan)).sum

theorem consumedBy_append (scan : Scan α β) (acts acts' : List (Action β)) :
    consumedBy scan (acts ++ acts') = consumedBy scan acts + consumedBy scan acts' := by
  unfold consumedBy
  rw [List.map_append, List.sum_append]

def Pc.IsCopy : Pc α → Prop
  | .copy .. => True
  | _ => False

/-- The copy so far: its window has been written, and it is the stream unless the window has been
overwritten since. -/
structure CopyInv (scan : Scan α β) (stream : ℕ → α) (written : ℕ) (readOrigin : ℕ)
    (slots : List ℕ) (snapshot : List α) : Prop where
  available : readOrigin + scan.fetchSize ≤ written
  length : snapshot.length + slots.length = scan.fetchSize
  remaining : slots = (scan.copySlots readOrigin).drop snapshot.length
  copied : written ≤ readOrigin + scan.bufferSize →
    snapshot = (List.range snapshot.length).map fun i => stream (readOrigin + i)

/-- The invariant of a scan that has performed `acts`. -/
structure Inv (scan : Scan α β) (stream : ℕ → α) (acts : List (Action β)) (s : System scan) :
    Prop where
  holds : s.device.ring.Holds stream
  waiting : s.device.phase = .waiting → s.device.ring.written = 0
  status_le : s.lastStatus ≤ s.device.ring.written
  near : s.device.ring.written < s.lastStatus + rollover
  counts : s.device.phase ≠ .stopped ∨ s.pc.IsCopy → s.driver.Counts s.lastStatus
  consumed : s.driver.samplesConsumed = consumedBy scan acts
  aligned : scan.numChans ∣ s.driver.samplesConsumed
  copying : ∀ readOrigin timestamp slots snapshot,
    s.pc = .copy readOrigin timestamp slots snapshot → readOrigin = s.driver.samplesConsumed ∧
      CopyInv scan stream s.device.ring.written readOrigin slots snapshot

/-- A returned window starts where the windows and overruns before it end, at a scan boundary, and
holds the stream. -/
structure WindowAt (scan : Scan α β) (stream : ℕ → α) (acts : List (Action β))
    (window : Fetched β) : Prop where
  origin : window.readOrigin = consumedBy scan acts
  aligned : scan.numChans ∣ window.readOrigin
  data : window.response.data = trueWindow scan stream window.readOrigin
  period : window.response.dt = scan.actualSamplePeriod

/-- What a step does from a state of the invariant. -/
structure StepOk (scan : Scan α β) (stream : ℕ → α) (acts : List (Action β))
    (result : List (Action β) × Option (System scan)) : Prop where
  inv : ∀ s', result.2 = some s' → Inv scan stream (acts ++ result.1) s'
  windows : ∀ window, .returned window ∈ result.1 →
    result.1 = [.returned window] ∧ WindowAt scan stream acts window
  overruns : ∀ samplesLost, .overrun samplesLost ∈ result.1 → 0 < samplesLost

variable {scan : Scan α β} {stream : ℕ → α} {acts : List (Action β)} {s : System scan}

theorem StepOk.of_silent {s' : System scan} (h : Inv scan stream acts s') :
    StepOk scan stream acts ([], some s') where
  inv t ht := by
    obtain rfl := Option.some.inj ht
    rw [List.append_nil]
    exact h
  windows _ hmem := absurd hmem List.not_mem_nil
  overruns _ hmem := absurd hmem List.not_mem_nil

theorem StepOk.of_disabled : StepOk scan stream acts ([], none) where
  inv _ ht := nomatch ht
  windows _ hmem := absurd hmem List.not_mem_nil
  overruns _ hmem := absurd hmem List.not_mem_nil

/-- The driver goes to a place that is not a copy. -/
theorem Inv.goto (h : Inv scan stream acts s) {pc : Pc α} (hpc : ¬ pc.IsCopy) :
    Inv scan stream acts { s with pc := pc } where
  holds := h.holds
  waiting := h.waiting
  status_le := h.status_le
  near := h.near
  counts hphase := h.counts (.inl (hphase.resolve_right hpc))
  consumed := h.consumed
  aligned := h.aligned
  copying _ _ _ _ hcopy := by
    refine absurd ?_ hpc
    rw [show pc = _ from hcopy]
    trivial

theorem waitMore_ok (h : Inv scan stream acts s) (timedOut : Bool) :
    StepOk scan stream acts (waitMore timedOut s) := by
  unfold waitMore
  cases timedOut with
  | false => exact .of_silent (h.goto (fun h => h))
  | true =>
    refine ⟨fun t ht => ?_, fun _ hmem => ?_, fun _ hmem => ?_⟩
    · obtain rfl := Option.some.inj ht
      have hconsumed : consumedBy scan (acts ++ [.timeout]) = consumedBy scan acts :=
        consumedBy_append scan acts [.timeout]
      have hgoto : Inv scan stream acts { s with pc := .idle } := h.goto (fun h => h)
      exact { hgoto with consumed := hgoto.consumed.trans hconsumed.symm }
    · cases List.mem_singleton.mp hmem
    · cases List.mem_singleton.mp hmem

/-- A status read without data: nothing was sampled since the last read, or nothing will be. -/
theorem Inv.blank (h : Inv scan stream acts s) (hpc : ¬ s.pc.IsCopy)
    (hblank : s.device.phase ≠ .running ∨ s.device.ring.written = 0) :
    Inv scan stream acts { s with lastStatus := s.device.ring.written } where
  holds := h.holds
  waiting := h.waiting
  status_le := le_rfl
  near := Nat.lt_add_of_pos_right rollover_pos
  counts hphase := by
    have hphase : s.device.phase ≠ .stopped := hphase.resolve_right hpc
    have hzero : s.device.ring.written = 0 := by
      rcases hblank with hblank | hzero
      · refine h.waiting ?_
        cases hp : s.device.phase with
        | waiting => rfl
        | running => exact absurd hp hblank
        | stopped => exact absurd hp hphase
      · exact hzero
    have hle := h.status_le
    have hlast : s.lastStatus = s.device.ring.written := by omega
    show s.driver.Counts s.device.ring.written
    rw [← hlast]
    exact h.counts (.inl hphase)
  consumed := h.consumed
  aligned := h.aligned
  copying := h.copying

/-- The driver's count is brought up to date. -/
theorem Inv.update (h : Inv scan stream acts s) {driver : Driver}
    (hcounts : driver.Counts s.device.ring.written)
    (hconsumed : driver.samplesConsumed = s.driver.samplesConsumed) :
    Inv scan stream acts { s with lastStatus := s.device.ring.written, driver := driver } where
  holds := h.holds
  waiting := h.waiting
  status_le := le_rfl
  near := Nat.lt_add_of_pos_right rollover_pos
  counts _ := hcounts
  consumed := hconsumed.trans h.consumed
  aligned := by
    show scan.numChans ∣ driver.samplesConsumed
    rw [hconsumed]
    exact h.aligned
  copying readOrigin timestamp slots snapshot hcopy := by
    obtain ⟨horigin, hinv⟩ := h.copying readOrigin timestamp slots snapshot hcopy
    exact ⟨horigin.trans hconsumed.symm, hinv⟩

/-- A status read with data counts the samples that are written. -/
theorem Inv.read (h : Inv scan stream acts s) (hphase : s.device.phase ≠ .stopped ∨ s.pc.IsCopy) :
    s.readCount.1 = s.device.ring.written ∧ Inv scan stream acts s.readCount.2 := by
  have hreport : s.device.getStatus.curCount = Int.bmod s.device.ring.written rollover := by
    unfold Device.getStatus
    dsimp only
  unfold System.readCount
  rw [hreport]
  obtain ⟨hcount, hcounts, hconsumed⟩ := accumulateCount_eq (h.counts hphase) h.status_le h.near
  exact ⟨hcount, h.update hcounts hconsumed⟩

/-! ## The steps -/

theorem countedStep_ok (hbuffer : 0 < scan.bufferSize) (h : Inv scan stream acts s)
    (hrunning : s.device.phase = .running) (timedOut : Bool) (clock : ℤ) :
    StepOk scan stream acts (countedStep timedOut clock s.device.ring.written s) := by
  have hphase : s.device.phase ≠ .stopped := by
    rw [hrunning]
    nofun
  unfold countedStep
  split_ifs with hfew
  · exact waitMore_ok h timedOut
  · cases hover : scan.overrun s.driver.samplesConsumed s.device.ring.written with
    | some oldest =>
      obtain ⟨hlt, hdvd⟩ := overrun_eq_some hbuffer hover
      refine ⟨fun t ht => ?_, fun _ hmem => ?_, fun samplesLost hmem => ?_⟩
      · obtain rfl := Option.some.inj ht
        have hconsumed : oldest =
            consumedBy scan (acts ++ [.overrun (oldest - s.driver.samplesConsumed)]) := by
          rw [consumedBy_append, ← h.consumed]
          show oldest = s.driver.samplesConsumed + (oldest - s.driver.samplesConsumed + 0)
          omega
        exact { h with
          counts := fun _ => ⟨(h.counts (.inl hphase)).raw, (h.counts (.inl hphase)).total⟩
          consumed := hconsumed
          aligned := hdvd
          copying := nofun }
      · cases List.mem_singleton.mp hmem
      · cases List.mem_singleton.mp hmem
        omega
    | none =>
      refine .of_silent { h with counts := fun _ => h.counts (.inl hphase), copying := ?_ }
      rintro readOrigin timestamp slots snapshot ⟨⟩
      have hslots : (scan.copySlots s.driver.samplesConsumed).length = scan.fetchSize := by
        rw [copySlots_eq hbuffer, List.length_map, List.length_range]
      refine ⟨rfl, not_lt.mp hfew, ?_, rfl, fun _ => rfl⟩
      show 0 + _ = _
      rw [hslots, Nat.zero_add]

theorem pollStep_ok (hbuffer : 0 < scan.bufferSize) (h : Inv scan stream acts s)
    (hpc : ¬ s.pc.IsCopy) (timedOut : Bool) (clock : ℤ) :
    StepOk scan stream acts (pollStep timedOut clock s) := by
  unfold pollStep
  split_ifs with hblank
  · have hphase : s.device.phase ≠ .running ∨ s.device.ring.written = 0 := by
      unfold Device.getStatus at hblank
      dsimp only at hblank
      rcases hblank with hidle | hindex
      · exact .inl (of_decide_eq_true hidle)
      · refine .inr ?_
        by_contra hzero
        rw [if_neg hzero] at hindex
        omega
    exact waitMore_ok (h.blank hpc hphase) timedOut
  · have hrunning : s.device.phase = .running := by
      by_contra hrunning
      exact hblank (.inl (decide_eq_true hrunning))
    obtain ⟨hcount, hread⟩ := h.read (.inl (by rw [hrunning]; nofun))
    rw [hcount]
    exact countedStep_ok hbuffer hread hrunning timedOut clock

/-- Copying one element reads a sample of the window, unless it has been overwritten. -/
theorem copyStep_ok (hbuffer : 0 < scan.bufferSize) (h : Inv scan stream acts s)
    {readOrigin : ℕ} {timestamp : ℤ} {slot : ℕ} {slots : List ℕ} {snapshot : List α}
    (hpc : s.pc = .copy readOrigin timestamp (slot :: slots) snapshot) :
    StepOk scan stream acts ([], some { s with
      pc := .copy readOrigin timestamp slots (snapshot ++ [s.device.ring.slots slot]) }) := by
  obtain ⟨horigin, havailable, hlength, hremaining, hcopied⟩ := h.copying _ _ _ _ hpc
  have hlt : snapshot.length < scan.fetchSize := by
    rw [List.length_cons] at hlength
    omega
  have hnext : slot :: slots =
      (readOrigin + snapshot.length) % scan.bufferSize ::
        (scan.copySlots readOrigin).drop (snapshot.length + 1) := by
    rw [hremaining, copySlots_eq hbuffer, List.drop_eq_getElem_cons (by simpa using hlt)]
    simp
  obtain ⟨hslot, hslots⟩ := List.cons.inj hnext
  refine .of_silent { h with counts := fun _ => h.counts (.inr ?_), copying := ?_ }
  · rw [hpc]
    trivial
  · rintro readOrigin' timestamp' slots' snapshot' ⟨⟩
    refine ⟨horigin, havailable, ?_, ?_, fun hkept => ?_⟩
    · rw [List.length_append, List.length_singleton]
      rw [List.length_cons] at hlength
      omega
    · rw [List.length_append, List.length_singleton]
      exact hslots
    · have hsample : s.device.ring.slots slot = stream (readOrigin + snapshot.length) := by
        rw [hslot]
        refine h.holds _ (by omega) ?_
        have hkept : s.device.ring.written ≤ readOrigin + scan.bufferSize := hkept
        omega
      rw [List.length_append, List.length_singleton, List.range_succ, List.map_append,
        ← hcopied hkept, hsample]
      rfl

/-- **The torn-copy guard.** A copy that passes it holds the stream. -/
theorem guardedStep_ok (h : Inv scan stream acts s) {readOrigin : ℕ} {timestamp : ℤ}
    {snapshot : List α} (hpc : s.pc = .copy readOrigin timestamp [] snapshot) :
    StepOk scan stream acts
      (guardedStep readOrigin timestamp snapshot s.device.ring.written s) := by
  obtain ⟨horigin, -, hlength, -, hcopied⟩ := h.copying _ _ _ _ hpc
  have hcounts := h.counts (.inr (by rw [hpc]; trivial))
  have haligned : scan.numChans ∣ readOrigin := by
    rw [horigin]
    exact h.aligned
  unfold guardedStep
  split_ifs with htorn
  · exact .of_silent { h with counts := fun _ => hcounts, copying := nofun }
  · refine ⟨fun t ht => ?_, fun window hmem => ?_, fun _ hmem => ?_⟩
    · obtain rfl := Option.some.inj ht
      refine { h with
        counts := fun _ => ⟨hcounts.raw, hcounts.total⟩
        consumed := ?_
        aligned := Nat.dvd_add haligned (Dvd.intro _ rfl)
        copying := nofun }
      rw [consumedBy_append, ← h.consumed, horigin]
      rfl
    · obtain rfl := Action.returned.inj (List.mem_singleton.mp hmem)
      refine ⟨rfl, ?_, haligned, ?_, rfl⟩
      · rw [← h.consumed]
        exact horigin
      · have hfull : snapshot.length = scan.fetchSize := by
          rw [← hlength]
          rfl
        show scan.convert snapshot = _
        rw [hcopied (by omega), hfull]
        exact convert_eq haligned
    · cases List.mem_singleton.mp hmem

/-- A new sample overwrites nothing that a copy still relies on. -/
theorem sampleStep_ok (h : Inv scan stream acts s) :
    StepOk scan stream acts (systemStep stream s .sample) := by
  show StepOk scan stream acts (if _ then _ else _)
  split_ifs with hsample
  · obtain ⟨hrunning, hnear⟩ := hsample
    refine .of_silent {
      holds := h.holds.push
      waiting := fun hwaiting => ?_
      status_le := Nat.le_succ_of_le h.status_le
      near := hnear
      counts := h.counts
      consumed := h.consumed
      aligned := h.aligned
      copying := fun readOrigin timestamp slots snapshot hpc => ?_ }
    · rw [show s.device.phase = .waiting from hwaiting] at hrunning
      cases hrunning
    · obtain ⟨horigin, hinv⟩ := h.copying readOrigin timestamp slots snapshot hpc
      refine ⟨horigin, Nat.le_succ_of_le hinv.available, hinv.length, hinv.remaining,
        fun hkept => hinv.copied ?_⟩
      exact Nat.le_of_succ_le hkept
  · exact .of_disabled

/-- **Step lemma.** Every event keeps the invariant and returns only windows of the stream. -/
theorem systemStep_ok (hbuffer : 0 < scan.bufferSize) (h : Inv scan stream acts s) (e : Event) :
    StepOk scan stream acts (systemStep stream s e) := by
  cases e with
  | begin =>
    show StepOk scan stream acts (if _ then _ else _)
    split_ifs with hphase
    · refine .of_silent { h with waiting := nofun, counts := fun _ => h.counts (.inl ?_) }
      rw [hphase]
      nofun
    · exact .of_disabled
  | sample => exact sampleStep_ok h
  | halt =>
    show StepOk scan stream acts (if _ then _ else _)
    split_ifs with hphase
    · refine .of_silent { h with waiting := nofun, counts := fun hcopy => h.counts ?_ }
      exact hcopy.imp (fun hstopped => absurd rfl hstopped) id
    · exact .of_disabled
  | fetch =>
    unfold systemStep
    dsimp only
    split
    · exact .of_silent (h.goto (fun h => h))
    · exact .of_disabled
  | step timedOut clock =>
    show StepOk scan stream acts (driverStep timedOut clock s)
    unfold driverStep
    split
    · exact .of_disabled
    · exact waitMore_ok h timedOut
    · next hpc => exact pollStep_ok hbuffer h (by rw [hpc]; exact fun h => h) timedOut clock
    · next hpc => exact copyStep_ok hbuffer h hpc
    · next hpc =>
      obtain ⟨hcount, hread⟩ := h.read (.inr (by rw [hpc]; trivial))
      rw [hcount]
      exact guardedStep_ok hread hpc

theorem inv_started (contents : ℕ → α) : Inv scan stream [] (started scan contents) where
  holds := Ring.holds_of_empty rfl stream
  waiting _ := rfl
  status_le := le_rfl
  near := Nat.lt_add_of_pos_right rollover_pos
  counts _ := ⟨rfl, rfl⟩
  consumed := rfl
  aligned := dvd_zero _
  copying := nofun

end Invariant

/-! ## What a step shows -/

section Shows

variable {scan : Scan α β}

/-- A status read of a running scan finds that the first sample of the next window has been
overwritten. -/
def Skips (s : System scan) : Event → Prop
  | .step _ _ => s.pc = .poll ∧ s.device.phase = .running ∧
    s.driver.samplesConsumed + scan.bufferSize < s.device.ring.written
  | _ => False

/-- The samples lost are those before the oldest scan that has not been overwritten. -/
def Loses (s : System scan) (samplesLost : ℕ) : Prop :=
  s.device.ring.written ≤ s.driver.samplesConsumed + samplesLost + scan.bufferSize ∧
    s.driver.samplesConsumed + samplesLost + scan.bufferSize < s.device.ring.written + scan.numChans

/-- The status read after the last element of a copy finds that nothing of the window has been
overwritten. `timestamp` is what the clock showed at the status read before the copy. -/
def Returns (s : System scan) (timestamp : ℤ) : Event → Prop
  | .step _ _ => ∃ readOrigin snapshot, s.pc = .copy readOrigin timestamp [] snapshot ∧
    s.device.ring.written ≤ readOrigin + scan.bufferSize
  | _ => False

/-- What an event shows, from the state before it. -/
inductive Shows (s : System scan) (e : Event) : List (Action β) → Prop
  | nothing (hskips : ¬Skips s e) (hreturns : ∀ timestamp, ¬Returns s timestamp e) : Shows s e []
  | timeout (hskips : ¬Skips s e) (hreturns : ∀ timestamp, ¬Returns s timestamp e) :
    Shows s e [.timeout]
  | overrun (samplesLost : ℕ) (hskips : Skips s e) (hloses : Loses s samplesLost) :
    Shows s e [.overrun samplesLost]
  | returned (window : Fetched β) (hskips : ¬Skips s e)
      (hreturns : Returns s window.response.timestamp e) :
    Shows s e [.returned window]

variable {stream : ℕ → α} {acts : List (Action β)} {s : System scan}

theorem shows_waitMore {e : Event} (hskips : ¬Skips s e)
    (hreturns : ∀ timestamp, ¬Returns s timestamp e) (timedOut : Bool) (s' : System scan) :
    Shows s e (waitMore timedOut s').1 := by
  cases timedOut with
  | false => exact .nothing hskips hreturns
  | true => exact .timeout hskips hreturns

/-- What is skipped at an overrun. -/
theorem loses_of_overrun (hbuffer : 0 < scan.bufferSize) {samplesConsumed count oldest : ℕ}
    (h : scan.overrun samplesConsumed count = some oldest) :
    samplesConsumed + scan.bufferSize < count ∧ samplesConsumed < oldest ∧
      count ≤ oldest + scan.bufferSize ∧ oldest + scan.bufferSize < count + scan.numChans := by
  have hpos := numChans_pos hbuffer
  have hmod := Nat.mod_lt (count - scan.bufferSize) hpos
  unfold Scan.overrun at h
  by_cases hlost : samplesConsumed < count - scan.bufferSize
  · rw [if_pos hlost] at h
    obtain rfl := Option.some.inj h
    split_ifs with hrest
    · omega
    · omega
  · rw [if_neg hlost] at h
    cases h

theorem not_overwritten_of_overrun {samplesConsumed count : ℕ}
    (h : scan.overrun samplesConsumed count = none) :
    ¬samplesConsumed + scan.bufferSize < count := by
  unfold Scan.overrun at h
  by_cases hlost : samplesConsumed < count - scan.bufferSize
  · rw [if_pos hlost] at h
    cases h
  · omega

theorem shows_pollStep (hbuffer : 0 < scan.bufferSize) (h : Inv scan stream acts s)
    (hpc : s.pc = .poll) (timedOut : Bool) (clock : ℤ) :
    Shows s (.step timedOut clock) (pollStep timedOut clock s).1 := by
  have hreturns : ∀ timestamp, ¬Returns s timestamp (.step timedOut clock) := by
    rintro timestamp ⟨readOrigin, snapshot, hcopy, -⟩
    rw [hpc] at hcopy
    cases hcopy
  unfold pollStep
  split_ifs with hblank
  · refine shows_waitMore ?_ hreturns timedOut _
    rintro ⟨-, hrunning, hmany⟩
    unfold Device.getStatus at hblank
    dsimp only at hblank
    rcases hblank with hidle | hindex
    · exact of_decide_eq_true hidle hrunning
    · rw [if_neg (by omega)] at hindex
      omega
  · have hrunning : s.device.phase = .running := by
      by_contra hrunning
      exact hblank (.inl (decide_eq_true hrunning))
    have hphase : s.device.phase ≠ .stopped ∨ s.pc.IsCopy := by
      rw [hrunning]
      exact .inl nofun
    obtain ⟨hcount, hread⟩ := h.read hphase
    have hconsumed : s.readCount.2.driver.samplesConsumed = s.driver.samplesConsumed :=
      hread.consumed.trans h.consumed.symm
    have hfit := fetchSize_le_bufferSize hbuffer
    rw [hcount]
    unfold countedStep
    rw [hconsumed]
    split_ifs with hfew
    · refine shows_waitMore ?_ hreturns timedOut _
      rintro ⟨-, -, hmany⟩
      omega
    · cases hover : scan.overrun s.driver.samplesConsumed s.device.ring.written with
      | some oldest =>
        obtain ⟨hmany, hlt, hlow, hhigh⟩ := loses_of_overrun hbuffer hover
        refine .overrun _ ⟨hpc, hrunning, hmany⟩ ⟨?_, ?_⟩
        · omega
        · omega
      | none =>
        refine .nothing ?_ hreturns
        rintro ⟨-, -, hmany⟩
        exact not_overwritten_of_overrun hover hmany

/-- At the places that are neither a status read before a copy nor one after it, nothing is skipped or
returned. -/
theorem not_skips_returns {timedOut : Bool} {clock : ℤ} (hpoll : s.pc ≠ .poll)
    (hcopy : ∀ readOrigin timestamp snapshot, s.pc ≠ .copy readOrigin timestamp [] snapshot) :
    ¬Skips s (.step timedOut clock) ∧ ∀ timestamp, ¬Returns s timestamp (.step timedOut clock) :=
  ⟨fun h => hpoll h.1, fun timestamp ⟨readOrigin, snapshot, h, _⟩ =>
    hcopy readOrigin timestamp snapshot h⟩

theorem shows_driverStep (hbuffer : 0 < scan.bufferSize) (h : Inv scan stream acts s)
    (timedOut : Bool) (clock : ℤ) :
    Shows s (.step timedOut clock) (driverStep timedOut clock s).1 := by
  unfold driverStep
  split
  · next hpc =>
    obtain ⟨hskips, hreturns⟩ := not_skips_returns (by rw [hpc]; nofun) (by rw [hpc]; nofun)
    exact .nothing hskips hreturns
  · next hpc =>
    obtain ⟨hskips, hreturns⟩ := not_skips_returns (by rw [hpc]; nofun) (by rw [hpc]; nofun)
    exact shows_waitMore hskips hreturns timedOut s
  · next hpc => exact shows_pollStep hbuffer h hpc timedOut clock
  · next hpc =>
    obtain ⟨hskips, hreturns⟩ := not_skips_returns (by rw [hpc]; nofun) (by rw [hpc]; nofun)
    exact .nothing hskips hreturns
  · next readOrigin timestamp snapshot hpc =>
    obtain ⟨hcount, -⟩ := h.read (.inr (by rw [hpc]; trivial))
    have hskips : ¬Skips s (.step timedOut clock) := by
      rintro ⟨hpoll, -⟩
      rw [hpc] at hpoll
      cases hpoll
    rw [hcount]
    unfold guardedStep
    split_ifs with htorn
    · refine .nothing hskips ?_
      rintro timestamp' ⟨readOrigin', snapshot', hcopy, hkept⟩
      obtain ⟨rfl, -, -, -⟩ := Pc.copy.inj (hpc.symm.trans hcopy)
      omega
    · exact .returned _ hskips ⟨readOrigin, snapshot, hpc, by omega⟩

/-- **What every event shows** in a state of the invariant. -/
theorem shows_step (hbuffer : 0 < scan.bufferSize) (h : Inv scan stream acts s) (e : Event) :
    Shows s e (systemStep stream s e).1 := by
  cases e with
  | begin =>
    unfold systemStep
    dsimp only
    split_ifs
    · exact .nothing id fun _ => id
    · exact .nothing id fun _ => id
  | sample =>
    unfold systemStep
    dsimp only
    split_ifs
    · exact .nothing id fun _ => id
    · exact .nothing id fun _ => id
  | halt =>
    unfold systemStep
    dsimp only
    split_ifs
    · exact .nothing id fun _ => id
    · exact .nothing id fun _ => id
  | fetch =>
    unfold systemStep
    dsimp only
    split
    · exact .nothing id fun _ => id
    · exact .nothing id fun _ => id
  | step timedOut clock => exact shows_driverStep hbuffer h timedOut clock

theorem Shows.overrun_mem {e : Event} {actions : List (Action β)} (h : Shows s e actions)
    {samplesLost : ℕ} (hmem : .overrun samplesLost ∈ actions) : Skips s e ∧ Loses s samplesLost := by
  cases h with
  | nothing => cases hmem
  | timeout => cases List.mem_singleton.mp hmem
  | overrun _ hskips hloses =>
    obtain rfl := Action.overrun.inj (List.mem_singleton.mp hmem)
    exact ⟨hskips, hloses⟩
  | returned => cases List.mem_singleton.mp hmem

end Shows

/-! ## Runs -/

section Runs

variable {scan : Scan α β} {stream : ℕ → α} {acts : List (Action β)}

/-- Every returned window starts where the actions before it end and holds the stream. -/
def WindowsOk (scan : Scan α β) (stream : ℕ → α) (acts : List (Action β)) : Prop :=
  ∀ pre window post, acts = pre ++ .returned window :: post → WindowAt scan stream pre window

theorem WindowsOk.append (h : WindowsOk scan stream acts)
    {result : List (Action β) × Option (System scan)} (hstep : StepOk scan stream acts result) :
    WindowsOk scan stream (acts ++ result.1) := by
  intro pre window post hsplit
  rcases List.append_eq_append_iff.mp hsplit with ⟨mid, hpre, hlast⟩ | ⟨mid, hacts, hlast⟩
  · have hmem : .returned window ∈ result.1 := by
      rw [hlast]
      simp
    obtain ⟨hsingle, hwindow⟩ := hstep.windows window hmem
    have hmid : mid = [] := by
      rw [hsingle] at hlast
      cases mid with
      | nil => rfl
      | cons a mid => simp at hlast
    rw [hpre, hmid, List.append_nil]
    exact hwindow
  · cases mid with
    | nil =>
      have hmem : .returned window ∈ result.1 := by
        have hlast : .returned window :: post = result.1 := hlast
        rw [← hlast]
        simp
      have hpre : pre = acts := by
        rw [hacts, List.append_nil]
      rw [hpre]
      exact (hstep.windows window hmem).2
    | cons a mid =>
      obtain ⟨rfl, -⟩ := List.cons.inj hlast
      exact h pre window mid hacts

/-- The actions of a run of the scan. -/
def actionsOf (scan : Scan α β) (stream contents : ℕ → α) (es : List Event) : List (Action β) :=
  (scanLoop scan stream).actions (started scan contents) es

/-- What holds of a run that has come to a state. -/
structure RunOk (scan : Scan α β) (stream contents : ℕ → α) (es : List Event) (s : System scan) :
    Prop where
  after : (scanLoop scan stream).stateAfter (started scan contents) es = some s
  inv : Inv scan stream (actionsOf scan stream contents es) s
  windows : WindowsOk scan stream (actionsOf scan stream contents es)
  overruns : ∀ samplesLost, .overrun samplesLost ∈ actionsOf scan stream contents es →
    0 < samplesLost

theorem RunOk.step (hbuffer : 0 < scan.bufferSize) {contents : ℕ → α} {es : List Event}
    {s s' : System scan} {e : Event} (h : RunOk scan stream contents es s)
    (hstep : ((scanLoop scan stream).step s e).2 = some s') :
    RunOk scan stream contents (es ++ [e]) s' := by
  have hok := systemStep_ok hbuffer h.inv e
  have hacts : actionsOf scan stream contents (es ++ [e]) =
      actionsOf scan stream contents es ++ (systemStep stream s e).1 := by
    unfold actionsOf
    rw [EventLoop.actions_append _ h.after, EventLoop.actions_cons_some _ hstep]
    exact congrArg _ (List.append_nil _)
  refine ⟨?_, ?_, ?_, ?_⟩
  · rw [EventLoop.stateAfter_append, h.after]
    show (scanLoop scan stream).stateAfter s [e] = some s'
    rw [EventLoop.stateAfter_cons, hstep]
    rfl
  · rw [hacts]
    exact hok.inv s' hstep
  · rw [hacts]
    exact h.windows.append hok
  · intro samplesLost hmem
    rw [hacts] at hmem
    rcases List.mem_append.mp hmem with hmem | hmem
    · exact h.overruns samplesLost hmem
    · exact hok.overruns samplesLost hmem

/-- **Run lemma.** -/
theorem run_ok (hbuffer : 0 < scan.bufferSize) {contents : ℕ → α} {es : List Event}
    {s : System scan} (h : (scanLoop scan stream).stateAfter (started scan contents) es = some s) :
    RunOk scan stream contents es s := by
  have hstart : RunOk scan stream contents [] (started scan contents) := by
    refine ⟨rfl, inv_started contents, ?_, fun _ hmem => absurd hmem List.not_mem_nil⟩
    intro pre window post hsplit
    have hlen := congrArg List.length hsplit
    simp [actionsOf] at hlen
  exact EventLoop.stateAfter_induction (scanLoop scan stream) hstart
    (fun _ _ _ _ hrun hstep => hrun.step hbuffer hstep) h

/-- Between two returned windows lie the windows and the overruns between them. -/
theorem origin_of_later (hwindows : WindowsOk scan stream acts) {pre mid post : List (Action β)}
    {first later : Fetched β}
    (hsplit : acts = pre ++ .returned first :: (mid ++ .returned later :: post)) :
    later.readOrigin = first.readOrigin + scan.fetchSize + consumedBy scan mid := by
  have hfirst := (hwindows pre first _ hsplit).origin
  have hlater := (hwindows (pre ++ .returned first :: mid) later post (by simp [hsplit])).origin
  rw [hlater, hfirst, consumedBy_append, consumedBy, consumedBy, consumedBy, List.map_cons,
    List.sum_cons]
  show _ + (scan.fetchSize + _) = _
  omega

/-- **Stream integrity.** Every returned window starts at a scan boundary and holds the stream.
Successive windows are disjoint and increasing, and contiguous unless an overrun lies between. An
overrun is a status read at which the next sample has been overwritten, and skips up to the oldest
scan that has not been. -/
theorem stream_integrity (scan : Scan α β) (stream contents : ℕ → α) (es : List Event)
    (s : System scan) (hbuffer : 0 < scan.bufferSize)
    (hrun : (scanLoop scan stream).stateAfter (started scan contents) es = some s) :
    (∀ window, .returned window ∈ actionsOf scan stream contents es →
      scan.numChans ∣ window.readOrigin ∧
        window.response.data = trueWindow scan stream window.readOrigin) ∧
    (∀ pre first mid later post, actionsOf scan stream contents es =
        pre ++ .returned first :: (mid ++ .returned later :: post) →
      first.readOrigin + scan.fetchSize ≤ later.readOrigin ∧
        ((∀ window, .returned window ∉ mid) → (∀ samplesLost, .overrun samplesLost ∉ mid) →
          later.readOrigin = first.readOrigin + scan.fetchSize)) ∧
    (scanLoop scan stream).Along (fun t e => ∀ samplesLost,
      .overrun samplesLost ∈ ((scanLoop scan stream).step t e).1 → Skips t e ∧ Loses t samplesLost)
      (started scan contents) es := by
  have hwindows := (run_ok hbuffer hrun).windows
  refine ⟨?_, ?_, ?_⟩
  · intro window hmem
    obtain ⟨pre, post, hsplit⟩ := List.append_of_mem hmem
    have hwindow := hwindows pre window post hsplit
    exact ⟨hwindow.aligned, hwindow.data⟩
  · intro pre first mid later post hsplit
    have horigin := origin_of_later hwindows hsplit
    refine ⟨by omega, fun hreturned hoverrun => ?_⟩
    have hmid : consumedBy scan mid = 0 := by
      unfold consumedBy
      rw [List.sum_eq_zero_iff_forall_eq_nat]
      intro n hn
      obtain ⟨a, ha, rfl⟩ := List.mem_map.mp hn
      cases a with
      | overrun samplesLost => exact absurd ha (hoverrun samplesLost)
      | timeout => rfl
      | returned window => exact absurd ha (hreturned window)
    omega
  · intro pre e t _ ht samplesLost hmem
    exact (shows_step hbuffer (run_ok hbuffer ht).inv e).overrun_mem hmem

end Runs

/-! ## Three fetches -/

/-- Two channels, two samples of each at a fetch, a buffer of two fetches. -/
def twoChannelScan : Scan ℕ ℕ where
  numChans := 2
  samplesPerChannel := 2
  bufferMultiplier := 2
  actualSamplePeriod := 1000
  toEng := fun _ x => x

/-- A fetch whose status read finds enough samples and no overrun. -/
def fetchAt (clock : ℤ) : List Event :=
  [.fetch, .step false 0, .step false clock] ++ List.replicate 5 (.step false 0)

/-- Ten samples arrive between the first fetch and the second one, which goes on at sample 6 and
wraps around. The third fetch follows on it, and a sample arrives during its copy. -/
def threeFetches : List Event :=
  .begin :: List.replicate 4 .sample ++ fetchAt 5000 ++ List.replicate 10 .sample ++
    [.fetch, .step false 0, .step false 8000] ++ (fetchAt 9000).tail ++
    [.fetch, .step false 0, .step false 9500, .step false 0, .sample] ++
    List.replicate 4 (.step false 0)

/-- The windows of three fetches are the stream, the third one right after the second one. -/
theorem stream_integrity_threeFetches :
    ∃ first second third samplesLost, actionsOf twoChannelScan (· + 7) (fun _ => 0) threeFetches =
        [.returned first, .overrun samplesLost, .returned second, .returned third] ∧
      second.response.data = trueWindow twoChannelScan (· + 7) second.readOrigin ∧
      first.readOrigin + 4 ≤ second.readOrigin ∧ third.readOrigin = second.readOrigin + 4 := by
  have hacts : actionsOf twoChannelScan (· + 7) (fun _ => 0) threeFetches =
      [.returned ⟨0, ⟨[7, 8, 9, 10], 5000, 1000⟩⟩, .overrun 2,
        .returned ⟨6, ⟨[13, 14, 15, 16], 9000, 1000⟩⟩,
        .returned ⟨10, ⟨[17, 18, 19, 20], 9500, 1000⟩⟩] := by decide +kernel
  have hsome : ((scanLoop twoChannelScan (· + 7)).stateAfter
      (started twoChannelScan fun _ => 0) threeFetches).isSome = true := by decide +kernel
  obtain ⟨s, hs⟩ := Option.isSome_iff_exists.mp hsome
  obtain ⟨hwindows, hordered, -⟩ := stream_integrity twoChannelScan (· + 7) (fun _ => 0)
    threeFetches s (by decide) hs
  refine ⟨_, _, _, _, hacts, (hwindows _ (by rw [hacts]; decide)).2, ?_, ?_⟩
  · exact (hordered [] _ [.overrun 2] _ [.returned ⟨10, ⟨[17, 18, 19, 20], 9500, 1000⟩⟩] hacts).1
  · exact (hordered [.returned ⟨0, ⟨[7, 8, 9, 10], 5000, 1000⟩⟩, .overrun 2] _ [] _ [] hacts).2
      nofun nofun

end Instro.Mcc
