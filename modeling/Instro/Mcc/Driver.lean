import Mathlib.Data.List.Basic
import Mathlib.Data.Nat.Notation
import Mathlib.Data.Int.Notation

/-!
# The MCC driver

The parts of `fetch_analog` that do not wait: the sample count behind the 32-bit counter, the
overrun check, the slots of a window and the conversion of a copied window. Sample counts are
naturals, so a difference that would be negative is 0.
-/

namespace Instro.Mcc

/-- A scan of a fixed channel list. `toEng k` converts a raw sample of the `k`-th channel: by the
gain of the channel, or not at all where the buffer holds scaled data. -/
structure Scan (α β : Type) where
  numChans : ℕ
  samplesPerChannel : ℕ
  bufferMultiplier : ℕ
  actualSamplePeriod : ℕ
  toEng : ℕ → α → β

structure MCCDAQData (β : Type) where
  data : List β
  timestamp : ℤ
  dt : ℕ
  deriving DecidableEq

/-- `1 << 32`, the period of `cur_count`. -/
def rollover : ℕ := 0x100000000

/-- What the driver remembers of a scan. -/
structure Driver where
  samplesConsumed : ℕ
  rawCountPrev : ℕ
  countOffset : ℕ
  deriving DecidableEq, Repr

namespace Driver

/-- `start` resets the counters. -/
def start : Driver := ⟨0, 0, 0⟩

/-- `_accumulate_count`: the count behind `cur_count`, a signed 32-bit number. -/
def accumulateCount (d : Driver) (rawCount : ℤ) : ℕ × Driver :=
  let raw := (rawCount % rollover).toNat
  let countOffset := if raw < d.rawCountPrev then d.countOffset + rollover else d.countOffset
  (raw + countOffset, { d with rawCountPrev := raw, countOffset := countOffset })

end Driver

namespace Scan

variable {α β : Type} (scan : Scan α β)

def fetchSize : ℕ := scan.numChans * scan.samplesPerChannel

def bufferSize : ℕ := scan.fetchSize * scan.bufferMultiplier

/-- Where the window moves to if samples it wants have been overwritten: the oldest sample in the
buffer, rounded up to a scan boundary. -/
def overrun (samplesConsumed currCount : ℕ) : Option ℕ :=
  let oldest := currCount - scan.bufferSize
  if samplesConsumed < oldest then
    let remainder := oldest % scan.numChans
    some (if remainder ≠ 0 then oldest + (scan.numChans - remainder) else oldest)
  else none

/-- The slots of a window in the order they are copied: in two parts if it wraps around. -/
def copySlots (readOrigin : ℕ) : List ℕ :=
  let readStart := readOrigin % scan.bufferSize
  if readStart + scan.fetchSize ≤ scan.bufferSize then
    (List.range scan.fetchSize).map (readStart + ·)
  else
    let firstPartSize := scan.bufferSize - readStart
    (List.range firstPartSize).map (readStart + ·) ++
      List.range (scan.fetchSize - firstPartSize)

/-- The converted samples of a copied window. -/
def convert (snapshot : List α) : List β :=
  snapshot.mapIdx fun i x => scan.toEng (i % scan.numChans) x

end Scan

end Instro.Mcc
