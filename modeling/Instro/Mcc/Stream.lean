import Instro.Library.EventLoop
import Instro.Library.Ring
import Instro.Mcc.Driver

/-!
# A running scan

The device appends samples to the circular buffer while `fetch_analog` reads its status and copies
a window, element by element. Every interleaving of the two is a list of events.
-/

namespace Instro.Mcc

open Instro.Library

variable {α β : Type}

/-- The background operation of the device. -/
inductive Phase
  | waiting
  | running
  | stopped
  deriving DecidableEq

structure Device (α : Type) (size : ℕ) where
  phase : Phase
  ring : Ring α size

structure StatusReport where
  idle : Bool
  curCount : ℤ
  currIndex : ℤ

/-- `ul.get_status`. The count is a signed 32-bit number; without data the index is -1. -/
def Device.getStatus {size : ℕ} (device : Device α size) : StatusReport where
  idle := device.phase ≠ .running
  curCount := Int.bmod device.ring.written rollover
  currIndex :=
    if device.ring.written = 0 then -1 else ((device.ring.written - 1) % size : ℕ)

/-- Where `fetch_analog` is. `copy` holds the window, the slots that are left and the copy. -/
inductive Pc (α : Type)
  | idle
  | retry
  | poll
  | copy (readOrigin : ℕ) (timestamp : ℤ) (slots : List ℕ) (snapshot : List α)

/-- `lastStatus`: the samples there were at the last status read. -/
structure System (scan : Scan α β) where
  device : Device α scan.bufferSize
  lastStatus : ℕ
  driver : Driver
  pc : Pc α

/-- What happens next. `timedOut` and `clock` are what the clock tells the driver. -/
inductive Event
  | begin
  | sample
  | halt
  | fetch
  | step (timedOut : Bool) (clock : ℤ)

/-- A window that `fetch_analog` returned. -/
structure Fetched (β : Type) where
  readOrigin : ℕ
  response : MCCDAQData β
  deriving DecidableEq

inductive Action (β : Type)
  | overrun (samplesLost : ℕ)
  | timeout
  | returned (window : Fetched β)
  deriving DecidableEq

section Steps

variable {scan : Scan α β}

/-- The system right after `start`; the buffer holds anything. -/
def started (scan : Scan α β) (contents : ℕ → α) : System scan where
  device := ⟨.waiting, ⟨0, contents⟩⟩
  lastStatus := 0
  driver := .start
  pc := .idle

/-- Wait for more samples, or give up. -/
def waitMore (timedOut : Bool) (s : System scan) : List (Action β) × Option (System scan) :=
  if timedOut then ([.timeout], some { s with pc := .idle })
  else ([], some { s with pc := .poll })

/-- A status read brings the count up to date. -/
def System.readCount (s : System scan) : ℕ × System scan :=
  let counted := s.driver.accumulateCount s.device.getStatus.curCount
  (counted.1, { s with lastStatus := s.device.ring.written, driver := counted.2 })

/-- With a count: wait for more samples, skip an overrun, or start the copy. -/
def countedStep (timedOut : Bool) (clock : ℤ) (currCount : ℕ) (s : System scan) :
    List (Action β) × Option (System scan) :=
  if currCount < s.driver.samplesConsumed + scan.fetchSize then waitMore timedOut s
  else
    match scan.overrun s.driver.samplesConsumed currCount with
    | some oldest =>
      ([.overrun (oldest - s.driver.samplesConsumed)],
        some { s with driver := { s.driver with samplesConsumed := oldest }, pc := .retry })
    | none =>
      let readOrigin := s.driver.samplesConsumed
      ([], some { s with pc := .copy readOrigin clock (scan.copySlots readOrigin) [] })

/-- One status read and what follows up to the copy. -/
def pollStep (timedOut : Bool) (clock : ℤ) (s : System scan) :
    List (Action β) × Option (System scan) :=
  if s.device.getStatus.idle ∨ s.device.getStatus.currIndex = -1 then
    waitMore timedOut { s with lastStatus := s.device.ring.written }
  else countedStep timedOut clock s.readCount.1 s.readCount.2

/-- After the torn-copy guard: copy again, or return. -/
def guardedStep (readOrigin : ℕ) (timestamp : ℤ) (snapshot : List α) (countAfter : ℕ)
    (s : System scan) : List (Action β) × Option (System scan) :=
  if readOrigin < countAfter - scan.bufferSize then ([], some { s with pc := .retry })
  else
    let response : MCCDAQData β := ⟨scan.convert snapshot, timestamp, scan.actualSamplePeriod⟩
    ([.returned ⟨readOrigin, response⟩],
      some { s with
        driver := { s.driver with samplesConsumed := readOrigin + scan.fetchSize }
        pc := .idle })

/-- The next step of `fetch_analog`. -/
def driverStep (timedOut : Bool) (clock : ℤ) (s : System scan) :
    List (Action β) × Option (System scan) :=
  match s.pc with
  | .idle => ([], none)
  | .retry => waitMore timedOut s
  | .poll => pollStep timedOut clock s
  | .copy readOrigin timestamp (slot :: slots) snapshot =>
    ([], some { s with
      pc := .copy readOrigin timestamp slots (snapshot ++ [s.device.ring.slots slot]) })
  | .copy readOrigin timestamp [] snapshot =>
    guardedStep readOrigin timestamp snapshot s.readCount.1 s.readCount.2

/-- An event that cannot happen ends the run. The device appends fewer than `rollover` samples
between two status reads. -/
def systemStep (stream : ℕ → α) (s : System scan) : Event → List (Action β) × Option (System scan)
  | .begin =>
    if s.device.phase = .waiting then
      ([], some { s with device := { s.device with phase := .running } })
    else ([], none)
  | .sample =>
    if s.device.phase = .running ∧ s.device.ring.written + 1 < s.lastStatus + rollover then
      let ring := s.device.ring.push (stream s.device.ring.written)
      ([], some { s with device := { s.device with ring := ring } })
    else ([], none)
  | .halt =>
    if s.device.phase = .running then
      ([], some { s with device := { s.device with phase := .stopped } })
    else ([], none)
  | .fetch =>
    match s.pc with
    | .idle => ([], some { s with pc := .retry })
    | _ => ([], none)
  | .step timedOut clock => driverStep timedOut clock s

/-- The device samples `stream`, and the caller fetches any number of times. -/
def scanLoop (scan : Scan α β) (stream : ℕ → α) : EventLoop (System scan) Event (Action β) :=
  ⟨systemStep stream⟩

end Steps

end Instro.Mcc
