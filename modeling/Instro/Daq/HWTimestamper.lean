import Instro.Library.PyNumber

/-!
# Hardware timestamps

Timestamps of the samples of a batch, in nanoseconds. The first batch is anchored to the wall clock;
each later batch continues one period after the one before.
-/

namespace Instro.Daq

open Instro.Library

structure HWTimestamper where
  lastTimestamp : ℤ

/-- `[t0 + i * dt for i in range(length)]` -/
def spaced (t0 dt : ℤ) (length : ℕ) : List ℤ := (List.range length).map fun i : ℕ => t0 + i * dt

namespace HWTimestamper

/-- `timestamps[-1]` -/
def last (timestamps : List ℤ) : Except PyException HWTimestamper :=
  match timestamps.getLast? with
  | some t => .ok ⟨t⟩
  | none => .error .indexError

/-- Anchor the timeline at `tWall`, the time of the last sample of the first batch. -/
def seed (tWall dt : ℤ) (length : ℕ) : Except PyException (HWTimestamper × List ℤ) := do
  let timestamps := spaced (tWall - dt * (length - 1)) dt length
  let timestamper ← last timestamps
  return (timestamper, timestamps)

/-- The timestamps that continue from the batch before. -/
def nextBatch (self : HWTimestamper) (dt : ℤ) (length : ℕ) :
    Except PyException (HWTimestamper × List ℤ) := do
  let timestamps := spaced (self.lastTimestamp + dt) dt length
  let timestamper ← last timestamps
  return (timestamper, timestamps)

/-- The last timestamp of a batch that is not empty. -/
theorem last_spaced (t0 dt : ℤ) {length : ℕ} (h : 0 < length) :
    last (spaced t0 dt length) = .ok ⟨t0 + (length - 1) * dt⟩ := by
  obtain ⟨n, rfl⟩ := Nat.exists_eq_succ_of_ne_zero (Nat.pos_iff_ne_zero.mp h)
  unfold last spaced
  rw [Nat.succ_eq_add_one, List.range_succ, List.map_append, List.map_singleton,
    List.getLast?_append]
  simp

theorem seed_eq (tWall dt : ℤ) {length : ℕ} (h : 0 < length) :
    seed tWall dt length = .ok (⟨tWall⟩, spaced (tWall - dt * (length - 1)) dt length) := by
  unfold seed
  dsimp only
  rw [last_spaced _ _ h]
  have hlast : tWall - dt * (length - 1) + (length - 1) * dt = tWall := by ring
  rw [hlast]
  rfl

theorem nextBatch_eq (self : HWTimestamper) (dt : ℤ) {length : ℕ} (h : 0 < length) :
    self.nextBatch dt length =
      .ok (⟨self.lastTimestamp + length * dt⟩, spaced (self.lastTimestamp + dt) dt length) := by
  unfold nextBatch
  dsimp only
  rw [last_spaced _ _ h]
  have hlast : self.lastTimestamp + dt + (length - 1) * dt = self.lastTimestamp + length * dt := by
    ring
  rw [hlast]
  rfl

end HWTimestamper

end Instro.Daq
