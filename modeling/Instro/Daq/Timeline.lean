import Instro.Daq.HWTimestamper

/-!
# The timeline of a run

A run seeds the timestamper with its first batch and asks for the later ones one after the other, of
any length and with any period. All that is carried from one batch to the next is the last timestamp.
-/

namespace Instro.Daq

open Instro.Library

/-- `Measurement.create_timestamps_from_dt` -/
def createTimestampsFromDt (t0 dt : ℤ) (length : ℕ) (backstamp : Bool) : List ℤ :=
  let t0 := if backstamp then t0 - dt * (length - 1) else t0
  spaced t0 dt length

/-! ## Progressions -/

/-- Each timestamp is `dt` after the one before. -/
def Spacing (dt : ℤ) (timestamps : List ℤ) : Prop :=
  timestamps.IsChain fun t t' => t' = t + dt

section Progressions

variable (t0 dt : ℤ)

theorem spaced_succ (length : ℕ) : spaced t0 dt (length + 1) = t0 :: spaced (t0 + dt) dt length := by
  unfold spaced
  rw [List.range_succ_eq_map, List.map_cons, List.map_map]
  congr 1
  · simp
  · apply List.map_congr_left
    intro i _
    simp only [Function.comp_apply, Nat.cast_succ]
    ring

@[simp] theorem length_spaced (length : ℕ) : (spaced t0 dt length).length = length := by
  simp [spaced]

theorem spacing_spaced (length : ℕ) : Spacing dt (spaced t0 dt length) := by
  induction length generalizing t0 with
  | zero => exact List.IsChain.nil
  | succ length ih =>
    cases length with
    | zero =>
      rw [spaced_succ]
      exact List.IsChain.singleton _
    | succ length =>
      have hrest := ih (t0 + dt)
      rw [spaced_succ] at hrest
      rw [spaced_succ, spaced_succ]
      exact List.isChain_cons_cons.mpr ⟨rfl, hrest⟩

/-- Two progressions where the second one continues the first are one. -/
theorem spaced_append (m n : ℕ) :
    spaced t0 dt m ++ spaced (t0 + m * dt) dt n = spaced t0 dt (m + n) := by
  induction m generalizing t0 with
  | zero => simp [spaced]
  | succ m ih =>
    have hstart : t0 + ↑(m + 1) * dt = t0 + dt + m * dt := by
      push_cast
      ring
    rw [spaced_succ, List.cons_append, hstart, ih, Nat.succ_add, spaced_succ]

variable {t0 dt}

theorem pairwise_spaced (h : 0 < dt) (length : ℕ) : (spaced t0 dt length).Pairwise (· < ·) := by
  have hchain : (spaced t0 dt length).IsChain (· < ·) :=
    (spacing_spaced t0 dt length).imp fun t t' ht => by omega
  exact hchain.pairwise

theorem mem_spaced {length : ℕ} {t : ℤ} :
    t ∈ spaced t0 dt length ↔ ∃ i < length, t = t0 + i * dt := by
  simp [spaced, eq_comm]

end Progressions

/-! ## Runs -/

/-- The arguments of a `next_batch`. -/
structure Batch where
  dt : ℤ
  length : ℕ

namespace HWTimestamper

/-- The timestamps that a run of batches returns. -/
def nextBatches (self : HWTimestamper) : List Batch → Except PyException (List (List ℤ))
  | [] => .ok []
  | batch :: batches => do
    let (self, timestamps) ← self.nextBatch batch.dt batch.length
    let later ← self.nextBatches batches
    return timestamps :: later

/-- A whole run: the first batch is the one of the seed. -/
def timeline (tWall : ℤ) (first : Batch) (batches : List Batch) :
    Except PyException (List (List ℤ)) := do
  let (self, timestamps) ← seed tWall first.dt first.length
  let later ← self.nextBatches batches
  return timestamps :: later

end HWTimestamper

/-- The batches continue one another from the timestamp `t`, each by its own period. -/
inductive Continues : ℤ → List Batch → List (List ℤ) → Prop
  | nil (t : ℤ) : Continues t [] []
  | cons {t last : ℤ} {batch : Batch} {batches : List Batch} {timestamps : List ℤ}
      {later : List (List ℤ)} (length : timestamps.length = batch.length)
      (starts : timestamps.head? = some (t + batch.dt)) (spacing : Spacing batch.dt timestamps)
      (ends : timestamps.getLast? = some last) (rest : Continues last batches later) :
      Continues t (batch :: batches) (timestamps :: later)

/-- What the timestamps of a run should be. -/
structure Contiguous (tWall : ℤ) (first : Batch) (batches : List Batch)
    (returned : List (List ℤ)) : Prop where
  increasing : returned.flatten.Pairwise (· < ·)
  /-- The seed and the other builder back-stamp alike. -/
  seeded : returned.head? = some (createTimestampsFromDt tWall first.dt first.length true)
  /-- The first batch ends at the wall clock, and the later ones follow it. -/
  anchored : ∃ timestamps later, returned = timestamps :: later ∧
    timestamps.length = first.length ∧ Spacing first.dt timestamps ∧
      timestamps.getLast? = some tWall ∧ Continues tWall batches later
  /-- With one period the run is one progression, which begins with the back-stamped batch. -/
  progression : (∀ batch ∈ batches, batch.dt = first.dt) →
    createTimestampsFromDt tWall first.dt first.length true <+: returned.flatten ∧
      Spacing first.dt returned.flatten ∧
        returned.flatten.length = first.length + (batches.map Batch.length).sum

/-! ## What a run returns -/

section Runs

variable {t dt : ℤ}

theorem getLast?_spaced {length : ℕ} (h : 1 ≤ length) :
    (spaced (t + dt) dt length).getLast? = some (t + length * dt) := by
  obtain ⟨n, rfl⟩ := Nat.exists_eq_add_of_le' h
  unfold spaced
  rw [List.range_succ, List.map_append, List.map_singleton, List.getLast?_append]
  have hlast : t + dt + n * dt = t + ↑(n + 1) * dt := by
    push_cast
    ring
  rw [hlast]
  rfl

theorem head?_spaced {length : ℕ} (h : 1 ≤ length) : (spaced t dt length).head? = some t := by
  obtain ⟨n, rfl⟩ := Nat.exists_eq_add_of_le' h
  rw [spaced_succ]
  rfl

/-- Batches that are not empty continue from the last timestamp and leave the last one of their own. -/
theorem nextBatches_ok (self : HWTimestamper) {batches : List Batch}
    (hlength : ∀ batch ∈ batches, 1 ≤ batch.length) :
    ∃ later, self.nextBatches batches = .ok later ∧ Continues self.lastTimestamp batches later := by
  induction batches generalizing self with
  | nil => exact ⟨[], rfl, .nil _⟩
  | cons batch batches ih =>
    obtain ⟨hfirst, hrest⟩ := List.forall_mem_cons.mp hlength
    obtain ⟨later, hlater, hcontinues⟩ := ih ⟨self.lastTimestamp + batch.length * batch.dt⟩ hrest
    refine ⟨_ :: later, ?_, .cons (length_spaced _ _ _) (head?_spaced hfirst)
      (spacing_spaced _ _ _) (getLast?_spaced hfirst) hcontinues⟩
    unfold HWTimestamper.nextBatches
    rw [self.nextBatch_eq batch.dt hfirst]
    dsimp only [bind, Except.bind]
    rw [hlater]
    rfl

/-- A list with a head and a spacing is a progression. -/
theorem eq_spaced {timestamps : List ℤ} (hhead : timestamps.head? = some t)
    (hspacing : Spacing dt timestamps) : timestamps = spaced t dt timestamps.length := by
  induction timestamps generalizing t with
  | nil => cases hhead
  | cons t' timestamps ih =>
    obtain rfl := Option.some.inj hhead
    rw [List.length_cons, spaced_succ]
    congr 1
    cases timestamps with
    | nil => rfl
    | cons t'' timestamps =>
      obtain ⟨hnext, hrest⟩ := List.isChain_cons_cons.mp hspacing
      exact ih (congrArg some hnext) hrest

/-- A batch that continues from `t` is the progression after it. -/
theorem Continues.cons_eq {batch : Batch} {batches : List Batch} {timestamps : List ℤ}
    {later : List (List ℤ)} (h : Continues t (batch :: batches) (timestamps :: later)) :
    1 ≤ batch.length ∧ timestamps = spaced (t + batch.dt) batch.dt batch.length ∧
      Continues (t + batch.length * batch.dt) batches later := by
  cases h with
  | cons length starts spacing ends rest =>
    have heq := eq_spaced starts spacing
    rw [length] at heq
    have hlength : 1 ≤ batch.length := by
      by_contra hzero
      obtain rfl := List.eq_nil_of_length_eq_zero (length.trans (by omega))
      cases starts
    rw [heq, getLast?_spaced hlength] at ends
    obtain rfl := Option.some.inj ends
    exact ⟨hlength, heq, rest⟩

/-- **Run lemma.** What continues from `t` with positive periods increases and stays after `t`. -/
theorem Continues.increasing {batches : List Batch} {later : List (List ℤ)}
    (h : Continues t batches later) (hdt : ∀ batch ∈ batches, 0 < batch.dt) :
    later.flatten.Pairwise (· < ·) ∧ ∀ t' ∈ later.flatten, t < t' := by
  induction batches generalizing t later with
  | nil =>
    cases h
    exact ⟨List.Pairwise.nil, fun _ hmem => absurd hmem List.not_mem_nil⟩
  | cons batch batches ih =>
    obtain ⟨hpos, hrest⟩ := List.forall_mem_cons.mp hdt
    cases later with
    | nil => cases h
    | cons timestamps later =>
      obtain ⟨hlength, rfl, hcontinues⟩ := h.cons_eq
      obtain ⟨hincreasing, hafter⟩ := ih hcontinues hrest
      have hbatch : ∀ t' ∈ spaced (t + batch.dt) batch.dt batch.length,
          t < t' ∧ t' ≤ t + batch.length * batch.dt := by
        intro t' hmem
        obtain ⟨i, hi, rfl⟩ := mem_spaced.mp hmem
        have hlow : 0 ≤ (i : ℤ) * batch.dt := mul_nonneg (Int.natCast_nonneg i) hpos.le
        have hhigh : ((i + 1 : ℕ) : ℤ) * batch.dt ≤ batch.length * batch.dt :=
          mul_le_mul_of_nonneg_right (by exact_mod_cast hi) hpos.le
        push_cast at hhigh
        constructor
        · linarith
        · linarith
      have hlast : t < t + batch.length * batch.dt := by
        have := mul_pos (show (0 : ℤ) < batch.length by exact_mod_cast hlength) hpos
        linarith
      rw [List.flatten_cons]
      constructor
      · refine List.pairwise_append.mpr ⟨pairwise_spaced hpos _, hincreasing, ?_⟩
        intro t' ht' t'' ht''
        exact lt_of_le_of_lt (hbatch t' ht').2 (hafter t'' ht'')
      · intro t' hmem
        rcases List.mem_append.mp hmem with hmem | hmem
        · exact (hbatch t' hmem).1
        · exact hlast.trans (hafter t' hmem)

/-- **Run lemma.** Batches of one period are one progression. -/
theorem Continues.flatten_eq {batches : List Batch} {later : List (List ℤ)}
    (h : Continues t batches later) (hdt : ∀ batch ∈ batches, batch.dt = dt) :
    later.flatten = spaced (t + dt) dt (batches.map Batch.length).sum := by
  induction batches generalizing t later with
  | nil =>
    cases h
    rfl
  | cons batch batches ih =>
    obtain ⟨rfl, hrest⟩ := List.forall_mem_cons.mp hdt
    cases later with
    | nil => cases h
    | cons timestamps later =>
      obtain ⟨-, rfl, hcontinues⟩ := h.cons_eq
      have hstart : t + batch.length * batch.dt + batch.dt =
          t + batch.dt + batch.length * batch.dt := by ring
      rw [List.flatten_cons, ih hcontinues hrest, hstart, spaced_append, List.map_cons, List.sum_cons]

end Runs

/-- The seed is the back-stamped batch of the other builder. -/
theorem seed_eq_create (tWall dt : ℤ) {length : ℕ} (h : 1 ≤ length) :
    HWTimestamper.seed tWall dt length =
      .ok (⟨tWall⟩, createTimestampsFromDt tWall dt length true) :=
  HWTimestamper.seed_eq tWall dt h

/-- A back-stamped batch is the progression that ends at `tWall`. -/
theorem create_backstamp (tWall dt : ℤ) (length : ℕ) :
    createTimestampsFromDt tWall dt length true =
      spaced (tWall - length * dt + dt) dt length := by
  unfold createTimestampsFromDt
  rw [if_pos rfl]
  have hstart : tWall - dt * ((length : ℤ) - 1) = tWall - length * dt + dt := by ring
  dsimp only
  rw [hstart]

/-- **Hardware timestamps.** A run of batches that are not empty, with positive periods, is
contiguous. -/
theorem timeline_contiguous (tWall : ℤ) (first : Batch) (batches : List Batch)
    (hlength : ∀ batch ∈ first :: batches, 1 ≤ batch.length)
    (hdt : ∀ batch ∈ first :: batches, 0 < batch.dt) :
    ∃ returned, HWTimestamper.timeline tWall first batches = .ok returned ∧
      Contiguous tWall first batches returned := by
  obtain ⟨hfirst, hrest⟩ := List.forall_mem_cons.mp hlength
  obtain ⟨later, hlater, hcontinues⟩ := nextBatches_ok ⟨tWall⟩ hrest
  have hends : (createTimestampsFromDt tWall first.dt first.length true).getLast? = some tWall := by
    rw [create_backstamp, getLast?_spaced hfirst, sub_add_cancel]
  -- the first batch continues from one period before it
  have hseed : Continues (tWall - first.length * first.dt) (first :: batches)
      (createTimestampsFromDt tWall first.dt first.length true :: later) := by
    refine .cons (length_spaced _ _ _) ?_ (spacing_spaced _ _ _) hends hcontinues
    rw [create_backstamp]
    exact head?_spaced hfirst
  refine ⟨_, ?_, (hseed.increasing hdt).1, rfl, ?_, ?_⟩
  · unfold HWTimestamper.timeline
    rw [seed_eq_create tWall first.dt hfirst]
    dsimp only [bind, Except.bind]
    rw [hlater]
    rfl
  · exact ⟨_, later, rfl, length_spaced _ _ _, spacing_spaced _ _ _, hends, hcontinues⟩
  · intro hsame
    have hflatten := hseed.flatten_eq (List.forall_mem_cons.mpr ⟨rfl, hsame⟩)
    refine ⟨List.prefix_append _ _, ?_, ?_⟩
    · rw [hflatten]
      exact spacing_spaced _ _ _
    · rw [hflatten, length_spaced, List.map_cons, List.sum_cons]

theorem timeline_contiguous_three : ∃ returned,
    HWTimestamper.timeline 100 ⟨10, 3⟩ [⟨10, 1⟩, ⟨7, 2⟩] = .ok returned ∧
      Contiguous 100 ⟨10, 3⟩ [⟨10, 1⟩, ⟨7, 2⟩] returned :=
  timeline_contiguous 100 ⟨10, 3⟩ [⟨10, 1⟩, ⟨7, 2⟩] (by decide) (by decide)

example : (HWTimestamper.timeline 100 ⟨10, 3⟩ [⟨10, 1⟩, ⟨7, 2⟩]).toOption =
    some [[80, 90, 100], [110], [117, 124]] := by decide

end Instro.Daq
