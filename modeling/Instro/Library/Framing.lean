import Mathlib.Data.List.Basic

/-!
# Frames in a stream

A stream of frames, each with a separator at its end, comes in chunks. The receiver keeps what is not yet a
frame in a buffer and hands every frame to a handler, until the handler has stopped. What the handler
comes to depends on the stream alone.
-/

namespace Instro.Library

variable {α σ : Type}

/-! ## Handlers -/

section Consume

variable (stopped : σ → Bool) (handle : σ → List α → σ)

/-- Frames one after another, until the handler has stopped. -/
def consume (s : σ) (fs : List (List α)) : σ :=
  fs.foldl (fun s frame => if stopped s then s else handle s frame) s

variable {stopped} {handle} {s : σ}

theorem consume_of_stopped (h : stopped s = true) (fs : List (List α)) :
    consume stopped handle s fs = s := by
  induction fs with
  | nil => rfl
  | cons frame fs ih =>
    unfold consume
    rw [List.foldl_cons, if_pos h]
    exact ih

theorem consume_cons (h : ¬stopped s = true) (frame : List α) (fs : List (List α)) :
    consume stopped handle s (frame :: fs) = consume stopped handle (handle s frame) fs := by
  unfold consume
  rw [List.foldl_cons, if_neg h]

theorem consume_append (s : σ) (fs gs : List (List α)) :
    consume stopped handle s (fs ++ gs) = consume stopped handle (consume stopped handle s fs) gs :=
  List.foldl_append

end Consume

variable [DecidableEq α]

/-! ## Frames -/

section Frames

variable (sep : α)

/-- The frames of a stream. -/
def frames : List α → List (List α)
  | [] => []
  | x :: xs =>
    if x = sep then [] :: frames xs
    else
      match frames xs with
      | [] => []
      | frame :: more => (x :: frame) :: more

/-- What stands after the last separator. -/
def residue : List α → List α
  | [] => []
  | x :: xs => if x = sep ∨ sep ∈ xs then residue xs else x :: xs

/-- The first frame, and what stands after its separator. -/
def cut (xs : List α) : Option (List α × List α) :=
  if sep ∈ xs then some (xs.takeWhile (· ≠ sep), (xs.dropWhile (· ≠ sep)).tail) else none

variable {sep} {xs ys frame : List α}

theorem frames_of_not_mem (h : sep ∉ xs) : frames sep xs = [] := by
  induction xs with
  | nil => rfl
  | cons x xs ih =>
    rw [List.mem_cons, not_or] at h
    rw [frames, if_neg (Ne.symm h.1), ih h.2]

theorem residue_of_not_mem (h : sep ∉ xs) : residue sep xs = xs := by
  cases xs with
  | nil => rfl
  | cons x xs =>
    rw [List.mem_cons, not_or] at h
    exact if_neg (not_or.mpr ⟨Ne.symm h.1, h.2⟩)

theorem frames_frame (h : sep ∉ frame) (xs : List α) :
    frames sep (frame ++ sep :: xs) = frame :: frames sep xs := by
  induction frame with
  | nil => exact if_pos rfl
  | cons x frame ih =>
    rw [List.mem_cons, not_or] at h
    rw [List.cons_append, frames, if_neg (Ne.symm h.1), ih h.2]

theorem residue_frame (frame xs : List α) : residue sep (frame ++ sep :: xs) = residue sep xs := by
  induction frame with
  | nil => exact if_pos (.inl rfl)
  | cons x frame ih =>
    have hmem : sep ∈ frame ++ sep :: xs := List.mem_append_right _ List.mem_cons_self
    rw [List.cons_append, residue, if_pos (.inr hmem), ih]

theorem cut_of_not_mem (h : sep ∉ xs) : cut sep xs = none := if_neg h

theorem cut_frame (h : sep ∉ frame) (xs : List α) :
    cut sep (frame ++ sep :: xs) = some (frame, xs) := by
  have hmem : sep ∈ frame ++ sep :: xs := List.mem_append_right _ List.mem_cons_self
  have hne : ∀ x ∈ frame, decide (x ≠ sep) = true := by
    intro x hx
    rw [decide_eq_true_iff]
    rintro rfl
    exact h hx
  unfold cut
  rw [if_pos hmem, List.takeWhile_append_of_pos hne, List.dropWhile_append_of_pos hne]
  simp

/-- What is left of the first part goes before the second. -/
theorem frames_append (xs ys : List α) :
    frames sep (xs ++ ys) = frames sep xs ++ frames sep (residue sep xs ++ ys) ∧
      residue sep (xs ++ ys) = residue sep (residue sep xs ++ ys) := by
  induction hlength : xs.length using Nat.strongRecOn generalizing xs with
  | ind n ih =>
  by_cases hmem : sep ∈ xs
  · obtain ⟨frame, rest, rfl, hframe⟩ := List.eq_append_cons_of_mem hmem
    have hshort : rest.length < n := by
      rw [← hlength, List.length_append, List.length_cons]
      omega
    obtain ⟨hframes, hresidue⟩ := ih rest.length hshort rest rfl
    rw [List.append_assoc, List.cons_append, frames_frame hframe, frames_frame hframe, hframes,
      residue_frame, residue_frame]
    exact ⟨rfl, hresidue⟩
  · rw [frames_of_not_mem hmem, residue_of_not_mem hmem]
    exact ⟨rfl, rfl⟩

end Frames

/-! ## Receiving -/

structure Receiver (α σ : Type) where
  buffer : List α
  state : σ

section Receive

variable (sep : α) (stopped : σ → Bool) (handle : σ → List α → σ)

/-- The frames in the buffer one after another, at most so many. -/
def drain : ℕ → Receiver α σ → Receiver α σ
  | 0, r => r
  | limit + 1, r =>
    if stopped r.state then r
    else
      match cut sep r.buffer with
      | none => r
      | some (frame, rest) => drain limit ⟨rest, handle r.state frame⟩

/-- A chunk comes in. Every frame takes an element of the buffer. -/
def receive (r : Receiver α σ) (chunk : List α) : Receiver α σ :=
  drain sep stopped handle (r.buffer ++ chunk).length ⟨r.buffer ++ chunk, r.state⟩

variable {sep} {stopped} {handle} {s : σ} {r : Receiver α σ}

/-- Draining hands over the frames of the buffer and leaves the rest. -/
theorem drain_spec (r : Receiver α σ) {limit : ℕ} (hlimit : r.buffer.length ≤ limit) :
    (drain sep stopped handle limit r).state =
        consume stopped handle r.state (frames sep r.buffer) ∧
      (stopped (drain sep stopped handle limit r).state = false →
        (drain sep stopped handle limit r).buffer = residue sep r.buffer) := by
  induction limit generalizing r with
  | zero =>
    obtain ⟨buffer, s⟩ := r
    obtain rfl : buffer = [] := List.eq_nil_of_length_eq_zero (Nat.le_zero.mp hlimit)
    exact ⟨rfl, fun _ => rfl⟩
  | succ limit ih =>
    obtain ⟨buffer, s⟩ := r
    rw [drain]
    by_cases hstopped : stopped s = true
    · rw [if_pos hstopped, consume_of_stopped hstopped]
      exact ⟨rfl, fun h => absurd hstopped (by rw [h]; exact Bool.false_ne_true)⟩
    rw [if_neg hstopped]
    by_cases hmem : sep ∈ buffer
    · obtain ⟨frame, rest, rfl, hframe⟩ := List.eq_append_cons_of_mem hmem
      have hshort : rest.length ≤ limit := by
        rw [List.length_append, List.length_cons] at hlimit
        omega
      obtain ⟨hstate, hbuffer⟩ := ih ⟨rest, handle s frame⟩ hshort
      dsimp only
      rw [cut_frame hframe, frames_frame hframe, residue_frame]
      exact ⟨hstate.trans (consume_cons hstopped frame _).symm, hbuffer⟩
    · dsimp only
      rw [cut_of_not_mem hmem, frames_of_not_mem hmem, residue_of_not_mem hmem]
      exact ⟨rfl, fun _ => rfl⟩

/-- The receiver has handed over the frames of the stream so far and keeps the rest. -/
structure Received (sep : α) (stopped : σ → Bool) (handle : σ → List α → σ) (s : σ) (stream : List α)
    (r : Receiver α σ) : Prop where
  state : r.state = consume stopped handle s (frames sep stream)
  buffer : stopped r.state = false → r.buffer = residue sep stream

theorem received_start (s : σ) : Received sep stopped handle s [] ⟨[], s⟩ where
  state := rfl
  buffer _ := rfl

/-- **A chunk, wherever it has been cut.** -/
theorem Received.receive {stream : List α} (h : Received sep stopped handle s stream r)
    (hrunning : stopped r.state = false) (chunk : List α) :
    Received sep stopped handle s (stream ++ chunk) (receive sep stopped handle r chunk) := by
  obtain ⟨hframes, hresidue⟩ := frames_append stream chunk
  have hdrain : (Library.receive sep stopped handle r chunk).state =
        consume stopped handle r.state (frames sep (r.buffer ++ chunk)) ∧
      (stopped (Library.receive sep stopped handle r chunk).state = false →
        (Library.receive sep stopped handle r chunk).buffer = residue sep (r.buffer ++ chunk)) :=
    drain_spec ⟨r.buffer ++ chunk, r.state⟩ (Nat.le_refl _)
  rw [h.buffer hrunning, h.state] at hdrain
  constructor
  · rw [hdrain.1, hframes, consume_append]
  · intro hstill
    rw [hresidue]
    exact hdrain.2 hstill

end Receive

end Instro.Library
