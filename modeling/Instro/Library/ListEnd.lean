import Mathlib.Data.List.DropRight
import Mathlib.Data.List.Rotate

/-!
# The end of a list

`xs.rtake n` is the list of the last `n` elements of `xs`. A window that keeps the last elements of
a stream can be moved on piece by piece. A ring read from one of its positions on is the list rotated
to there.
-/

namespace Instro.Library

variable {α β : Type}

theorem length_rtake (xs : List α) (n : ℕ) : (xs.rtake n).length = min n xs.length := by
  unfold List.rtake
  rw [List.length_drop]
  omega

theorem rtake_of_length_le (xs : List α) {n : ℕ} (h : xs.length ≤ n) : xs.rtake n = xs := by
  unfold List.rtake
  rw [Nat.sub_eq_zero_of_le h, List.drop_zero]

theorem rtake_append (xs ys : List α) (n : ℕ) :
    (xs ++ ys).rtake n = xs.rtake (n - ys.length) ++ ys.rtake n := by
  have hback : xs.length + ys.length - n - xs.length = ys.length - n := by omega
  have hfront : xs.drop (xs.length + ys.length - n) = xs.drop (xs.length - (n - ys.length)) := by
    by_cases h : n ≤ ys.length
    · rw [List.drop_of_length_le (by omega), List.drop_of_length_le (by omega)]
    · congr 1
      omega
  unfold List.rtake
  rw [List.drop_append, List.length_append, hback, hfront]

/-- The last elements come from the list at the end if it has enough of them. -/
theorem rtake_append_of_le_length {xs ys : List α} {n : ℕ} (h : n ≤ ys.length) :
    (xs ++ ys).rtake n = ys.rtake n := by
  rw [rtake_append, Nat.sub_eq_zero_of_le h, List.rtake_zero, List.nil_append]

/-- Onto a full window fewer elements push out as many. -/
theorem rtake_append_of_length {xs ys : List α} {n : ℕ} (hxs : xs.length = n) (hys : ys.length ≤ n) :
    (xs ++ ys).rtake n = xs.drop ys.length ++ ys := by
  rw [rtake_append, rtake_of_length_le ys hys]
  unfold List.rtake
  congr 2
  omega

theorem rtake_rtake (xs : List α) (m n : ℕ) : (xs.rtake m).rtake n = xs.rtake (min n m) := by
  unfold List.rtake
  rw [List.drop_drop, List.length_drop]
  congr 1
  omega

/-- A window that is moved on after each piece is where it would be after all of them. -/
theorem rtake_rtake_append (xs ys : List α) (m : ℕ) :
    (xs.rtake m ++ ys).rtake m = (xs ++ ys).rtake m := by
  rw [rtake_append, rtake_append, rtake_rtake, min_eq_left (Nat.sub_le m ys.length)]

theorem map_rtake (f : α → β) (xs : List α) (n : ℕ) : (xs.rtake n).map f = (xs.map f).rtake n := by
  unfold List.rtake
  rw [List.map_drop, List.length_map]

/-- Elements written over a ring from a position on are the last ones, seen from where they end. -/
theorem rotate_overwrite {ring xs : List α} {start : ℕ} (h : start + xs.length ≤ ring.length) :
    (ring.take start ++ xs ++ ring.drop (start + xs.length)).rotate (start + xs.length) =
      (ring.rotate start).drop xs.length ++ xs := by
  have hlength : (ring.take start ++ xs).length = start + xs.length := by
    rw [List.length_append, List.length_take, min_eq_left (by omega)]
  have hroom : xs.length ≤ (ring.drop start).length := by
    rw [List.length_drop]
    omega
  rw [List.rotate_eq_drop_append_take (by rw [List.length_append, hlength]; omega),
    List.drop_left' hlength, List.take_left' hlength, List.rotate_eq_drop_append_take (by omega),
    List.drop_append_of_le_length hroom, List.drop_drop, List.append_assoc]

end Instro.Library
