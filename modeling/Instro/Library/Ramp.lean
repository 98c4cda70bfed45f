import Mathlib.Algebra.Order.Field.Basic
import Mathlib.Algebra.Order.Group.Abs
import Mathlib.Tactic.Linarith

/-!
# Ramps

Sequences that rise by the same step, and what is near to their values.
-/

namespace Instro.Library.Ramp

variable {α : Type*} [Field α] [LinearOrder α] [IsStrictOrderedRing α]

/-- A ramp stays within a bound when it is above it at its first point and below it at its last. -/
theorem forall_abs_lt_iff {a step bound : α} (hstep : 0 ≤ step) (n : ℕ) :
    (∀ i < n, |a + i * step| < bound) ↔ n = 0 ∨ (-bound < a ∧ a + (n - 1) * step < bound) := by
  cases n with
  | zero => exact iff_of_true nofun (.inl rfl)
  | succ n =>
    have hlast : ((n + 1 : ℕ) : α) - 1 = n := by rw [Nat.cast_succ, add_sub_cancel_right]
    rw [hlast]
    constructor
    · intro h
      have hfirst := (abs_lt.mp (h 0 n.succ_pos)).1
      rw [Nat.cast_zero, zero_mul, add_zero] at hfirst
      exact .inr ⟨hfirst, (abs_lt.mp (h n n.lt_succ_self)).2⟩
    · rintro (h | ⟨hfirst, hend⟩)
      · exact absurd h n.succ_ne_zero
      · intro i hi
        have hrise : (i : α) * step ≤ n * step :=
          mul_le_mul_of_nonneg_right (Nat.cast_le.mpr (Nat.le_of_lt_succ hi)) hstep
        have hpos : 0 ≤ (i : α) * step := mul_nonneg i.cast_nonneg hstep
        exact abs_lt.mpr ⟨by linarith, by linarith⟩

/-- What is near to two values that are far enough apart stands in their order. -/
theorem lt_of_near {x y p q bound : α} (hx : |x - p| < bound) (hy : |y - q| < bound)
    (h : 2 * bound ≤ q - p) : x < y := by
  have hx := (abs_lt.mp hx).2
  have hy := (abs_lt.mp hy).1
  linarith

end Instro.Library.Ramp
