import Mathlib.Data.Nat.ModEq
import Mathlib.Logic.Function.Basic

/-!
# Ring buffers

A buffer of `size` slots that receives a stream of elements, one after the other. It holds the last
`size` of them: an element can be read from its slot until the element `size` places after it is
written.
-/

namespace Instro.Library

/-- `written` elements have been written; the contents are given by slot. -/
structure Ring (α : Type) (size : Nat) where
  written : Nat
  slots : Nat → α

namespace Ring

variable {α : Type} {size : Nat}

def push (r : Ring α size) (x : α) : Ring α size where
  written := r.written + 1
  slots := Function.update r.slots (r.written % size) x

/-- Every element of the stream that is written and not overwritten is in its slot. -/
def Holds (r : Ring α size) (stream : Nat → α) : Prop :=
  ∀ i, i < r.written → r.written ≤ i + size → r.slots (i % size) = stream i

theorem holds_of_empty {r : Ring α size} (h : r.written = 0) (stream : Nat → α) :
    r.Holds stream := by
  intro i hi
  rw [h] at hi
  exact absurd hi (Nat.not_lt_zero i)

/-- Two elements less than the size apart are in different slots. -/
theorem slot_ne {i j : Nat} (hlt : i < j) (hnear : j < i + size) : i % size ≠ j % size := by
  intro heq
  have hdvd : size ∣ j - i := (Nat.modEq_iff_dvd' hlt.le).mp heq
  have hle := Nat.le_of_dvd (by omega) hdvd
  omega

theorem Holds.push {r : Ring α size} {stream : Nat → α} (h : r.Holds stream) :
    (r.push (stream r.written)).Holds stream := by
  intro i hi hkept
  have hi : i < r.written + 1 := hi
  have hkept : r.written + 1 ≤ i + size := hkept
  by_cases hlast : i = r.written
  · subst hlast
    exact Function.update_self ..
  · have hbefore : i < r.written := by omega
    have hslot : i % size ≠ r.written % size := slot_ne hbefore (by omega)
    show Function.update r.slots (r.written % size) (stream r.written) (i % size) = stream i
    rw [Function.update_of_ne hslot]
    exact h i hbefore (by omega)

end Ring

end Instro.Library
