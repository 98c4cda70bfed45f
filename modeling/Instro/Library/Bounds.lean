import Instro.Library.PyNumber

/-!
# Bounds on a number

Optional bounds that are checked by two negative comparisons: the number is refused when it is below
the lower bound or above the upper one. A NaN is neither, so the check holds a number to its bounds
only where numbers are compared.
-/

namespace Instro.Library

structure Bounds where
  lower : Option Number
  upper : Option Number

namespace Bounds

variable (b : Bounds) (x : Number)

/-- Neither negative comparison fires. -/
def Admits : Prop :=
  (∀ lower, b.lower = some lower → x.lt lower = false) ∧
    ∀ upper, b.upper = some upper → upper.lt x = false

/-- The number is at least the lower bound and at most the upper one. -/
def Contains : Prop :=
  (∀ lower, b.lower = some lower → lower.le x = true) ∧
    ∀ upper, b.upper = some upper → x.le upper = true

/-- No NaN takes part in a comparison. -/
def Comparable : Prop :=
  (∀ lower, b.lower = some lower → lower.isNan = false ∧ x.isNan = false) ∧
    ∀ upper, b.upper = some upper → upper.isNan = false ∧ x.isNan = false

variable {b x}

/-- **The negative comparisons are the bounds, NaN apart.** -/
theorem contains_iff : b.Contains x ↔ b.Admits x ∧ b.Comparable x := by
  unfold Contains Admits Comparable
  simp only [Number.le_iff_not_lt]
  constructor
  · rintro ⟨hlower, hupper⟩
    refine ⟨⟨fun l hl => (hlower l hl).1, fun u hu => (hupper u hu).1⟩,
      fun l hl => (hlower l hl).2, fun u hu => ?_⟩
    exact ⟨(hupper u hu).2.2, (hupper u hu).2.1⟩
  · rintro ⟨⟨hlower, hupper⟩, hl', hu'⟩
    refine ⟨fun l hl => ⟨hlower l hl, hl' l hl⟩, fun u hu => ⟨hupper u hu, ?_⟩⟩
    exact ⟨(hu' u hu).2, (hu' u hu).1⟩

/-- Bounds compare by the place of the number. -/
theorem contains_of_place {y : Number} (h : x.place = y.place) : b.Contains x ↔ b.Contains y := by
  unfold Contains Number.le
  rw [h]

end Bounds

end Instro.Library
