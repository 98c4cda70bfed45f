import Mathlib.Data.Set.Basic

/-!
# Paths through a directed graph

A path leaves its root and may go on only from nodes that can be passed through. It is the list of
its nodes, the last first.
-/

namespace Instro.Library

variable {ι : Type*}

inductive Path (refers : ι → ι → Prop) (passes : ι → Prop) (root : ι) : List ι → Prop
  | root : Path refers passes root [root]
  | step {u v : ι} {us : List ι} (h : Path refers passes root (u :: us))
      (hpass : us = [] ∨ passes u) (hrefers : refers u v) :
      Path refers passes root (v :: u :: us)

/-- A set that holds the root and, of every node on the way, what it refers to holds the ends of all
paths of at most `n` steps. -/
theorem Path.mem_of_closed {refers : ι → ι → Prop} {passes : ι → Prop} {root : ι} {S : Set ι}
    {n : Nat} (hroot : root ∈ S)
    (hclosed : ∀ u us, Path refers passes root (u :: us) → us.length < n → u ∈ S →
      (us = [] ∨ passes u) → ∀ v, refers u v → v ∈ S)
    {us : List ι} (h : Path refers passes root us) (hlength : us.length ≤ n + 1) :
    ∀ v ∈ us.head?, v ∈ S := by
  induction h with
  | root => simpa using hroot
  | @step u v us h hpass hrefers ih =>
    have hlt : us.length < n := by
      rw [List.length_cons, List.length_cons] at hlength
      omega
    have hu : u ∈ S := ih (by rw [List.length_cons]; omega) u rfl
    intro v' hv'
    obtain rfl := Option.some.inj hv'
    exact hclosed u us h hlt hu hpass v hrefers

end Instro.Library
