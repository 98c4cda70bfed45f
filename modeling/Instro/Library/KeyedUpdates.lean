import Mathlib.Logic.Function.Basic

/-!
# Updates by key

A sequence of operations, each of which changes one entry of a map: an entry sees those under its
own key, in their order.
-/

namespace Instro.Library

variable {κ α ω : Type*} [DecidableEq κ]

/-- Change the entry at a key. -/
def updateAt (m : κ → α) (k : κ) (f : α → α) : κ → α := Function.update m k (f (m k))

@[simp] theorem updateAt_self (m : κ → α) (k : κ) (f : α → α) : updateAt m k f k = f (m k) :=
  Function.update_self k _ m

theorem updateAt_ne {m : κ → α} {k k' : κ} {f : α → α} (h : k' ≠ k) :
    updateAt m k f k' = m k' :=
  Function.update_of_ne h _ m

theorem foldl_updateAt (key : ω → κ) (f : ω → α → α) (ops : List ω) (m : κ → α) (k : κ) :
    ops.foldl (fun m op => updateAt m (key op) (f op)) m k =
      (ops.filter fun op => key op = k).foldl (fun a op => f op a) (m k) := by
  induction ops generalizing m with
  | nil => rfl
  | cons op ops ih =>
    rw [List.foldl_cons, ih, List.filter_cons]
    by_cases hk : key op = k
    · rw [if_pos (decide_eq_true hk), List.foldl_cons, hk, updateAt_self]
    · rw [if_neg (by simpa using hk), updateAt_ne (Ne.symm hk)]

end Instro.Library
