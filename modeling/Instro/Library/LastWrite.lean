import Mathlib.Data.List.Induction
import Mathlib.Logic.Function.Basic

/-!
# The last write

A state is observed by key, and an operation writes at most one key. Where the observation of a key
shows what an operation has written there, and does not see the operations that do not write there,
it shows after any operations what the last one of its key has written.
-/

namespace Instro.Library

variable {σ ω κ ν β : Type*} [DecidableEq κ]

/-- What the operations have written, by key. -/
def lastWritten (written : ω → Option (κ × ν)) (ops : List ω) : κ → Option ν :=
  ops.foldl
    (fun store op =>
      match written op with
      | some (k, v) => Function.update store k (some v)
      | none => store)
    fun _ => none

variable {written : ω → Option (κ × ν)}

theorem lastWritten_snoc (ops : List ω) (op : ω) (k : κ) :
    lastWritten written (ops ++ [op]) k =
      match written op with
      | some (k', v) => if k = k' then some v else lastWritten written ops k
      | none => lastWritten written ops k := by
  unfold lastWritten
  rw [List.foldl_append]
  show (match written op with
    | some (k, v) => Function.update _ k (some v)
    | none => _) k = _
  cases written op with
  | none => rfl
  | some entry =>
    obtain ⟨k', v⟩ := entry
    exact Function.update_apply _ _ _ _

/-- The observation of a key agrees with the last write to it, or with the start. -/
theorem observe_foldl (observe : κ → σ → β) {step : σ → ω → σ} {shows : κ → ν → β → Prop}
    (hwrite : ∀ s op k v, written op = some (k, v) → shows k v (observe k (step s op)))
    (hframe : ∀ s op k, (∀ v, written op ≠ some (k, v)) → observe k (step s op) = observe k s)
    (s : σ) (ops : List ω) (k : κ) :
    match lastWritten written ops k with
    | some v => shows k v (observe k (ops.foldl step s))
    | none => observe k (ops.foldl step s) = observe k s := by
  induction ops using List.reverseRecOn with
  | nil => rfl
  | append_singleton ops op ih =>
    rw [List.foldl_append, lastWritten_snoc]
    show match (_ : Option ν) with
      | some v => shows k v (observe k (step (ops.foldl step s) op))
      | none => observe k (step (ops.foldl step s) op) = observe k s
    cases h : written op with
    | none =>
      rw [hframe _ op k (by simp [h])]
      exact ih
    | some entry =>
      obtain ⟨k', v⟩ := entry
      dsimp only
      by_cases hk : k = k'
      · subst hk
        rw [if_pos rfl]
        exact hwrite _ op k v h
      · rw [if_neg hk, hframe _ op k (by simp [h, Ne.symm hk])]
        exact ih

end Instro.Library
