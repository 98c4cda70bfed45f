import Mathlib.Data.List.Basic

/-!
# Strides

Every `n`-th element of a list, from some place on: what a channel has of interleaved samples.
-/

namespace Instro.Library

variable {β : Type}

/-- `xs[i::n]` -/
def stride (n : ℕ) : ℕ → List β → List β
  | _, [] => []
  | 0, x :: xs => x :: stride n (n - 1) xs
  | i + 1, _ :: xs => stride n i xs

theorem length_stride {n : ℕ} (hn : 0 < n) {i : ℕ} (hi : i < n) (xs : List β) :
    (stride n i xs).length = (xs.length + (n - 1 - i)) / n := by
  induction xs generalizing i with
  | nil =>
    rw [show stride n i ([] : List β) = [] by cases i <;> rfl]
    exact (Nat.div_eq_of_lt (by simp; omega)).symm
  | cons x xs ih =>
    cases i with
    | zero =>
      show (stride n (n - 1) xs).length + 1 = _
      rw [ih (by omega), List.length_cons, Nat.sub_self,
        show xs.length + 1 + (n - 1 - 0) = xs.length + n by omega, Nat.add_div_right _ hn]
      rfl
    | succ i =>
      show (stride n i xs).length = _
      rw [ih (by omega), List.length_cons,
        show xs.length + 1 + (n - 1 - (i + 1)) = xs.length + (n - 1 - i) by omega]

/-- The elements of a stride are `n` places apart. -/
theorem getElem?_stride {n : ℕ} (hn : 0 < n) (i : ℕ) (xs : List β) (j : ℕ) :
    (stride n i xs)[j]? = xs[i + j * n]? := by
  induction xs generalizing i j with
  | nil =>
    rw [show stride n i ([] : List β) = [] by cases i <;> rfl]
    rfl
  | cons x xs ih =>
    cases i with
    | zero =>
      cases j with
      | zero => simp [stride]
      | succ j =>
        show (stride n (n - 1) xs)[j]? = _
        rw [ih, show 0 + (j + 1) * n = (n - 1 + j * n) + 1 by rw [Nat.add_mul]; omega]
        rfl
    | succ i =>
      show (stride n i xs)[j]? = _
      rw [ih, show i + 1 + j * n = (i + j * n) + 1 by omega]
      rfl

theorem stride_append_of_le {n i : ℕ} {xs : List β} (h : xs.length ≤ i) (ys : List β) :
    stride n i (xs ++ ys) = stride n (i - xs.length) ys := by
  induction xs generalizing i with
  | nil => rfl
  | cons x xs ih =>
    rw [List.length_cons] at h
    obtain ⟨k, rfl⟩ : ∃ k, i = k + 1 := ⟨i - 1, by omega⟩
    show stride n k (xs ++ ys) = _
    rw [ih (by omega), List.length_cons, Nat.add_sub_add_right]

/-- A stride takes one element of each row, the one at its place. -/
theorem stride_flatten {n i : ℕ} (hi : i < n) {rows : List (List β)}
    (hrows : ∀ row ∈ rows, row.length = n) :
    List.Forall₂ (fun row x => row[i]? = some x) rows (stride n i rows.flatten) := by
  induction rows with
  | nil =>
    rw [show stride n i ([] : List (List β)).flatten = [] by cases i <;> rfl]
    exact List.Forall₂.nil
  | cons row rows ih =>
    have hlength := hrows row List.mem_cons_self
    have hsplit : (row :: rows).flatten =
        row.take i ++ (row[i] :: (row.drop (i + 1) ++ rows.flatten)) := by
      rw [List.flatten_cons, ← List.cons_append, List.getElem_cons_drop, ← List.append_assoc,
        List.take_append_drop]
    have htake : (row.take i).length = i := by
      rw [List.length_take]
      omega
    rw [hsplit, stride_append_of_le (by omega), htake, Nat.sub_self]
    show List.Forall₂ _ _ (row[i] :: stride n (n - 1) _)
    have hdrop : (row.drop (i + 1)).length = n - 1 - i := by
      rw [List.length_drop]
      omega
    rw [stride_append_of_le (by omega), hdrop, show n - 1 - (n - 1 - i) = i by omega]
    exact List.Forall₂.cons (List.getElem?_eq_getElem _)
      (ih fun row' hrow' => hrows row' (List.mem_cons_of_mem row hrow'))

end Instro.Library
