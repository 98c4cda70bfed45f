import Mathlib.Data.List.Basic

/-!
# Sending again

A growing list is sent in order from a mark. The mark is moved on to where a sending has come, or left
where it is, so that items are sent again; none is passed over.
-/

namespace Instro.Library

variable {α : Type*}

/-- What has been sent of the items, with the mark. -/
inductive Sends (items : List α) : ℕ → List α → Prop
  | nil : Sends items 0 []
  | again {mark sent} (h : Sends items mark sent) (n : ℕ) (hn : mark + n ≤ items.length) :
    Sends items mark (sent ++ (items.drop mark).take n)
  | onward {mark sent} (h : Sends items mark sent) (n : ℕ) (hn : mark + n ≤ items.length) :
    Sends items (mark + n) (sent ++ (items.drop mark).take n)

namespace Sends

variable {items sent : List α} {mark : ℕ}

theorem mark_le (h : Sends items mark sent) : mark ≤ items.length := by
  induction h with
  | nil => exact Nat.zero_le _
  | again _ _ _ ih => exact ih
  | onward _ _ hn => exact hn

/-- The list grows at its end. -/
theorem append (h : Sends items mark sent) (more : List α) : Sends (items ++ more) mark sent := by
  have htake {mark n : ℕ} (hn : mark + n ≤ items.length) :
      ((items ++ more).drop mark).take n = (items.drop mark).take n := by
    rw [List.drop_append_of_le_length (by omega), List.take_append_of_le_length]
    rw [List.length_drop]
    omega
  have hlength {m : ℕ} (hm : m ≤ items.length) : m ≤ (items ++ more).length := by
    rw [List.length_append]
    omega
  induction h with
  | nil => exact .nil
  | again _ n hn ih =>
    rw [← htake hn]
    exact .again ih n (hlength hn)
  | onward _ n hn ih =>
    rw [← htake hn]
    exact .onward ih n (hlength hn)

/-- Nothing before the mark has been passed over. -/
theorem sublist (h : Sends items mark sent) : (items.take mark).Sublist sent := by
  induction h with
  | nil => simp
  | again _ _ _ ih => exact ih.trans (List.sublist_append_left _ _)
  | onward _ n _ ih =>
    rw [List.take_add]
    exact ih.append (List.Sublist.refl _)

/-- Only items are sent. -/
theorem subset (h : Sends items mark sent) : sent ⊆ items := by
  induction h with
  | nil => exact List.nil_subset _
  | again _ _ _ ih | onward _ _ _ ih =>
    exact List.append_subset.mpr ⟨ih, fun _ hx => List.mem_of_mem_drop (List.mem_of_mem_take hx)⟩

end Sends

end Instro.Library
