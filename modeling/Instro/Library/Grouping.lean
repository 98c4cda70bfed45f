import Mathlib.Data.List.Induction
import Mathlib.Data.List.Nodup

/-!
# Grouping by key

A table from keys to the elements with that key. The keys stand in the order of their first
elements, the elements of a key in their own order.
-/

namespace Instro.Library

variable {α κ : Type} [DecidableEq κ]

/-- Append an element to those of its key; a new key comes last. -/
def appendAt (k : κ) (x : α) : List (κ × List α) → List (κ × List α)
  | [] => [(k, [x])]
  | (k', xs) :: groups =>
    if k' = k then (k', xs ++ [x]) :: groups else (k', xs) :: appendAt k x groups

/-- Group the elements that have a key. -/
def groupBy (key : α → Option κ) (xs : List α) : List (κ × List α) :=
  xs.foldl
    (fun groups x =>
      match key x with
      | some k => appendAt k x groups
      | none => groups) []

theorem groupBy_append_singleton (key : α → Option κ) (xs : List α) (x : α) :
    groupBy key (xs ++ [x]) =
      match key x with
      | some k => appendAt k x (groupBy key xs)
      | none => groupBy key xs := by
  unfold groupBy
  rw [List.foldl_append]
  rfl

theorem mem_keys_appendAt {k k' : κ} {x : α} {groups : List (κ × List α)} :
    k' ∈ (appendAt k x groups).map Prod.fst ↔ k' = k ∨ k' ∈ groups.map Prod.fst := by
  induction groups with
  | nil => simp [appendAt]
  | cons group groups ih =>
    obtain ⟨k'', xs⟩ := group
    by_cases h : k'' = k
    · subst h
      simp [appendAt]
    · rw [appendAt, if_neg h, List.map_cons, List.mem_cons, ih, List.map_cons, List.mem_cons]
      exact or_left_comm

theorem nodup_keys_appendAt {k : κ} {x : α} {groups : List (κ × List α)}
    (h : (groups.map Prod.fst).Nodup) : ((appendAt k x groups).map Prod.fst).Nodup := by
  induction groups with
  | nil => exact List.nodup_singleton k
  | cons group groups ih =>
    obtain ⟨k', xs⟩ := group
    rw [List.map_cons, List.nodup_cons] at h
    by_cases hk : k' = k
    · rw [appendAt, if_pos hk]
      exact List.nodup_cons.mpr h
    · rw [appendAt, if_neg hk, List.map_cons, List.nodup_cons, mem_keys_appendAt, not_or]
      exact ⟨⟨hk, h.1⟩, ih h.2⟩

/-- Every key stands once. -/
theorem nodup_keys_groupBy (key : α → Option κ) (xs : List α) :
    ((groupBy key xs).map Prod.fst).Nodup := by
  induction xs using List.reverseRecOn with
  | nil => exact List.nodup_nil
  | append_singleton xs x ih =>
    rw [groupBy_append_singleton]
    cases key x with
    | none => exact ih
    | some k => exact nodup_keys_appendAt ih

theorem lookup_cons_ite {β : Type} (k k' : κ) (b : β) (groups : List (κ × β)) :
    ((k', b) :: groups).lookup k = if k = k' then some b else groups.lookup k := by
  rw [List.lookup_cons]
  by_cases h : k = k'
  · rw [if_pos h, beq_iff_eq.mpr h]
  · rw [if_neg h, beq_false_of_ne h]

theorem lookup_appendAt (k k' : κ) (x : α) (groups : List (κ × List α)) :
    (appendAt k x groups).lookup k' =
      if k' = k then some ((groups.lookup k).getD [] ++ [x]) else groups.lookup k' := by
  induction groups with
  | nil =>
    rw [appendAt, lookup_cons_ite]
    rfl
  | cons group groups ih =>
    obtain ⟨k'', xs⟩ := group
    by_cases hk : k'' = k
    · subst hk
      rw [appendAt, if_pos rfl, lookup_cons_ite, lookup_cons_ite, lookup_cons_ite, if_pos rfl]
      split_ifs with h
      · rfl
      · rfl
    · rw [appendAt, if_neg hk, lookup_cons_ite, lookup_cons_ite, lookup_cons_ite, ih,
        if_neg (Ne.symm hk)]
      by_cases h : k' = k''
      · subst h
        rw [if_pos rfl, if_neg hk, if_pos rfl]
      · rw [if_neg h, if_neg h]

/-- The elements of a key. -/
theorem lookup_groupBy (key : α → Option κ) (xs : List α) (k : κ) :
    (groupBy key xs).lookup k =
      if xs.filter (key · = some k) = [] then none else some (xs.filter (key · = some k)) := by
  induction xs using List.reverseRecOn with
  | nil => rfl
  | append_singleton xs x ih =>
    rw [groupBy_append_singleton, List.filter_append]
    cases hx : key x with
    | none =>
      have hlast : [x].filter (key · = some k) = [] := by simp [hx]
      rw [hlast, List.append_nil]
      exact ih
    | some k' =>
      dsimp only
      rw [lookup_appendAt]
      by_cases h : k = k'
      · subst h
        have hlast : [x].filter (key · = some k) = [x] := by simp [hx]
        rw [hlast, if_pos rfl, if_neg (by simp), ih]
        split_ifs with hnil
        · rw [hnil]
          rfl
        · rfl
      · have hlast : [x].filter (key · = some k) = [] := by
          simp [hx, Ne.symm h]
        rw [hlast, List.append_nil, if_neg h, ih]

theorem lookup_of_mem {β : Type} {groups : List (κ × β)} (h : (groups.map Prod.fst).Nodup)
    {k : κ} {b : β} (hmem : (k, b) ∈ groups) : groups.lookup k = some b := by
  induction groups with
  | nil => cases hmem
  | cons group groups ih =>
    obtain ⟨k', b'⟩ := group
    rw [List.map_cons, List.nodup_cons] at h
    rcases List.mem_cons.mp hmem with heq | hrest
    · obtain ⟨rfl, rfl⟩ := Prod.mk.inj heq
      exact List.lookup_cons_self
    · have hne : k ≠ k' := by
        rintro rfl
        exact h.1 (List.mem_map.mpr ⟨(k, b), hrest, rfl⟩)
      rw [lookup_cons_ite, if_neg hne]
      exact ih h.2 hrest

theorem mem_of_lookup {β : Type} {groups : List (κ × β)} {k : κ} {b : β}
    (h : groups.lookup k = some b) : (k, b) ∈ groups := by
  induction groups with
  | nil => cases h
  | cons group groups ih =>
    obtain ⟨k', b'⟩ := group
    rw [lookup_cons_ite] at h
    split_ifs at h with hk
    · obtain rfl := Option.some.inj h
      exact List.mem_cons.mpr (.inl (by rw [hk]))
    · exact List.mem_cons_of_mem _ (ih h)

theorem flatMap_appendAt_perm (k : κ) (x : α) (groups : List (κ × List α)) :
    ((appendAt k x groups).flatMap Prod.snd).Perm (groups.flatMap Prod.snd ++ [x]) := by
  induction groups with
  | nil => exact List.Perm.refl _
  | cons group groups ih =>
    obtain ⟨k', xs⟩ := group
    by_cases hk : k' = k
    · rw [appendAt, if_pos hk, List.flatMap_cons, List.flatMap_cons, List.append_assoc,
        List.append_assoc]
      exact List.perm_append_comm.append_left xs
    · rw [appendAt, if_neg hk, List.flatMap_cons, List.flatMap_cons, List.append_assoc]
      exact ih.append_left xs

/-- The groups together hold the elements that have a key, each as often as the list does. -/
theorem flatMap_groupBy_perm (key : α → Option κ) (xs : List α) :
    ((groupBy key xs).flatMap Prod.snd).Perm (xs.filter fun x => (key x).isSome) := by
  induction xs using List.reverseRecOn with
  | nil => exact List.Perm.refl _
  | append_singleton xs x ih =>
    rw [groupBy_append_singleton, List.filter_append]
    cases hx : key x with
    | none =>
      have hlast : [x].filter (fun x => (key x).isSome) = [] := by simp [hx]
      rw [hlast, List.append_nil]
      exact ih
    | some k =>
      have hlast : [x].filter (fun x => (key x).isSome) = [x] := by simp [hx]
      rw [hlast]
      exact (flatMap_appendAt_perm k x _).trans (ih.append_right [x])

end Instro.Library
