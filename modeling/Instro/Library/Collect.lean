import Mathlib.Data.List.AList
import Mathlib.Data.List.Induction

/-!
# Collecting into a dictionary

A dictionary filled from a list: each element sets the entry of its key, or sets nothing.
-/

namespace Instro.Library

variable {α β κ : Type} [DecidableEq κ]

/-- The dictionary after one more element. -/
def collectOne (key : α → κ) (f : α → Option β) (d : AList fun _ : κ => β) (x : α) :
    AList fun _ : κ => β :=
  match f x with
  | some v => d.insert (key x) v
  | none => d

section One

variable {key : α → κ} {f : α → Option β} {d : AList fun _ : κ => β} {x : α} {k : κ}

theorem lookup_collectOne_self :
    (collectOne key f d x).lookup (key x) = (f x).or (d.lookup (key x)) := by
  unfold collectOne
  cases f x with
  | none => rfl
  | some v => exact AList.lookup_insert d

theorem lookup_collectOne_ne (h : k ≠ key x) : (collectOne key f d x).lookup k = d.lookup k := by
  unfold collectOne
  cases f x with
  | none => rfl
  | some v => exact AList.lookup_insert_ne h

end One

/-- Where no two elements have the same key, every element that sets an entry is in the result. -/
theorem lookup_foldl_collectOne {key : α → κ} {f : α → Option β} {xs : List α}
    (hkeys : (xs.map key).Nodup) {k : κ} {v : β} :
    (xs.foldl (collectOne key f) ∅).lookup k = some v ↔ ∃ x ∈ xs, key x = k ∧ f x = some v := by
  induction xs using List.reverseRecOn generalizing v with
  | nil => simp
  | append_singleton xs x ih =>
    rw [List.map_append, List.map_singleton, List.nodup_append] at hkeys
    obtain ⟨hnodup, -, hdisjoint⟩ := hkeys
    have hother : ∀ y ∈ xs, key y ≠ key x := fun y hy =>
      hdisjoint _ (List.mem_map_of_mem hy) _ List.mem_cons_self
    rw [List.foldl_append]
    show (collectOne key f _ x).lookup k = some v ↔ _
    by_cases hk : k = key x
    · subst hk
      have hbefore : (xs.foldl (collectOne key f) ∅).lookup (key x) = none := by
        rw [Option.eq_none_iff_forall_ne_some]
        intro w hw
        obtain ⟨y, hy, hkey, -⟩ := (ih hnodup).mp hw
        exact hother y hy hkey
      have hlast : (∃ y ∈ xs ++ [x], key y = key x ∧ f y = some v) ↔ f x = some v := by
        constructor
        · rintro ⟨y, hy, hkey, hv⟩
          rcases List.mem_append.mp hy with hy | hy
          · exact absurd hkey (hother y hy)
          · obtain rfl := List.mem_singleton.mp hy
            exact hv
        · intro hv
          exact ⟨x, by simp, rfl, hv⟩
      rw [hlast, lookup_collectOne_self, hbefore, Option.or_none]
    · have hlast : (∃ y ∈ xs ++ [x], key y = k ∧ f y = some v) ↔
          ∃ y ∈ xs, key y = k ∧ f y = some v := by
        constructor
        · rintro ⟨y, hy, hkey, hv⟩
          rcases List.mem_append.mp hy with hy | hy
          · exact ⟨y, hy, hkey, hv⟩
          · obtain rfl := List.mem_singleton.mp hy
            exact absurd hkey.symm hk
        · rintro ⟨y, hy, h⟩
          exact ⟨y, List.mem_append_left _ hy, h⟩
      rw [hlast, lookup_collectOne_ne hk, ih hnodup]

/-! ## Merging dictionaries -/

/-- Tables without a common key are merged by putting one before the other. -/
theorem kunion_eq_append {l₁ l₂ : List (Sigma fun _ : κ => β)}
    (h : ∀ k ∈ l₁.keys, k ∉ l₂.keys) : l₁.kunion l₂ = l₁ ++ l₂ := by
  induction l₁ with
  | nil => rfl
  | cons s l₁ ih =>
    rw [List.keys_cons] at h
    rw [List.kunion_cons, List.kerase_of_notMem_keys (h s.1 List.mem_cons_self),
      ih fun k hk => h k (List.mem_cons_of_mem _ hk)]
    rfl

/-- Where no key occurs twice among them, dictionaries merged one after the other keep all their
entries. -/
theorem foldl_union_entries_perm (parts : List (AList fun _ : κ => β))
    (d : AList fun _ : κ => β) (h : (d.keys ++ parts.flatMap (·.keys)).Nodup) :
    (parts.foldl (fun d part => part ∪ d) d).entries.Perm
      (d.entries ++ parts.flatMap (·.entries)) := by
  induction parts generalizing d with
  | nil =>
    rw [List.flatMap_nil, List.append_nil]
    exact List.Perm.refl _
  | cons part parts ih =>
    rw [List.flatMap_cons, ← List.append_assoc, List.nodup_append] at h
    obtain ⟨hfirst, hrest, hdisjoint⟩ := h
    have hentries : (part ∪ d).entries = part.entries ++ d.entries := by
      rw [AList.union_entries]
      apply kunion_eq_append
      intro k hk hd
      exact (List.nodup_append.mp hfirst).2.2 k hd k hk rfl
    have hkeys : (part ∪ d).keys = part.keys ++ d.keys := by
      unfold AList.keys
      rw [hentries]
      exact List.map_append
    have hmerged : ((part ∪ d).keys ++ parts.flatMap (·.keys)).Nodup := by
      rw [hkeys, List.nodup_append]
      refine ⟨(List.perm_append_comm.nodup_iff).mp hfirst, hrest, ?_⟩
      intro k hk
      exact hdisjoint k ((List.perm_append_comm.mem_iff).mp hk)
    refine (ih (part ∪ d) hmerged).trans ?_
    rw [hentries, List.flatMap_cons, ← List.append_assoc]
    exact List.perm_append_comm.append_right _

end Instro.Library
