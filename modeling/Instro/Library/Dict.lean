import Mathlib.Data.List.Induction
import Mathlib.Data.List.Nodup

/-!
# Dictionaries

A dictionary keeps its entries in the order in which their keys came in, one entry for each key.
Setting a key that is there replaces its value and leaves it in its place.
-/

namespace Instro.Library

variable {κ α : Type} [DecidableEq κ]

/-- Entries under distinct keys. -/
@[ext] structure Dict (κ α : Type) where
  entries : List (κ × α)
  nodup : (entries.map Prod.fst).Nodup
deriving DecidableEq

/-- Replace the value of a key, or append a new entry. -/
def setEntry (k : κ) (a : α) : List (κ × α) → List (κ × α)
  | [] => [(k, a)]
  | (k', b) :: entries => if k' = k then (k, a) :: entries else (k', b) :: setEntry k a entries

section Entries

variable {k k' : κ} {a b : α} {entries : List (κ × α)}

theorem keys_setEntry (k : κ) (a : α) (entries : List (κ × α)) :
    (setEntry k a entries).map Prod.fst =
      if k ∈ entries.map Prod.fst then entries.map Prod.fst else entries.map Prod.fst ++ [k] := by
  induction entries with
  | nil => rfl
  | cons e entries ih =>
    obtain ⟨k', b⟩ := e
    unfold setEntry
    by_cases hk : k' = k
    · rw [if_pos hk, if_pos (by simp [hk]), hk]
      rfl
    · rw [if_neg hk, List.map_cons, ih]
      have hmem : k ∈ ((k', b) :: entries).map Prod.fst ↔ k ∈ entries.map Prod.fst := by
        simp [Ne.symm hk]
      by_cases hin : k ∈ entries.map Prod.fst
      · rw [if_pos hin, if_pos (hmem.mpr hin)]
        rfl
      · rw [if_neg hin, if_neg fun h => hin (hmem.mp h)]
        rfl

theorem setEntry_of_not_mem (h : k ∉ entries.map Prod.fst) : setEntry k a entries = entries ++ [(k, a)] := by
  induction entries with
  | nil => rfl
  | cons e entries ih =>
    rw [List.map_cons, List.mem_cons, not_or] at h
    unfold setEntry
    rw [if_neg (Ne.symm h.1), ih h.2]
    rfl

theorem nodup_setEntry (h : (entries.map Prod.fst).Nodup) :
    ((setEntry k a entries).map Prod.fst).Nodup := by
  rw [keys_setEntry]
  split_ifs with hin
  · exact h
  · exact List.nodup_append.mpr ⟨h, List.nodup_singleton k, fun x hx y hy heq =>
      hin (by rwa [← List.mem_singleton.mp hy, ← heq])⟩

theorem mem_setEntry (h : (entries.map Prod.fst).Nodup) :
    (k', b) ∈ setEntry k a entries ↔ k' = k ∧ b = a ∨ k' ≠ k ∧ (k', b) ∈ entries := by
  induction entries with
  | nil => simp [setEntry]
  | cons e entries ih =>
    obtain ⟨j, c⟩ := e
    rw [List.map_cons, List.nodup_cons] at h
    unfold setEntry
    by_cases hj : j = k
    · subst hj
      rw [if_pos rfl]
      constructor
      · intro hmem
        rcases List.mem_cons.mp hmem with heq | hrest
        · exact .inl (Prod.mk.inj heq)
        · refine .inr ⟨fun heq => ?_, List.mem_cons_of_mem _ hrest⟩
          exact h.1 (List.mem_map.mpr ⟨_, hrest, heq⟩)
      · rintro (⟨rfl, rfl⟩ | ⟨hne, hmem⟩)
        · exact List.mem_cons_self
        · rcases List.mem_cons.mp hmem with heq | hmem
          · exact absurd (Prod.mk.inj heq).1 hne
          · exact List.mem_cons_of_mem _ hmem
    · rw [if_neg hj, List.mem_cons, ih h.2, List.mem_cons]
      constructor
      · rintro (heq | heq | ⟨hne, hmem⟩)
        · exact .inr ⟨by rw [(Prod.mk.inj heq).1]; exact hj, .inl heq⟩
        · exact .inl heq
        · exact .inr ⟨hne, .inr hmem⟩
      · rintro (heq | ⟨hne, heq | hmem⟩)
        · exact .inr (.inl heq)
        · exact .inl heq
        · exact .inr (.inr ⟨hne, hmem⟩)

theorem setEntry_of_lookup (h : entries.lookup k = some a) : setEntry k a entries = entries := by
  induction entries with
  | nil => cases h
  | cons e entries ih =>
    obtain ⟨j, c⟩ := e
    unfold setEntry
    rw [List.lookup_cons] at h
    by_cases hj : j = k
    · subst hj
      rw [beq_self_eq_true] at h
      rw [if_pos rfl, Option.some.inj h]
    · rw [beq_false_of_ne (Ne.symm hj)] at h
      rw [if_neg hj, ih h]

/-- Under distinct keys a lookup finds the entries. -/
theorem lookup_eq_some_iff_mem (h : (entries.map Prod.fst).Nodup) :
    entries.lookup k = some a ↔ (k, a) ∈ entries := by
  induction entries with
  | nil => simp
  | cons e entries ih =>
    obtain ⟨j, c⟩ := e
    rw [List.map_cons, List.nodup_cons] at h
    rw [List.lookup_cons, List.mem_cons, Prod.mk.injEq]
    by_cases hk : k = j
    · subst hk
      have hnot : (k, a) ∉ entries := fun hmem => h.1 (List.mem_map.mpr ⟨_, hmem, rfl⟩)
      simp [hnot, eq_comm]
    · have hbeq : (k == j) = false := beq_false_of_ne hk
      rw [hbeq]
      simp only [ih h.2, hk, false_and, false_or]

end Entries

namespace Dict

instance : EmptyCollection (Dict κ α) := ⟨⟨[], List.nodup_nil⟩⟩

def singleton (k : κ) (a : α) : Dict κ α := ⟨[(k, a)], List.nodup_singleton k⟩

def keys (d : Dict κ α) : List κ := d.entries.map Prod.fst

def values (d : Dict κ α) : List α := d.entries.map Prod.snd

/-- `d.get(k)` -/
def get? (d : Dict κ α) (k : κ) : Option α := d.entries.lookup k

/-- `d[k]` -/
def getItem {ε : Type} (d : Dict κ α) (k : κ) (e : ε) : Except ε α :=
  match d.get? k with
  | some a => .ok a
  | none => .error e

/-- `d[k] = a` -/
def set (d : Dict κ α) (k : κ) (a : α) : Dict κ α :=
  ⟨setEntry k a d.entries, nodup_setEntry d.nodup⟩

/-- The entries set one after the other. -/
def ofList (entries : List (κ × α)) : Dict κ α :=
  entries.foldl (fun d entry => d.set entry.1 entry.2) ∅

variable {d : Dict κ α} {k k' : κ} {a b : α}

theorem get?_eq_some_iff : d.get? k = some a ↔ (k, a) ∈ d.entries :=
  lookup_eq_some_iff_mem d.nodup

theorem get?_eq_none_iff : d.get? k = none ↔ k ∉ d.keys := by
  constructor
  · intro hnone hmem
    obtain ⟨⟨_, a⟩, hentry, rfl⟩ := List.mem_map.mp hmem
    rw [get?_eq_some_iff.mpr hentry] at hnone
    cases hnone
  · intro hmem
    by_contra hsome
    obtain ⟨a, ha⟩ := Option.ne_none_iff_exists'.mp hsome
    exact hmem (List.mem_map.mpr ⟨_, get?_eq_some_iff.mp ha, rfl⟩)

theorem mem_keys_iff : k ∈ d.keys ↔ ∃ a, d.get? k = some a := by
  rw [← not_iff_not, ← get?_eq_none_iff, ← Option.ne_none_iff_exists', not_not]

@[simp] theorem get?_set_self (d : Dict κ α) (k : κ) (a : α) : (d.set k a).get? k = some a :=
  get?_eq_some_iff.mpr ((mem_setEntry d.nodup).mpr (.inl ⟨rfl, rfl⟩))

theorem get?_set_ne (h : k' ≠ k) : (d.set k a).get? k' = d.get? k' := by
  apply Option.ext
  intro b
  rw [get?_eq_some_iff, get?_eq_some_iff]
  show (k', b) ∈ setEntry k a d.entries ↔ _
  rw [mem_setEntry d.nodup]
  simp [h]

theorem keys_set (d : Dict κ α) (k : κ) (a : α) :
    (d.set k a).keys = if k ∈ d.keys then d.keys else d.keys ++ [k] :=
  keys_setEntry k a d.entries

theorem mem_keys_set : k' ∈ (d.set k a).keys ↔ k' = k ∨ k' ∈ d.keys := by
  rw [keys_set]
  split_ifs with hin
  · constructor
    · exact .inr
    · rintro (rfl | h)
      · exact hin
      · exact h
  · rw [List.mem_append, List.mem_singleton, or_comm]

/-- Setting a key to the value it has changes nothing. -/
theorem set_of_get? (h : d.get? k = some a) : d.set k a = d :=
  Dict.ext (setEntry_of_lookup h)

/-- The values are what the keys have. -/
theorem values_eq_map_keys {f : κ → α} (h : ∀ k ∈ d.keys, d.get? k = some (f k)) :
    d.values = d.keys.map f := by
  show d.entries.map Prod.snd = (d.entries.map Prod.fst).map f
  rw [List.map_map]
  apply List.map_congr_left
  rintro ⟨k, a⟩ hentry
  have hk := h k (List.mem_map.mpr ⟨_, hentry, rfl⟩)
  rw [get?_eq_some_iff.mpr hentry] at hk
  exact Option.some.inj hk

/-- Where every key has its value, it has after one key is set to its new one. -/
theorem get?_set_eq {f g : κ → α} (h : ∀ k' ∈ d.keys, d.get? k' = some (f k')) (hself : g k = a)
    (hne : ∀ k', k' ≠ k → g k' = f k') :
    ∀ k' ∈ (d.set k a).keys, (d.set k a).get? k' = some (g k') := by
  intro k' hkey
  by_cases hk : k' = k
  · rw [hk, get?_set_self, hself]
  · rw [get?_set_ne hk, hne k' hk]
    exact h k' ((mem_keys_set.mp hkey).resolve_left hk)

/-- Of two entries and more one has another key. -/
theorem exists_key_ne (h : 1 < d.entries.length) (k : κ) : ∃ entry ∈ d.entries, entry.1 ≠ k := by
  by_contra hall
  push Not at hall
  have hkeys : d.entries.map Prod.fst = List.replicate d.entries.length k := by
    apply List.eq_replicate_iff.mpr
    refine ⟨List.length_map _, fun key hkey => ?_⟩
    obtain ⟨entry, hentry, rfl⟩ := List.mem_map.mp hkey
    exact hall entry hentry
  have hnodup := d.nodup
  rw [hkeys, List.nodup_replicate] at hnodup
  omega

omit [DecidableEq κ] in
theorem eq_of_length_le_one (h : d.entries.length ≤ 1) {entry entry' : κ × α}
    (hentry : entry ∈ d.entries) (hentry' : entry' ∈ d.entries) : entry = entry' := by
  obtain ⟨i, hi, rfl⟩ := List.getElem_of_mem hentry
  obtain ⟨j, hj, rfl⟩ := List.getElem_of_mem hentry'
  obtain rfl : i = j := by omega
  rfl

theorem mem_keys_ofList {entries : List (κ × α)} :
    k ∈ (ofList entries).keys ↔ k ∈ entries.map Prod.fst := by
  induction entries using List.reverseRecOn with
  | nil => rfl
  | append_singleton entries entry ih =>
    unfold ofList at ih ⊢
    rw [List.foldl_append, List.foldl_cons, List.foldl_nil, mem_keys_set, ih, List.map_append,
      List.mem_append, List.map_singleton, List.mem_singleton, or_comm]

end Dict

end Instro.Library
