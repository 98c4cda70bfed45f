import Mathlib.Data.List.AList

/-!
# Hash tables of values that carry their key

A `KeyedTable key` is a finite map in which every value is stored under its own key, the invariant
being a field. A walk over a hash table visits the entries in an order the table does not promise,
so a walk takes the order as an argument, and what is proved about it holds for every order.
-/

namespace Instro.Library

/-- An order in which a table's keys are visited. -/
structure WalkOrder (K : Type*) where
  arrange : List K → List K
  perm : ∀ ks, (arrange ks).Perm ks

/-- The order in which the keys are stored. -/
def WalkOrder.stored (K : Type*) : WalkOrder K := ⟨id, fun _ => .refl _⟩

/-- A finite map that stores each value under `key` of it. -/
structure KeyedTable {K V : Type*} [DecidableEq K] (key : V → K) where
  entries : AList fun _ : K => V
  keyed : ∀ k v, entries.lookup k = some v → key v = k

namespace KeyedTable

variable {K V : Type*} [DecidableEq K] {key : V → K}

instance : EmptyCollection (KeyedTable key) :=
  ⟨∅, fun k v h => by rw [AList.lookup_empty] at h; cases h⟩

instance : Membership K (KeyedTable key) := ⟨fun m k => k ∈ m.entries⟩

instance (k : K) (m : KeyedTable key) : Decidable (k ∈ m) :=
  inferInstanceAs (Decidable (k ∈ m.entries))

def get (m : KeyedTable key) (k : K) : Option V := m.entries.lookup k

def isEmpty (m : KeyedTable key) : Bool := m.entries.keys.isEmpty

/-- Store `v`, replacing what was there under its key. -/
def insert (m : KeyedTable key) (v : V) : KeyedTable key where
  entries := m.entries.insert (key v) v
  keyed k w h := by
    by_cases hk : k = key v
    · subst hk
      rw [AList.lookup_insert] at h
      rw [← Option.some.inj h]
    · rw [AList.lookup_insert_ne hk] at h
      exact m.keyed k w h

def remove (m : KeyedTable key) (k : K) : KeyedTable key where
  entries := m.entries.erase k
  keyed k' v h := by
    by_cases hk : k' = k
    · subst hk
      rw [AList.lookup_erase] at h
      cases h
    · rw [AList.lookup_erase_ne hk] at h
      exact m.keyed k' v h

/-- Store the values in order. -/
def extend (m : KeyedTable key) (vs : List V) : KeyedTable key := vs.foldl insert m

/-- The stored values, in the given order of their keys. -/
def walk (m : KeyedTable key) (o : WalkOrder K) : List V :=
  (o.arrange m.entries.keys).filterMap m.get

section Basic

variable {m : KeyedTable key} {k k' : K} {v : V}

theorem mem_iff : k ∈ m ↔ ∃ v, m.get k = some v :=
  AList.lookup_isSome.symm.trans Option.isSome_iff_exists

theorem key_of_get (h : m.get k = some v) : key v = k := m.keyed k v h

@[simp] theorem get_empty : (∅ : KeyedTable key).get k = none := AList.lookup_empty k

@[simp] theorem notMem_empty : k ∉ (∅ : KeyedTable key) := AList.notMem_empty k

@[simp] theorem get_insert_self : (m.insert v).get (key v) = some v := AList.lookup_insert _

theorem get_insert_ne (h : k ≠ key v) : (m.insert v).get k = m.get k := AList.lookup_insert_ne h

@[simp] theorem mem_insert : k ∈ m.insert v ↔ k = key v ∨ k ∈ m := AList.mem_insert _

@[simp] theorem get_remove_self : (m.remove k).get k = none := AList.lookup_erase k _

theorem get_remove_ne (h : k ≠ k') : (m.remove k').get k = m.get k := AList.lookup_erase_ne h

@[simp] theorem mem_remove : k ∈ m.remove k' ↔ k ≠ k' ∧ k ∈ m := AList.mem_erase

theorem isEmpty_iff : m.isEmpty = true ↔ ∀ k, k ∉ m := by
  unfold isEmpty
  rw [List.isEmpty_iff, List.eq_nil_iff_forall_not_mem]
  rfl

end Basic

/-! ## Storing a list of values -/

section Extend

variable {m : KeyedTable key} {vs : List V} {k : K} {v : V}

@[simp] theorem extend_nil : m.extend [] = m := rfl

theorem extend_cons : m.extend (v :: vs) = (m.insert v).extend vs := rfl

theorem mem_extend : k ∈ m.extend vs ↔ k ∈ m ∨ k ∈ vs.map key := by
  induction vs generalizing m with
  | nil => simp
  | cons v vs ih =>
    rw [extend_cons, ih, mem_insert, List.map_cons, List.mem_cons]
    tauto

theorem get_extend_of_notMem (h : k ∉ vs.map key) : (m.extend vs).get k = m.get k := by
  induction vs generalizing m with
  | nil => rfl
  | cons v vs ih =>
    rw [List.map_cons, List.mem_cons, not_or] at h
    rw [extend_cons, ih h.2, get_insert_ne h.1]

/-- Values with distinct keys are all found again. -/
theorem get_extend_of_mem (hnd : (vs.map key).Nodup) (hv : v ∈ vs) :
    (m.extend vs).get (key v) = some v := by
  induction vs generalizing m with
  | nil => exact absurd hv List.not_mem_nil
  | cons w vs ih =>
    rw [List.map_cons, List.nodup_cons] at hnd
    rw [extend_cons]
    rcases List.mem_cons.mp hv with rfl | hv
    · rw [get_extend_of_notMem hnd.1, get_insert_self]
    · exact ih hnd.2 hv

/-- A stored value was there before or is one of those put in. -/
theorem mem_of_get_extend (h : (m.extend vs).get k = some v) : m.get k = some v ∨ v ∈ vs := by
  induction vs generalizing m with
  | nil => exact .inl h
  | cons w vs ih =>
    rw [extend_cons] at h
    rcases ih h with h | h
    · by_cases hk : k = key w
      · subst hk
        rw [get_insert_self] at h
        exact .inr (Option.some.inj h ▸ List.mem_cons_self)
      · rw [get_insert_ne hk] at h
        exact .inl h
    · exact .inr (List.mem_cons_of_mem w h)

end Extend

/-! ## Walking a table -/

section Walk

variable {m : KeyedTable key} {o : WalkOrder K} {k : K} {v : V}

theorem mem_walk : v ∈ m.walk o ↔ m.get (key v) = some v := by
  unfold walk
  rw [List.mem_filterMap]
  constructor
  · rintro ⟨k, _, h⟩
    rwa [key_of_get h]
  · intro h
    refine ⟨key v, ?_, h⟩
    rw [(o.perm _).mem_iff]
    exact AList.lookup_isSome.mp (Option.isSome_iff_exists.mpr ⟨v, h⟩)

theorem filterMap_get_map_key (ks : List K) (h : ∀ k ∈ ks, k ∈ m) :
    (ks.filterMap m.get).map key = ks := by
  induction ks with
  | nil => rfl
  | cons k ks ih =>
    obtain ⟨v, hv⟩ := mem_iff.mp (h k List.mem_cons_self)
    rw [List.filterMap_cons_some hv, List.map_cons, key_of_get hv,
      ih fun k' hk' => h k' (List.mem_cons_of_mem k hk')]

/-- A walk visits every key once. -/
theorem walk_map_key : (m.walk o).map key = o.arrange m.entries.keys :=
  filterMap_get_map_key _ fun _ hk => (o.perm _).mem_iff.mp hk

theorem nodup_walk_map_key : ((m.walk o).map key).Nodup := by
  rw [walk_map_key]
  exact (o.perm _).nodup_iff.mpr m.entries.keys_nodup

theorem nodup_walk : (m.walk o).Nodup := nodup_walk_map_key.of_map key

theorem mem_walk_map_key : k ∈ (m.walk o).map key ↔ k ∈ m := by
  rw [walk_map_key]
  exact (o.perm _).mem_iff

end Walk

/-! ## Tables related by a map of their values -/

section MapsTo

variable {W : Type*} {key' : W → K} {f : W → V}

/-- The same keys in the same order, and the values of `m` are the images of those of `m'`. -/
def MapsTo (f : W → V) (m' : KeyedTable key') (m : KeyedTable key) : Prop :=
  m'.entries.keys = m.entries.keys ∧ ∀ k, (m'.get k).map f = m.get k

variable {m' : KeyedTable key'} {m : KeyedTable key}

theorem MapsTo.empty : MapsTo f (∅ : KeyedTable key') (∅ : KeyedTable key) :=
  ⟨rfl, fun k => by rw [get_empty, get_empty, Option.map_none]⟩

theorem MapsTo.remove (h : MapsTo f m' m) (k : K) : MapsTo f (m'.remove k) (m.remove k) := by
  refine ⟨?_, fun k' => ?_⟩
  · show (m'.entries.erase k).keys = (m.entries.erase k).keys
    rw [AList.keys_erase, AList.keys_erase, h.1]
  · by_cases hk : k' = k
    · rw [hk, get_remove_self, get_remove_self, Option.map_none]
    · rw [get_remove_ne hk, get_remove_ne hk, h.2]

theorem MapsTo.insert (hkey : ∀ w, key (f w) = key' w) (h : MapsTo f m' m) (w : W) :
    MapsTo f (m'.insert w) (m.insert (f w)) := by
  refine ⟨?_, fun k => ?_⟩
  · show (m'.entries.insert (key' w) w).keys = (m.entries.insert (key (f w)) (f w)).keys
    rw [AList.keys_insert, AList.keys_insert, h.1, hkey]
  · by_cases hk : k = key' w
    · have hk' : k = key (f w) := hk.trans (hkey w).symm
      conv_lhs => rw [hk]
      rw [hk', get_insert_self, get_insert_self, Option.map_some]
    · rw [get_insert_ne hk, get_insert_ne (hkey w ▸ hk), h.2]

theorem MapsTo.extend (hkey : ∀ w, key (f w) = key' w) (h : MapsTo f m' m) (ws : List W) :
    MapsTo f (m'.extend ws) (m.extend (ws.map f)) := by
  induction ws generalizing m' m with
  | nil => exact h
  | cons w ws ih => exact ih (h.insert hkey w)

theorem MapsTo.walk (h : MapsTo f m' m) (o : WalkOrder K) : (m'.walk o).map f = m.walk o := by
  unfold KeyedTable.walk
  rw [List.map_filterMap, h.1]
  exact congrArg (List.filterMap · _) (funext h.2)

theorem MapsTo.isEmpty (h : MapsTo f m' m) : m'.isEmpty = m.isEmpty :=
  congrArg List.isEmpty h.1

end MapsTo

end KeyedTable

end Instro.Library
