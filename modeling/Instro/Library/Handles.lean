import Mathlib.Data.List.Basic
import Mathlib.Data.Nat.Notation

/-!
# Memory behind handles

Each allocation makes a new buffer and gives out a handle to it. Buffers are numbered as they come;
a handle may be given out again once its buffer has been freed. 0 is no handle.
-/

namespace Instro.Library

/-- The number of buffers so far, and the handles of those that are live. -/
structure Handles where
  allocated : ℕ
  live : List (ℕ × ℕ)
  deriving DecidableEq

namespace Handles

def empty : Handles := ⟨0, []⟩

/-- An allocation can return this: no handle, or one that is not in use. -/
def Offers (m : Handles) (handle : ℕ) : Prop := handle = 0 ∨ handle ∉ m.live.map Prod.fst

instance (m : Handles) (handle : ℕ) : Decidable (m.Offers handle) :=
  inferInstanceAs (Decidable (_ ∨ _))

def alloc (m : Handles) (handle : ℕ) : Handles := ⟨m.allocated + 1, (handle, m.allocated) :: m.live⟩

/-- The buffer that is freed; `none` where the handle is not in use. -/
def free (m : Handles) (handle : ℕ) : Option (ℕ × Handles) :=
  (m.live.lookup handle).map fun buffer =>
    (buffer, { m with live := m.live.filter fun entry => entry.1 ≠ handle })

variable {m : Handles} {handle buffer : ℕ}

/-- A handle that has just been given out frees its buffer and no other. -/
theorem free_alloc (h : handle ∉ m.live.map Prod.fst) :
    (m.alloc handle).free handle = some (m.allocated, ⟨m.allocated + 1, m.live⟩) := by
  have hrest : m.live.filter (fun entry => entry.1 ≠ handle) = m.live := by
    apply List.filter_eq_self.mpr
    intro entry hentry
    have hne : entry.1 ≠ handle := fun heq => h (heq ▸ List.mem_map_of_mem hentry)
    simpa using hne
  unfold free alloc
  dsimp only
  rw [List.lookup_cons_self, List.filter_cons_of_neg (by simp), hrest]
  rfl

theorem free_singleton (allocated handle buffer : ℕ) :
    (Handles.mk allocated [(handle, buffer)]).free handle = some (buffer, ⟨allocated, []⟩) := by
  unfold free
  dsimp only
  rw [List.lookup_cons_self, List.filter_cons_of_neg (by simp)]
  rfl

end Handles

end Instro.Library
