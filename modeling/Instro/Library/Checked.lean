import Mathlib.Data.List.Forall2

/-!
# Checked computations

A guard that raises is an `ensure`; a computation of `Except` succeeds exactly when all its steps
do. The lemmas here turn a sequence of checks into the conjunction of what they check.
-/

namespace Instro.Library

variable {ε ε' α β : Type}

/-- Raise unless the condition holds. -/
def ensure (c : Prop) [Decidable c] (e : ε) : Except ε Unit :=
  if c then .ok () else .error e

/-- An error of a callee under the caller's name for it. -/
def raiseAs (f : ε → ε') (x : Except ε α) : Except ε' α :=
  x.mapError f

section Ensure

variable {c : Prop} [Decidable c] {e : ε}

theorem ensure_pos (h : c) : ensure c e = .ok () := if_pos h

theorem ensure_neg (h : ¬ c) : ensure c e = .error e := if_neg h

@[simp] theorem ensure_eq_ok {u : Unit} : ensure c e = .ok u ↔ c := by
  unfold ensure
  split_ifs with h
  · simp [h]
  · simp [h]

theorem ensure_eq_error {e' : ε} : ensure c e = .error e' ↔ ¬ c ∧ e = e' := by
  unfold ensure
  split_ifs with h
  · simp [h]
  · simp [h]

@[simp] theorem pure_eq_ok {a b : α} : (pure a : Except ε α) = .ok b ↔ a = b :=
  ⟨Except.ok.inj, congrArg Except.ok⟩

theorem bind_eq_ok {x : Except ε α} {f : α → Except ε β} {b : β} :
    (x >>= f) = .ok b ↔ ∃ a, x = .ok a ∧ f a = .ok b := by
  cases x with
  | error e => exact ⟨nofun, fun ⟨_, h, _⟩ => nomatch h⟩
  | ok a => exact ⟨fun h => ⟨a, rfl, h⟩, fun ⟨_, h, h'⟩ => Except.ok.inj h ▸ h'⟩

theorem bind_eq_error {x : Except ε α} {f : α → Except ε β} {e : ε} :
    (x >>= f) = .error e ↔ x = .error e ∨ ∃ a, x = .ok a ∧ f a = .error e := by
  cases x with
  | error e' => exact ⟨fun h => .inl (congrArg _ (Except.error.inj h)), fun h => h.elim
      (fun h => congrArg _ (Except.error.inj h)) fun ⟨_, h, _⟩ => nomatch h⟩
  | ok a => exact ⟨fun h => .inr ⟨a, rfl, h⟩, fun h => h.elim nofun
      fun ⟨_, h, h'⟩ => Except.ok.inj h ▸ h'⟩

@[simp] theorem ensure_bind_eq_ok {f : Unit → Except ε β} {b : β} :
    (ensure c e >>= f) = .ok b ↔ c ∧ f () = .ok b := by
  rw [bind_eq_ok]
  constructor
  · rintro ⟨_, h, h'⟩
    exact ⟨ensure_eq_ok.mp h, h'⟩
  · rintro ⟨h, h'⟩
    exact ⟨(), ensure_eq_ok.mpr h, h'⟩

theorem map_eq_ok {x : Except ε α} {f : α → β} {b : β} :
    x.map f = .ok b ↔ ∃ a, x = .ok a ∧ f a = b := by
  cases x with
  | error e => exact ⟨nofun, fun ⟨_, h, _⟩ => nomatch h⟩
  | ok a => exact ⟨fun h => ⟨a, rfl, Except.ok.inj h⟩, fun ⟨_, h, h'⟩ =>
      congrArg Except.ok ((congrArg f (Except.ok.inj h)).trans h')⟩

theorem toOption_eq_some {x : Except ε α} {a : α} : x.toOption = some a ↔ x = .ok a := by
  cases x with
  | error e => exact ⟨nofun, nofun⟩
  | ok b => exact ⟨fun h => congrArg _ (Option.some.inj h), fun h => congrArg _ (Except.ok.inj h)⟩

@[simp] theorem raiseAs_eq_ok {f : ε → ε'} {x : Except ε α} {a : α} :
    raiseAs f x = .ok a ↔ x = .ok a := by
  cases x with
  | error e => exact ⟨nofun, nofun⟩
  | ok b => exact ⟨fun h => congrArg _ (Except.ok.inj h), fun h => congrArg _ (Except.ok.inj h)⟩

/-- A traversal whose steps all succeed is a map. -/
theorem mapM_eq_ok_map {xs : List α} {f : α → Except ε β} {g : α → β}
    (h : ∀ x ∈ xs, f x = .ok (g x)) : xs.mapM f = .ok (xs.map g) := by
  induction xs with
  | nil => rfl
  | cons x xs ih =>
    rw [List.mapM_cons, h x List.mem_cons_self, ih fun y hy => h y (List.mem_cons_of_mem x hy)]
    rfl

/-- A fold whose steps all succeed is a fold. -/
theorem foldlM_map_eq_ok {γ : Type} {xs : List α} {item : α → β} {f : γ → β → Except ε γ}
    {g : γ → α → γ} (h : ∀ d, ∀ x ∈ xs, f d (item x) = .ok (g d x)) (d : γ) :
    (xs.map item).foldlM f d = .ok (xs.foldl g d) := by
  induction xs generalizing d with
  | nil => rfl
  | cons x xs ih =>
    rw [List.map_cons, List.foldlM_cons, h d x List.mem_cons_self]
    exact ih (fun d y hy => h d y (List.mem_cons_of_mem x hy)) (g d x)

/-- A traversal succeeds only if all its steps do. -/
theorem step_of_mapM_eq_ok {xs : List α} {f : α → Except ε β} {ys : List β}
    (h : xs.mapM f = .ok ys) : ∀ x ∈ xs, ∃ y, f x = .ok y := by
  induction xs generalizing ys with
  | nil => exact fun _ hx => absurd hx List.not_mem_nil
  | cons x xs ih =>
    rw [List.mapM_cons] at h
    obtain ⟨y, hy, h⟩ := bind_eq_ok.mp h
    obtain ⟨zs, hzs, -⟩ := bind_eq_ok.mp h
    intro z hz
    rcases List.mem_cons.mp hz with rfl | hz
    · exact ⟨y, hy⟩
    · exact ih hzs z hz

/-- A loop of checks passes exactly if each of them does. -/
theorem forM_eq_ok {xs : List α} {f : α → Except ε Unit} :
    xs.forM f = .ok () ↔ ∀ x ∈ xs, f x = .ok () := by
  induction xs with
  | nil => exact ⟨fun _ _ hx => absurd hx List.not_mem_nil, fun _ => rfl⟩
  | cons x xs ih =>
    show (f x >>= fun _ => xs.forM f) = _ ↔ _
    rw [bind_eq_ok, List.forall_mem_cons, ← ih]
    constructor
    · rintro ⟨_, hx, hxs⟩
      exact ⟨hx, hxs⟩
    · rintro ⟨hx, hxs⟩
      exact ⟨_, hx, hxs⟩

/-- A fold that combines the results of a computation on each element is the traversal, and then the
fold. -/
theorem foldlM_bind_eq_mapM {γ : Type} (xs : List α) (f : α → Except ε β) (g : γ → β → γ) (d : γ) :
    xs.foldlM (fun d x => do let b ← f x; return g d b) d =
      (xs.mapM f).map fun bs => bs.foldl g d := by
  induction xs generalizing d with
  | nil => rfl
  | cons x xs ih =>
    rw [List.foldlM_cons, List.mapM_cons]
    cases f x with
    | error e => rfl
    | ok b =>
      refine (ih (g d b)).trans ?_
      cases xs.mapM f with
      | error e => rfl
      | ok bs => rfl

/-- Folds whose steps agree on the elements of the list agree. -/
theorem foldlM_congr {γ : Type} {xs : List α} {f f' : γ → α → Except ε γ}
    (h : ∀ d, ∀ x ∈ xs, f d x = f' d x) (d : γ) : xs.foldlM f d = xs.foldlM f' d := by
  induction xs generalizing d with
  | nil => rfl
  | cons x xs ih =>
    rw [List.foldlM_cons, List.foldlM_cons, h d x List.mem_cons_self]
    apply bind_congr
    exact ih fun d y hy => h d y (List.mem_cons_of_mem x hy)

/-- A traversal succeeds if all its steps do. -/
theorem exists_mapM_eq_ok {xs : List α} {f : α → Except ε β} (h : ∀ x ∈ xs, ∃ y, f x = .ok y) :
    ∃ ys, xs.mapM f = .ok ys := by
  induction xs with
  | nil => exact ⟨[], rfl⟩
  | cons x xs ih =>
    obtain ⟨y, hy⟩ := h x List.mem_cons_self
    obtain ⟨ys, hys⟩ := ih fun z hz => h z (List.mem_cons_of_mem x hz)
    refine ⟨y :: ys, ?_⟩
    rw [List.mapM_cons, hy, hys]
    rfl

/-- A fold succeeds if all its steps do. -/
theorem exists_foldlM_eq_ok {γ : Type} {xs : List α} {f : γ → α → Except ε γ}
    (h : ∀ d, ∀ x ∈ xs, ∃ d', f d x = .ok d') (d : γ) : ∃ d', xs.foldlM f d = .ok d' := by
  induction xs generalizing d with
  | nil => exact ⟨d, rfl⟩
  | cons x xs ih =>
    obtain ⟨d', hd'⟩ := h d x List.mem_cons_self
    rw [List.foldlM_cons, hd']
    exact ih (fun d y hy => h d y (List.mem_cons_of_mem x hy)) d'

/-- The results of a traversal, element by element. -/
theorem forall₂_of_mapM_eq_ok {xs : List α} {f : α → Except ε β} {ys : List β}
    (h : xs.mapM f = .ok ys) : List.Forall₂ (fun x y => f x = .ok y) xs ys := by
  induction xs generalizing ys with
  | nil =>
    obtain rfl := Except.ok.inj h
    exact List.Forall₂.nil
  | cons x xs ih =>
    rw [List.mapM_cons] at h
    obtain ⟨y, hy, h⟩ := bind_eq_ok.mp h
    obtain ⟨zs, hzs, h⟩ := bind_eq_ok.mp h
    obtain rfl := Except.ok.inj h
    exact List.Forall₂.cons hy (ih hzs)

/-- A traversal that renames the errors of another. -/
theorem mapM_eq_raiseAs {xs : List α} {f : α → Except ε' β} {g : ε → ε'} {f' : α → Except ε β}
    (h : ∀ x ∈ xs, f x = raiseAs g (f' x)) : xs.mapM f = raiseAs g (xs.mapM f') := by
  induction xs with
  | nil => rfl
  | cons x xs ih =>
    rw [List.mapM_cons, List.mapM_cons, h x List.mem_cons_self,
      ih fun y hy => h y (List.mem_cons_of_mem x hy)]
    cases f' x with
    | error e => rfl
    | ok y =>
      cases xs.mapM f' with
      | error e => rfl
      | ok ys => rfl

end Ensure

end Instro.Library
