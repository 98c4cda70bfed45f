import Instro.Library.Procedure

/-!
# Cleanup

`finally` and `except` around a computation, and what every step of one keeps: a relation between states
that composes holds between the start and the end, on every path.
-/

namespace Instro.Library

namespace Procedure

variable {σ α ε β γ : Type}

/-- `try: x finally: y`. What the second part raises hides what the first did. -/
def cleanup (x : Procedure σ α ε β) (y : Procedure σ α ε Unit) : Procedure σ α ε β := fun s =>
  ⟨(y (x s).state).state, (x s).shown ++ (y (x s).state).shown,
    match (y (x s).state).result with
    | .ok _ => (x s).result
    | .error e => .error e⟩

/-- `try: x except e: handler e` -/
def handle (x : Procedure σ α ε β) (handler : ε → Procedure σ α ε β) : Procedure σ α ε β := fun s =>
  match (x s).result with
  | .ok _ => x s
  | .error e =>
    ⟨(handler e (x s).state).state, (x s).shown ++ (handler e (x s).state).shown,
      (handler e (x s).state).result⟩

section Handle

variable {x : Procedure σ α ε β} {handler : ε → Procedure σ α ε β} {s : σ}

theorem handle_of_ok {b : β} (h : (x s).result = .ok b) : x.handle handler s = x s := by
  unfold handle
  rw [h]

theorem handle_of_error {e : ε} (h : (x s).result = .error e) :
    x.handle handler s = ⟨(handler e (x s).state).state,
      (x s).shown ++ (handler e (x s).state).shown, (handler e (x s).state).result⟩ := by
  unfold handle
  rw [h]

end Handle

/-- Whatever comes of it, the computation leads along the relation. -/
def Leads (R : σ → σ → Prop) (x : Procedure σ α ε β) : Prop := ∀ s, R s (x s).state

section Leads

variable {R : σ → σ → Prop} {x : Procedure σ α ε β} {f : β → Procedure σ α ε γ}

theorem Leads.mono {R' : σ → σ → Prop} (hx : Leads R x) (h : ∀ s s', R s s' → R' s s') : Leads R' x :=
  fun s => h s _ (hx s)

variable [IsPreorder σ R]

theorem leads_pure (b : β) : Leads R (pure b : Procedure σ α ε β) := refl_of R

theorem leads_raise (e : ε) : Leads R (raise e : Procedure σ α ε β) := refl_of R

theorem leads_get : Leads R (get : Procedure σ α ε σ) := refl_of R

/-- One part after the other. -/
theorem Leads.bind (hx : Leads R x) (hf : ∀ b, Leads R (f b)) : Leads R (x >>= f) := by
  intro s
  cases h : (x s).result with
  | ok b =>
    rw [bind_of_ok h]
    exact trans_of R (hx s) (hf b (x s).state)
  | error e =>
    rw [bind_of_error h]
    exact hx s

theorem Leads.cleanup {y : Procedure σ α ε Unit} (hx : Leads R x) (hy : Leads R y) :
    Leads R (x.cleanup y) := fun s => trans_of R (hx s) (hy (x s).state)

theorem Leads.handle {handler : ε → Procedure σ α ε β} (hx : Leads R x)
    (hhandler : ∀ e, Leads R (handler e)) : Leads R (x.handle handler) := by
  intro s
  cases h : (x s).result with
  | ok b =>
    rw [handle_of_ok h]
    exact hx s
  | error e =>
    rw [handle_of_error h]
    exact trans_of R (hx s) (hhandler e (x s).state)

/-- What the relation keeps is a postcondition on every path. -/
theorem Leads.ensures {R' : σ → σ → Prop} {P : σ → Prop} (hx : Leads R' x)
    (hP : ∀ s s', R' s s' → P s → P s') : Ensures P x (fun _ => True) (fun _ => P) P where
  shown _ _ _ _ := trivial
  returned s hs _ _ := hP s _ (hx s) hs
  raised s hs _ _ := hP s _ (hx s) hs

end Leads

end Procedure

end Instro.Library
