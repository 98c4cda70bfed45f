import Instro.Library.Procedure

/-!
# Computations in atomic steps

What a procedure does between the points at which others may run. A step changes a shared state at once;
taken without interruption, the steps do what the procedure does.
-/

namespace Instro.Library

/-- A computation on states `σ`: each step changes the state, and goes on with what it has seen of it. -/
inductive AtomicSteps (σ β : Type) : Type
  | done (b : β)
  | step (change : σ → σ) (next : σ → AtomicSteps σ β)

namespace AtomicSteps

variable {σ α β γ ε : Type}

/-- The result, and the state after it, where nothing else runs. -/
def eval : AtomicSteps σ β → σ → β × σ
  | done b, s => (b, s)
  | step change next, s => (next s).eval (change s)

/-- One computation and, unless it raises, another one. -/
def andThen : AtomicSteps σ (Except ε β) → (β → AtomicSteps σ (Except ε γ)) →
    AtomicSteps σ (Except ε γ)
  | done (.ok b), f => f b
  | done (.error e), _ => done (.error e)
  | step change next, f => step change fun s => (next s).andThen f

/-- A procedure that nothing interrupts. -/
def atomically (x : Procedure σ α ε β) : AtomicSteps σ (Except ε β) :=
  step (fun s => (x s).state) fun s => done (x s).result

/-- The steps do what the procedure does. -/
def Realizes (steps : AtomicSteps σ (Except ε β)) (x : Procedure σ α ε β) : Prop :=
  ∀ s, steps.eval s = ((x s).result, (x s).state)

section Realizes

variable {steps : AtomicSteps σ (Except ε β)} {x : Procedure σ α ε β}

theorem realizes_atomically (x : Procedure σ α ε β) : (atomically x).Realizes x := fun _ => rfl

theorem realizes_error (e : ε) :
    (done (.error e) : AtomicSteps σ (Except ε β)).Realizes (Procedure.raise (α := α) e) :=
  fun _ => rfl

theorem realizes_pure (b : β) :
    (done (.ok b) : AtomicSteps σ (Except ε β)).Realizes (pure b : Procedure σ α ε β) :=
  fun _ => rfl

theorem eval_andThen (steps : AtomicSteps σ (Except ε β))
    (f : β → AtomicSteps σ (Except ε γ)) (s : σ) :
    (steps.andThen f).eval s =
      match (steps.eval s).1 with
      | .ok b => (f b).eval (steps.eval s).2
      | .error e => (.error e, (steps.eval s).2) := by
  induction steps generalizing s with
  | done b => cases b <;> rfl
  | step change next ih => exact ih s (change s)

theorem Realizes.andThen (h : steps.Realizes x) {f : β → AtomicSteps σ (Except ε γ)}
    {g : β → Procedure σ α ε γ} (hf : ∀ b, (f b).Realizes (g b)) :
    (steps.andThen f).Realizes (x >>= g) := by
  intro s
  rw [eval_andThen, h s]
  cases hresult : (x s).result with
  | ok b =>
    rw [Procedure.bind_of_ok hresult]
    exact hf b (x s).state
  | error e =>
    rw [Procedure.bind_of_error hresult]

end Realizes

end AtomicSteps

end Instro.Library
