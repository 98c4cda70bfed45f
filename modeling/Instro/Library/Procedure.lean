import Mathlib.Logic.Basic
import Mathlib.Order.Defs.Unbundled

/-!
# Procedures

Computations that change a state and may raise at any point. What has been done to the state stays
done, whatever is raised after it, and the events shown on the way stay shown. The rules are those of
pre- and postconditions, with a condition for the events and one for the states in which it raises.
-/

namespace Instro.Library

/-- The state after a computation, the events it has shown, and its outcome. -/
structure Done (σ α ε β : Type) where
  state : σ
  shown : List α
  result : Except ε β

/-- `σ` are the states, `α` the events, `ε` the errors. -/
def Procedure (σ α ε β : Type) := σ → Done σ α ε β

namespace Procedure

variable {σ α ε β γ : Type}

protected def bind (x : Procedure σ α ε β) (f : β → Procedure σ α ε γ) : Procedure σ α ε γ :=
  fun s =>
    match (x s).result with
    | .ok b =>
      ⟨(f b (x s).state).state, (x s).shown ++ (f b (x s).state).shown, (f b (x s).state).result⟩
    | .error e => ⟨(x s).state, (x s).shown, .error e⟩

instance : Monad (Procedure σ α ε) where
  pure b := fun s => ⟨s, [], .ok b⟩
  bind := Procedure.bind

def get : Procedure σ α ε σ := fun s => ⟨s, [], .ok s⟩

def modify (f : σ → σ) : Procedure σ α ε Unit := fun s => ⟨f s, [], .ok ()⟩

def «show» (event : α) : Procedure σ α ε Unit := fun s => ⟨s, [event], .ok ()⟩

def raise (e : ε) : Procedure σ α ε β := fun s => ⟨s, [], .error e⟩

/-- A step that only computes. -/
def lift (x : Except ε β) : Procedure σ α ε β := fun s => ⟨s, [], x⟩

/-- A call of something outside, which is shown and answered. -/
def call (event : α) (answer : Except ε β) : Procedure σ α ε β := fun s => ⟨s, [event], answer⟩

variable {x : Procedure σ α ε β} {f : β → Procedure σ α ε γ} {s : σ} {b : β}

theorem bind_of_ok (h : (x s).result = .ok b) :
    (x >>= f) s = ⟨(f b (x s).state).state, (x s).shown ++ (f b (x s).state).shown,
      (f b (x s).state).result⟩ := by
  show Procedure.bind x f s = _
  unfold Procedure.bind
  rw [h]

theorem bind_of_error {e : ε} (h : (x s).result = .error e) :
    (x >>= f) s = ⟨(x s).state, (x s).shown, .error e⟩ := by
  show Procedure.bind x f s = _
  unfold Procedure.bind
  rw [h]

theorem get_bind (f : σ → Procedure σ α ε γ) (s : σ) : (get >>= f) s = f s s := rfl

theorem modify_bind (g : σ → σ) (f : Unit → Procedure σ α ε γ) (s : σ) :
    (modify g >>= f) s = f () (g s) := rfl

/-- What the first part shows is shown. -/
theorem shown_subset_bind (x : Procedure σ α ε β) (f : β → Procedure σ α ε γ) (s : σ) :
    (x s).shown ⊆ ((x >>= f) s).shown := by
  cases h : (x s).result with
  | ok b =>
    rw [bind_of_ok h]
    exact List.subset_append_left _ _
  | error e =>
    rw [bind_of_error h]
    exact fun _ => id

/-- What the second part shows is shown, if the first raises nothing. -/
theorem shown_next_subset_bind (h : (x s).result = .ok b) :
    (f b (x s).state).shown ⊆ ((x >>= f) s).shown := by
  rw [bind_of_ok h]
  exact List.subset_append_right _ _

theorem map_apply (g : β → γ) (x : Procedure σ α ε β) (s : σ) :
    (g <$> x) s = ⟨(x s).state, (x s).shown, (x s).result.map g⟩ := by
  show (x >>= fun b => pure (g b)) s = _
  cases h : (x s).result with
  | ok b =>
    rw [bind_of_ok h]
    exact congrArg (Done.mk _ · _) (List.append_nil _)
  | error e =>
    rw [bind_of_error h]
    rfl

theorem shown_map (g : β → γ) (x : Procedure σ α ε β) (s : σ) : ((g <$> x) s).shown = (x s).shown := by
  rw [map_apply]

/-! ## Pre- and postconditions -/

/-- From the states of `P`, only events of `A` are shown; a computation that returns ends in `Q`, and one
that raises in `E`. -/
structure Ensures (P : σ → Prop) (x : Procedure σ α ε β) (A : α → Prop) (Q : β → σ → Prop)
    (E : σ → Prop) : Prop where
  shown : ∀ s, P s → ∀ a ∈ (x s).shown, A a
  returned : ∀ s, P s → ∀ b, (x s).result = .ok b → Q b (x s).state
  raised : ∀ s, P s → ∀ e, (x s).result = .error e → E (x s).state

variable {P R : σ → Prop} {A : α → Prop} {Q : β → σ → Prop} {E : σ → Prop}

theorem ensures_pure (h : ∀ s, P s → Q b s) :
    Ensures P (pure b : Procedure σ α ε β) A Q E where
  shown _ _ _ h := absurd h List.not_mem_nil
  returned s hs b hb := by
    obtain rfl := Except.ok.inj hb
    exact h s hs
  raised _ _ _ h := nomatch h

theorem ensures_get {Q : σ → σ → Prop} (h : ∀ s, P s → Q s s) :
    Ensures P (get : Procedure σ α ε σ) A Q E where
  shown _ _ _ h := absurd h List.not_mem_nil
  returned s hs b hb := by
    obtain rfl := Except.ok.inj hb
    exact h s hs
  raised _ _ _ h := nomatch h

theorem ensures_modify {change : σ → σ} {Q : Unit → σ → Prop} (h : ∀ s, P s → Q () (change s)) :
    Ensures P (modify change : Procedure σ α ε Unit) A Q E where
  shown _ _ _ h := absurd h List.not_mem_nil
  returned s hs _ _ := h s hs
  raised _ _ _ h := nomatch h

theorem ensures_raise {e : ε} (h : ∀ s, P s → E s) :
    Ensures P (raise e : Procedure σ α ε β) A Q E where
  shown _ _ _ h := absurd h List.not_mem_nil
  returned _ _ _ h := nomatch h
  raised s hs _ _ := h s hs

theorem ensures_lift {r : Except ε β} (hok : ∀ s, P s → ∀ b, r = .ok b → Q b s)
    (herror : ∀ s, P s → E s) : Ensures P (lift r : Procedure σ α ε β) A Q E where
  shown _ _ _ h := absurd h List.not_mem_nil
  returned s hs b h := hok s hs b h
  raised s hs _ _ := herror s hs

/-- One part after the other. -/
theorem Ensures.bind {M : β → σ → Prop} {Q : γ → σ → Prop} (hx : Ensures P x A M E)
    (hf : ∀ b, Ensures (M b) (f b) A Q E) : Ensures P (x >>= f) A Q E where
  shown s hs a ha := by
    cases h : (x s).result with
    | ok b =>
      rw [bind_of_ok h] at ha
      rcases List.mem_append.mp ha with ha | ha
      · exact hx.shown s hs a ha
      · exact (hf b).shown _ (hx.returned s hs b h) a ha
    | error e =>
      rw [bind_of_error h] at ha
      exact hx.shown s hs a ha
  returned s hs c hc := by
    cases h : (x s).result with
    | ok b =>
      rw [bind_of_ok h] at hc ⊢
      exact (hf b).returned _ (hx.returned s hs b h) c hc
    | error e =>
      rw [bind_of_error h] at hc
      cases hc
  raised s hs e he := by
    cases h : (x s).result with
    | ok b =>
      rw [bind_of_ok h] at he ⊢
      exact (hf b).raised _ (hx.returned s hs b h) e he
    | error e =>
      rw [bind_of_error h]
      exact hx.raised s hs e h

theorem Ensures.map {g : β → γ} {Q : γ → σ → Prop} (hx : Ensures P x A (fun b => Q (g b)) E) :
    Ensures P (g <$> x) A Q E :=
  hx.bind fun _ => ensures_pure fun _ h => h

/-- A stronger precondition, and weaker postconditions. -/
theorem Ensures.mono {P' : σ → Prop} {Q' : β → σ → Prop} {E' : σ → Prop} (h : Ensures P x A Q E)
    (hP : ∀ s, P' s → P s) (hQ : ∀ b s, Q b s → Q' b s) (hE : ∀ s, E s → E' s) :
    Ensures P' x A Q' E' where
  shown s hs := h.shown s (hP s hs)
  returned s hs b hb := hQ b _ (h.returned s (hP s hs) b hb)
  raised s hs e he := hE _ (h.raised s (hP s hs) e he)

/-- The state a computation ends in, whether it raises or not. -/
theorem Ensures.state (h : Ensures P x A (fun _ => R) R) (hs : P s) : R (x s).state := by
  cases hresult : (x s).result with
  | ok b => exact h.returned s hs b hresult
  | error e => exact h.raised s hs e hresult

end Procedure

end Instro.Library
