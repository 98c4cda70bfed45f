import Instro.Library.Checked

/-!
# Exchanges

A computation that sends requests to a peer and may raise at any point. The requests that were sent
stay sent, whatever is raised after them.
-/

namespace Instro.Library

/-- The requests sent, in order, and the outcome. `ρ` are the requests, `ε` the errors. -/
structure Exchange (ρ ε α : Type) where
  requests : List ρ
  result : Except ε α

namespace Exchange

variable {ρ ε α β : Type}

protected def bind (x : Exchange ρ ε α) (f : α → Exchange ρ ε β) : Exchange ρ ε β :=
  match x.result with
  | .ok a => ⟨x.requests ++ (f a).requests, (f a).result⟩
  | .error e => ⟨x.requests, .error e⟩

instance : Monad (Exchange ρ ε) where
  pure a := ⟨[], .ok a⟩
  bind := Exchange.bind

/-- A step that sends nothing. -/
def check (x : Except ε α) : Exchange ρ ε α := ⟨[], x⟩

/-- Send a request and take the peer's answer. -/
def send (answer : ρ → Except ε α) (request : ρ) : Exchange ρ ε α := ⟨[request], answer request⟩

theorem bind_of_ok {x : Exchange ρ ε α} {a : α} (h : x.result = .ok a)
    (f : α → Exchange ρ ε β) :
    (x >>= f) = ⟨x.requests ++ (f a).requests, (f a).result⟩ := by
  show Exchange.bind x f = _
  unfold Exchange.bind
  rw [h]

theorem bind_of_error {x : Exchange ρ ε α} {e : ε} (h : x.result = .error e)
    (f : α → Exchange ρ ε β) : (x >>= f) = ⟨x.requests, .error e⟩ := by
  show Exchange.bind x f = _
  unfold Exchange.bind
  rw [h]

instance : LawfulMonad (Exchange ρ ε) :=
  LawfulMonad.mk' _
    (fun x => by
      show Exchange.bind x _ = x
      obtain ⟨requests, result⟩ := x
      cases result with
      | ok a => exact congrArg (Exchange.mk · _) (List.append_nil requests)
      | error e => rfl)
    (fun _ _ => rfl)
    (fun x f g => by
      obtain ⟨requests, result⟩ := x
      cases result with
      | error e => rfl
      | ok a =>
        have hxf : ((⟨requests, .ok a⟩ : Exchange ρ ε _) >>= f) =
            ⟨requests ++ (f a).requests, (f a).result⟩ := rfl
        have hxfg : ((⟨requests, .ok a⟩ : Exchange ρ ε _) >>= fun a => f a >>= g) =
            ⟨requests ++ (f a >>= g).requests, (f a >>= g).result⟩ := rfl
        rw [hxf, hxfg]
        cases h : (f a).result with
        | error e => rw [bind_of_error h, bind_of_error rfl]
        | ok b => rw [bind_of_ok h, bind_of_ok rfl, List.append_assoc])

/-- The outcome does not depend on what is sent. -/
theorem result_bind (x : Exchange ρ ε α) (f : α → Exchange ρ ε β) :
    (x >>= f).result = x.result >>= fun a => (f a).result := by
  cases h : x.result with
  | error e =>
    rw [bind_of_error h]
    rfl
  | ok a =>
    rw [bind_of_ok h]
    rfl

/-- Steps that send nothing, one after the other, are one such step. -/
theorem check_bind (x : Except ε α) (f : α → Except ε β) :
    (check (x >>= f) : Exchange ρ ε β) = check x >>= fun a => check (f a) := by
  cases x <;> rfl

theorem check_pure (a : α) : (check (pure a) : Exchange ρ ε α) = pure a := rfl

theorem check_ok_bind {x : Except ε α} {a : α} (h : x = .ok a) (f : α → Exchange ρ ε β) :
    (check x >>= f) = f a := by
  rw [h]
  rfl

/-- What is sent is sent by the first part, or by what follows its success. -/
theorem mem_requests_bind {x : Exchange ρ ε α} {f : α → Exchange ρ ε β} {r : ρ} :
    r ∈ (x >>= f).requests ↔ r ∈ x.requests ∨ ∃ a, x.result = .ok a ∧ r ∈ (f a).requests := by
  cases h : x.result with
  | error e =>
    rw [bind_of_error h]
    exact ⟨.inl, fun h => h.elim id fun ⟨_, ha, _⟩ => nomatch ha⟩
  | ok a =>
    rw [bind_of_ok h, List.mem_append]
    apply or_congr_right
    constructor
    · intro hr
      exact ⟨a, rfl, hr⟩
    · rintro ⟨b, hb, hr⟩
      obtain rfl := Except.ok.inj hb
      exact hr

/-! ## Raising unless something is sent -/

/-- A computation that sends nothing raises. -/
def RaisesUnlessSent (x : Exchange ρ ε α) : Prop := x.requests = [] → ∃ e, x.result = .error e

theorem requests_bind_pure (x : Exchange ρ ε α) (g : α → β) :
    (x >>= fun a => pure (g a)).requests = x.requests := by
  cases h : x.result with
  | error e => rw [bind_of_error h]
  | ok a =>
    rw [bind_of_ok h]
    exact List.append_nil x.requests

theorem RaisesUnlessSent.check_bind {x : Except ε α} {f : α → Exchange ρ ε β}
    (h : ∀ a, x = .ok a → (f a).RaisesUnlessSent) : (check x >>= f).RaisesUnlessSent := by
  cases x with
  | error e => exact fun _ => ⟨e, rfl⟩
  | ok a => exact h a rfl

theorem RaisesUnlessSent.bind_pure {x : Exchange ρ ε α} (h : x.RaisesUnlessSent) (g : α → β) :
    (x >>= fun a => pure (g a)).RaisesUnlessSent := by
  intro hsent
  rw [requests_bind_pure] at hsent
  obtain ⟨e, he⟩ := h hsent
  rw [bind_of_error he]
  exact ⟨e, rfl⟩

end Exchange

end Instro.Library
