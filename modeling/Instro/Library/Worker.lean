import Mathlib.Data.List.Basic

/-!
# Workers that can be stopped

A thread drives a future and, wherever the future waits, waits for a stop signal as well. When the
future is complete or the signal has been taken, the thread drops the future and sends a termination
message. The holder of the worker sends the signal once and then waits for the message, with or without
a timeout. A thread that panics drops its end of the channel without a message.
-/

namespace Instro.Library

/-- A future in an environment `ρ`: what it does when it is resumed with an input, and where it is
then, or that it is complete. -/
structure Future (ρ σ ε α : Type*) where
  start : σ
  resume : ρ → σ → ε → Option (List α × Option σ)
  /-- It waits, and can be dropped. -/
  suspended : σ → Bool

/-- `exiting` has dropped the future and has not sent its message yet. -/
inductive Thread (σ : Type*)
  | running (s : σ)
  | exiting
  | exited
  | panicked

/-- The end of a worker that its holder keeps. `waiting` has sent the stop signal. -/
inductive Handle
  | held
  | waiting (timed : Bool)
  | returned (ok : Bool)
  deriving DecidableEq

structure Worker (σ : Type*) where
  thread : Thread σ
  handle : Handle

inductive WorkerEvent (ε : Type*)
  | resume (input : ε)
  | cancel
  | panic
  | terminate
  | stop (timed : Bool)
  | receive
  | timeout

variable {ρ σ ε α : Type*}

namespace Thread

/-- Where a thread goes after a resumption. -/
def ofNext : Option σ → Thread σ
  | some s => .running s
  | none => .exiting

/-- Its future is gone. -/
def Dropped : Thread σ → Prop
  | .running _ => False
  | _ => True

/-- The future is there and meets the test. -/
def holds (p : σ → Bool) : Thread σ → Bool
  | .running s => p s
  | _ => false

/-- The future has the property, or what is left of it does once it is gone. -/
def Keeps (I : σ → Prop) (E : Prop) : Thread σ → Prop
  | .running s => I s
  | _ => E

end Thread

namespace Future

variable (F : Future ρ σ ε α)

def spawn : Worker σ := ⟨.running F.start, .held⟩

/-- A step of the thread or of the holder, with what the future does in it. -/
def step (env : ρ) (worker : Worker σ) : WorkerEvent ε → Option (List α × Worker σ)
  | .resume input =>
    match worker.thread with
    | .running s =>
      (F.resume env s input).map fun (actions, next) =>
        (actions, { worker with thread := .ofNext next })
    | _ => none
  | .cancel =>
    match worker.thread with
    | .running s =>
      if F.suspended s ∧ worker.handle ≠ .held then some ([], { worker with thread := .exiting })
      else none
    | _ => none
  | .panic =>
    match worker.thread with
    | .running _ => some ([], { worker with thread := .panicked })
    | _ => none
  | .terminate =>
    match worker.thread with
    | .exiting => some ([], { worker with thread := .exited })
    | _ => none
  | .stop timed =>
    match worker.handle with
    | .held => some ([], { worker with handle := .waiting timed })
    | _ => none
  | .receive =>
    match worker.handle, worker.thread with
    | .waiting _, .exited => some ([], { worker with handle := .returned true })
    | .waiting _, .panicked => some ([], { worker with handle := .returned false })
    | _, _ => none
  | .timeout =>
    match worker.handle with
    | .waiting true => some ([], { worker with handle := .returned false })
    | _ => none

end Future

def WorkerEvent.input : WorkerEvent ε → Option ε
  | .resume input => some input
  | _ => none

namespace Future

variable {F : Future ρ σ ε α} {env : ρ} {worker worker' : Worker σ} {event : WorkerEvent ε}
  {actions : List α}

/-! ## What a step can do -/

/-- A step that does not resume the future. -/
inductive Quiet (F : Future ρ σ ε α) : Worker σ → Worker σ → Prop
  | cancel {s handle} (hsuspended : F.suspended s = true) (hsent : handle ≠ .held) :
    Quiet F ⟨.running s, handle⟩ ⟨.exiting, handle⟩
  | panic {s handle} : Quiet F ⟨.running s, handle⟩ ⟨.panicked, handle⟩
  | terminate {handle} : Quiet F ⟨.exiting, handle⟩ ⟨.exited, handle⟩
  | stop {thread timed} : Quiet F ⟨thread, .held⟩ ⟨thread, .waiting timed⟩
  | received {timed} : Quiet F ⟨.exited, .waiting timed⟩ ⟨.exited, .returned true⟩
  | disconnected {timed} : Quiet F ⟨.panicked, .waiting timed⟩ ⟨.panicked, .returned false⟩
  | timeout {thread} : Quiet F ⟨thread, .waiting true⟩ ⟨thread, .returned false⟩

theorem step_cases (h : F.step env worker event = some (actions, worker')) :
    (∃ s handle input next, worker = ⟨.running s, handle⟩ ∧ event = .resume input ∧
      F.resume env s input = some (actions, next) ∧ worker' = ⟨.ofNext next, handle⟩) ∨
    (event.input = none ∧ actions = [] ∧ Quiet F worker worker') := by
  obtain ⟨thread, handle⟩ := worker
  cases event with
  | resume input =>
    cases thread with
    | running s =>
      obtain ⟨⟨actions', next⟩, hresume, heq⟩ := Option.map_eq_some_iff.mp h
      obtain ⟨rfl, rfl⟩ := Prod.mk.inj heq
      exact .inl ⟨s, handle, input, next, rfl, rfl, hresume, rfl⟩
    | _ => cases h
  | cancel =>
    cases thread with
    | running s =>
      obtain ⟨⟨hsuspended, hsent⟩, heq⟩ := Option.ite_none_right_eq_some.mp h
      cases heq
      exact .inr ⟨rfl, rfl, .cancel hsuspended hsent⟩
    | _ => cases h
  | panic =>
    cases thread with
    | running s =>
      cases h
      exact .inr ⟨rfl, rfl, .panic⟩
    | _ => cases h
  | terminate =>
    cases thread with
    | exiting =>
      cases h
      exact .inr ⟨rfl, rfl, .terminate⟩
    | _ => cases h
  | stop timed =>
    cases handle with
    | held =>
      cases h
      exact .inr ⟨rfl, rfl, .stop⟩
    | _ => cases h
  | receive =>
    cases handle with
    | waiting timed =>
      cases thread with
      | exited =>
        cases h
        exact .inr ⟨rfl, rfl, .received⟩
      | panicked =>
        cases h
        exact .inr ⟨rfl, rfl, .disconnected⟩
      | _ => cases h
    | _ => cases h
  | timeout =>
    match handle, h with
    | .waiting true, h =>
      cases h
      exact .inr ⟨rfl, rfl, .timeout⟩

/-! ## Dropped futures -/

/-- A thread that has dropped its future does nothing more and does not take it up again. -/
theorem step_of_dropped (hdropped : worker.thread.Dropped)
    (h : F.step env worker event = some (actions, worker')) :
    actions = [] ∧ worker'.thread.Dropped := by
  obtain ⟨s, handle, input, next, rfl, -⟩ | ⟨-, rfl, hquiet⟩ := step_cases h
  · exact hdropped.elim
  · refine ⟨rfl, ?_⟩
    cases hquiet with
    | terminate => trivial
    | received => trivial
    | disconnected => trivial
    | cancel => exact hdropped.elim
    | panic => exact hdropped.elim
    | stop => exact hdropped
    | timeout => exact hdropped

/-- The holder is told that the worker has ended only when the thread has sent its message. -/
def Settled (worker : Worker σ) : Prop :=
  worker.handle = .returned true → ∃ handle, worker = ⟨.exited, handle⟩

theorem settled_step (hsettled : Settled worker)
    (h : F.step env worker event = some (actions, worker')) : Settled worker' := by
  intro hreturned
  obtain ⟨s, handle, input, next, rfl, -, -, rfl⟩ | ⟨-, -, hquiet⟩ := step_cases h
  · obtain ⟨_, heq⟩ := hsettled hreturned
    cases heq
  · cases hquiet with
    | received => exact ⟨_, rfl⟩
    | terminate => exact ⟨_, rfl⟩
    | cancel hsuspended hsent =>
      obtain ⟨_, heq⟩ := hsettled hreturned
      cases heq
    | panic =>
      obtain ⟨_, heq⟩ := hsettled hreturned
      cases heq
    | stop => cases hreturned
    | disconnected => cases hreturned
    | timeout => cases hreturned

/-- A pending stop goes on once the future waits or is gone. -/
theorem exists_step_of_waiting {timed : Bool} (env : ρ) (hwaiting : worker.handle = .waiting timed)
    (hsuspended : ∀ s, worker.thread = .running s → F.suspended s = true) :
    ∃ event, event ∈ [WorkerEvent.cancel, .terminate, .receive] ∧
      (F.step env worker event).isSome := by
  obtain ⟨thread, handle⟩ := worker
  obtain rfl : handle = .waiting timed := hwaiting
  cases thread with
  | running s => exact ⟨.cancel, by simp, by simp [step, hsuspended s rfl]⟩
  | exiting => exact ⟨.terminate, by simp, rfl⟩
  | exited => exact ⟨.receive, by simp, rfl⟩
  | panicked => exact ⟨.receive, by simp, rfl⟩

/-! ## Invariants of futures -/

/-- An invariant of a future, over the inputs it took and the actions it did, with what is left of it
when the future is dropped. -/
structure Invariant (F : Future ρ σ ε α) (I : List ε → List α → σ → Prop)
    (E : List ε → List α → Prop) : Prop where
  start : I [] [] F.start
  resume : ∀ {taken done env s input actions s'}, I taken done s →
    F.resume env s input = some (actions, some s') → I (taken ++ [input]) (done ++ actions) s'
  complete : ∀ {taken done env s input actions}, I taken done s →
    F.resume env s input = some (actions, none) → E (taken ++ [input]) (done ++ actions)
  dropped : ∀ {taken done s}, I taken done s → E taken done

/-- An invariant of a future relates what it was resumed with to what it has done, wherever its thread
has stopped. -/
theorem keeps_step {I : List ε → List α → σ → Prop} {E : List ε → List α → Prop}
    (hI : F.Invariant I E) {taken : List ε} {done : List α}
    (hkeeps : worker.thread.Keeps (I taken done) (E taken done))
    (h : F.step env worker event = some (actions, worker')) :
    worker'.thread.Keeps (I (taken ++ event.input.toList) (done ++ actions))
      (E (taken ++ event.input.toList) (done ++ actions)) := by
  obtain ⟨s, handle, input, next, rfl, rfl, hresume, rfl⟩ | ⟨hinput, rfl, hquiet⟩ := step_cases h
  · cases next with
    | some s' => exact hI.resume hkeeps hresume
    | none => exact hI.complete hkeeps hresume
  · rw [hinput, Option.toList_none, List.append_nil, List.append_nil]
    cases hquiet with
    | cancel => exact hI.dropped hkeeps
    | panic => exact hI.dropped hkeeps
    | terminate => exact hkeeps
    | stop => exact hkeeps
    | received => exact hkeeps
    | disconnected => exact hkeeps
    | timeout => exact hkeeps

theorem ended_of_keeps {I : List ε → List α → σ → Prop} {E : List ε → List α → Prop}
    (hI : F.Invariant I E) {taken : List ε} {done : List α} {thread : Thread σ}
    (hkeeps : thread.Keeps (I taken done) (E taken done)) : E taken done := by
  cases thread with
  | running s => exact hI.dropped hkeeps
  | _ => exact hkeeps

end Future

end Instro.Library
