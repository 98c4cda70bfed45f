import Instro.Library.EventLoop
import Mathlib.Data.Int.Notation
import Mathlib.Logic.Function.Basic

/-!
# Publishing through a queue

Any number of threads call `publish` and `close` of a `QueuedPublisher`; its worker thread hands what
they have queued to the publisher behind it. A step is what the interpreter or the lock of the queue
makes atomic, and the steps of the threads come in any order.
-/

namespace Instro.Publishers.Queued

open Instro.Library

variable {ι α : Type}

/-- Where the worker is in its loop. `ended` has left it, `died` was raised out of it. -/
inductive Stage (α : Type)
  | checkingStop
  | checkingQueue
  | getting
  | publishing (item : α)
  | ended
  | died

/-- Where a thread is in a call of `publish` or `close`. -/
inductive Caller (α : Type)
  | idle
  | putting (item : α)
  | closing
  | joining
  | closingPublisher

/-- The entries of the queue are `α`: the data with its keyword arguments. -/
structure QueuedPublisher (ι α : Type) where
  maxsize : ℤ
  waitForQueue : Bool
  queue : List α
  stopEvent : Bool
  thread : Stage α
  callers : ι → Caller α

/-- What happens at the publisher behind the queue. An exception is `queue.Empty` or another one. -/
inductive PublisherEvent (α : Type)
  | publish (item : α)
  | returned
  | raised (empty : Bool)
  | close

inductive Observation (ι α : Type)
  | put (i : ι) (item : α)
  | refused (i : ι) (item : α)
  /-- The warning of `close`, with the size of the queue. -/
  | mayDrop (n : ℕ)
  | stopping
  | ended
  | publisher (event : PublisherEvent α)

/-- A call begins, its next step, or its end. -/
inductive CallerEvent (α : Type)
  | publish (item : α)
  | put
  | close
  | setStop
  | join
  /-- `self.publisher.close()` returns or raises. -/
  | closed

inductive WorkerEvent
  | checkStop
  | checkQueue
  | get
  | timeout
  | returned
  | raised (empty : Bool)

inductive Event (ι α : Type)
  | caller (i : ι) (event : CallerEvent α)
  | worker (event : WorkerEvent)

def Stage.isAlive : Stage α → Bool
  | .ended | .died => false
  | _ => true

variable [DecidableEq ι]

namespace QueuedPublisher

def new (maxQueueSize : ℤ) (waitForQueue : Bool) : QueuedPublisher ι α :=
  ⟨maxQueueSize, waitForQueue, [], false, .checkingStop, fun _ => .idle⟩

variable (self : QueuedPublisher ι α)

/-- `put` waits: a `maxsize` of zero or less is no bound. -/
def full : Bool := decide (0 < self.maxsize ∧ self.maxsize ≤ self.queue.length)

def setCaller (i : ι) (caller : Caller α) : QueuedPublisher ι α :=
  { self with callers := Function.update self.callers i caller }

section SetCaller

variable (i : ι) (caller : Caller α)

@[simp] theorem setCaller_maxsize : (self.setCaller i caller).maxsize = self.maxsize := rfl

@[simp] theorem setCaller_waitForQueue :
    (self.setCaller i caller).waitForQueue = self.waitForQueue := rfl

@[simp] theorem setCaller_queue : (self.setCaller i caller).queue = self.queue := rfl

@[simp] theorem setCaller_stopEvent : (self.setCaller i caller).stopEvent = self.stopEvent := rfl

@[simp] theorem setCaller_thread : (self.setCaller i caller).thread = self.thread := rfl

theorem setCaller_callers (j : ι) :
    (self.setCaller i caller).callers j = if j = i then caller else self.callers j :=
  Function.update_apply self.callers i caller j

end SetCaller

/-- The condition of the worker's loop, read from left to right. -/
def checkStop : List (Observation ι α) × QueuedPublisher ι α :=
  if self.stopEvent then
    if self.waitForQueue then ([], { self with thread := .checkingQueue })
    else ([.ended], { self with thread := .ended })
  else ([], { self with thread := .getting })

def checkQueue : List (Observation ι α) × QueuedPublisher ι α :=
  if self.queue.isEmpty then ([.ended], { self with thread := .ended })
  else ([], { self with thread := .getting })

/-- The warning of `close`. -/
def warning : List (Observation ι α) :=
  if !self.waitForQueue && !self.queue.isEmpty then [.mayDrop self.queue.length] else []

def stepCaller (i : ι) (event : CallerEvent α) :
    Option (List (Observation ι α) × QueuedPublisher ι α) :=
  match self.callers i, event with
  | .idle, .publish item =>
    if self.stopEvent then some ([.refused i item], self)
    else some ([], self.setCaller i (.putting item))
  | .putting item, .put =>
    if self.full then none
    else some ([.put i item], { self.setCaller i .idle with queue := self.queue ++ [item] })
  | .idle, .close => some (self.warning, self.setCaller i .closing)
  | .closing, .setStop =>
    some ([.stopping], { self.setCaller i .joining with stopEvent := true })
  | .joining, .join =>
    if self.thread.isAlive then none
    else some ([.publisher .close], self.setCaller i .closingPublisher)
  | .closingPublisher, .closed => some ([], self.setCaller i .idle)
  | _, _ => none

/-- `queue.Empty` is caught wherever it comes from. -/
def stepWorker (event : WorkerEvent) : Option (List (Observation ι α) × QueuedPublisher ι α) :=
  match self.thread, event with
  | .checkingStop, .checkStop => some self.checkStop
  | .checkingQueue, .checkQueue => some self.checkQueue
  | .getting, .get =>
    match self.queue with
    | [] => none
    | item :: rest =>
      some ([.publisher (.publish item)],
        { self with queue := rest, thread := .publishing item })
  | .getting, .timeout =>
    if self.queue.isEmpty then some ([], { self with thread := .checkingStop }) else none
  | .publishing _, .returned =>
    some ([.publisher .returned], { self with thread := .checkingStop })
  | .publishing _, .raised empty =>
    some ([.publisher (.raised empty)],
      { self with thread := if empty then .checkingStop else .died })
  | _, _ => none

def step : Event ι α → Option (List (Observation ι α) × QueuedPublisher ι α)
  | .caller i event => self.stepCaller i event
  | .worker event => self.stepWorker event

end QueuedPublisher

/-- The threads that publish, those that close, and the worker. -/
def queueing : EventLoop (QueuedPublisher ι α) (Event ι α) (Observation ι α) :=
  .ofStep QueuedPublisher.step

/-! ## Steps -/

/-- What a step of a caller can do. -/
inductive CallerStep (q : QueuedPublisher ι α) (i : ι) :
    CallerEvent α → List (Observation ι α) → QueuedPublisher ι α → Prop
  | refuse {item} (hcaller : q.callers i = .idle) (hstop : q.stopEvent = true) :
    CallerStep q i (.publish item) [.refused i item] q
  | publish {item} (hcaller : q.callers i = .idle) (hstop : q.stopEvent = false) :
    CallerStep q i (.publish item) [] (q.setCaller i (.putting item))
  | put {item} (hcaller : q.callers i = .putting item) (hroom : q.full = false) :
    CallerStep q i .put [.put i item] { q.setCaller i .idle with queue := q.queue ++ [item] }
  | close (hcaller : q.callers i = .idle) :
    CallerStep q i .close q.warning (q.setCaller i .closing)
  | setStop (hcaller : q.callers i = .closing) :
    CallerStep q i .setStop [.stopping] { q.setCaller i .joining with stopEvent := true }
  | join (hcaller : q.callers i = .joining) (hgone : q.thread.isAlive = false) :
    CallerStep q i .join [.publisher .close] (q.setCaller i .closingPublisher)
  | closed (hcaller : q.callers i = .closingPublisher) :
    CallerStep q i .closed [] (q.setCaller i .idle)

/-- What a step of the worker can do. -/
inductive WorkerStep (q : QueuedPublisher ι α) :
    WorkerEvent → List (Observation ι α) → QueuedPublisher ι α → Prop
  | goOn (hthread : q.thread = .checkingStop) (hstop : q.stopEvent = false) :
    WorkerStep q .checkStop [] { q with thread := .getting }
  | wait (hthread : q.thread = .checkingStop) (hstop : q.stopEvent = true)
    (hwait : q.waitForQueue = true) :
    WorkerStep q .checkStop [] { q with thread := .checkingQueue }
  | leave (hthread : q.thread = .checkingStop) (hstop : q.stopEvent = true)
    (hwait : q.waitForQueue = false) :
    WorkerStep q .checkStop [.ended] { q with thread := .ended }
  | drained (hthread : q.thread = .checkingQueue) (hqueue : q.queue = []) :
    WorkerStep q .checkQueue [.ended] { q with thread := .ended }
  | more (hthread : q.thread = .checkingQueue) (hqueue : q.queue ≠ []) :
    WorkerStep q .checkQueue [] { q with thread := .getting }
  | get {item rest} (hthread : q.thread = .getting) (hqueue : q.queue = item :: rest) :
    WorkerStep q .get [.publisher (.publish item)]
      { q with queue := rest, thread := .publishing item }
  | timeout (hthread : q.thread = .getting) (hqueue : q.queue = []) :
    WorkerStep q .timeout [] { q with thread := .checkingStop }
  | returned {item} (hthread : q.thread = .publishing item) :
    WorkerStep q .returned [.publisher .returned] { q with thread := .checkingStop }
  | empty {item} (hthread : q.thread = .publishing item) :
    WorkerStep q (.raised true) [.publisher (.raised true)] { q with thread := .checkingStop }
  | die {item} (hthread : q.thread = .publishing item) :
    WorkerStep q (.raised false) [.publisher (.raised false)] { q with thread := .died }

section Steps

variable {q q' : QueuedPublisher ι α} {obs : List (Observation ι α)}

theorem callerStep_of_some {i : ι} {event : CallerEvent α}
    (h : q.stepCaller i event = some (obs, q')) : CallerStep q i event obs q' := by
  unfold QueuedPublisher.stepCaller at h
  split at h
  · rename_i hcaller
    split_ifs at h with hstop
    · cases h
      exact .refuse hcaller hstop
    · cases h
      exact .publish hcaller (Bool.eq_false_iff.mpr hstop)
  · rename_i hcaller
    obtain ⟨hroom, h⟩ := Option.ite_none_left_eq_some.mp h
    cases h
    exact .put hcaller (Bool.eq_false_iff.mpr hroom)
  · rename_i hcaller
    cases h
    exact .close hcaller
  · rename_i hcaller
    cases h
    exact .setStop hcaller
  · rename_i hcaller
    obtain ⟨hgone, h⟩ := Option.ite_none_left_eq_some.mp h
    cases h
    exact .join hcaller (Bool.eq_false_iff.mpr hgone)
  · rename_i hcaller
    cases h
    exact .closed hcaller
  · cases h

omit [DecidableEq ι] in
theorem workerStep_of_some {event : WorkerEvent} (h : q.stepWorker event = some (obs, q')) :
    WorkerStep q event obs q' := by
  unfold QueuedPublisher.stepWorker at h
  split at h
  · rename_i hthread
    unfold QueuedPublisher.checkStop at h
    split_ifs at h with hstop hwait
    · cases h
      exact .wait hthread hstop hwait
    · cases h
      exact .leave hthread hstop (Bool.eq_false_iff.mpr hwait)
    · cases h
      exact .goOn hthread (Bool.eq_false_iff.mpr hstop)
  · rename_i hthread
    unfold QueuedPublisher.checkQueue at h
    split_ifs at h with hqueue
    · cases h
      exact .drained hthread (List.isEmpty_iff.mp hqueue)
    · cases h
      exact .more hthread (mt List.isEmpty_iff.mpr hqueue)
  · rename_i hthread
    cases hqueue : q.queue with
    | nil =>
      rw [hqueue] at h
      cases h
    | cons item rest =>
      rw [hqueue] at h
      cases h
      exact .get hthread hqueue
  · rename_i hthread
    obtain ⟨hqueue, h⟩ := Option.ite_none_right_eq_some.mp h
    cases h
    exact .timeout hthread (List.isEmpty_iff.mp hqueue)
  · rename_i hthread
    cases h
    exact .returned hthread
  · rename_i empty hthread
    cases empty with
    | true =>
      cases h
      exact .empty hthread
    | false =>
      cases h
      exact .die hthread
  · cases h

/-! ### What steps leave as it is -/

theorem waitForQueue_caller {i : ι} {event : CallerEvent α} (h : CallerStep q i event obs q') :
    q'.waitForQueue = q.waitForQueue := by
  cases h <;> rfl

theorem stopEvent_caller {i : ι} {event : CallerEvent α} (hstop : q.stopEvent = true)
    (h : CallerStep q i event obs q') : q'.stopEvent = true := by
  cases h with
  | setStop => rfl
  | _ => exact hstop

omit [DecidableEq ι] in
theorem waitForQueue_worker {event : WorkerEvent} (h : WorkerStep q event obs q') :
    q'.waitForQueue = q.waitForQueue := by
  cases h <;> rfl

omit [DecidableEq ι] in
theorem stopEvent_worker {event : WorkerEvent} (h : WorkerStep q event obs q') :
    q'.stopEvent = q.stopEvent := by
  cases h <;> rfl

omit [DecidableEq ι] in
theorem callers_worker {event : WorkerEvent} (h : WorkerStep q event obs q') :
    q'.callers = q.callers := by
  cases h <;> rfl

end Steps

end Instro.Publishers.Queued
