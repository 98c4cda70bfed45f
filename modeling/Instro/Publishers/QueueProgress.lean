import Instro.Publishers.QueueDelivery
import Mathlib.Algebra.BigOperators.Group.Finset.Piecewise
import Mathlib.Algebra.Order.BigOperators.Group.Finset
import Mathlib.Data.Fintype.Card

/-!
# Closing a queue, and waiting for room in it

The worker takes a bounded number of steps once the queue is told to stop, as long as each call of the
publisher behind it returns; so `close` gets through. A thread that waits for room in the queue waits
forever exactly if the worker will take nothing more from it.
-/

namespace Instro.Publishers.Queued

open Instro.Library

variable {ι α : Type}

/-! ## What the worker has left to do -/

def Event.isWorker : Event ι α → Bool
  | .worker _ => true
  | .caller _ _ => false

/-- Steps of a worker that drains the queue. -/
def drainingSteps (q : QueuedPublisher ι α) : ℕ :=
  4 * q.queue.length +
    match q.thread with
    | .checkingStop => 3
    | .checkingQueue => 2
    | .getting => if q.queue.isEmpty then 4 else 1
    | .publishing _ => 4
    | .ended => 0
    | .died => 0

/-- Steps of a worker that leaves the queue as it is. -/
def leavingSteps (q : QueuedPublisher ι α) : ℕ :=
  match q.thread with
  | .checkingStop => 1
  | .publishing _ => 2
  | .getting => 3
  | _ => 0

/-- What an item that is put adds to the work of a worker that drains the queue. -/
def drainingGain : Observation ι α → ℕ
  | .put _ _ => 4
  | _ => 0

section Steps

variable {q q' : QueuedPublisher ι α} {obs : List (Observation ι α)} {i : ι}
  {call : CallerEvent α} {event : WorkerEvent}

theorem drainingSteps_caller [DecidableEq ι] (h : CallerStep q i call obs q') :
    drainingSteps q' ≤ drainingSteps q + (obs.map drainingGain).sum := by
  cases h with
  | @put item =>
    unfold drainingSteps
    show 4 * (q.queue ++ [item]).length + _ ≤ 4 * q.queue.length + _ + 4
    rw [List.length_append, List.length_singleton]
    cases hthread : q.thread with
    | getting =>
      have hnonempty : (q.queue ++ [item]).isEmpty = false := by simp
      simp only [QueuedPublisher.setCaller_thread, hthread, hnonempty, Bool.false_eq_true, if_false]
      split_ifs <;> omega
    | _ =>
      simp only [QueuedPublisher.setCaller_thread, hthread]
      omega
  | _ => exact Nat.le_add_right _ _

theorem drainingSteps_worker (hstop : q.stopEvent = true) (h : WorkerStep q event obs q') :
    1 + drainingSteps q' ≤ drainingSteps q := by
  unfold drainingSteps
  cases h with
  | goOn _ hopen => exact absurd (hstop.symm.trans hopen) (by decide)
  | get hthread hqueue =>
    rw [hthread, hqueue]
    simp
    omega
  | more hthread hqueue =>
    rw [hthread]
    simp [hqueue]
    omega
  | drained hthread hqueue | timeout hthread hqueue =>
    rw [hthread]
    simp [hqueue]
  | wait hthread | leave hthread | returned hthread | empty hthread | die hthread =>
    rw [hthread]
    simp only
    omega

theorem drainingSteps_le (q : QueuedPublisher ι α) : drainingSteps q ≤ 4 * q.queue.length + 4 := by
  unfold drainingSteps
  cases q.thread with
  | getting =>
    dsimp only
    split_ifs <;> omega
  | _ =>
    dsimp only
    omega

/-- The worker does not wait for the queue. -/
structure Leaving (q : QueuedPublisher ι α) : Prop where
  stopped : q.stopEvent = true
  wait : q.waitForQueue = false
  checking : q.thread ≠ .checkingQueue

theorem leaving_caller [DecidableEq ι] (hq : Leaving q) (h : CallerStep q i call obs q') :
    Leaving q' ∧ leavingSteps q' = leavingSteps q := by
  obtain ⟨stopped, wait, checking⟩ := hq
  cases h with
  | setStop => exact ⟨⟨rfl, wait, checking⟩, rfl⟩
  | _ => exact ⟨⟨stopped, wait, checking⟩, rfl⟩

theorem leaving_worker (hq : Leaving q) (h : WorkerStep q event obs q') :
    Leaving q' ∧ 1 + leavingSteps q' ≤ leavingSteps q := by
  obtain ⟨stopped, wait, checking⟩ := hq
  unfold leavingSteps
  cases h with
  | goOn _ hopen => exact absurd (stopped.symm.trans hopen) (by decide)
  | wait _ _ hwait => exact absurd (wait.symm.trans hwait) (by decide)
  | drained hthread | more hthread => exact absurd hthread checking
  | leave hthread | get hthread | timeout hthread | returned hthread | empty hthread
  | die hthread =>
    rw [hthread]
    exact ⟨⟨stopped, wait, by simp⟩, by simp⟩

theorem leavingSteps_le (q : QueuedPublisher ι α) : leavingSteps q ≤ 3 := by
  unfold leavingSteps
  split <;> decide

/-- A worker that is there can take a step, if the call it is in returns. -/
theorem exists_workerStep (halive : q.thread.isAlive = true) :
    ∃ event, (q.stepWorker event).isSome = true := by
  unfold QueuedPublisher.stepWorker
  cases hthread : q.thread with
  | checkingStop => exact ⟨.checkStop, rfl⟩
  | checkingQueue => exact ⟨.checkQueue, rfl⟩
  | getting =>
    cases hqueue : q.queue with
    | nil => exact ⟨.timeout, rfl⟩
    | cons item rest => exact ⟨.get, rfl⟩
  | publishing item => exact ⟨.returned, rfl⟩
  | ended | died =>
    rw [hthread] at halive
    cases halive

end Steps

/-! ## Closing -/

section Closing

variable [DecidableEq ι] {q q' : QueuedPublisher ι α} {maxsize : ℤ} {wait : Bool}
  {es fs : List (Event ι α)}

/-- Every item is put by one of the threads. -/
theorem length_items [Fintype ι] (log : List (Observation ι α)) :
    (items log).length = ∑ i, (itemsOf i log).length := by
  induction log with
  | nil => simp [items, itemsOf]
  | cons a log ih =>
    have hcons : a :: log = [a] ++ log := rfl
    simp only [hcons, items_append, itemsOf_append, List.length_append, Finset.sum_add_distrib, ih]
    congr 1
    cases a with
    | put j item =>
      have hone (i : ι) : (itemsOf i [Observation.put j item]).length = if j = i then 1 else 0 := by
        by_cases hij : j = i <;> simp [itemsOf, hij]
      simp [items, hone]
    | _ => simp [items, itemsOf]

/-- A thread puts at most one item once the queue has been told to stop. -/
theorem length_items_le_card [Fintype ι]
    (h : queueing.stateAfter (.new maxsize wait) es = some q) (hstop : q.stopEvent = true)
    (h' : queueing.stateAfter q fs = some q') :
    (items (queueing.actions q fs)).length ≤ Fintype.card ι := by
  have hrun : queueing.stateAfter (.new maxsize wait) (es ++ fs) = some q' := by
    rw [queueing.stateAfter_append, h]
    exact h'
  have hactions := queueing.actions_append h fs
  obtain ⟨pre, post, hlog⟩ := List.append_of_mem ((logged_run h).placed.stopped.mp hstop)
  have hone (i : ι) : (itemsOf i (queueing.actions q fs)).length ≤ 1 := by
    have hlate := (logged_run hrun).late pre (post ++ queueing.actions q fs)
      (by rw [hactions, hlog, List.append_assoc, List.cons_append]) i
    rw [itemsOf_append, List.length_append] at hlate
    omega
  rw [length_items]
  exact (Finset.sum_le_card_nsmul _ _ 1 fun i _ => hone i).trans_eq (Nat.mul_one _)

omit [DecidableEq ι] in
theorem sum_drainingGain (log : List (Observation ι α)) :
    (log.map drainingGain).sum = 4 * (items log).length := by
  induction log with
  | nil => rfl
  | cons a log ih =>
    rw [List.map_cons, List.sum_cons, ih]
    cases a with
    | put i item =>
      show 4 + _ = 4 * ((items log).length + 1)
      omega
    | _ => exact Nat.zero_add _

/-- The steps a worker still takes when the queue has been told to stop. -/
theorem countP_worker_le (hstop : q.stopEvent = true) (h : queueing.stateAfter q fs = some q') :
    fs.countP Event.isWorker ≤ 4 * (q.queue.length + (items (queueing.actions q fs)).length) + 4 := by
  have hcount := queueing.countP_add_potential_le (I := fun q => q.stopEvent = true)
    Event.isWorker drainingSteps drainingGain ?_ hstop h
  · rw [sum_drainingGain] at hcount
    have := drainingSteps_le q
    omega
  · intro t e t' ht hstep
    have hstep := EventLoop.step_of_ofStep hstep
    cases e with
    | caller i call =>
      have hcall := callerStep_of_some hstep
      exact ⟨stopEvent_caller ht hcall, (Nat.zero_add _).trans_le (drainingSteps_caller hcall)⟩
    | worker event =>
      have hwork := workerStep_of_some hstep
      exact ⟨(stopEvent_worker hwork).trans ht,
        (drainingSteps_worker ht hwork).trans (Nat.le_add_right _ _)⟩

theorem countP_worker_le_three (hq : Leaving q) (h : queueing.stateAfter q fs = some q') :
    fs.countP Event.isWorker ≤ 3 := by
  have hcount := queueing.countP_add_potential_le (I := Leaving) Event.isWorker leavingSteps
    (fun _ => 0) ?_ hq h
  · have hsum : ((queueing.actions q fs).map fun _ => 0).sum = 0 := by simp
    have := leavingSteps_le q
    omega
  · intro t e t' ht hstep
    have hstep := EventLoop.step_of_ofStep hstep
    cases e with
    | caller i call =>
      obtain ⟨ht', heq⟩ := leaving_caller ht (callerStep_of_some hstep)
      refine ⟨ht', ?_⟩
      rw [heq]
      exact (Nat.zero_add _).trans_le (Nat.le_add_right _ _)
    | worker event =>
      obtain ⟨ht', hle⟩ := leaving_worker ht (workerStep_of_some hstep)
      exact ⟨ht', hle.trans (Nat.le_add_right _ _)⟩

/-- Once told to stop, the worker takes a bounded number of steps, whatever the threads do, and never
waits for one of them; when it has gone, a `close` that joins it goes on. -/
theorem closing_ends [Fintype ι] (h : queueing.stateAfter (.new maxsize wait) es = some q)
    (hstop : q.stopEvent = true) (h' : queueing.stateAfter q fs = some q') :
    fs.countP Event.isWorker ≤
        (if wait then 4 * (q.queue.length + Fintype.card ι) + 4 else 3) ∧
      (q'.thread.isAlive = true → ∃ event, (queueing.step q' (.worker event)).2.isSome = true) ∧
      (q'.thread.isAlive = false → ∀ i, q'.callers i = .joining →
        (queueing.step q' (.caller i .join)).2.isSome = true) := by
  have hwait : q.waitForQueue = wait := waitForQueue_run h
  refine ⟨?_, ?_, ?_⟩
  · cases wait with
    | true =>
      rw [if_pos rfl]
      have := countP_worker_le hstop h'
      have := length_items_le_card h hstop h'
      omega
    | false =>
      refine countP_worker_le_three ⟨hstop, hwait, fun hthread => ?_⟩ h'
      have := ((logged_run h).placed.checking hthread).2
      exact absurd (hwait.symm.trans this) (by decide)
  · intro halive
    obtain ⟨event, hsome⟩ := exists_workerStep halive
    exact ⟨event, Option.isSome_map.trans hsome⟩
  · intro hgone i hcaller
    refine Option.isSome_map.trans ?_
    show (q'.stepCaller i .join).isSome = true
    unfold QueuedPublisher.stepCaller
    rw [hcaller]
    simp [hgone]

/-- The stop event is set while one call of the publisher is under way and another item is queued. -/
def stopRun : List (Event Bool ℕ) :=
  [.caller true (.publish 5), .caller true .put, .worker .checkStop, .worker .get,
    .caller true (.publish 6), .caller true .put, .caller true .close, .caller true .setStop]

def drainRun : List (Event Bool ℕ) :=
  [.worker .returned, .worker .checkStop, .worker .checkQueue, .worker .get, .worker .returned,
    .worker .checkStop, .worker .checkQueue]

theorem closing_ends_drain :
    ∃ q q' : QueuedPublisher Bool ℕ, queueing.stateAfter (.new 1000 true) stopRun = some q ∧
      queueing.stateAfter q drainRun = some q' ∧
      drainRun.countP Event.isWorker ≤ 4 * (q.queue.length + Fintype.card Bool) + 4 ∧
      (queueing.step q' (.caller true .join)).2.isSome = true :=
  have hends := closing_ends
    (show queueing.stateAfter (.new 1000 true) stopRun = some _ from rfl) rfl
    (show queueing.stateAfter _ drainRun = some _ from rfl)
  ⟨_, _, rfl, rfl, hends.1, hends.2.2 rfl true rfl⟩

end Closing

/-! ## Waiting for room -/

/-- A worker there takes something from a queue that is not empty, if its loop goes on. -/
def Stage.takesMore (goesOn : Bool) : Stage α → Bool
  | .checkingStop | .publishing _ => goesOn
  | .checkingQueue | .getting => true
  | .ended | .died => false

def takesMore (q : QueuedPublisher ι α) : Bool :=
  q.thread.takesMore (!q.stopEvent || q.waitForQueue)

theorem Stage.takesMore_or {stage : Stage α} {a b : Bool} (h : stage.takesMore (a || b) = false) :
    stage.takesMore b = false := by
  cases stage with
  | checkingStop | publishing => exact (Bool.or_eq_false_iff.mp h).2
  | checkingQueue | getting => exact h
  | ended | died => rfl

section Room

variable [DecidableEq ι] {q q' : QueuedPublisher ι α} {maxsize : ℤ} {wait : Bool}
  {es : List (Event ι α)} {i : ι} {item : α}

/-- The queue is full and stays so, and a thread waits for room in it. -/
structure Stuck (i : ι) (item : α) (q : QueuedPublisher ι α) : Prop where
  waits : q.callers i = .putting item
  full : q.full = true
  untaken : takesMore q = false

theorem stuck_step {event : Event ι α} {obs : List (Observation ι α)} (hq : Stuck i item q)
    (h : q.step event = some (obs, q')) : Stuck i item q' := by
  obtain ⟨waits, full, untaken⟩ := hq
  have hother {j : ι} {caller : Caller α} (hj : q.callers j ≠ .putting item) :
      (q.setCaller j caller).callers i = .putting item := by
    rw [QueuedPublisher.setCaller_callers, if_neg, waits]
    rintro rfl
    exact hj waits
  cases event with
  | caller j call =>
    cases callerStep_of_some h with
    | refuse => exact ⟨waits, full, untaken⟩
    | put _ hroom => exact absurd (full.symm.trans hroom) (by decide)
    | setStop hcaller =>
      exact ⟨hother (by simp [hcaller]), full, Stage.takesMore_or untaken⟩
    | publish hcaller | close hcaller | join hcaller | closed hcaller =>
      exact ⟨hother (by simp [hcaller]), full, untaken⟩
  | worker event =>
    unfold takesMore at untaken
    cases workerStep_of_some h with
    | goOn hthread hopen => simp [Stage.takesMore, hthread, hopen] at untaken
    | wait hthread _ hwait => simp [Stage.takesMore, hthread, hwait] at untaken
    | drained hthread | more hthread | get hthread | timeout hthread =>
      simp [Stage.takesMore, hthread] at untaken
    | leave | die => exact ⟨waits, full, rfl⟩
    | returned hthread | empty hthread =>
      rw [hthread] at untaken
      exact ⟨waits, full, untaken⟩

theorem stuck_run (hq : Stuck i item q) (h : queueing.stateAfter q es = some q') :
    Stuck i item q' :=
  queueing.stateAfter_induction (P := fun _ q => Stuck i item q) hq
    (fun _ _ _ _ ht hstep => stuck_step ht (EventLoop.step_of_ofStep hstep)) h

/-- What the worker has done when it has taken the next item of the queue. -/
structure Took (q q' : QueuedPublisher ι α) : Prop where
  queue : q'.queue = q.queue.tail
  maxsize : q'.maxsize = q.maxsize
  callers : q'.callers = q.callers

/-- The worker can go on to take the next item. -/
def CanTake (q : QueuedPublisher ι α) : Prop :=
  ∃ es q', queueing.stateAfter q es = some q' ∧ Took q q'

theorem canTake_of_step {t : QueuedPublisher ι α} {event : WorkerEvent}
    {obs : List (Observation ι α)} (hstep : q.stepWorker event = some (obs, t))
    (hqueue : t.queue = q.queue) (hmaxsize : t.maxsize = q.maxsize)
    (hcallers : t.callers = q.callers) (h : CanTake t) : CanTake q := by
  obtain ⟨es, q', hrun, htook⟩ := h
  refine ⟨.worker event :: es, q', ?_, ?_⟩
  · rw [queueing.stateAfter_cons]
    show ((q.stepWorker event).map Prod.snd).bind _ = some q'
    rw [hstep]
    exact hrun
  · exact ⟨by rw [htook.queue, hqueue], htook.maxsize.trans hmaxsize, htook.callers.trans hcallers⟩

theorem canTake_of_getting (hne : q.queue ≠ []) (hthread : q.thread = .getting) : CanTake q := by
  obtain ⟨item, rest, hqueue⟩ := List.exists_cons_of_ne_nil hne
  have hstep : q.stepWorker .get = some ([.publisher (.publish item)],
      { q with queue := rest, thread := .publishing item }) := by
    unfold QueuedPublisher.stepWorker
    rw [hthread, hqueue]
  refine ⟨[.worker .get], { q with queue := rest, thread := .publishing item }, ?_, ?_⟩
  · show ((q.stepWorker .get).map Prod.snd).bind _ = _
    rw [hstep]
    rfl
  · exact ⟨by rw [hqueue]; rfl, rfl, rfl⟩

theorem canTake_of_checkingQueue (hne : q.queue ≠ []) (hthread : q.thread = .checkingQueue) :
    CanTake q := by
  have hstep : q.stepWorker .checkQueue = some ([], { q with thread := .getting }) := by
    unfold QueuedPublisher.stepWorker QueuedPublisher.checkQueue
    rw [hthread]
    simp [hne]
  exact canTake_of_step hstep rfl rfl rfl (canTake_of_getting hne rfl)

theorem canTake_of_checkingStop (hne : q.queue ≠ []) (hthread : q.thread = .checkingStop)
    (hgoes : (!q.stopEvent || q.waitForQueue) = true) : CanTake q := by
  have hcheck : q.stepWorker .checkStop = some q.checkStop := by
    unfold QueuedPublisher.stepWorker
    rw [hthread]
  unfold QueuedPublisher.checkStop at hcheck
  cases hstop : q.stopEvent with
  | false =>
    rw [hstop] at hcheck
    exact canTake_of_step hcheck rfl rfl rfl (canTake_of_getting hne rfl)
  | true =>
    have hwait : q.waitForQueue = true := by simpa [hstop] using hgoes
    rw [if_pos hstop, if_pos hwait] at hcheck
    exact canTake_of_step hcheck rfl rfl rfl (canTake_of_checkingQueue hne rfl)

theorem canTake_of_takesMore (hne : q.queue ≠ []) (hmore : takesMore q = true) : CanTake q := by
  unfold takesMore at hmore
  cases hthread : q.thread with
  | checkingStop =>
    rw [hthread] at hmore
    exact canTake_of_checkingStop hne hthread hmore
  | checkingQueue => exact canTake_of_checkingQueue hne hthread
  | getting => exact canTake_of_getting hne hthread
  | publishing item =>
    rw [hthread] at hmore
    have hstep : q.stepWorker .returned =
        some ([.publisher .returned], { q with thread := .checkingStop }) := by
      unfold QueuedPublisher.stepWorker
      rw [hthread]
    exact canTake_of_step hstep rfl rfl rfl (canTake_of_checkingStop hne rfl hmore)
  | ended | died =>
    rw [hthread] at hmore
    cases hmore

/-- A thread that waits for room puts its item as soon as there is room. -/
theorem idle_of_room (hcaller : q.callers i = .putting item) (hroom : q.full = false) :
    ∃ q', queueing.stateAfter q [.caller i .put] = some q' ∧ q'.callers i = .idle := by
  refine ⟨{ q.setCaller i .idle with queue := q.queue ++ [item] }, ?_, ?_⟩
  · show ((q.stepCaller i .put).map Prod.snd).bind _ = _
    unfold QueuedPublisher.stepCaller
    rw [hcaller]
    simp [hroom]
  · exact (QueuedPublisher.setCaller_callers q i .idle i).trans (if_pos rfl)

/-- A thread that waits for room waits forever, whatever happens, exactly if the queue is full and the
worker takes nothing more from it. -/
theorem put_stuck_iff (h : queueing.stateAfter (.new maxsize wait) es = some q)
    (hcaller : q.callers i = .putting item) :
    (∀ fs q', queueing.stateAfter q fs = some q' → q'.callers i = .putting item) ↔
      q.full = true ∧ takesMore q = false := by
  constructor
  · intro hstuck
    have hnoroom {fs : List (Event ι α)} {t : QueuedPublisher ι α}
        (ht : queueing.stateAfter q fs = some t) : t.full = true := by
      by_contra hroom
      obtain ⟨q', hput, hidle⟩ := idle_of_room (hstuck fs t ht) (Bool.eq_false_iff.mpr hroom)
      have hrun : queueing.stateAfter q (fs ++ [.caller i .put]) = some q' := by
        rw [queueing.stateAfter_append, ht]
        exact hput
      cases (hstuck _ q' hrun).symm.trans hidle
    have hfull : q.full = true := hnoroom (show queueing.stateAfter q [] = some q from rfl)
    refine ⟨hfull, Bool.eq_false_iff.mpr fun hmore => ?_⟩
    obtain ⟨hpos, hle⟩ : 0 < q.maxsize ∧ q.maxsize ≤ q.queue.length := of_decide_eq_true hfull
    have hne : q.queue ≠ [] := by
      rintro hnil
      rw [hnil, List.length_nil] at hle
      omega
    obtain ⟨fs, t, ht, htook⟩ := canTake_of_takesMore hne hmore
    obtain ⟨-, hle'⟩ : 0 < t.maxsize ∧ t.maxsize ≤ t.queue.length := of_decide_eq_true (hnoroom ht)
    have hbounded := (logged_run h).bounded hpos
    rw [htook.maxsize, htook.queue, List.length_tail] at hle'
    omega
  · rintro ⟨hfull, huntaken⟩ fs q' h'
    exact (stuck_run ⟨hcaller, hfull, huntaken⟩ h').waits

/-- The publisher behind the queue has raised, and the queue is full. -/
def diedRun : List (Event Bool ℕ) :=
  [.caller true (.publish 5), .caller true .put, .worker .checkStop, .worker .get,
    .worker (.raised false), .caller true (.publish 6), .caller true .put,
    .caller true (.publish 7)]

theorem put_stuck_died :
    ∃ q : QueuedPublisher Bool ℕ, queueing.stateAfter (.new 1 true) diedRun = some q ∧
      q.callers true = .putting 7 ∧
      ∀ fs q', queueing.stateAfter q fs = some q' → q'.callers true = .putting 7 :=
  ⟨_, rfl, rfl, (put_stuck_iff (show queueing.stateAfter (.new 1 true) diedRun = some _ from rfl)
    rfl).mpr ⟨rfl, rfl⟩⟩

end Room

end Instro.Publishers.Queued
