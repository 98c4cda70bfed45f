import Instro.Publishers.QueuedPublisher

/-!
# What passes through the queue

Over any interleaving: the publisher behind the queue is given what was put, in that order and one call
at a time, and is closed when the worker has gone. What it is not given was put after the worker had
left, and by then each thread puts at most one item.
-/

namespace Instro.Publishers.Queued

open Instro.Library

variable {ι α : Type}

/-! ## Logs -/

/-- What was put into the queue, in order. -/
def items (log : List (Observation ι α)) : List α :=
  log.filterMap fun
    | .put _ item => some item
    | _ => none

/-- What one of the threads has put. -/
def itemsOf [DecidableEq ι] (i : ι) (log : List (Observation ι α)) : List α :=
  log.filterMap fun
    | .put j item => if j = i then some item else none
    | _ => none

def publisherEvents (log : List (Observation ι α)) : List (PublisherEvent α) :=
  log.filterMap fun
    | .publisher event => some event
    | _ => none

@[simp] def PublisherEvent.item : PublisherEvent α → Option α
  | .publish item => some item
  | _ => none

/-- What the publisher behind the queue was given, in order. -/
def handed (log : List (Observation ι α)) : List α :=
  (publisherEvents log).filterMap PublisherEvent.item

/-! ## The use of the publisher -/

inductive Use
  | ready
  | busy
  | closed

/-- One call at a time, and only `close` after `close`. -/
def sequential : EventLoop Use (PublisherEvent α) Empty :=
  .ofStep fun
    | .ready, .publish _ => some ([], .busy)
    | .busy, .returned => some ([], .ready)
    | .busy, .raised _ => some ([], .ready)
    | .ready, .close => some ([], .closed)
    | .closed, .close => some ([], .closed)
    | _, _ => none

/-- The use of the publisher when the worker is there. -/
def Use.Agrees : Use → Stage α → Prop
  | use, .publishing _ => use = .busy
  | use, .ended => use ≠ .busy
  | use, .died => use ≠ .busy
  | use, _ => use = .ready

def Caller.isPutting : Caller α → Bool
  | .putting _ => true
  | _ => false

section Logs

variable {log obs : List (Observation ι α)} {q : QueuedPublisher ι α}

@[simp] theorem items_append : items (log ++ obs) = items log ++ items obs :=
  List.filterMap_append

@[simp] theorem itemsOf_append [DecidableEq ι] (i : ι) :
    itemsOf i (log ++ obs) = itemsOf i log ++ itemsOf i obs := List.filterMap_append

@[simp] theorem publisherEvents_append :
    publisherEvents (log ++ obs) = publisherEvents log ++ publisherEvents obs :=
  List.filterMap_append

@[simp] theorem handed_append : handed (log ++ obs) = handed log ++ handed obs := by
  unfold handed
  rw [publisherEvents_append, List.filterMap_append]

/-- The observations that say nothing of items or of the publisher. -/
theorem warning_cases (q : QueuedPublisher ι α) :
    q.warning = [] ∨ q.warning = [.mayDrop q.queue.length] := by
  unfold QueuedPublisher.warning
  split_ifs
  · exact .inr rfl
  · exact .inl rfl

@[simp] theorem items_warning : items q.warning = [] := by
  rcases warning_cases q with h | h <;> rw [h] <;> rfl

@[simp] theorem itemsOf_warning [DecidableEq ι] (i : ι) : itemsOf i q.warning = [] := by
  rcases warning_cases q with h | h <;> rw [h] <;> rfl

@[simp] theorem publisherEvents_warning : publisherEvents q.warning = [] := by
  rcases warning_cases q with h | h <;> rw [h] <;> rfl

/-- An observation of a log that grows was there before, or is one of the new ones. -/
theorem eq_append_cons_of_append {pre post : List (Observation ι α)} {a : Observation ι α}
    (h : log ++ obs = pre ++ a :: post) :
    (∃ post', log = pre ++ a :: post' ∧ post = post' ++ obs) ∨
      ∃ pre', pre = log ++ pre' ∧ obs = pre' ++ a :: post := by
  obtain ⟨pre', hpre, hobs⟩ | ⟨c, hlog, hpost⟩ := List.append_eq_append_iff.mp h
  · exact .inr ⟨pre', hpre, hobs⟩
  · cases c with
    | nil => exact .inr ⟨[], by simpa using hlog.symm, by simpa using hpost.symm⟩
    | cons b post' =>
      obtain ⟨rfl, rfl⟩ := List.cons.inj hpost
      exact .inl ⟨post', hlog, rfl⟩

end Logs

/-! ## Steps -/

section Steps

variable {q q' : QueuedPublisher ι α} {log obs : List (Observation ι α)} {i : ι}
  {call : CallerEvent α} {event : WorkerEvent}

/-- First in, first out. -/
def InOrder (q : QueuedPublisher ι α) (log : List (Observation ι α)) : Prop :=
  items log = handed log ++ q.queue

theorem inOrder_caller [DecidableEq ι] (hlog : InOrder q log)
    (h : CallerStep q i call obs q') : InOrder q' (log ++ obs) := by
  unfold InOrder at hlog ⊢
  rw [items_append, handed_append, hlog]
  cases h with
  | put => simp [items, handed, publisherEvents]
  | close => simp [handed, QueuedPublisher.setCaller]
  | _ => simp [items, handed, publisherEvents, QueuedPublisher.setCaller]

theorem inOrder_worker (hlog : InOrder q log) (h : WorkerStep q event obs q') :
    InOrder q' (log ++ obs) := by
  unfold InOrder at hlog ⊢
  rw [items_append, handed_append, hlog]
  cases h with
  | get _ hqueue => simp [items, handed, publisherEvents, hqueue]
  | _ => simp [items, handed, publisherEvents]

/-- A bounded queue stays within its bound. -/
def Bounded (q : QueuedPublisher ι α) : Prop :=
  0 < q.maxsize → (q.queue.length : ℤ) ≤ q.maxsize

theorem bounded_caller [DecidableEq ι] (hq : Bounded q) (h : CallerStep q i call obs q') :
    Bounded q' := by
  cases h with
  | put _ hroom =>
    intro hpos
    have hlt : ¬(0 < q.maxsize ∧ q.maxsize ≤ q.queue.length) := of_decide_eq_false hroom
    have hpos' : 0 < q.maxsize := hpos
    show ((q.queue ++ [_]).length : ℤ) ≤ q.maxsize
    rw [List.length_append, List.length_singleton]
    omega
  | _ => exact hq

theorem bounded_worker (hq : Bounded q) (h : WorkerStep q event obs q') : Bounded q' := by
  cases h with
  | @get item rest _ hqueue =>
    intro hpos
    have hlength := hq hpos
    rw [hqueue, List.length_cons] at hlength
    show (rest.length : ℤ) ≤ q.maxsize
    omega
  | _ => exact hq

/-- Where the worker is, and what was observed of it. -/
structure Placed (q : QueuedPublisher ι α) (log : List (Observation ι α)) : Prop where
  stopped : q.stopEvent = true ↔ .stopping ∈ log
  checking : q.thread = .checkingQueue → q.stopEvent = true ∧ q.waitForQueue = true
  ended : q.thread = .ended ↔ .ended ∈ log
  died : q.thread = .died ↔ .publisher (.raised false) ∈ log
  closed : .publisher .close ∈ log → q.thread.isAlive = false
  used : ∃ use, sequential.stateAfter .ready (publisherEvents log) = some use ∧
    use.Agrees q.thread

theorem mem_warning {a : Observation ι α} (h : a ∈ q.warning) : a = .mayDrop q.queue.length := by
  rcases warning_cases q with hnil | hsingle
  · rw [hnil] at h
    exact absurd h List.not_mem_nil
  · rw [hsingle] at h
    exact List.mem_singleton.mp h

/-- What is not of the worker or the stop event changes nothing. -/
theorem placed_of_silent (hlog : Placed q log) (hthread : q'.thread = q.thread)
    (hstop : q'.stopEvent = q.stopEvent) (hwait : q'.waitForQueue = q.waitForQueue)
    (hobs : ∀ a ∈ obs, a ≠ .stopping ∧ a ≠ .ended ∧ ∀ event, a ≠ .publisher event) :
    Placed q' (log ++ obs) := by
  have hnone : publisherEvents obs = [] := by
    unfold publisherEvents
    rw [List.filterMap_eq_nil_iff]
    intro a ha
    cases a with
    | publisher event => exact absurd rfl ((hobs _ ha).2.2 event)
    | _ => rfl
  have hskip {a : Observation ι α} (ha : a ∉ obs) : a ∈ log ++ obs ↔ a ∈ log := by
    rw [List.mem_append, or_iff_left ha]
  have hpublisher (event : PublisherEvent α) : .publisher event ∉ obs :=
    fun ha => (hobs _ ha).2.2 event rfl
  obtain ⟨stopped, checking, ended, died, closed, used⟩ := hlog
  refine ⟨?_, ?_, ?_, ?_, ?_, ?_⟩
  · rw [hstop, hskip fun ha => (hobs _ ha).1 rfl]
    exact stopped
  · rw [hthread, hstop, hwait]
    exact checking
  · rw [hthread, hskip fun ha => (hobs _ ha).2.1 rfl]
    exact ended
  · rw [hthread, hskip (hpublisher _)]
    exact died
  · rw [hthread, hskip (hpublisher _)]
    exact closed
  · rw [hthread, publisherEvents_append, hnone, List.append_nil]
    exact used

theorem use_step {use use' : Use} {event : PublisherEvent α}
    (h : sequential.stateAfter .ready (publisherEvents log) = some use)
    (hstep : (sequential.step use event).2 = some use') :
    sequential.stateAfter .ready (publisherEvents (log ++ [.publisher event])) = some use' := by
  rw [publisherEvents_append]
  exact sequential.stateAfter_append_singleton.mpr ⟨use, h, hstep⟩

theorem Use.agrees_of_gone {use : Use} (hgone : q.thread.isAlive = false) :
    use.Agrees q.thread ↔ use ≠ .busy := by
  cases hthread : q.thread with
  | ended => rfl
  | died => rfl
  | _ =>
    rw [hthread] at hgone
    cases hgone

theorem placed_caller [DecidableEq ι] (hlog : Placed q log) (h : CallerStep q i call obs q') :
    Placed q' (log ++ obs) := by
  cases h with
  | setStop =>
    obtain ⟨-, checking, ended, died, closed, used⟩ := hlog
    refine ⟨by simp, fun hthread => ⟨rfl, (checking hthread).2⟩, ?_, ?_, ?_, ?_⟩
    · simpa using ended
    · simpa using died
    · simpa using closed
    · simpa [publisherEvents] using used
  | join _ hgone =>
    obtain ⟨stopped, checking, ended, died, closed, use, huse, hagrees⟩ := hlog
    refine ⟨by simpa using stopped, checking, by simpa using ended, by simpa using died,
      fun _ => hgone, .closed, ?_, ?_⟩
    · refine use_step huse ?_
      cases use with
      | busy => exact absurd rfl ((Use.agrees_of_gone hgone).mp hagrees)
      | _ => rfl
    · exact (Use.agrees_of_gone hgone).mpr (by simp)
  | close =>
    refine placed_of_silent hlog rfl rfl rfl fun a ha => ?_
    rw [mem_warning ha]
    simp
  | _ => exact placed_of_silent hlog rfl rfl rfl (by simp)

/-- A worker that is there has not ended, has not died, and its publisher is open. -/
theorem placed_of_alive (hlog : Placed q log) (halive : q.thread.isAlive = true)
    (hstop : q'.stopEvent = q.stopEvent) (hobs : .stopping ∉ obs ∧ .publisher .close ∉ obs)
    (hchecking : q'.thread = .checkingQueue → q'.stopEvent = true ∧ q'.waitForQueue = true)
    (hended : q'.thread = .ended ↔ .ended ∈ obs)
    (hdied : q'.thread = .died ↔ .publisher (.raised false) ∈ obs)
    (hused : ∃ use, sequential.stateAfter .ready (publisherEvents (log ++ obs)) = some use ∧
      use.Agrees q'.thread) : Placed q' (log ++ obs) where
  stopped := by
    rw [hstop, hlog.stopped, List.mem_append, or_iff_left hobs.1]
  checking := hchecking
  ended := by
    have hnot : .ended ∉ log := fun hmem => by
      rw [hlog.ended.mpr hmem] at halive
      cases halive
    rw [hended, List.mem_append, or_iff_right hnot]
  died := by
    have hnot : .publisher (.raised false) ∉ log := fun hmem => by
      rw [hlog.died.mpr hmem] at halive
      cases halive
    rw [hdied, List.mem_append, or_iff_right hnot]
  closed hmem := by
    rcases List.mem_append.mp hmem with hmem | hmem
    · rw [hlog.closed hmem] at halive
      cases halive
    · exact absurd hmem hobs.2
  used := hused

/-- The use of the publisher before and after a step of the worker. -/
theorem used_worker {use : Use} (hagrees : use.Agrees q.thread)
    (huse : sequential.stateAfter .ready (publisherEvents log) = some use)
    (h : WorkerStep q event obs q') :
    ∃ use', sequential.stateAfter .ready (publisherEvents (log ++ obs)) = some use' ∧
      use'.Agrees q'.thread := by
  have hsilent (hnone : publisherEvents obs = []) :
      sequential.stateAfter .ready (publisherEvents (log ++ obs)) = some use := by
    rw [publisherEvents_append, hnone, List.append_nil]
    exact huse
  cases h with
  | get hthread =>
    rw [hthread] at hagrees
    obtain rfl : use = .ready := hagrees
    exact ⟨.busy, use_step huse rfl, rfl⟩
  | returned hthread | empty hthread | die hthread =>
    rw [hthread] at hagrees
    obtain rfl : use = .busy := hagrees
    exact ⟨.ready, use_step huse rfl, by simp [Use.Agrees]⟩
  | goOn hthread | wait hthread | leave hthread | drained hthread | more hthread
  | timeout hthread =>
    rw [hthread] at hagrees
    obtain rfl : use = .ready := hagrees
    exact ⟨.ready, hsilent rfl, by simp [Use.Agrees]⟩

theorem placed_worker (hlog : Placed q log) (h : WorkerStep q event obs q') :
    Placed q' (log ++ obs) := by
  obtain ⟨use, huse, hagrees⟩ := hlog.used
  refine placed_of_alive hlog ?_ (stopEvent_worker h) ?_ ?_ ?_ ?_ (used_worker hagrees huse h)
  · cases h with
    | _ hthread =>
      rw [hthread]
      rfl
  · cases h <;> simp
  · cases h with
    | wait _ hstop hwait => exact fun _ => ⟨hstop, hwait⟩
    | _ => exact fun hthread => by cases hthread
  · cases h <;> simp
  · cases h <;> simp

/-- A thread that has not yet put its item can still do so when the queue is told to stop. -/
def Late [DecidableEq ι] (q : QueuedPublisher ι α) (log : List (Observation ι α)) : Prop :=
  ∀ pre post, log = pre ++ .stopping :: post →
    ∀ j, (itemsOf j post).length + (q.callers j).isPutting.toNat ≤ 1

/-- What was handed on when the worker left is all that is ever handed on. -/
def Left (q : QueuedPublisher ι α) (log : List (Observation ι α)) : Prop :=
  ∀ pre post, log = pre ++ .ended :: post → .stopping ∈ pre ∧ handed log = handed pre ∧
    (q.waitForQueue = true → items pre = handed pre)

theorem isPutting_setCaller_le [DecidableEq ι] {caller : Caller α}
    (hcaller : caller.isPutting = false) (j : ι) :
    ((q.setCaller i caller).callers j).isPutting.toNat ≤ (q.callers j).isPutting.toNat := by
  rw [QueuedPublisher.setCaller_callers]
  split_ifs
  · rw [hcaller]
    exact Nat.zero_le _
  · exact Nat.le_refl _

theorem late_caller [DecidableEq ι] (hplaced : Placed q log) (hlog : Late q log)
    (h : CallerStep q i call obs q') : Late q' (log ++ obs) := by
  intro pre post heq j
  obtain ⟨post', rfl, rfl⟩ | ⟨pre', rfl, hobs⟩ := eq_append_cons_of_append heq
  · have hbefore := hlog pre post' rfl j
    have hstop : q.stopEvent = true := hplaced.stopped.mpr (by simp)
    have hidle (caller : Caller α) (hcaller : caller.isPutting = false) :=
      isPutting_setCaller_le (q := q) (i := i) hcaller j
    rw [itemsOf_append, List.length_append]
    cases h with
    | refuse => simpa [itemsOf] using hbefore
    | publish _ hopen => exact absurd (hstop.symm.trans hopen) (by decide)
    | put hcaller =>
      by_cases hij : i = j
      · subst hij
        rw [hcaller] at hbefore
        simpa [itemsOf, QueuedPublisher.setCaller_callers, Caller.isPutting] using hbefore
      · simpa [itemsOf, QueuedPublisher.setCaller_callers, hij, Ne.symm hij] using hbefore
    | close =>
      rw [itemsOf_warning]
      exact Nat.le_trans (Nat.add_le_add_left (hidle .closing rfl) _) hbefore
    | setStop => exact Nat.le_trans (Nat.add_le_add_left (hidle .joining rfl) _) hbefore
    | join => exact Nat.le_trans (Nat.add_le_add_left (hidle .closingPublisher rfl) _) hbefore
    | closed => exact Nat.le_trans (Nat.add_le_add_left (hidle .idle rfl) _) hbefore
  · have hmem : .stopping ∈ obs := by simp [hobs]
    have hpost : post = [] := by
      cases h with
      | setStop =>
        obtain ⟨rfl, hsingle⟩ | ⟨-, hnil⟩ := List.singleton_eq_append_iff.mp hobs
        · exact (List.cons.inj hsingle).2
        · cases hnil
      | close => cases mem_warning hmem
      | _ => simp at hmem
    rw [hpost]
    exact Nat.le_trans (Nat.le_of_eq (Nat.zero_add _)) (Bool.toNat_le _)

theorem late_worker [DecidableEq ι] (hlog : Late q log) (h : WorkerStep q event obs q') :
    Late q' (log ++ obs) := by
  have hnone (j : ι) : itemsOf j obs = [] := by cases h <;> rfl
  intro pre post heq j
  obtain ⟨post', rfl, rfl⟩ | ⟨pre', rfl, hobs⟩ := eq_append_cons_of_append heq
  · rw [itemsOf_append, hnone, List.append_nil, callers_worker h]
    exact hlog pre post' rfl j
  · have hmem : .stopping ∈ obs := by simp [hobs]
    cases h <;> simp at hmem

theorem left_caller [DecidableEq ι] (hlog : Left q log) (h : CallerStep q i call obs q') :
    Left q' (log ++ obs) := by
  have hnone : handed obs = [] := by
    cases h with
    | close => simp [handed]
    | _ => rfl
  intro pre post heq
  obtain ⟨post', rfl, rfl⟩ | ⟨pre', rfl, hobs⟩ := eq_append_cons_of_append heq
  · rw [handed_append, hnone, List.append_nil, waitForQueue_caller h]
    exact hlog pre post' rfl
  · have hmem : .ended ∈ obs := by simp [hobs]
    cases h with
    | close => cases mem_warning hmem
    | _ => simp at hmem

theorem left_worker (hplaced : Placed q log) (horder : InOrder q log)
    (h : WorkerStep q event obs q') : Left q' (log ++ obs) := by
  intro pre post heq
  obtain ⟨post', rfl, rfl⟩ | ⟨pre', rfl, hobs⟩ := eq_append_cons_of_append heq
  · have hended : q.thread = .ended := hplaced.ended.mpr (by simp)
    cases h with
    | _ hthread => cases hthread.symm.trans hended
  · have hmem : .ended ∈ obs := by simp [hobs]
    cases h with
    | leave _ hstop hwait =>
      obtain ⟨rfl, -⟩ | ⟨-, hnil⟩ := List.singleton_eq_append_iff.mp hobs
      · rw [List.append_nil, handed_append]
        refine ⟨hplaced.stopped.mp hstop, List.append_nil _, fun hwait' => ?_⟩
        exact absurd (hwait.symm.trans hwait') (by decide)
      · cases hnil
    | drained hthread hqueue =>
      obtain ⟨rfl, -⟩ | ⟨-, hnil⟩ := List.singleton_eq_append_iff.mp hobs
      · rw [List.append_nil, handed_append]
        refine ⟨hplaced.stopped.mp (hplaced.checking hthread).1, List.append_nil _, fun _ => ?_⟩
        rw [horder, hqueue, List.append_nil]
      · cases hnil
    | _ => simp at hmem

end Steps

/-! ## Whole runs -/

/-- What holds of a queue and of everything that was observed of it. -/
structure Logged [DecidableEq ι] (q : QueuedPublisher ι α) (log : List (Observation ι α)) :
    Prop where
  order : InOrder q log
  bounded : Bounded q
  placed : Placed q log
  late : Late q log
  left : Left q log

section Runs

variable [DecidableEq ι] {q : QueuedPublisher ι α} {maxsize : ℤ} {wait : Bool}
  {es : List (Event ι α)}

theorem logged_new : Logged (.new maxsize wait : QueuedPublisher ι α) [] where
  order := rfl
  bounded hpos := Int.le_of_lt hpos
  placed := ⟨by simp [QueuedPublisher.new], by simp [QueuedPublisher.new],
    by simp [QueuedPublisher.new], by simp [QueuedPublisher.new], by simp, .ready, rfl, rfl⟩
  late := by simp [Late]
  left := by simp [Left]

theorem logged_step {q' : QueuedPublisher ι α} {event : Event ι α}
    {log obs : List (Observation ι α)} (hlog : Logged q log)
    (h : q.step event = some (obs, q')) : Logged q' (log ++ obs) := by
  obtain ⟨order, bounded, placed, late, left⟩ := hlog
  cases event with
  | caller i call =>
    have hstep := callerStep_of_some h
    exact ⟨inOrder_caller order hstep, bounded_caller bounded hstep, placed_caller placed hstep,
      late_caller placed late hstep, left_caller left hstep⟩
  | worker event =>
    have hstep := workerStep_of_some h
    exact ⟨inOrder_worker order hstep, bounded_worker bounded hstep, placed_worker placed hstep,
      late_worker late hstep, left_worker placed order hstep⟩

theorem logged_run (h : queueing.stateAfter (.new maxsize wait) es = some q) :
    Logged q (queueing.actions (.new maxsize wait) es) :=
  queueing.actions_induction (P := fun _ log q => Logged q log) logged_new
    (fun _ _ _ _ _ hlog hstep => logged_step hlog (EventLoop.step_of_ofStep hstep)) h

theorem waitForQueue_run {q' : QueuedPublisher ι α} (h : queueing.stateAfter q es = some q') :
    q'.waitForQueue = q.waitForQueue := by
  refine queueing.stateAfter_induction (P := fun _ t => t.waitForQueue = q.waitForQueue) rfl ?_ h
  intro _ t e t' ht hstep
  have hstep := EventLoop.step_of_ofStep hstep
  rw [← ht]
  cases e with
  | caller i call => exact waitForQueue_caller (callerStep_of_some hstep)
  | worker event => exact waitForQueue_worker (workerStep_of_some hstep)

/-- What the log of a queue says, whatever the threads do. -/
structure Delivers (q : QueuedPublisher ι α) (log : List (Observation ι α)) : Prop where
  order : items log = handed log ++ q.queue
  bounded : 0 < q.maxsize → (q.queue.length : ℤ) ≤ q.maxsize
  oneAtATime : (sequential.stateAfter .ready (publisherEvents log)).isSome
  /-- What is lost was put after the worker had left, or is left behind by one that does not wait. -/
  lost : ∀ pre post, log = pre ++ .ended :: post → handed log = handed pre ∧
    (q.waitForQueue = true → handed log = items pre ∧ q.queue = items post)
  late : ∀ pre post, log = pre ++ .stopping :: post → ∀ i, (itemsOf i post).length ≤ 1
  /-- When the publisher is closed, it has been given what was put before the first `close`. -/
  drained : q.waitForQueue = true → .publisher (.raised false) ∉ log → .publisher .close ∈ log →
    ∀ pre post, log = pre ++ .stopping :: post → .stopping ∉ pre → items pre <+: handed log

theorem Logged.drained {log pre post : List (Observation ι α)} (hlog : Logged q log)
    (hwait : q.waitForQueue = true) (hraised : .publisher (.raised false) ∉ log)
    (hclose : .publisher .close ∈ log) (heq : log = pre ++ .stopping :: post)
    (hfirst : .stopping ∉ pre) : items pre <+: handed log := by
  have hended : q.thread = .ended := by
    have hgone := hlog.placed.closed hclose
    cases hthread : q.thread with
    | ended => rfl
    | died => exact absurd (hlog.placed.died.mp hthread) hraised
    | _ =>
      rw [hthread] at hgone
      cases hgone
  obtain ⟨before, after, hsplit⟩ := List.append_of_mem (hlog.placed.ended.mp hended)
  obtain ⟨hstopping, hhanded, hitems⟩ := hlog.left before after hsplit
  rw [hhanded, ← hitems hwait]
  obtain ⟨rest, rfl, -⟩ | ⟨rest, rfl, -⟩ := eq_append_cons_of_append (hsplit.symm.trans heq)
  · rw [items_append]
    exact List.prefix_append _ _
  · exact absurd (List.mem_append_left rest hstopping) hfirst

/-- Whatever the threads, the worker and the publisher behind the queue do, in whichever order. -/
theorem queue_delivers (h : queueing.stateAfter (.new maxsize wait) es = some q) :
    Delivers q (queueing.actions (.new maxsize wait) es) := by
  have hlog := logged_run h
  refine ⟨hlog.order, hlog.bounded, ?_, ?_, ?_,
    fun hwait hraised hclose _ _ => hlog.drained hwait hraised hclose⟩
  · obtain ⟨use, huse, -⟩ := hlog.placed.used
    rw [huse]
    rfl
  · intro pre post heq
    obtain ⟨-, hhanded, hitems⟩ := hlog.left pre post heq
    refine ⟨hhanded, fun hwait => ?_⟩
    have hpre : handed (queueing.actions (.new maxsize wait) es) = items pre :=
      hhanded.trans (hitems hwait).symm
    refine ⟨hpre, ?_⟩
    have horder : items (pre ++ .ended :: post) = items pre ++ q.queue := by
      rw [← heq, ← hpre]
      exact hlog.order
    rw [items_append] at horder
    exact (List.append_cancel_left horder).symm
  · intro pre post heq i
    exact Nat.le_trans (Nat.le_add_right _ _) (hlog.late pre post heq i)

/-- One thread closes while the other has passed its check, and the worker is gone when it puts. -/
def lateRun : List (Event Bool ℕ) :=
  [.caller true (.publish 5), .caller true .put, .worker .checkStop, .worker .get,
    .caller false (.publish 7), .caller true .close, .caller true .setStop, .worker .returned,
    .worker .checkStop, .worker .checkQueue, .caller false .put, .caller true .join]

theorem queue_delivers_late :
    ∃ q : QueuedPublisher Bool ℕ, queueing.stateAfter (.new 1000 true) lateRun = some q ∧
      Delivers q (queueing.actions (.new 1000 true) lateRun) ∧ q.queue = [7] :=
  ⟨_, rfl, queue_delivers rfl, rfl⟩

end Runs

end Instro.Publishers.Queued
