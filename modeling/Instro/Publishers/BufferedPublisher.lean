import Instro.Library.Resend
import Instro.Publishers.QueueDelivery

/-!
# Publishing in batches

A `BasicBufferedPublisher` is called by one thread at a time, as the worker of a queue does. The
publisher behind it may raise at any item of a batch. The buffer is cleared after a batch that `publish`
has sent to its end, and by nothing else.
-/

namespace Instro.Publishers.Buffered

open Instro.Library

variable {δ κ : Type}

/-- What reaches the publisher behind the buffer. -/
inductive Sent (δ : Type)
  | delivered (data : δ)
  | failed (data : δ)
  | closed
  deriving DecidableEq

/-- A call, with what the publisher behind the buffer does in it: whether it raises at the nth item of
the batch. -/
inductive Call (δ κ : Type)
  | publish (data : δ) (kwargs : κ) (raises : ℕ → Bool)
  | close (raises : ℕ → Bool)

def Call.isClose : Call δ κ → Bool
  | .publish _ _ _ => false
  | .close _ => true

structure BufferedPublisher (δ : Type) where
  bufferSize : ℤ
  buffer : List δ

namespace BufferedPublisher

def new (bufferSize : ℤ) : BufferedPublisher δ := ⟨bufferSize, []⟩

/-- `for data in self.buffer`, and whether it comes to its end. -/
def publishBatch (raises : ℕ → Bool) : List δ → List (Sent δ) × Bool
  | [] => ([], true)
  | data :: rest =>
    if raises 0 then ([.failed data], false)
    else
      let (sent, completes) := publishBatch (fun n => raises (n + 1)) rest
      (.delivered data :: sent, completes)

variable (self : BufferedPublisher δ)

/-- The keyword arguments go nowhere. -/
def publish (data : δ) (raises : ℕ → Bool) : List (Sent δ) × BufferedPublisher δ :=
  let self := { self with buffer := self.buffer ++ [data] }
  if self.bufferSize ≤ self.buffer.length then
    let (sent, completes) := publishBatch raises self.buffer
    (sent, if completes then { self with buffer := [] } else self)
  else ([], self)

def close (raises : ℕ → Bool) : List (Sent δ) × BufferedPublisher δ :=
  let (sent, completes) := publishBatch raises self.buffer
  (if completes then sent ++ [.closed] else sent, self)

def step : Call δ κ → List (Sent δ) × BufferedPublisher δ
  | .publish data _ raises => self.publish data raises
  | .close raises => self.close raises

end BufferedPublisher

/-- One call after another. A call that raises leaves the publisher usable. -/
def buffering : EventLoop (BufferedPublisher δ) (Call δ κ) (Sent δ) where
  step self call := ((self.step call).1, some (self.step call).2)

/-! ## Batches -/

/-- What was published, in order. -/
def published (calls : List (Call δ κ)) : List δ :=
  calls.filterMap fun
    | .publish data _ _ => some data
    | .close _ => none

/-- What the publisher behind the buffer has taken, in order. -/
def delivered (sent : List (Sent δ)) : List δ :=
  sent.filterMap fun
    | .delivered data => some data
    | _ => none

section Batches

variable {self : BufferedPublisher δ} {calls : List (Call δ κ)} {items : List δ}
  {raises : ℕ → Bool}

@[simp] theorem delivered_append (xs ys : List (Sent δ)) :
    delivered (xs ++ ys) = delivered xs ++ delivered ys := List.filterMap_append

@[simp] theorem published_append (xs ys : List (Call δ κ)) :
    published (xs ++ ys) = published xs ++ published ys := List.filterMap_append

/-- A batch is sent up to the item at which the publisher behind raises. -/
theorem publishBatch_sends (raises : ℕ → Bool) (buffer : List δ) :
    ∃ n ≤ buffer.length,
      delivered (BufferedPublisher.publishBatch raises buffer).1 = buffer.take n ∧
      ((BufferedPublisher.publishBatch raises buffer).2 = true → n = buffer.length) := by
  induction buffer generalizing raises with
  | nil => exact ⟨0, Nat.le_refl _, rfl, fun _ => rfl⟩
  | cons data rest ih =>
    unfold BufferedPublisher.publishBatch
    split_ifs
    · exact ⟨0, Nat.zero_le _, rfl, fun h => by cases h⟩
    · obtain ⟨n, hn, hdelivered, hcomplete⟩ := ih fun n => raises (n + 1)
      refine ⟨n + 1, Nat.succ_le_succ hn, ?_, fun h => congrArg (· + 1) (hcomplete h)⟩
      exact congrArg (data :: ·) hdelivered

/-- The buffer is what comes after the mark. -/
def Buffers (self : BufferedPublisher δ) (items : List δ) (sent : List (Sent δ)) : Prop :=
  ∃ mark, Sends items mark (delivered sent) ∧ self.buffer = items.drop mark

section Batch

variable {sent : List (Sent δ)} {mark : ℕ} (h : Sends items mark (delivered sent))
include h

/-- A batch leaves the mark where it is. -/
theorem sends_batch (raises : ℕ → Bool) :
    Sends items mark
      (delivered (sent ++ (BufferedPublisher.publishBatch raises (items.drop mark)).1)) := by
  obtain ⟨n, hn, hdelivered, -⟩ := publishBatch_sends raises (items.drop mark)
  rw [List.length_drop] at hn
  have hmark := h.mark_le
  rw [delivered_append, hdelivered]
  exact h.again n (by omega)

/-- Or it moves the mark to the end, if it comes to its end. -/
theorem sends_complete {raises : ℕ → Bool}
    (hcomplete : (BufferedPublisher.publishBatch raises (items.drop mark)).2 = true) :
    Sends items items.length
      (delivered (sent ++ (BufferedPublisher.publishBatch raises (items.drop mark)).1)) := by
  obtain ⟨n, hn, hdelivered, hlength⟩ := publishBatch_sends raises (items.drop mark)
  have hmark := h.mark_le
  have hend : mark + n = items.length := by
    rw [hlength hcomplete, List.length_drop]
    omega
  rw [delivered_append, hdelivered, ← hend]
  exact h.onward n (Nat.le_of_eq hend)

end Batch

theorem buffers_publish {sent : List (Sent δ)} (h : Buffers self items sent) (data : δ)
    (raises : ℕ → Bool) :
    Buffers (self.publish data raises).2 (items ++ [data]) (sent ++ (self.publish data raises).1) := by
  obtain ⟨mark, hsends, hbuffer⟩ := h
  have hbuffer : self.buffer ++ [data] = (items ++ [data]).drop mark := by
    rw [hbuffer, List.drop_append_of_le_length hsends.mark_le]
  have hsends := hsends.append [data]
  unfold BufferedPublisher.publish
  dsimp only
  rw [hbuffer]
  by_cases hfull : self.bufferSize ≤ ((items ++ [data]).drop mark).length
  · rw [if_pos hfull]
    cases hcomplete : (BufferedPublisher.publishBatch raises ((items ++ [data]).drop mark)).2 with
    | true => exact ⟨_, sends_complete hsends hcomplete, (List.drop_length).symm⟩
    | false => exact ⟨mark, sends_batch hsends raises, rfl⟩
  · rw [if_neg hfull]
    exact ⟨mark, by simpa using hsends, rfl⟩

theorem buffers_close {sent : List (Sent δ)} (h : Buffers self items sent) (raises : ℕ → Bool) :
    Buffers (self.close raises).2 items (sent ++ (self.close raises).1) := by
  obtain ⟨mark, hsends, hbuffer⟩ := h
  refine ⟨mark, ?_, hbuffer⟩
  have hbatch := sends_batch hsends raises
  unfold BufferedPublisher.close
  dsimp only
  rw [hbuffer]
  split_ifs
  · rw [← List.append_assoc, delivered_append]
    exact (List.append_nil _).symm ▸ hbatch
  · exact hbatch

/-- After any calls: what was sent, and what is still in the buffer. -/
theorem buffers_run {size : ℤ} (h : buffering.stateAfter (.new size) calls = some self) :
    Buffers self (published calls) (buffering.actions (.new size) calls) := by
  refine buffering.actions_induction
    (P := fun calls sent self => Buffers self (published calls) sent) ⟨0, .nil, rfl⟩ ?_ h
  intro calls sent self call self' hself hstep
  obtain rfl := Option.some.inj hstep
  rw [published_append]
  cases call with
  | publish data kwargs raises => exact buffers_publish hself data raises
  | close raises => exact (List.append_nil _).symm ▸ buffers_close hself raises

theorem closed_notMem_batch (raises : ℕ → Bool) (buffer : List δ) :
    .closed ∉ (BufferedPublisher.publishBatch raises buffer).1 := by
  induction buffer generalizing raises with
  | nil => exact List.not_mem_nil
  | cons data rest ih =>
    unfold BufferedPublisher.publishBatch
    split_ifs
    · simp
    · simpa using ih fun n => raises (n + 1)

theorem closed_notMem_publish (data : δ) (raises : ℕ → Bool) :
    .closed ∉ (self.publish data raises).1 := by
  unfold BufferedPublisher.publish
  dsimp only
  by_cases hfull : self.bufferSize ≤ (self.buffer ++ [data]).length
  · rw [if_pos hfull]
    exact closed_notMem_batch raises _
  · rw [if_neg hfull]
    exact List.not_mem_nil

/-- When the publisher behind is closed, every item has been sent. -/
theorem sends_of_closed {sent : List (Sent δ)} (h : Buffers self items sent)
    (hclosed : .closed ∈ (self.close raises).1) :
    Sends items items.length (delivered (sent ++ (self.close raises).1)) := by
  obtain ⟨mark, hsends, hbuffer⟩ := h
  unfold BufferedPublisher.close at hclosed ⊢
  dsimp only at hclosed ⊢
  rw [hbuffer] at hclosed ⊢
  cases hcomplete : (BufferedPublisher.publishBatch raises (items.drop mark)).2 with
  | true =>
    rw [if_pos rfl, ← List.append_assoc, delivered_append]
    exact (List.append_nil _).symm ▸ sends_complete hsends hcomplete
  | false =>
    rw [hcomplete] at hclosed
    exact absurd hclosed (closed_notMem_batch raises _)

theorem closed_notMem_publishes {size : ℤ}
    (h : buffering.stateAfter (.new size) calls = some self)
    (hcalls : ∀ call ∈ calls, call.isClose = false) :
    .closed ∉ buffering.actions (.new size) calls := by
  revert hcalls
  refine buffering.actions_induction (P := fun calls sent _ =>
    (∀ call ∈ calls, call.isClose = false) → .closed ∉ sent) (fun _ => List.not_mem_nil) ?_ h
  intro calls sent self call self' hself _ hcalls
  have hbefore := hself fun call hmem => hcalls call (List.mem_append_left _ hmem)
  cases call with
  | publish data kwargs raises =>
    rw [List.mem_append, not_or]
    exact ⟨hbefore, closed_notMem_publish data raises⟩
  | close raises => cases hcalls (.close raises) (by simp)

/-! ## Calls in which nothing is raised -/

def Call.Quiet : Call δ κ → Prop
  | .publish _ _ raises => ∀ n, raises n = false
  | .close raises => ∀ n, raises n = false

theorem publishBatch_quiet (hquiet : ∀ n, raises n = false) (buffer : List δ) :
    BufferedPublisher.publishBatch raises buffer = (buffer.map .delivered, true) := by
  induction buffer generalizing raises with
  | nil => rfl
  | cons data rest ih =>
    unfold BufferedPublisher.publishBatch
    rw [if_neg (by simp [hquiet]), ih fun n => hquiet (n + 1)]
    rfl

@[simp] theorem delivered_map (buffer : List δ) : delivered (buffer.map .delivered) = buffer := by
  unfold delivered
  rw [List.filterMap_map]
  exact List.filterMap_some

theorem publish_quiet (hquiet : ∀ n, raises n = false) (data : δ) :
    delivered (self.publish data raises).1 ++ (self.publish data raises).2.buffer =
      self.buffer ++ [data] := by
  unfold BufferedPublisher.publish
  dsimp only
  by_cases hfull : self.bufferSize ≤ (self.buffer ++ [data]).length
  · rw [if_pos hfull, publishBatch_quiet hquiet]
    exact (List.append_nil _).trans (delivered_map _)
  · rw [if_neg hfull]
    rfl

theorem delivered_close_quiet (hquiet : ∀ n, raises n = false) :
    delivered (self.close raises).1 = self.buffer := by
  unfold BufferedPublisher.close
  rw [publishBatch_quiet hquiet]
  show delivered (self.buffer.map .delivered ++ [.closed]) = _
  rw [delivered_append, delivered_map]
  exact List.append_nil _

/-- As long as nothing is raised and `close` is not called, each item is sent once. -/
theorem delivered_publishes {size : ℤ} (h : buffering.stateAfter (.new size) calls = some self)
    (hcalls : ∀ call ∈ calls, call.Quiet ∧ call.isClose = false) :
    delivered (buffering.actions (.new size) calls) ++ self.buffer = published calls := by
  revert hcalls
  refine buffering.actions_induction (P := fun calls sent self =>
    (∀ call ∈ calls, call.Quiet ∧ call.isClose = false) →
      delivered sent ++ self.buffer = published calls) (fun _ => rfl) ?_ h
  intro calls sent self call self' hself hstep hcalls
  obtain rfl := Option.some.inj hstep
  have hbefore := hself fun call hmem => hcalls call (List.mem_append_left _ hmem)
  obtain ⟨hquiet, hpublish⟩ := hcalls call (by simp)
  cases call with
  | publish data kwargs raises =>
    rw [published_append, ← hbefore, delivered_append, List.append_assoc, List.append_assoc]
    exact congrArg _ (publish_quiet hquiet data)
  | close => cases hpublish

/-- The publisher takes every call. -/
theorem exists_stateAfter (self : BufferedPublisher δ) (calls : List (Call δ κ)) :
    ∃ self', buffering.stateAfter self calls = some self' := by
  induction calls generalizing self with
  | nil => exact ⟨self, rfl⟩
  | cons call calls ih => exact ih (self.step call).2

end Batches

/-! ## Behind a queue -/

/-- The call of the worker, or of a thread that closes, that this is. -/
def Call.event : Call δ κ → Queued.PublisherEvent (δ × κ)
  | .publish data kwargs _ => .publish (data, kwargs)
  | .close _ => .close

def callsOf {α : Type} (events : List (Queued.PublisherEvent α)) : List (Queued.PublisherEvent α) :=
  events.filter fun
    | .publish _ => true
    | .close => true
    | _ => false

/-- A publisher that is used by one thread after another is closed when all is published. -/
theorem callsOf_sequential {α : Type} {events : List (Queued.PublisherEvent α)} {use : Queued.Use}
    (h : Queued.sequential.stateAfter .ready events = some use) :
    ∃ (items : List α) (n : ℕ), callsOf events = items.map .publish ++ List.replicate n .close ∧
      (0 < n → use = .closed) := by
  refine Queued.sequential.stateAfter_induction (P := fun events use =>
    ∃ (items : List α) (n : ℕ), callsOf events = items.map .publish ++ List.replicate n .close ∧
      (0 < n → use = .closed)) ⟨[], 0, rfl, by simp⟩ ?_ h
  rintro events use event use' ⟨items, n, hcalls, hclosed⟩ hstep
  have happend (hend : callsOf [event] = []) : callsOf (events ++ [event]) = callsOf events := by
    unfold callsOf at hend ⊢
    rw [List.filter_append, hend, List.append_nil]
  cases event with
  | publish item =>
    cases use with
    | ready =>
      have hn : n = 0 := by
        by_contra hn
        cases hclosed (Nat.pos_of_ne_zero hn)
      subst hn
      refine ⟨items ++ [item], 0, ?_, by simp⟩
      unfold callsOf at hcalls ⊢
      rw [List.filter_append, hcalls]
      simp
    | busy | closed => cases hstep
  | close =>
    have hclosed' : use' = .closed := by
      cases use with
      | ready | closed => exact (Option.some.inj hstep).symm
      | busy => cases hstep
    refine ⟨items, n + 1, ?_, fun _ => hclosed'⟩
    unfold callsOf at hcalls ⊢
    rw [List.filter_append, hcalls, List.append_assoc, List.replicate_succ']
    rfl
  | returned | raised =>
    have hn : n = 0 := by
      by_contra hn
      rw [hclosed (Nat.pos_of_ne_zero hn)] at hstep
      cases hstep
    exact ⟨items, n, (happend rfl).trans hcalls, by simp [hn]⟩

theorem filterMap_callsOf {α : Type} (events : List (Queued.PublisherEvent α)) :
    (callsOf events).filterMap Queued.PublisherEvent.item =
      events.filterMap Queued.PublisherEvent.item := by
  unfold callsOf
  rw [List.filterMap_filter]
  congr 1
  funext event
  cases event <;> rfl

section Stack

variable {ι : Type} [DecidableEq ι] {q : Queued.QueuedPublisher ι (δ × κ)} {maxsize : ℤ} {wait : Bool}
  {es : List (Queued.Event ι (δ × κ))} {calls : List (Call δ κ)}

omit [DecidableEq ι] in
theorem published_eq {log : List (Queued.Observation ι (δ × κ))}
    (hcalls : calls.map Call.event = callsOf (Queued.publisherEvents log)) :
    published calls = (Queued.handed log).map Prod.fst := by
  unfold Queued.handed published
  rw [← filterMap_callsOf, ← hcalls, List.filterMap_map, List.map_filterMap]
  congr 1
  funext call
  cases call <;> rfl

omit [DecidableEq ι] in
/-- The calls that end with the only `close`. -/
theorem exists_publishes_close {log : List (Queued.Observation ι (δ × κ))} {use : Queued.Use}
    (huse : Queued.sequential.stateAfter .ready (Queued.publisherEvents log) = some use)
    (hcalls : calls.map Call.event = callsOf (Queued.publisherEvents log))
    (hone : calls.countP Call.isClose = 1) :
    ∃ publishes raises, calls = publishes ++ [.close raises] ∧
      ∀ call ∈ publishes, call.isClose = false := by
  obtain ⟨items, n, hsplit, -⟩ := callsOf_sequential huse
  obtain ⟨publishes, closes, rfl, hpublishes, hcloses⟩ :=
    List.map_eq_append_iff.mp (hcalls.trans hsplit)
  have hnot : ∀ call ∈ publishes, call.isClose = false := by
    intro call hmem
    have hevent : call.event ∈ items.map .publish := hpublishes ▸ List.mem_map_of_mem hmem
    cases call with
    | publish => rfl
    | close => simp [Call.event] at hevent
  have hzero : publishes.countP Call.isClose = 0 := by
    rw [List.countP_eq_zero]
    intro call hmem
    simp [hnot call hmem]
  rw [List.countP_append, hzero, Nat.zero_add] at hone
  have hall : ∀ call ∈ closes, call.isClose = true := by
    intro call hmem
    have hevent : call.event ∈ List.replicate n .close := hcloses ▸ List.mem_map_of_mem hmem
    cases call with
    | publish => simp [Call.event] at hevent
    | close => rfl
  rw [List.countP_eq_length.mpr hall] at hone
  obtain ⟨call, rfl⟩ := List.length_eq_one_iff.mp hone
  cases call with
  | publish => cases hall _ List.mem_cons_self
  | close raises => exact ⟨publishes, raises, rfl, hnot⟩

/-- A buffer behind a queue, whatever the threads do, up to its only `close`: what the queue has handed
on is sent in order, and by then completely; once each if nothing is raised. -/
theorem stack_delivers (size : ℤ)
    (h : Queued.queueing.stateAfter (.new maxsize wait) es = some q)
    (hcalls : calls.map Call.event =
      callsOf (Queued.publisherEvents (Queued.queueing.actions (.new maxsize wait) es)))
    (hone : calls.countP Call.isClose = 1) :
    let log := Queued.queueing.actions (.new maxsize wait) es
    let sent := buffering.actions (.new size) calls
    (∃ mark, Sends ((Queued.handed log).map Prod.fst) mark (delivered sent)) ∧
      (.closed ∈ sent → ((Queued.handed log).map Prod.fst).Sublist (delivered sent)) ∧
      ((∀ call ∈ calls, call.Quiet) → delivered sent = (Queued.handed log).map Prod.fst) ∧
      (wait = true → ∀ pre post, log = pre ++ .ended :: post →
        Queued.handed log = Queued.items pre) := by
  intro log sent
  have hlog := Queued.logged_run h
  obtain ⟨use, huse, -⟩ := hlog.placed.used
  have hpublished : published calls = (Queued.handed log).map Prod.fst := published_eq hcalls
  obtain ⟨publishes, raises, rfl, hnot⟩ := exists_publishes_close huse hcalls hone
  obtain ⟨self, hself⟩ := exists_stateAfter (.new size) publishes
  have hbuffers := buffers_run hself
  have hsent : sent = buffering.actions (.new size) publishes ++ (self.close raises).1 :=
    (buffering.actions_append hself _).trans (congrArg _ (List.append_nil _))
  rw [published_append] at hpublished
  have hpublishes : published publishes = (Queued.handed log).map Prod.fst :=
    (List.append_nil _).symm.trans hpublished
  rw [← hpublishes, hsent]
  refine ⟨?_, ?_, ?_, ?_⟩
  · obtain ⟨mark, hsends, -⟩ := buffers_close hbuffers raises
    exact ⟨mark, hsends⟩
  · intro hclosed
    have hclose := (List.mem_append.mp hclosed).resolve_left (closed_notMem_publishes hself hnot)
    have hsublist := (sends_of_closed hbuffers hclose).sublist
    rwa [List.take_length] at hsublist
  · intro hquiet
    have hbefore := delivered_publishes hself fun call hmem =>
      ⟨hquiet call (List.mem_append_left _ hmem), hnot call hmem⟩
    have hclose : ∀ n, raises n = false := hquiet (.close raises) (by simp)
    rw [delivered_append, delivered_close_quiet hclose, hbefore]
  · intro hwait pre post heq
    obtain ⟨-, hhanded, hitems⟩ := hlog.left pre post heq
    rw [hhanded, hitems ((Queued.waitForQueue_run h).trans hwait)]

/-- One thread publishes twice, and the publisher behind fails at the second item of the batch. -/
def stackRun : List (Queued.Event Bool (ℕ × ℕ)) :=
  [.caller true (.publish (5, 0)), .caller true .put, .worker .checkStop, .worker .get,
    .worker .returned, .caller true (.publish (6, 0)), .caller true .put, .worker .checkStop,
    .worker .get, .worker (.raised false), .caller true .close, .caller true .setStop,
    .caller true .join]

def stackCalls : List (Call ℕ ℕ) :=
  [.publish 5 0 fun _ => false, .publish 6 0 fun n => n == 1, .close fun _ => false]

theorem stack_delivers_again :
    (∃ mark, Sends [5, 6] mark [5, 5, 6]) ∧ [5, 6].Sublist [5, 5, 6] :=
  have hstack := stack_delivers (q := _) 2
    (show Queued.queueing.stateAfter (.new 1000 true) stackRun = some _ from rfl)
    (show stackCalls.map Call.event = _ from rfl) rfl
  ⟨hstack.1, hstack.2.1 (by decide)⟩

end Stack

end Instro.Publishers.Buffered
