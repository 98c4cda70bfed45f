import Instro.Library.AtomicSteps
import Instro.Library.EventLoop
import Mathlib.Logic.Function.Basic

/-!
# Objects behind a lock

Any number of threads call an object; each call takes the lock, does its steps one by one while other
threads do theirs, and releases the lock. In the order in which the calls are released, the object has
been called by one thread alone.
-/

namespace Instro.Library

/-- Calls `ω` of an object with states `σ` and results `β`. -/
abbrev LockedObject (σ ω β : Type) := ω → AtomicSteps σ β

namespace LockedObject

variable {σ ω β τ ι : Type}

/-- The object called by one thread alone. -/
def alone (object : LockedObject σ ω β) : EventLoop σ ω β where
  step s op := ([((object op).eval s).1], some ((object op).eval s).2)

/-- Where a thread is in a call. `τ` is what it notes before it releases the lock. -/
inductive Stage (σ ω β τ : Type)
  | idle
  | waiting (op : ω)
  | holding (op : ω) (rest : AtomicSteps σ β)
  | returning (op : ω) (b : β) (note : τ)

/-- The state of the object, who holds its lock, and the threads. -/
structure Threads (ι σ ω β τ : Type) where
  shared : σ
  owner : Option ι
  stages : ι → Stage σ ω β τ

inductive Move (ω τ : Type)
  | invoke (op : ω)
  | acquire
  | step
  | release (note : τ)
  | finish

/-- What is seen of a thread: the ends of its calls at the object come when the lock is released. -/
inductive Seen (ω β τ : Type)
  | invoked (op : ω)
  | released (op : ω) (b : β) (note : τ)
  | returned (op : ω) (b : β) (note : τ)

variable (object : LockedObject σ ω β) [DecidableEq ι]

namespace Threads

def initial (s : σ) : Threads ι σ ω β τ := ⟨s, none, fun _ => .idle⟩

variable (threads : Threads ι σ ω β τ)

def setStage (i : ι) (stage : Stage σ ω β τ) : Threads ι σ ω β τ :=
  { threads with stages := Function.update threads.stages i stage }

def move (i : ι) (m : Move ω τ) :
    Option (List (ι × Seen ω β τ) × Threads ι σ ω β τ) :=
  match threads.stages i, m with
  | .idle, .invoke op => some ([(i, .invoked op)], threads.setStage i (.waiting op))
  | .waiting op, .acquire =>
    match threads.owner with
    | none => some ([], { threads.setStage i (.holding op (object op)) with owner := some i })
    | some _ => none
  | .holding op (.step change next), .step =>
    some ([], { threads.setStage i (.holding op (next threads.shared)) with
      shared := change threads.shared })
  | .holding op (.done b), .release note =>
    some ([(i, .released op b note)],
      { threads.setStage i (.returning op b note) with owner := none })
  | .returning op b note, .finish =>
    some ([(i, .returned op b note)], threads.setStage i .idle)
  | _, _ => none

end Threads

/-- The threads in any order. -/
def calling : EventLoop (Threads ι σ ω β τ) (ι × Move ω τ) (ι × Seen ω β τ) :=
  .ofStep fun threads (i, m) => threads.move object i m

/-! ## Steps -/

/-- What a move does. -/
inductive Moves (threads : Threads ι σ ω β τ) (i : ι) :
    Move ω τ → List (ι × Seen ω β τ) → Threads ι σ ω β τ → Prop
  | invoke {op} (hstage : threads.stages i = .idle) :
    Moves threads i (.invoke op) [(i, .invoked op)] (threads.setStage i (.waiting op))
  | acquire {op} (hstage : threads.stages i = .waiting op) (hfree : threads.owner = none) :
    Moves threads i .acquire []
      { threads.setStage i (.holding op (object op)) with owner := some i }
  | step {op change next} (hstage : threads.stages i = .holding op (.step change next)) :
    Moves threads i .step []
      { threads.setStage i (.holding op (next threads.shared)) with shared := change threads.shared }
  | release {op b note} (hstage : threads.stages i = .holding op (.done b)) :
    Moves threads i (.release note) [(i, .released op b note)]
      { threads.setStage i (.returning op b note) with owner := none }
  | finish {op b note} (hstage : threads.stages i = .returning op b note) :
    Moves threads i .finish [(i, .returned op b note)] (threads.setStage i .idle)

variable {object} {threads threads' : Threads ι σ ω β τ} {i : ι} {m : Move ω τ}
  {seen log : List (ι × Seen ω β τ)}

theorem moves_of_some (h : threads.move object i m = some (seen, threads')) :
    Moves object threads i m seen threads' := by
  unfold Threads.move at h
  split at h
  · rename_i hstage
    cases h
    exact .invoke hstage
  · rename_i hstage
    cases hfree : threads.owner with
    | none =>
      rw [hfree] at h
      cases h
      exact .acquire hstage hfree
    | some j =>
      rw [hfree] at h
      cases h
  · rename_i hstage
    cases h
    exact .step hstage
  · rename_i hstage
    cases h
    exact .release hstage
  · rename_i hstage
    cases h
    exact .finish hstage
  · cases h

theorem stages_setStage (threads : Threads ι σ ω β τ) (i j : ι) (stage : Stage σ ω β τ) :
    (threads.setStage i stage).stages j = if j = i then stage else threads.stages j :=
  Function.update_apply threads.stages i stage j

/-! ## Logs -/

/-- The calls whose work at the object is done, in the order of their releases. -/
def releases (log : List (ι × Seen ω β τ)) : List (ι × ω × β × τ) :=
  log.filterMap fun
    | (i, .released op b note) => some (i, op, b, note)
    | _ => none

def invokedBy (i : ι) (log : List (ι × Seen ω β τ)) : List ω :=
  log.filterMap fun
    | (j, .invoked op) => if j = i then some op else none
    | _ => none

def releasedBy (i : ι) (log : List (ι × Seen ω β τ)) : List (ω × β × τ) :=
  log.filterMap fun
    | (j, .released op b note) => if j = i then some (op, b, note) else none
    | _ => none

def returnedBy (i : ι) (log : List (ι × Seen ω β τ)) : List (ω × β × τ) :=
  log.filterMap fun
    | (j, .returned op b note) => if j = i then some (op, b, note) else none
    | _ => none

def Stage.pending : Stage σ ω β τ → List ω
  | .waiting op => [op]
  | .holding op _ => [op]
  | _ => []

def Stage.unreturned : Stage σ ω β τ → List (ω × β × τ)
  | .returning op b note => [(op, b, note)]
  | _ => []

/-- The object after the calls that are done, and the call that holds the lock. -/
inductive AtWork (object : LockedObject σ ω β) (s : σ) (threads : Threads ι σ ω β τ) : Prop
  | free (hfree : threads.owner = none) (hshared : threads.shared = s)
  | held {i op rest} (howner : threads.owner = some i) (hstage : threads.stages i = .holding op rest)
    (heval : rest.eval threads.shared = (object op).eval s)

/-- The calls that are done have gone to the object one after the other, in the order of their
releases. -/
structure Linear (object : LockedObject σ ω β) (s₀ : σ) (threads : Threads ι σ ω β τ)
    (log : List (ι × Seen ω β τ)) : Prop where
  alone : ∃ s, object.alone.stateAfter s₀ ((releases log).map fun done => done.2.1) = some s ∧
    object.alone.actions s₀ ((releases log).map fun done => done.2.1) =
      (releases log).map (fun done => done.2.2.1) ∧
    AtWork object s threads
  exclusive : ∀ i op rest, threads.stages i = .holding op rest → threads.owner = some i
  invoked : ∀ i, invokedBy i log =
    (releasedBy i log).map Prod.fst ++ (threads.stages i).pending
  returned : ∀ i, releasedBy i log = returnedBy i log ++ (threads.stages i).unreturned

omit [DecidableEq ι] in
@[simp] theorem releases_append : releases (log ++ seen) = releases log ++ releases seen :=
  List.filterMap_append

@[simp] theorem invokedBy_append (i : ι) :
    invokedBy i (log ++ seen) = invokedBy i log ++ invokedBy i seen := List.filterMap_append

@[simp] theorem releasedBy_append (i : ι) :
    releasedBy i (log ++ seen) = releasedBy i log ++ releasedBy i seen := List.filterMap_append

@[simp] theorem returnedBy_append (i : ι) :
    returnedBy i (log ++ seen) = returnedBy i log ++ returnedBy i seen := List.filterMap_append

theorem linear_initial (s₀ : σ) : Linear object s₀ (.initial s₀ : Threads ι σ ω β τ) [] where
  alone := ⟨s₀, rfl, rfl, .free rfl rfl⟩
  exclusive i op rest h := by cases h
  invoked i := rfl
  returned i := rfl

/-- A move says nothing of the other threads. -/
theorem Moves.others (h : Moves object threads i m seen threads') {j : ι} (hij : i ≠ j) :
    threads'.stages j = threads.stages j ∧ invokedBy j seen = [] ∧ releasedBy j seen = [] ∧
      returnedBy j seen = [] := by
  have hstages (stage : Stage σ ω β τ) : (threads.setStage i stage).stages j = threads.stages j :=
    (stages_setStage threads i j stage).trans (if_neg (Ne.symm hij))
  cases h with
  | _ => exact ⟨hstages _, by simp [invokedBy, hij], by simp [releasedBy, hij],
      by simp [returnedBy, hij]⟩

theorem invoked_step (h : Moves object threads i m seen threads')
    (hinvoked : ∀ i, invokedBy i log = (releasedBy i log).map Prod.fst ++ (threads.stages i).pending)
    (j : ι) : invokedBy j (log ++ seen) =
      (releasedBy j (log ++ seen)).map Prod.fst ++ (threads'.stages j).pending := by
  rw [invokedBy_append, releasedBy_append, hinvoked j]
  by_cases hij : i = j
  · subst hij
    have hself (stage : Stage σ ω β τ) : (threads.setStage i stage).stages i = stage :=
      (stages_setStage threads i i stage).trans (if_pos rfl)
    cases h with
    | _ hstage => simp [hstage, hself, invokedBy, releasedBy, Stage.pending]
  · obtain ⟨hstages, hnone, hnone', -⟩ := h.others hij
    rw [hstages, hnone, hnone', List.append_nil, List.append_nil]

theorem returned_step (h : Moves object threads i m seen threads')
    (hreturned : ∀ i, releasedBy i log = returnedBy i log ++ (threads.stages i).unreturned)
    (j : ι) :
    releasedBy j (log ++ seen) = returnedBy j (log ++ seen) ++ (threads'.stages j).unreturned := by
  rw [returnedBy_append, releasedBy_append, hreturned j]
  by_cases hij : i = j
  · subst hij
    have hself (stage : Stage σ ω β τ) : (threads.setStage i stage).stages i = stage :=
      (stages_setStage threads i i stage).trans (if_pos rfl)
    cases h with
    | _ hstage => simp [hstage, hself, returnedBy, releasedBy, Stage.unreturned]
  · obtain ⟨hstages, -, hnone, hnone'⟩ := h.others hij
    rw [hstages, hnone, hnone', List.append_nil, List.append_nil]

/-- At most one thread holds the lock. -/
theorem exclusive_step (h : Moves object threads i m seen threads')
    (hexclusive : ∀ i op rest, threads.stages i = .holding op rest → threads.owner = some i)
    (j : ι) (op : ω) (rest : AtomicSteps σ β) (hj : threads'.stages j = .holding op rest) :
    threads'.owner = some j := by
  have hset (stage : Stage σ ω β τ) : (threads.setStage i stage).stages j =
      if j = i then stage else threads.stages j := stages_setStage threads i j stage
  by_cases hij : j = i
  · subst hij
    cases h with
    | acquire => rfl
    | step hstage => exact hexclusive j _ _ hstage
    | invoke | release | finish => cases ((hset _).trans (if_pos rfl)).symm.trans hj
  · have hbefore : threads.owner = some j := by
      refine hexclusive j op rest ?_
      cases h with
      | _ => exact ((hset _).trans (if_neg hij)).symm.trans hj
    cases h with
    | acquire _ hfree => cases hfree.symm.trans hbefore
    | release hstage => exact absurd (hbefore.symm.trans (hexclusive i _ _ hstage)) (by simpa using hij)
    | invoke | step | finish => exact hbefore

/-- The work of the thread that holds the lock is not touched by what the others do. -/
theorem AtWork.others {s : σ} {stage : Stage σ ω β τ} (hwork : AtWork object s threads)
    (hstage : ∀ op rest, threads.stages i ≠ .holding op rest) :
    AtWork object s (threads.setStage i stage) := by
  cases hwork with
  | free hfree hshared => exact .free hfree hshared
  | @held j op rest howner hholding heval =>
    refine .held howner ?_ heval
    rw [stages_setStage, if_neg, hholding]
    rintro rfl
    exact hstage op rest hholding

omit [DecidableEq ι] in
/-- The thread that holds the lock is the one at work. -/
theorem AtWork.holder {s : σ} (hwork : AtWork object s threads) {op : ω} {rest : AtomicSteps σ β}
    (howner : threads.owner = some i) (hstage : threads.stages i = .holding op rest) :
    rest.eval threads.shared = (object op).eval s := by
  cases hwork with
  | free hfree => cases howner.symm.trans hfree
  | held howner' hstage' heval =>
    obtain rfl := Option.some.inj (howner.symm.trans howner')
    obtain ⟨rfl, rfl⟩ := Stage.holding.inj (hstage.symm.trans hstage')
    exact heval

theorem linear_step (h : Moves object threads i m seen threads') {s₀ : σ}
    (hlinear : Linear object s₀ threads log) : Linear object s₀ threads' (log ++ seen) := by
  obtain ⟨⟨s, hstate, hactions, hwork⟩, hexclusive, hinvoked, hreturned⟩ := hlinear
  refine ⟨?_, exclusive_step h hexclusive, invoked_step h hinvoked, returned_step h hreturned⟩
  have hself (stage : Stage σ ω β τ) : (threads.setStage i stage).stages i = stage :=
    (stages_setStage threads i i stage).trans (if_pos rfl)
  have hkeep (hnone : releases seen = []) (hwork' : AtWork object s threads') :
      ∃ s, object.alone.stateAfter s₀ ((releases (log ++ seen)).map fun done => done.2.1) = some s ∧
        object.alone.actions s₀ ((releases (log ++ seen)).map fun done => done.2.1) =
          (releases (log ++ seen)).map (fun done => done.2.2.1) ∧ AtWork object s threads' := by
    rw [releases_append, hnone, List.append_nil]
    exact ⟨s, hstate, hactions, hwork'⟩
  cases h with
  | invoke hstage | finish hstage => exact hkeep rfl (hwork.others (by simp [hstage]))
  | acquire hstage hfree =>
    refine hkeep rfl (.held rfl (hself _) ?_)
    cases hwork with
    | free _ hshared => exact congrArg _ hshared
    | held howner => cases hfree.symm.trans howner
  | step hstage =>
    have howner := hexclusive i _ _ hstage
    exact hkeep rfl (.held howner (hself _) (hwork.holder howner hstage))
  | @release op b note hstage =>
    have heval : (b, threads.shared) = (object op).eval s :=
      hwork.holder (hexclusive i _ _ hstage) hstage
    have hstep : object.alone.step s op = ([b], some threads.shared) := by
      show ([((object op).eval s).1], some ((object op).eval s).2) = _
      rw [← heval]
    refine ⟨threads.shared, ?_, ?_, .free rfl rfl⟩
    · rw [releases_append, List.map_append]
      exact object.alone.stateAfter_append_singleton.mpr ⟨s, hstate, congrArg Prod.snd hstep⟩
    · rw [releases_append, List.map_append, List.map_append, object.alone.actions_append hstate,
        hactions]
      show _ ++ object.alone.actions s [op] = _ ++ [b]
      rw [object.alone.actions_cons_some (congrArg Prod.snd hstep), hstep]
      rfl

/-- However the moves of the threads follow each other. -/
theorem linear_run {s₀ : σ} {moves : List (ι × Move ω τ)}
    (h : (calling object).stateAfter (.initial s₀) moves = some threads) :
    Linear object s₀ threads ((calling object).actions (.initial s₀) moves) :=
  (calling object).actions_induction (P := fun _ log threads => Linear object s₀ threads log)
    (linear_initial s₀)
    (fun _ _ _ _ _ hlinear hstep =>
      linear_step (moves_of_some (EventLoop.step_of_ofStep hstep)) hlinear) h

theorem mem_releasedBy {done : ι × ω × β × τ} (h : done ∈ releases log) :
    done.2 ∈ releasedBy done.1 log := by
  obtain ⟨⟨j, event⟩, hmem, hsome⟩ := List.mem_filterMap.mp h
  refine List.mem_filterMap.mpr ⟨(j, event), hmem, ?_⟩
  cases event with
  | released op b note =>
    obtain rfl := Option.some.inj hsome
    exact if_pos rfl
  | invoked | returned => cases hsome

/-- What is invoked in a move is the call of the move. -/
theorem Moves.mem_invokedBy (h : Moves object threads i m seen threads') {j : ι} {op : ω}
    (hmem : op ∈ invokedBy j seen) : (j, Move.invoke op) = (i, m) := by
  cases h with
  | invoke =>
    obtain ⟨_, hseen, hsome⟩ := List.mem_filterMap.mp hmem
    obtain rfl := List.mem_singleton.mp hseen
    obtain ⟨rfl, heq⟩ := Option.ite_none_right_eq_some.mp hsome
    rw [Option.some.inj heq]
  | acquire | step | release | finish => simp [invokedBy] at hmem

/-- Only what was invoked is done. -/
theorem mem_moves_of_released {s₀ : σ} {moves : List (ι × Move ω τ)}
    (h : (calling object).stateAfter (.initial s₀) moves = some threads) {done : ι × ω × β × τ}
    (hdone : done ∈ releases ((calling object).actions (.initial s₀) moves)) :
    (done.1, .invoke done.2.1) ∈ moves := by
  have hseen : ∀ j op, op ∈ invokedBy j ((calling object).actions (.initial s₀) moves) →
      (j, .invoke op) ∈ moves := by
    refine (calling object).actions_induction (P := fun moves log _ =>
      ∀ j op, op ∈ invokedBy j log → (j, .invoke op) ∈ moves) (fun _ _ hmem => by cases hmem) ?_ h
    rintro moves log threads ⟨i, m⟩ threads' hlog hstep j op hmem
    rw [invokedBy_append, List.mem_append] at hmem
    rw [List.mem_append, List.mem_singleton]
    rcases hmem with hmem | hmem
    · exact .inl (hlog j op hmem)
    · exact .inr ((moves_of_some (EventLoop.step_of_ofStep hstep)).mem_invokedBy hmem)
  refine hseen _ _ ?_
  rw [(linear_run h).invoked]
  exact List.mem_append_left _ (List.mem_map_of_mem (mem_releasedBy hdone))

end LockedObject

end Instro.Library
