import Instro.I2c.FieldWrites
import Instro.Library.Double

/-!
# Concurrent writes have a serial order

The order is that of the writes on the bus. A call that has read the register for a field write holds
the lock until it has written it, so what it then writes is what the write would send now.
-/

namespace Instro.I2c

open Instro.Library

/-- The calls issued in a run. -/
def issuedCalls (run : List Event) : List Call :=
  run.filterMap fun
    | .issue call => some call
    | _ => none

theorem getElem?_snoc {α : Type} {l : List α} {a b : α} {i : Nat} :
    (l ++ [a])[i]? = some b ↔ l[i]? = some b ∨ i = l.length ∧ a = b := by
  grind

/-- The call at this place writes a register. -/
def Issued (i2c : I2CInterface) (calls : List Call) (i : Nat) (w : RegisterWrite) : Prop :=
  ∃ call, calls[i]? = some call ∧ i2c.issue call = .waiting w

def Stage.isDone : Stage → Bool
  | .written _ | .ended _ => true
  | _ => false

/-! ## The invariant -/

section Invariant

variable (i2c : I2CInterface) (issued : List Call)

/-- What holds of a call at a stage. -/
def StageOk (s : State) (i : Nat) : Stage → Prop
  | .waiting w => Issued i2c issued i w
  | .reading w field =>
    Issued i2c issued i w ∧ s.lock = some i ∧ w.field ≠ "" ∧ w.register.field w.field = .ok field
  | .writing w payload =>
    Issued i2c issued i w ∧ s.lock = some i ∧ w.sends (s.memory w.pointer) = .ok payload
  | .written w => (i, w) ∈ s.log
  | .awaiting _ => True
  | .commanding _ => s.lock = some i
  | .responding _ => s.lock = some i
  | .fetching _ => True
  | .ended result => ∀ channel value, result = .ok (.command channel value) → ∃ w, (i, w) ∈ s.log

structure Inv (memory : Memory) (s : State) : Prop where
  length : s.calls.length = issued.length
  stages : ∀ i stage, s.calls[i]? = some stage → StageOk i2c issued s i stage
  issued : ∀ i w, (i, w) ∈ s.log → Issued i2c issued i w
  sent : ∀ i w, (i, w) ∈ s.log → ∃ content payload, w.sends content = .ok payload
  done : ∀ i w, (i, w) ∈ s.log → ∀ stage, s.calls[i]? = some stage → stage.isDone = true
  once : (s.log.map Prod.fst).Nodup
  memory : s.memory =
    (s.log.map Prod.snd).foldl (fun m w => updateAt m w.pointer w.applyTo) memory

end Invariant

section Steps

variable {fl : Rounding} {i2c : I2CInterface} {issued : List Call} {memory : Memory}
  {s s' : State} {i : Nat} {w : RegisterWrite} {stage stage' : Stage}

/-- A call is not concerned by what another one does with the lock. -/
theorem StageOk.frame (h : StageOk i2c issued s i stage)
    (hlock : s.lock ≠ some i ∨ s'.lock = s.lock ∧ s'.memory = s.memory) (hlog : s.log ⊆ s'.log) :
    StageOk i2c issued s' i stage := by
  cases stage with
  | waiting w => exact h
  | reading w field =>
    obtain ⟨hissued, hheld, hname, hfield⟩ := h
    rcases hlock with hne | ⟨hsame, -⟩
    · exact absurd hheld hne
    · exact ⟨hissued, hsame.trans hheld, hname, hfield⟩
  | writing w payload =>
    obtain ⟨hissued, hheld, hsends⟩ := h
    rcases hlock with hne | ⟨hsame, hmemory⟩
    · exact absurd hheld hne
    · exact ⟨hissued, hsame.trans hheld, hmemory ▸ hsends⟩
  | written w => exact hlog h
  | awaiting q => trivial
  | commanding q =>
    rcases hlock with hne | ⟨hsame, -⟩
    · exact absurd h hne
    · exact hsame.trans h
  | responding q =>
    rcases hlock with hne | ⟨hsame, -⟩
    · exact absurd h hne
    · exact hsame.trans h
  | fetching r => trivial
  | ended result =>
    intro channel value hresult
    obtain ⟨w, hw⟩ := h channel value hresult
    exact ⟨w, hlog hw⟩

theorem inv_init : Inv i2c [] memory (initial memory) where
  length := rfl
  stages i stage h := by
    rw [initial, List.getElem?_nil] at h
    cases h
  issued i w h := absurd h List.not_mem_nil
  sent i w h := absurd h List.not_mem_nil
  done i w h := absurd h List.not_mem_nil
  once := List.nodup_nil
  memory := rfl

theorem ofStart_cases {α : Type} (start : Except PyException α) (stage : α → Stage) :
    (∃ a, Stage.ofStart start stage = stage a) ∨
      ∃ e, Stage.ofStart start stage = .ended (.error e) := by
  cases start with
  | ok a => exact .inl ⟨a, rfl⟩
  | error e => exact .inr ⟨e, rfl⟩

/-- Where a call may be when it is issued. -/
theorem issue_cases (i2c : I2CInterface) (call : Call) :
    (∃ w, i2c.issue call = .waiting w) ∨ (∃ q, i2c.issue call = .awaiting q) ∨
      (∃ r, i2c.issue call = .fetching r) ∨ ∃ e, i2c.issue call = .ended (.error e) := by
  cases call with
  | write peripheral registerAlias value field =>
    rcases ofStart_cases (i2c.target peripheral registerAlias) _ with ⟨target, h⟩ | h
    · exact .inl ⟨_, h⟩
    · exact .inr (.inr (.inr h))
  | resetReg peripheral registerAlias =>
    rcases ofStart_cases (i2c.target peripheral registerAlias) _ with ⟨target, h⟩ | h
    · exact .inl ⟨_, h⟩
    · exact .inr (.inr (.inr h))
  | read peripheral registerAlias field =>
    rcases ofStart_cases (i2c.target peripheral registerAlias) _ with ⟨target, h⟩ | h
    · exact .inr (.inr (.inl ⟨_, h⟩))
    · exact .inr (.inr (.inr h))
  | query peripheral batchCommand =>
    rcases ofStart_cases (i2c.startQuery peripheral batchCommand) _ with ⟨q, h⟩ | h
    · exact .inr (.inl ⟨_, h⟩)
    · exact .inr (.inr (.inr h))

/-- What a call is when it is issued. -/
theorem stageOk_issue (call : Call) :
    StageOk i2c (issued ++ [call]) s issued.length (i2c.issue call) := by
  rcases issue_cases i2c call with ⟨w, hw⟩ | ⟨q, hq⟩ | ⟨r, hr⟩ | ⟨e, he⟩
  · rw [hw]
    exact ⟨call, List.getElem?_concat_length, hw⟩
  · rw [hq]
    trivial
  · rw [hr]
    trivial
  · rw [he]
    nofun

theorem Issued.append (h : Issued i2c issued i w) (call : Call) :
    Issued i2c (issued ++ [call]) i w := by
  obtain ⟨call', hcall', hissue⟩ := h
  exact ⟨call', getElem?_snoc.mpr (.inl hcall'), hissue⟩

/-- Issuing another call does not concern those issued before. -/
theorem StageOk.issue (h : StageOk i2c issued s i stage) (call : Call) :
    StageOk i2c (issued ++ [call]) { s with calls := s.calls ++ [i2c.issue call] } i stage := by
  cases stage with
  | waiting w => exact Issued.append h call
  | reading w field => exact ⟨h.1.append call, h.2⟩
  | writing w payload => exact ⟨h.1.append call, h.2⟩
  | written w => exact h
  | awaiting q => trivial
  | commanding q => exact h
  | responding q => exact h
  | fetching r => trivial
  | ended result => exact h

theorem inv_issue (h : Inv i2c issued memory s) (call : Call) :
    Inv i2c (issued ++ [call]) memory { s with calls := s.calls ++ [i2c.issue call] } where
  length := by rw [List.length_append, List.length_append, h.length, List.length_singleton,
    List.length_singleton]
  stages i stage hi := by
    rcases getElem?_snoc.mp hi with hi | ⟨rfl, rfl⟩
    · exact (h.stages i stage hi).issue call
    · rw [h.length]
      exact stageOk_issue call
  issued i w hw := (h.issued i w hw).append call
  sent := h.sent
  done i w hw stage hi := by
    rcases getElem?_snoc.mp hi with hi | ⟨rfl, -⟩
    · exact h.done i w hw stage hi
    · obtain ⟨call', hcall', -⟩ := h.issued _ w hw
      rw [h.length, List.getElem?_eq_none le_rfl] at hcall'
      cases hcall'
  once := h.once
  memory := h.memory

theorem getElem?_goto {k : Nat} {stage₁ : Stage}
    (h : (s.goto i stage').calls[k]? = some stage₁) :
    k = i ∧ stage₁ = stage' ∨ k ≠ i ∧ s.calls[k]? = some stage₁ := by
  unfold State.goto at h
  rw [List.getElem?_set] at h
  by_cases hk : i = k
  · subst hk
    rw [if_pos rfl] at h
    split at h
    · exact .inl ⟨rfl, (Option.some.inj h).symm⟩
    · cases h
  · rw [if_neg hk] at h
    exact .inr ⟨Ne.symm hk, h⟩

/-- A step of one call that writes no register. -/
theorem inv_goto (h : Inv i2c issued memory s) (hi : s.calls[i]? = some stage)
    (hnew : stage.isDone = true → stage'.isDone = true) {lock : Option Nat}
    (hlock : s.lock = none ∨ s.lock = some i ∨ lock = s.lock)
    (hok : StageOk i2c issued { s with lock := lock } i stage') :
    Inv i2c issued memory ({ s with lock := lock }.goto i stage') where
  length := List.length_set.trans h.length
  stages k stage₁ hk := by
    rcases getElem?_goto hk with ⟨rfl, rfl⟩ | ⟨hne, hk⟩
    · exact hok.frame (.inr ⟨rfl, rfl⟩) (List.Subset.refl _)
    · refine (h.stages k stage₁ hk).frame ?_ (List.Subset.refl _)
      rcases hlock with hfree | hheld | hsame
      · exact .inl (by simp [hfree])
      · exact .inl (by simp [hheld, Ne.symm hne])
      · exact .inr ⟨hsame, rfl⟩
  issued := h.issued
  sent := h.sent
  done k w hw stage₁ hk := by
    rcases getElem?_goto hk with ⟨rfl, rfl⟩ | ⟨-, hk⟩
    · exact hnew (h.done k w hw stage hi)
    · exact h.done k w hw stage₁ hk
  once := h.once
  memory := h.memory

theorem inv_writing {payload : List UInt8} (h : Inv i2c issued memory s)
    (hi : s.calls[i]? = some (.writing w payload)) :
    Inv i2c issued memory ({ s with
      memory := updateAt s.memory w.pointer (Content.store payload)
      lock := none
      log := s.log ++ [(i, w)] }.goto i (.written w)) := by
  obtain ⟨hissued, hlock, hsends⟩ := h.stages i _ hi
  refine ⟨List.length_set.trans h.length, ?_, ?_, ?_, ?_, ?_, ?_⟩
  · intro k stage₁ hk
    rcases getElem?_goto hk with ⟨rfl, rfl⟩ | ⟨hne, hk⟩
    · exact List.mem_append_right _ (List.mem_singleton_self _)
    · exact (h.stages k stage₁ hk).frame (.inl (by simp [hlock, Ne.symm hne]))
        (List.subset_append_left _ _)
  · intro k v hv
    rcases List.mem_append.mp hv with hv | hv
    · exact h.issued k v hv
    · obtain ⟨rfl, rfl⟩ := Prod.mk.inj (List.mem_singleton.mp hv)
      exact hissued
  · intro k v hv
    rcases List.mem_append.mp hv with hv | hv
    · exact h.sent k v hv
    · obtain ⟨rfl, rfl⟩ := Prod.mk.inj (List.mem_singleton.mp hv)
      exact ⟨_, payload, hsends⟩
  · intro k v hv stage₁ hk
    rcases getElem?_goto hk with ⟨rfl, rfl⟩ | ⟨hne, hk⟩
    · rfl
    · rcases List.mem_append.mp hv with hv | hv
      · exact h.done k v hv stage₁ hk
      · exact absurd (Prod.mk.inj (List.mem_singleton.mp hv)).1 hne
  · show ((s.log ++ [(i, w)]).map Prod.fst).Nodup
    rw [List.map_append, List.map_singleton, ← List.concat_eq_append]
    refine h.once.concat fun hmem => ?_
    obtain ⟨⟨k, v⟩, hv, rfl⟩ := List.mem_map.mp hmem
    cases h.done k v hv _ hi
  · show updateAt s.memory w.pointer (Content.store payload) =
      ((s.log ++ [(i, w)]).map Prod.snd).foldl (fun m w => updateAt m w.pointer w.applyTo) memory
    rw [List.map_append, List.foldl_append, ← h.memory]
    unfold RegisterWrite.applyTo updateAt
    dsimp only [List.map_singleton, List.foldl_cons, List.foldl_nil]
    rw [hsends]

/-- A write that has taken the lock sends a whole value at once or reads its register first. -/
theorem begin_eq_ok (h : w.begin = .ok stage) :
    (∃ payload, stage = .writing w payload ∧ ∀ content, w.sends content = .ok payload) ∨
      ∃ field, stage = .reading w field ∧ w.field ≠ "" ∧
        w.register.field w.field = .ok field := by
  unfold RegisterWrite.begin at h
  by_cases hname : w.field = ""
  · rw [if_pos hname] at h
    obtain ⟨payload, hpayload, h⟩ := bind_eq_ok.mp h
    refine .inl ⟨payload, (Except.ok.inj h).symm, fun content => ?_⟩
    unfold RegisterWrite.sends
    rw [if_pos hname, hpayload]
  · rw [if_neg hname] at h
    obtain ⟨field, hfield, h⟩ := bind_eq_ok.mp h
    obtain ⟨n, -, h⟩ := bind_eq_ok.mp h
    exact .inr ⟨field, (Except.ok.inj h).symm, hname, hfield⟩

/-- A call takes the lock, or ends with an error. -/
theorem inv_enter {start : Except PyException Stage} (h : Inv i2c issued memory s)
    (hi : s.calls[i]? = some stage) (hnew : stage.isDone = false)
    (hok : ∀ stage', start = .ok stage' → StageOk i2c issued { s with lock := some i } i stage')
    (hstep : s.enter i start = some s') : Inv i2c issued memory s' := by
  unfold State.enter at hstep
  cases hlock : s.lock with
  | some k =>
    rw [hlock] at hstep
    cases hstep
  | none =>
    rw [hlock] at hstep
    cases start with
    | ok stage' =>
      obtain rfl := Option.some.inj hstep
      exact inv_goto h hi (by rw [hnew]; nofun) (.inl hlock) (hok stage' rfl)
    | error e =>
      obtain rfl := Option.some.inj hstep
      exact @inv_goto i2c issued memory s i stage (.ended (.error e)) h hi (fun _ => rfl) s.lock
        (.inl hlock) nofun

theorem inv_advance (h : Inv i2c issued memory s) (hi : s.calls[i]? = some stage)
    (hstep : s.advance fl i2c i stage = some s') : Inv i2c issued memory s' := by
  have hstage := h.stages i stage hi
  cases stage with
  | waiting w =>
    refine inv_enter h hi rfl (fun stage' hbegin => ?_) hstep
    rcases begin_eq_ok hbegin with ⟨payload, rfl, hsends⟩ | ⟨field, rfl, hname, hfield⟩
    · exact ⟨hstage, rfl, hsends _⟩
    · exact ⟨hstage, rfl, hname, hfield⟩
  | reading w field =>
    obtain ⟨hissued, hlock, hname, hfield⟩ := hstage
    unfold State.advance at hstep
    dsimp only at hstep
    cases hpayload : w.mergedPayload field (s.memory w.pointer) with
    | ok payload =>
      rw [hpayload] at hstep
      obtain rfl := Option.some.inj hstep
      refine inv_goto h hi nofun (.inr (.inr rfl)) ⟨hissued, hlock, ?_⟩
      unfold RegisterWrite.sends
      rw [if_neg hname, hfield]
      exact hpayload
    | error e =>
      rw [hpayload] at hstep
      obtain rfl := Option.some.inj hstep
      exact inv_goto h hi (fun _ => rfl) (.inr (.inl hlock)) nofun
  | writing w payload =>
    obtain rfl := Option.some.inj hstep
    exact inv_writing h hi
  | written w =>
    obtain rfl := Option.some.inj hstep
    exact inv_goto h hi (fun _ => rfl) (.inr (.inr rfl)) fun _ _ _ => ⟨w, hstage⟩
  | awaiting q =>
    refine inv_enter h hi rfl (fun stage' hstart => ?_) hstep
    obtain rfl := Except.ok.inj hstart
    rfl
  | commanding q =>
    obtain rfl := Option.some.inj hstep
    exact inv_goto h hi nofun (.inr (.inr rfl)) hstage
  | responding q => cases hstep
  | fetching r =>
    obtain rfl := Option.some.inj hstep
    refine inv_goto h hi (fun _ => rfl) (.inr (.inr rfl)) fun channel value hresult => ?_
    obtain ⟨n, -, hresult⟩ := bind_eq_ok.mp hresult
    obtain ⟨data, -, hresult⟩ := bind_eq_ok.mp hresult
    cases hresult
  | ended result => cases hstep

theorem inv_respond {response : List UInt8} (h : Inv i2c issued memory s)
    (hi : s.calls[i]? = some stage) (hstep : s.respond fl i2c i response stage = some s') :
    Inv i2c issued memory s' := by
  unfold State.respond at hstep
  split at hstep
  · have hlock := h.stages i _ hi
    obtain rfl := Option.some.inj hstep
    refine inv_goto h hi (fun _ => rfl) (.inr (.inl hlock)) fun channel value hresult => ?_
    obtain ⟨data, -, hresult⟩ := bind_eq_ok.mp hresult
    cases hresult
  · cases hstep

/-- The invariant holds in every state reached. -/
theorem inv_reached {run : List Event}
    (h : (bus fl i2c).stateAfter (initial memory) run = some s) :
    Inv i2c (issuedCalls run) memory s := by
  refine (bus fl i2c).stateAfter_induction (s := initial memory)
    (P := fun run s => Inv i2c (issuedCalls run) memory s) inv_init ?_ h
  intro run t event t' ht hstep
  unfold issuedCalls at ht ⊢
  rw [List.filterMap_append]
  cases event with
  | issue call =>
    obtain rfl := Option.some.inj hstep
    exact inv_issue ht call
  | step i =>
    obtain ⟨stage, hi, hstep⟩ := Option.bind_eq_some_iff.mp hstep
    rw [List.filterMap_cons_none rfl, List.filterMap_nil, List.append_nil]
    exact inv_advance ht hi hstep
  | respond i response =>
    obtain ⟨stage, hi, hstep⟩ := Option.bind_eq_some_iff.mp hstep
    rw [List.filterMap_cons_none rfl, List.filterMap_nil, List.append_nil]
    exact inv_respond ht hi hstep

/-- A call between taking the lock and releasing it is the one that has it. -/
theorem StageOk.lock_eq (h : StageOk i2c issued s i stage) (hholds : stage.holdsLock = true) :
    s.lock = some i := by
  cases stage with
  | reading w field => exact h.2.1
  | writing w payload => exact h.2.1
  | commanding q => exact h
  | responding q => exact h
  | waiting w | written w | awaiting q | fetching r | ended result => cases hholds

/-- Two calls are never between taking the lock and releasing it. -/
theorem holdsLock_inj {run : List Event}
    (h : (bus fl i2c).stateAfter (initial memory) run = some s) {j : Nat}
    (hi : s.calls[i]? = some stage) (hj : s.calls[j]? = some stage')
    (hholds : stage.holdsLock = true) (hholds' : stage'.holdsLock = true) : i = j := by
  have hinv : Inv i2c (issuedCalls run) memory s := inv_reached h
  have hlock := (hinv.stages i stage hi).lock_eq hholds
  have hlock' := (hinv.stages j stage' hj).lock_eq hholds'
  exact Option.some.inj (hlock.symm.trans hlock')

/-- The registers of issued writes fit. -/
theorem Issued.fits (hfits : i2c.system.Fits) (h : Issued i2c issued i w) : w.Fits := by
  obtain ⟨call, -, hissue⟩ := h
  have hstart : ∀ {target : Except PyException Target} {f : Target → Stage},
      Stage.ofStart target f = .waiting w → ∃ t, target = .ok t ∧ f t = .waiting w := by
    intro target f hwaiting
    cases target with
    | ok t => exact ⟨t, rfl, hwaiting⟩
    | error e => cases hwaiting
  cases call with
  | write peripheral registerAlias value field =>
    obtain ⟨target, htarget, hw⟩ := hstart hissue
    obtain rfl := Stage.waiting.inj hw
    exact fits_of_target hfits htarget
  | resetReg peripheral registerAlias =>
    obtain ⟨target, htarget, hw⟩ := hstart hissue
    obtain rfl := Stage.waiting.inj hw
    exact fits_of_target hfits htarget
  | read peripheral registerAlias field =>
    obtain ⟨target, -, hw⟩ := hstart hissue
    cases hw
  | query peripheral batchCommand =>
    unfold I2CInterface.issue Stage.ofStart at hissue
    dsimp only at hissue
    split at hissue <;> cases hissue

end Steps

/-! ## The serial order -/

section Serial

variable {fl : Rounding} {i2c : I2CInterface} {issued : List Call} {memory : Memory} {s : State}

/-- A register holds what the writes to it leave, one after the other. -/
theorem Inv.content_eq (h : Inv i2c issued memory s) (hfits : i2c.system.Fits) {target : Target}
    (htarget : target.Fits) :
    s.memory target.pointer =
      ((s.log.map Prod.snd).filter fun w => w.id = target.id).foldl
        (fun content w => w.applyTo content) (memory target.pointer) := by
  rw [h.memory, foldl_updateAt (fun w : RegisterWrite => w.pointer) RegisterWrite.applyTo]
  congr 1
  apply List.filter_congr
  intro w hw
  obtain ⟨⟨i, w⟩, hlog, rfl⟩ := List.mem_map.mp hw
  exact decide_eq_decide.mpr (pointer_eq_iff ((h.issued i w hlog).fits hfits) htarget)

/-- What the last write to a register has left in it. -/
theorem Inv.content_of_last (h : Inv i2c issued memory s) (hfits : i2c.system.Fits)
    {i : Nat} {w : RegisterWrite} {pre post : List (Nat × RegisterWrite)}
    (hlog : s.log = pre ++ (i, w) :: post) (hlast : ∀ q ∈ post, q.2.id ≠ w.id) :
    ∃ content, s.memory w.pointer = w.applyTo content := by
  have hmem : (i, w) ∈ s.log := by
    rw [hlog]
    exact List.mem_append_right _ List.mem_cons_self
  have hnone : ((post.map Prod.snd).filter fun v => v.id = w.id) = [] := by
    apply List.filter_eq_nil_iff.mpr
    intro v hv
    obtain ⟨q, hq, rfl⟩ := List.mem_map.mp hv
    simpa using hlast q hq
  rw [h.content_eq hfits ((h.issued i w hmem).fits hfits), hlog, List.map_append,
    List.map_cons, List.filter_append, List.filter_cons_of_pos (by simp), hnone, List.foldl_append]
  exact ⟨_, rfl⟩

/-- A read of a field, at its turn: what it returns is the value last written there, as a float. -/
theorem Inv.read_after_write (fl : Rounding) (h : Inv i2c issued memory s) (hfits : i2c.system.Fits)
    {i j : Nat} {w : RegisterWrite} {pre post : List (Nat × RegisterWrite)}
    (hlog : s.log = pre ++ (i, w) :: post) (hlast : ∀ q ∈ post, q.2.id ≠ w.id)
    (hname : w.field ≠ "") {field : FieldDef} {n : Nat}
    (hfield : w.register.field w.field = .ok field) (hwidth : w.register.dataWidthBytes = .ok n)
    (hj : s.calls[j]? = some (.fetching ⟨w.toTarget, w.field⟩)) :
    ((bus fl i2c).step s (.step j)).2 =
      some (s.finish j ((PyFloat.ofInt fl (w.value % 2 ^ field.widthBits)).map
        (.measurement (i2c.channel (w.channelNames w.field))))) := by
  have hmem : (i, w) ∈ s.log := by
    rw [hlog]
    exact List.mem_append_right _ List.mem_cons_self
  obtain ⟨content, hcontent⟩ := h.content_of_last hfits hlog hlast
  show s.calls[j]?.bind (s.advance fl i2c j) = _
  rw [hj]
  show some (s.finish j (RegisterRead.result fl i2c ⟨w.toTarget, w.field⟩ (s.memory w.pointer))) = _
  rw [hcontent, result_applyTo fl i2c ((h.issued i w hmem).fits hfits) hname hfield hwidth]

/-- A float holds a field of up to 53 bits. -/
theorem ofInt_emod_two_pow (fl : Rounding) (value : ℤ) {width : Nat} (hwidth : width ≤ 53) :
    PyFloat.ofInt fl (value % 2 ^ width) = .ok (.finite ((value % 2 ^ width : ℤ) : ℚ)) := by
  have hpos : (0 : ℤ) < 2 ^ width := by positivity
  have hnonneg : 0 ≤ value % 2 ^ width := Int.emod_nonneg _ hpos.ne'
  have hlt : value % 2 ^ width < 2 ^ width := Int.emod_lt_of_pos _ hpos
  have hpow : (2 : ℤ) ^ width ≤ 2 ^ 53 := pow_le_pow_right₀ (by norm_num) hwidth
  have hround : fl (value % 2 ^ width : ℤ) = .finite ((value % 2 ^ width : ℤ) : ℚ) :=
    fl.round_int _ (by rw [abs_of_nonneg hnonneg]; omega)
  unfold PyFloat.ofInt
  rw [hround]
  rfl

/-- **Concurrent writes are serialised.** The writes on the bus, each of them once and all that
returned among them, are the order: every register holds what they leave in it one after the other.
A field write changes its field only, and a read of the field that comes next returns its value
modulo the width of the field, as a float. -/
theorem writes_serialise (hfits : i2c.system.Fits) {run : List Event}
    (h : (bus fl i2c).stateAfter (initial memory) run = some s) :
    (s.log.map Prod.fst).Nodup ∧
    (∀ i w, (i, w) ∈ s.log → Issued i2c (issuedCalls run) i w) ∧
    (∀ i channel value, s.calls[i]? = some (.ended (.ok (.command channel value))) →
      ∃ w, (i, w) ∈ s.log) ∧
    (∀ peripheral registerAlias target, i2c.target peripheral registerAlias = .ok target →
      s.memory target.pointer = ((s.log.map Prod.snd).filter fun w => w.id = target.id).foldl
        (fun content w => w.applyTo content) (memory target.pointer)) ∧
    (∀ i w, (i, w) ∈ s.log → w.field = "" → ∃ n, w.register.dataWidthBytes = .ok n ∧
      ∀ content, (w.number n (w.applyTo content) : ℤ) = w.value ∧
        ∀ k, n ≤ k → w.applyTo content k = content k) ∧
    ∀ i w, (i, w) ∈ s.log → w.field ≠ "" → ∃ field n,
      w.register.field w.field = .ok field ∧ w.register.dataWidthBytes = .ok n ∧
      ChangesOnly w field n ∧
      (field.widthBits ≤ 53 → PyFloat.ofInt fl (w.value % 2 ^ field.widthBits) =
        .ok (.finite ((w.value % 2 ^ field.widthBits : ℤ) : ℚ))) ∧
      ∀ pre post, s.log = pre ++ (i, w) :: post → (∀ q ∈ post, q.2.id ≠ w.id) →
        ∀ j, s.calls[j]? = some (.fetching ⟨w.toTarget, w.field⟩) →
          ((bus fl i2c).step s (.step j)).2 =
            some (s.finish j ((PyFloat.ofInt fl (w.value % 2 ^ field.widthBits)).map
              (.measurement (i2c.channel (w.channelNames w.field))))) := by
  have hinv : Inv i2c (issuedCalls run) memory s := inv_reached h
  refine ⟨hinv.once, hinv.issued, ?_, ?_, ?_, ?_⟩
  · intro i channel value hi
    exact hinv.stages i _ hi channel value rfl
  · intro peripheral registerAlias target htarget
    exact hinv.content_eq hfits (fits_of_target hfits htarget)
  · intro i w hw hname
    obtain ⟨content, payload, hsends⟩ := hinv.sent i w hw
    exact number_of_whole hname hsends
  · intro i w hw hname
    obtain ⟨content, payload, hsends⟩ := hinv.sent i w hw
    obtain ⟨field, n, hfield, hwidth⟩ := field_of_sends hname hsends
    refine ⟨field, n, hfield, hwidth,
      changesOnly ((hinv.issued i w hw).fits hfits) hname hfield hwidth,
      ofInt_emod_two_pow fl w.value, ?_⟩
    intro pre post hlog hlast j hj
    exact hinv.read_after_write fl hfits hlog hlast hname hfield hwidth hj

/-! ## A wide field -/

/-- One field write, alone on the bus. -/
theorem stateAfter_fieldWrite {call : Call} {w : RegisterWrite} {field : FieldDef}
    {payload : List UInt8} (hissue : i2c.issue call = .waiting w)
    (hbegin : w.begin = .ok (.reading w field))
    (hpayload : w.mergedPayload field (memory w.pointer) = .ok payload) :
    (bus fl i2c).stateAfter (initial memory) [.issue call, .step 0, .step 0, .step 0] =
      some ⟨updateAt memory w.pointer (Content.store payload), none, [.written w], [(0, w)]⟩ := by
  simp [EventLoop.stateAfter, bus, initial, hissue, State.advance, State.enter, State.goto, hbegin,
    hpayload]

end Serial

/-- A register of 64 bits and the field that is all of it. -/
def codeRegister : RegisterDef where
  regAlias := "CODE"
  register := 0
  format := { transferBits := 64 }
  fields := [("value", ⟨0, 64⟩)]

theorem codeRegister_width : codeRegister.dataWidthBytes = .ok 8 :=
  dataWidthBytes_eq_ok.mpr ⟨rfl, rfl⟩

def dac : RegisterDevice where
  name := "dac"
  address := 32
  registers := [("CODE", codeRegister)]

def wideInterface : I2CInterface where
  name := "i2c"
  system := ⟨[("dac", .register dac)]⟩

theorem wideInterface_fits : wideInterface.system.Fits := by
  rintro name device hdevice registerAlias register hregister
  obtain ⟨-, hdevice⟩ := Prod.mk.inj (List.mem_singleton.mp hdevice)
  obtain rfl := Device.register.inj hdevice
  obtain ⟨-, rfl⟩ := Prod.mk.inj (List.mem_singleton.mp hregister)
  refine ⟨by decide, fun fieldName field hfield => ?_⟩
  obtain ⟨-, rfl⟩ := Prod.mk.inj (List.mem_singleton.mp hfield)
  exact le_rfl

/-- A write to the field. -/
def codeWrite (value : ℤ) : RegisterWrite where
  device := dac
  register := codeRegister
  pointerBytes := [0]
  value := value
  field := "value"

theorem codeWrite_field (value : ℤ) : (codeWrite value).field ≠ "" := by
  show "value" ≠ ""
  decide

theorem begin_codeWrite (value : ℤ) :
    (codeWrite value).begin = .ok (.reading (codeWrite value) ⟨0, 64⟩) := by
  have hname : (codeWrite value).field ≠ "" := codeWrite_field value
  unfold RegisterWrite.begin
  rw [if_neg hname]
  show (codeRegister.field "value" >>= fun field => codeRegister.dataWidthBytes >>= fun _ =>
    (.ok (.reading (codeWrite value) field) : Except PyException Stage)) = _
  rw [codeRegister_width]
  rfl

/-- The write and the read have been issued, and the write has been on the bus. -/
theorem exists_codeWritten (fl : Rounding) (memory : Memory) (value : ℤ) :
    ∃ run s, (bus fl wideInterface).stateAfter (initial memory) run = some s ∧
      s.log = [(0, codeWrite value)] ∧
      s.calls[1]? = some (.fetching ⟨(codeWrite value).toTarget, "value"⟩) := by
  have hfits : (codeWrite value).Fits :=
    @fits_of_target wideInterface _ wideInterface_fits "dac" "CODE" rfl
  obtain ⟨m, -, payload, hpayload, -⟩ :=
    mergedPayload_ok hfits rfl codeRegister_width
      (memory (codeWrite value).pointer)
  have hwritten := @stateAfter_fieldWrite fl wideInterface memory (.write "dac" "CODE" value "value")
    (codeWrite value) ⟨0, 64⟩ payload rfl (begin_codeWrite value) hpayload
  refine ⟨_, _, (EventLoop.stateAfter_append_singleton _).mpr
    ⟨_, hwritten, (rfl : ((bus fl wideInterface).step _ (.issue (.read "dac" "CODE" "value"))).2 = _)⟩,
    rfl, rfl⟩

/-- A double does not hold the 54 bits that the field holds, and what is read is the next one below. -/
theorem wide_field_rounds : ∃ run s,
    (bus double wideInterface).stateAfter (initial fun _ _ => 0) run = some s ∧
      s.log = [(0, codeWrite (2 ^ 53 + 1))] ∧
      ((bus double wideInterface).step s (.step 1)).2 = some (s.finish 1
        (.ok (.measurement (wideInterface.channel ["dac", "CODE", "value"]) (.finite (2 ^ 53))))) := by
  obtain ⟨run, s, hreached, hlog, hcall⟩ := exists_codeWritten double (fun _ _ => 0) (2 ^ 53 + 1)
  refine ⟨run, s, hreached, hlog, ?_⟩
  have hlast : ∀ q ∈ ([] : List (Nat × RegisterWrite)), q.2.id ≠ (codeWrite (2 ^ 53 + 1)).id :=
    fun _ hq => absurd hq List.not_mem_nil
  rw [(inv_reached hreached).read_after_write double wideInterface_fits
    (show s.log = [] ++ (0, codeWrite (2 ^ 53 + 1)) :: [] from hlog) hlast (codeWrite_field _) rfl
    codeRegister_width hcall]
  have hfloat : PyFloat.ofInt double ((codeWrite (2 ^ 53 + 1)).value % 2 ^ 64) =
      .ok (.finite (2 ^ 53)) := by
    have hround : double (((2 ^ 53 + 1 : ℤ) % 2 ^ 64 : ℤ) : ℚ) = .finite (2 ^ 53) := by
      decide +kernel
    unfold PyFloat.ofInt
    rw [show (codeWrite (2 ^ 53 + 1)).value = 2 ^ 53 + 1 from rfl, hround]
    rfl
  rw [hfloat]
  rfl

/-! ## Fields that overlap -/

/-- A register of 16 bits and two fields that share four of them. -/
def modeRegister : RegisterDef where
  regAlias := "MODE"
  register := 1
  format := { transferBits := 16 }
  fields := [("low", ⟨0, 8⟩), ("middle", ⟨4, 8⟩)]

def adc : RegisterDevice where
  name := "adc"
  address := 33
  registers := [("MODE", modeRegister)]

def modeInterface : I2CInterface where
  name := "i2c"
  system := ⟨[("adc", .register adc)]⟩

theorem modeInterface_fits : modeInterface.system.Fits := by
  rintro name device hdevice registerAlias register hregister
  obtain ⟨-, hdevice⟩ := Prod.mk.inj (List.mem_singleton.mp hdevice)
  obtain rfl := Device.register.inj hdevice
  obtain ⟨-, rfl⟩ := Prod.mk.inj (List.mem_singleton.mp hregister)
  refine ⟨by decide, fun fieldName field hfield => ?_⟩
  rcases List.mem_cons.mp hfield with hfield | hfield
  · obtain ⟨-, rfl⟩ := Prod.mk.inj hfield
    decide
  · obtain ⟨-, rfl⟩ := Prod.mk.inj (List.mem_singleton.mp hfield)
    decide

def modeWrite (field : String) (value : ℤ) : RegisterWrite where
  device := adc
  register := modeRegister
  pointerBytes := [1]
  value := value
  field := field

/-- The second write is issued before the first one has read the register, and waits for the lock. -/
def overlappingWrites : List Event :=
  [.issue (.write "adc" "MODE" 0x5a "low"), .issue (.write "adc" "MODE" 0x3c "middle"), .step 0,
    .step 0, .step 0, .step 1, .step 1, .step 1]

/-- The register holds what the writes leave in it one after the other, and the field that was written
last is read back. -/
theorem writes_serialise_overlapping : ∃ s,
    (bus exact modeInterface).stateAfter (initial fun _ _ => 0)
        (overlappingWrites ++ [.issue (.read "adc" "MODE" "middle")]) = some s ∧
      s.memory (modeWrite "low" 0x5a).pointer =
        (modeWrite "middle" 0x3c).applyTo ((modeWrite "low" 0x5a).applyTo fun _ => 0) ∧
      ((bus exact modeInterface).step s (.step 2)).2 = some (s.finish 2
        (.ok (.measurement (modeInterface.channel ["adc", "MODE", "middle"]) (.finite 0x3c)))) := by
  have hfirst : ((bus exact modeInterface).stateAfter (initial fun _ _ => 0) overlappingWrites).map
      (fun s => (s.log.map Prod.fst, s.calls.length)) = some ([0, 1], 2) := by decide +kernel
  obtain ⟨t, ht, hlength⟩ := Option.map_eq_some_iff.mp hfirst
  obtain ⟨horder, hcount⟩ := Prod.mk.inj hlength
  obtain ⟨s, hs, rfl⟩ : ∃ s, (bus exact modeInterface).stateAfter (initial fun _ _ => 0)
      (overlappingWrites ++ [.issue (.read "adc" "MODE" "middle")]) = some s ∧
        s = { t with calls := t.calls ++ [.fetching ⟨(modeWrite "middle" 0x3c).toTarget, "middle"⟩] } :=
    ⟨_, (EventLoop.stateAfter_append_singleton _).mpr ⟨t, ht, rfl⟩, rfl⟩
  obtain ⟨-, hissued, -, hmemory, -, hfields⟩ := writes_serialise modeInterface_fits hs
  -- the indices of the log say which writes they are
  have hlog : t.log = [(0, modeWrite "low" 0x5a), (1, modeWrite "middle" 0x3c)] := by
    obtain ⟨⟨i, w⟩, rest, hcons, rfl, hrest⟩ := List.map_eq_cons_iff.mp horder
    obtain ⟨⟨j, v⟩, rest, rfl, rfl, hnil⟩ := List.map_eq_cons_iff.mp hrest
    obtain rfl := List.map_eq_nil_iff.mp hnil
    have hwrites : t.log = [(0, w), (1, v)] := hcons
    obtain ⟨call, hcall, hw⟩ := hissued 0 w (by rw [hwrites]; exact List.mem_cons_self)
    obtain rfl := Option.some.inj hcall
    obtain ⟨call, hcall, hv⟩ := hissued 1 v
      (by rw [hwrites]; exact List.mem_cons_of_mem _ List.mem_cons_self)
    obtain rfl := Option.some.inj hcall
    rw [hwrites, ← Stage.waiting.inj hw, ← Stage.waiting.inj hv]
    rfl
  refine ⟨_, hs, ?_, ?_⟩
  · rw [show (modeWrite "low" 0x5a).pointer = (modeWrite "low" 0x5a).toTarget.pointer from rfl,
      hmemory "adc" "MODE" (modeWrite "low" 0x5a).toTarget rfl]
    have hboth : ∀ w ∈ [modeWrite "low" 0x5a, modeWrite "middle" 0x3c],
        decide (w.id = (modeWrite "low" 0x5a).toTarget.id) = true := by
      intro w hw
      rcases List.mem_cons.mp hw with rfl | hw
      · exact decide_eq_true rfl
      · obtain rfl := List.mem_singleton.mp hw
        exact decide_eq_true rfl
    rw [hlog, List.map_cons, List.map_cons, List.map_nil, List.filter_eq_self.mpr hboth,
      List.foldl_cons, List.foldl_cons, List.foldl_nil]
  · obtain ⟨field, n, hfield, -, -, -, hread⟩ := hfields 1 (modeWrite "middle" 0x3c)
      (by rw [hlog]; exact List.mem_cons_of_mem _ List.mem_cons_self) (by show "middle" ≠ ""; decide)
    obtain rfl : field = ⟨4, 8⟩ := (Except.ok.inj hfield).symm
    have hcall : (t.calls ++ [Stage.fetching ⟨(modeWrite "middle" 0x3c).toTarget, "middle"⟩])[2]? =
        some (.fetching ⟨(modeWrite "middle" 0x3c).toTarget, "middle"⟩) := by
      rw [List.getElem?_append_right hcount.le, hcount]
      rfl
    rw [hread [(0, modeWrite "low" 0x5a)] [] hlog (fun _ hq => absurd hq List.not_mem_nil) 2 hcall]
    rfl

end Instro.I2c
