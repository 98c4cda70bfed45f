import Instro.Mcc.ScanBuffer

/-!
# Who owns the scan buffer

The driver owns a buffer through its handle: while the handle is not 0 the buffer is live, and `stop`,
`close` or a scan that fails frees it. A `start` that passes its checks while the handle of another
buffer is there writes over it, and nothing can free that buffer any more.
-/

namespace Instro.Mcc

open Instro.Library

/-- The driver gets to write over the handle of a live buffer. -/
def Restarts (s : ScanSystem) (event : ScanEvent) : Prop :=
  ∃ handle scan, event = .start (.returns handle) scan ∧ s.memory.Offers handle ∧
    s.driver.memhandle ≠ 0 ∧ ∃ checked, s.driver.validate = .ok checked

/-- At most one buffer is live, and the handle is there exactly if one is. -/
structure Owner (s : ScanSystem) : Prop where
  single : s.memory.live.length ≤ 1
  handle : s.driver.memhandle ≠ 0 ↔ s.memory.live ≠ []

/-- Neither allocates nor frees. -/
def Quiet (actions : List ScanAction) : Prop :=
  ∀ action ∈ actions, (∀ kind size buffer, action ≠ .allocated kind size buffer) ∧
    ∀ buffer, action ≠ .freed buffer

/-- What a call can do to the buffer. -/
inductive BufferMoves (s : ScanSystem) : ScanEvent → List ScanAction → ScanSystem → Prop
  | keeps {event actions s'} (hmemory : s'.memory = s.memory)
      (hhandle : s'.driver.memhandle = s.driver.memhandle) (hquiet : Quiet actions)
      (hnot : ¬ Restarts s event) (hreleases : event = .close → s.driver.memhandle = 0) :
      BufferMoves s event actions s'
  | releases {event s' actions} (hhandle : s.driver.memhandle ≠ 0)
      (hnone : s'.driver.memhandle = 0)
      (hfree : ∀ buffer memory, s.memory.free s.driver.memhandle = some (buffer, memory) →
        s'.memory = memory ∧ actions = [.freed buffer])
      (hnot : ¬ Restarts s event) : BufferMoves s event actions s'
  | unallocated {scan actions s' checked} (hvalid : s.driver.validate = .ok checked)
      (hmemory : s'.memory = s.memory) (hnone : s'.driver.memhandle = 0) (hquiet : Quiet actions) :
      BufferMoves s (.start (.returns 0) scan) actions s'
  | fails {handle scan kind size e s' checked} (hvalid : s.driver.validate = .ok checked)
      (hhandle : handle ≠ 0) (hoffers : handle ∉ s.memory.live.map Prod.fst)
      (hmemory : s'.memory = ⟨s.memory.allocated + 1, s.memory.live⟩)
      (hnone : s'.driver.memhandle = 0) :
      BufferMoves s (.start (.returns handle) scan)
        [.allocated kind size s.memory.allocated, .freed s.memory.allocated, .raised e] s'
  | starts {handle scan kind size actions s' checked} (hvalid : s.driver.validate = .ok checked)
      (hhandle : handle ≠ 0) (hoffers : handle ∉ s.memory.live.map Prod.fst)
      (hmemory : s'.memory = s.memory.alloc handle) (hnew : s'.driver.memhandle = handle)
      (hquiet : Quiet actions) :
      BufferMoves s (.start (.returns handle) scan)
        (.allocated kind size s.memory.allocated :: actions) s'

section Moves

variable {fl : Rounding} {s s' : ScanSystem} {event : ScanEvent}

theorem quiet_raised (e : McError) : Quiet [.raised e] := by
  intro action haction
  rw [List.mem_singleton.mp haction]
  exact ⟨nofun, nofun⟩

theorem quiet_nil : Quiet [] := nofun

theorem not_restarts_of_ne (h : ∀ handle scan, event ≠ .start (.returns handle) scan) :
    ¬ Restarts s event := by
  rintro ⟨handle, scan, hevent, -⟩
  exact h handle scan hevent

/-- What follows a scan that has started leaves the handle alone. -/
theorem scanned_quiet (fl : Rounding) (d : ScanDriver) (sampleRate : PyFloat) (actualRate : ℤ) :
    (d.scanned fl sampleRate actualRate).1.memhandle = d.memhandle ∧
      Quiet (d.scanned fl sampleRate actualRate).2 := by
  unfold ScanDriver.scanned
  dsimp only
  split
  · exact ⟨rfl, quiet_raised _⟩
  · split
    · exact ⟨rfl, quiet_raised _⟩
    · refine ⟨rfl, ?_⟩
      dsimp only
      split_ifs
      · intro action haction
        rw [List.mem_singleton.mp haction]
        exact ⟨nofun, nofun⟩
      · exact quiet_nil

theorem freeBuffer_memhandle (s : ScanSystem) : s.freeBuffer.1.driver.memhandle = 0 := by
  unfold ScanSystem.freeBuffer
  dsimp only
  split <;> rfl

theorem freeBuffer_of_free {buffer : ℕ} {memory : Handles}
    (h : s.memory.free s.driver.memhandle = some (buffer, memory)) :
    s.freeBuffer.1.memory = memory ∧ s.freeBuffer.2 = [.freed buffer] := by
  unfold ScanSystem.freeBuffer
  rw [h]
  exact ⟨rfl, rfl⟩

theorem moves_start {handle : ℕ} {scan : ScanResult} (hoffers : s.memory.Offers handle) :
    BufferMoves s (.start (.returns handle) scan) (s.start fl (.returns handle) scan).2
      (s.start fl (.returns handle) scan).1 := by
  have hreset : s.driver.reset.validate = s.driver.validate := rfl
  unfold ScanSystem.start
  dsimp only
  rw [hreset]
  cases hvalid : s.driver.validate with
  | error e =>
    refine .keeps rfl rfl (quiet_raised _) ?_ nofun
    rintro ⟨handle', scan', -, -, -, checked, hchecked⟩
    rw [hvalid] at hchecked
    cases hchecked
  | ok checked =>
    obtain ⟨kind, size, sampleRate⟩ := checked
    dsimp only
    by_cases hzero : handle = 0
    · subst hzero
      rw [if_pos rfl]
      exact .unallocated hvalid rfl rfl (quiet_raised _)
    · rw [if_neg hzero]
      have hfresh := hoffers.resolve_left hzero
      unfold ScanSystem.scanInto
      cases hscan : ScanDriver.daqInScan sampleRate scan with
      | error e =>
        have hfree := freeBuffer_of_free (s := ⟨{ s.driver.reset with
          bufferSize := size, memhandle := handle }, s.memory.alloc handle⟩)
          (Handles.free_alloc hfresh)
        dsimp only
        rw [hfree.2]
        exact .fails hvalid hzero hfresh hfree.1 (freeBuffer_memhandle _)
      | ok actualRate =>
        obtain ⟨hhandle, hquiet⟩ := scanned_quiet fl
          { s.driver.reset with bufferSize := size, memhandle := handle } sampleRate actualRate
        exact .starts hvalid hzero hfresh rfl hhandle hquiet

theorem moves_stop (hevent : event = .stop ∨ event = .close) {s' : ScanSystem}
    (hmemory : s'.memory = s.stop.1.memory)
    (hhandle : s'.driver.memhandle = s.stop.1.driver.memhandle) :
    BufferMoves s event s.stop.2 s' := by
  have hnot : ¬ Restarts s event := not_restarts_of_ne (by rcases hevent with rfl | rfl <;> nofun)
  unfold ScanSystem.stop at hmemory hhandle ⊢
  dsimp only at hmemory hhandle ⊢
  by_cases hzero : s.driver.memhandle = 0
  · rw [if_neg (not_not.mpr hzero)] at hmemory hhandle ⊢
    exact .keeps hmemory hhandle quiet_nil hnot fun _ => hzero
  · rw [if_pos hzero] at hmemory hhandle ⊢
    refine .releases hzero (hhandle.trans (freeBuffer_memhandle _)) ?_ hnot
    intro buffer memory hfree
    have hfreed := freeBuffer_of_free (s := ⟨{ s.driver with timestamper := none }, s.memory⟩) hfree
    exact ⟨hmemory.trans hfreed.1, hfreed.2⟩

theorem moves_of_step (h : ((scanDriver fl).step s event).2 = some s') :
    BufferMoves s event ((scanDriver fl).step s event).1 s' := by
  unfold scanDriver ScanSystem.step at h ⊢
  cases event with
  | «open» info =>
    have hnot : ¬ Restarts s (.open info) := not_restarts_of_ne nofun
    cases info with
    | none =>
      obtain rfl := Option.some.inj h
      exact .keeps rfl rfl (quiet_raised _) hnot nofun
    | some info =>
      obtain rfl := Option.some.inj h
      exact .keeps rfl rfl quiet_nil hnot nofun
  | configure channels hwTimingConfig =>
    obtain rfl := Option.some.inj h
    exact .keeps rfl rfl quiet_nil (not_restarts_of_ne nofun) nofun
  | start allocation scan =>
    cases allocation with
    | raises =>
      obtain rfl := Option.some.inj h
      have hnot : ¬ Restarts s (.start .raises scan) := not_restarts_of_ne nofun
      unfold ScanSystem.start
      dsimp only
      cases hvalid : s.driver.reset.validate with
      | error e => exact .keeps rfl rfl (quiet_raised _) hnot nofun
      | ok checked => exact .keeps rfl rfl (quiet_raised _) hnot nofun
    | returns handle =>
      dsimp only at h ⊢
      by_cases hoffers : s.memory.Offers handle
      · rw [if_pos hoffers] at h ⊢
        obtain rfl := Option.some.inj h
        exact moves_start hoffers
      · rw [if_neg hoffers] at h
        cases h
  | stop =>
    obtain rfl := Option.some.inj h
    exact moves_stop (.inl rfl) rfl rfl
  | close =>
    obtain rfl := Option.some.inj h
    exact moves_stop (.inr rfl) rfl rfl

end Moves

/-! ## The invariant -/

/-- The handle is the one of the only live buffer; each other one there was has been freed once. -/
structure Owned (actions : List ScanAction) (s : ScanSystem) : Prop where
  owner : s.driver.memhandle = 0 ∧ s.memory.live = [] ∨
    s.driver.memhandle ≠ 0 ∧ ∃ buffer, s.memory.live = [(s.driver.memhandle, buffer)]
  made : ∀ {kind size buffer}, .allocated kind size buffer ∈ actions → buffer < s.memory.allocated
  lives : ∀ buffer ∈ s.memory.live.map Prod.snd, buffer < s.memory.allocated
  freed : ∀ buffer, actions.count (.freed buffer) =
    if buffer < s.memory.allocated ∧ buffer ∉ s.memory.live.map Prod.snd then 1 else 0

theorem owned_initial (bufferMultiplier : ℕ) : Owned [] (.initial bufferMultiplier) where
  owner := .inl ⟨rfl, rfl⟩
  made h := nomatch h
  lives _ h := nomatch h
  freed buffer := (if_neg fun h => Nat.not_lt_zero buffer h.1).symm

section Invariant

variable {history actions : List ScanAction} {s s' : ScanSystem} {event : ScanEvent}

theorem Owned.visible (h : Owned history s) : Owner s := by
  rcases h.owner with ⟨hzero, hlive⟩ | ⟨hne, buffer, hlive⟩
  · exact ⟨by simp [hlive], by simp [hzero, hlive]⟩
  · exact ⟨by simp [hlive], by simp [hne, hlive]⟩

theorem Quiet.count_freed (h : Quiet actions) (buffer : ℕ) : actions.count (.freed buffer) = 0 :=
  List.count_eq_zero.mpr fun hmem => (h _ hmem).2 buffer rfl

theorem Owned.same (h : Owned history s) (hmemory : s'.memory = s.memory)
    (hhandle : s'.driver.memhandle = s.driver.memhandle) (hquiet : Quiet actions) :
    Owned (history ++ actions) s' := by
  constructor
  · rw [hhandle, hmemory]
    exact h.owner
  · intro kind size buffer hmem
    rw [hmemory]
    rcases List.mem_append.mp hmem with hmem | hmem
    · exact h.made hmem
    · exact absurd rfl ((hquiet _ hmem).1 kind size buffer)
  · rw [hmemory]
    exact h.lives
  · intro buffer
    rw [List.count_append, hquiet.count_freed, hmemory]
    exact h.freed buffer

/-- **Step lemma.** A call that does not write over a handle keeps the invariant. -/
theorem Owned.step (h : Owned history s) (hmoves : BufferMoves s event actions s')
    (hnot : ¬ Restarts s event) : Owned (history ++ actions) s' := by
  cases hmoves with
  | keeps hmemory hhandle hquiet => exact h.same hmemory hhandle hquiet
  | releases hhandle hnone hfree =>
    obtain ⟨-, buffer, hlive⟩ := h.owner.resolve_left fun hzero => hhandle hzero.1
    obtain ⟨hmemory, rfl⟩ := hfree buffer ⟨s.memory.allocated, []⟩ (by
      have hsingle := Handles.free_singleton s.memory.allocated s.driver.memhandle buffer
      rw [← hlive] at hsingle
      exact hsingle)
    have hbuffer : buffer < s.memory.allocated := h.lives buffer (by simp [hlive])
    constructor
    · exact .inl ⟨hnone, by rw [hmemory]⟩
    · intro kind size buffer' hmem
      rw [hmemory]
      rcases List.mem_append.mp hmem with hmem | hmem
      · exact h.made hmem
      · simp at hmem
    · rw [hmemory]
      exact fun _ hmem => nomatch hmem
    · intro buffer'
      rw [List.count_append, h.freed, hlive, hmemory]
      by_cases heq : buffer' = buffer
      · subst heq
        simp [hbuffer]
      · simp [heq, Ne.symm heq]
  | unallocated hvalid hmemory hnone hquiet =>
    have hzero : s.driver.memhandle = 0 := by
      by_contra hne
      exact hnot ⟨0, _, rfl, .inl rfl, hne, _, hvalid⟩
    exact h.same hmemory (hnone.trans hzero.symm) hquiet
  | fails hvalid hhandle hoffers hmemory hnone =>
    have hzero : s.driver.memhandle = 0 := by
      by_contra hne
      exact hnot ⟨_, _, rfl, .inr hoffers, hne, _, hvalid⟩
    have hlive := (h.owner.resolve_right fun hne => hne.1 hzero).2
    constructor
    · exact .inl ⟨hnone, by rw [hmemory]; exact hlive⟩
    · intro kind size buffer hmem
      rw [hmemory]
      rcases List.mem_append.mp hmem with hmem | hmem
      · exact Nat.lt_succ_of_lt (h.made hmem)
      · simp only [List.mem_cons, ScanAction.allocated.injEq, reduceCtorEq, List.not_mem_nil,
          or_false] at hmem
        rw [hmem.2.2]
        exact Nat.lt_succ_self _
    · rw [hmemory, hlive]
      exact fun _ hmem => nomatch hmem
    · intro buffer
      rw [List.count_append, h.freed, hmemory, hlive]
      by_cases heq : buffer = s.memory.allocated
      · simp [heq]
      · have hcount : s.memory.allocated ≠ buffer := Ne.symm heq
        have hlt : buffer < s.memory.allocated + 1 ↔ buffer < s.memory.allocated := by omega
        simp [hcount, hlt]
  | @starts _ _ kind size actions _ _ hvalid hhandle hoffers hmemory hnew hquiet =>
    have hzero : s.driver.memhandle = 0 := by
      by_contra hne
      exact hnot ⟨_, _, rfl, .inr hoffers, hne, _, hvalid⟩
    have hlive := (h.owner.resolve_right fun hne => hne.1 hzero).2
    have hlive' : s'.memory.live = [(s'.driver.memhandle, s.memory.allocated)] := by
      rw [hmemory, hnew]
      unfold Handles.alloc
      rw [hlive]
    have hallocated : s'.memory.allocated = s.memory.allocated + 1 := by
      rw [hmemory]
      rfl
    constructor
    · exact .inr ⟨hnew ▸ hhandle, _, hlive'⟩
    · intro kind' size' buffer hmem
      rw [hallocated]
      rcases List.mem_append.mp hmem with hmem | hmem
      · exact Nat.lt_succ_of_lt (h.made hmem)
      · rcases List.mem_cons.mp hmem with heq | hmem
        · rw [(ScanAction.allocated.inj heq).2.2]
          exact Nat.lt_succ_self _
        · exact absurd rfl ((hquiet _ hmem).1 kind' size' buffer)
    · intro buffer hmem
      rw [hlive'] at hmem
      rw [hallocated, List.mem_singleton.mp hmem]
      exact Nat.lt_succ_self _
    · intro buffer
      have hcount : (.allocated kind size s.memory.allocated :: actions).count (.freed buffer) = 0 := by
        simp [hquiet.count_freed]
      rw [List.count_append, h.freed, hlive', hallocated, hlive, hcount]
      by_cases heq : buffer = s.memory.allocated
      · simp [heq]
      · have hlt : buffer < s.memory.allocated + 1 ↔ buffer < s.memory.allocated := by omega
        simp [heq, hlt]

/-- A call that writes over a handle leaves a live buffer without one, or two live buffers. -/
theorem not_owner_of_restarts (h : Owned history s) (hmoves : BufferMoves s event actions s')
    (hrestarts : Restarts s event) : ¬ Owner s' := by
  obtain ⟨-, -, -, -, hne, -⟩ := id hrestarts
  obtain ⟨-, buffer, hlive⟩ := h.owner.resolve_left fun hzero => hne hzero.1
  rintro ⟨hsingle, hhandle⟩
  cases hmoves with
  | keeps hmemory hhandle' hquiet hnot => exact hnot hrestarts
  | releases hhandle' hnone hfree hnot => exact hnot hrestarts
  | unallocated hvalid hmemory hnone hquiet =>
    rw [hmemory, hlive] at hhandle
    exact hhandle.mpr (List.cons_ne_nil _ _) hnone
  | fails hvalid hhandle' hoffers hmemory hnone =>
    rw [hmemory, hlive] at hhandle
    exact hhandle.mpr (List.cons_ne_nil _ _) hnone
  | starts hvalid hhandle' hoffers hmemory hnew hquiet =>
    rw [hmemory] at hsingle
    unfold Handles.alloc at hsingle
    rw [hlive] at hsingle
    simp at hsingle

end Invariant

/-! ## Runs -/

/-- Over the whole run at most one buffer is live and the handle says whether one is, and when a `close`
returns each buffer there was has been freed once. -/
structure OwnsBuffers (fl : Rounding) (bufferMultiplier : ℕ) (run : List ScanEvent) : Prop where
  owner : ∀ pre s, pre <+: run →
    (scanDriver fl).stateAfter (.initial bufferMultiplier) pre = some s → Owner s
  freedOnce : ∀ pre s, pre ++ [.close] <+: run →
    (scanDriver fl).stateAfter (.initial bufferMultiplier) (pre ++ [.close]) = some s →
      ∀ kind size buffer,
        .allocated kind size buffer ∈
            (scanDriver fl).actions (.initial bufferMultiplier) (pre ++ [.close]) →
          ((scanDriver fl).actions (.initial bufferMultiplier) (pre ++ [.close])).count
            (.freed buffer) = 1

section Runs

variable {fl : Rounding} {bufferMultiplier : ℕ} {run : List ScanEvent} {s : ScanSystem}

/-- **Run lemma.** A run that writes over no handle keeps the invariant. -/
theorem owned_reached
    (hrun : (scanDriver fl).Along (fun s event => ¬ Restarts s event) (.initial bufferMultiplier) run)
    (hs : (scanDriver fl).stateAfter (.initial bufferMultiplier) run = some s) :
    Owned ((scanDriver fl).actions (.initial bufferMultiplier) run) s := by
  induction run using List.reverseRecOn generalizing s with
  | nil =>
    obtain rfl := Option.some.inj hs
    exact owned_initial bufferMultiplier
  | append_singleton pre event ih =>
    obtain ⟨t, ht, hstep⟩ := (EventLoop.stateAfter_append_singleton _).mp hs
    have howned := ih (hrun.mono _ (List.prefix_append _ _)) ht
    rw [EventLoop.actions_append _ ht, EventLoop.actions_cons_some _ hstep, EventLoop.actions_nil,
      List.append_nil]
    exact howned.step (moves_of_step hstep) (hrun pre event t List.prefix_rfl ht)

/-- After `close` the driver has no handle. -/
theorem memhandle_close (s : ScanSystem) : s.close.1.driver.memhandle = 0 := by
  unfold ScanSystem.close ScanSystem.stop
  dsimp only
  split_ifs with hzero
  · exact freeBuffer_memhandle _
  · exact not_not.mp hzero

/-- **Scan buffers.** The driver owns its buffers over a run exactly if no `start` of the run gets to
write over the handle of a live one. -/
theorem owns_buffers_iff (fl : Rounding) (bufferMultiplier : ℕ) (run : List ScanEvent) :
    OwnsBuffers fl bufferMultiplier run ↔
      (scanDriver fl).Along (fun s event => ¬ Restarts s event) (.initial bufferMultiplier) run := by
  constructor
  · intro howns
    induction run using List.reverseRecOn with
    | nil => exact EventLoop.along_nil _ _ _
    | append_singleton run event ih =>
      have hbefore := ih ⟨fun pre s hpre => howns.owner pre s (hpre.trans (List.prefix_append _ _)),
        fun pre s hpre => howns.freedOnce pre s (hpre.trans (List.prefix_append _ _))⟩
      rw [EventLoop.along_append_singleton]
      refine ⟨hbefore, ?_⟩
      intro t ht hrestarts
      obtain ⟨handle, scan, rfl, hoffers, -⟩ := id hrestarts
      have hstep : ((scanDriver fl).step t (.start (.returns handle) scan)).2 =
          some (t.start fl (.returns handle) scan).1 := by
        show (if t.memory.Offers handle then _ else _ : List ScanAction × _).2 = _
        rw [if_pos hoffers]
      refine not_owner_of_restarts (owned_reached hbefore ht) (moves_of_step hstep) hrestarts ?_
      apply howns.owner _ _ List.prefix_rfl
      exact (EventLoop.stateAfter_append_singleton _).mpr ⟨t, ht, hstep⟩
  · intro hrun
    constructor
    · intro pre s hpre hs
      exact (owned_reached (hrun.mono _ hpre) hs).visible
    · intro pre s hpre hs kind size buffer hmem
      have howned := owned_reached (hrun.mono _ hpre) hs
      obtain ⟨t, -, hstep⟩ := (EventLoop.stateAfter_append_singleton _).mp hs
      obtain rfl := Option.some.inj hstep
      have hlive := (howned.owner.resolve_right fun hne => hne.1 (memhandle_close t)).2
      rw [howned.freed, hlive]
      exact if_pos ⟨howned.made hmem, List.not_mem_nil⟩

end Runs

/-! ## A second start -/

/-- A device that scans into 16 bits, with one channel. -/
def startTwice : List ScanEvent :=
  [.open (some ⟨true, [.analog], false, 16⟩), .configure [⟨some 0, none, some 5⟩] (some ⟨.finite 1000, 100⟩),
    .start (.returns 1) (.returns 1000), .start (.returns 2) (.returns 1000), .stop, .close]

/-- The buffer of the first scan is never freed, and two are live until `stop`. -/
theorem second_start_leaks : ¬ OwnsBuffers exact 2 startTwice ∧
    (scanDriver exact).actions (.initial 2) startTwice =
      [.allocated .bits16 200 0, .allocated .bits16 200 1, .freed 1] := by
  refine ⟨fun h => ?_, by decide +kernel⟩
  have hfreed := h.freedOnce (startTwice.take 5) _ List.prefix_rfl rfl .bits16 200 0
    (by decide +kernel)
  exact absurd hfreed (by decide +kernel)

end Instro.Mcc
