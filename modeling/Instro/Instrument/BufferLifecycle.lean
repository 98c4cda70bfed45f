import Instro.Instrument.Lifecycle

/-!
# The channel buffer over the lifecycle

A running daemon needs a channel buffer that is open and registered once. `stop()` drops the buffer
it closes, but only if the thread is still alive when it looks: a `close()` that comes after the
thread has left closes the buffer and keeps it, and the next `start()` takes it up again.
-/

namespace Instro.Instrument

open Instro.Library

/-- While the daemon is alive its channel buffer exists, is open, and is registered once. -/
def Healthy (s : State) : Prop :=
  s.thread = .alive → ∃ b, s.channelBuffer = some b ∧ .channelBuffer b ∉ s.closed ∧
    s.publishers.count (.channelBuffer b) = 1

/-- The instrument still holds a channel buffer that has been closed. -/
def Stranded (s : State) : Prop :=
  ∃ b, s.channelBuffer = some b ∧ .channelBuffer b ∈ s.closed

/-- A `close()` finds the daemon gone and closes the channel buffer it left. The publishers before
one that raises are closed. -/
def Strands (s : State) (event : Event) : Prop :=
  ∃ failure b, event = .closeStops failure ∧ s.caller = .closing ∧ s.thread ≠ .alive ∧
    s.channelBuffer = some b ∧
    .channelBuffer b ∈ s.publishers.take (failure.publisher.getD s.publishers.length)

/-- An event of the run strands the buffer of the state the events before it lead to. -/
def StrandedBy (kind : Kind) (n : Nat) (pre : List Event) (event : Event) : Prop :=
  ∃ t, (lifecycle kind).stateAfter (initial n) pre = some t ∧ Strands t event

/-- A `start()` of the run comes after such an event. -/
def RestartsStranded (kind : Kind) (n : Nat) (run : List Event) : Prop :=
  ∃ pre event mid, pre ++ event :: mid ++ [.start] <+: run ∧ StrandedBy kind n pre event ∧
    ((lifecycle kind).stateAfter (initial n) (pre ++ event :: mid ++ [.start])).isSome = true

/-! ## What every state keeps -/

/-- The publishers hold the current channel buffer, once, and no other; a daemon that runs or is
waited for has one. -/
structure Sound (s : State) : Prop where
  registered : ∀ b, s.channelBuffer = some b → s.publishers.count (.channelBuffer b) = 1
  current : ∀ b, .channelBuffer b ∈ s.publishers → s.channelBuffer = some b
  made : ∀ b, s.channelBuffer = some b ∨ .channelBuffer b ∈ s.closed → b < s.created
  running : s.thread = .alive → s.channelBuffer.isSome = true
  waiting : ∀ c, s.caller = .joining c → s.channelBuffer.isSome = true

section Invariant

variable {kind : Kind} {s s' : State} {event : Event}

theorem sound_initial (n : Nat) : Sound (initial n) where
  registered _ h := nomatch h
  current b h := by simp [initial] at h
  made b h := by simp [initial] at h
  running h := nomatch h
  waiting _ h := nomatch h

theorem setupChannelBuffer_of_none (hs : Sound s) (hnone : s.channelBuffer = none) :
    s.setupChannelBuffer = { s with
      channelBuffer := some s.created
      created := s.created + 1
      publishers := s.publishers ++ [.channelBuffer s.created] } := by
  have hnew : .channelBuffer s.created ∉ s.publishers := by
    intro hmem
    rw [hs.current _ hmem] at hnone
    cases hnone
  unfold State.setupChannelBuffer
  rw [hnone]
  exact if_neg hnew

theorem setupChannelBuffer_of_some (hs : Sound s) {b : Nat} (hb : s.channelBuffer = some b) :
    s.setupChannelBuffer = s := by
  have hmem : .channelBuffer b ∈ s.publishers := by
    rw [← List.count_pos_iff, hs.registered b hb]
    exact Nat.one_pos
  unfold State.setupChannelBuffer
  rw [hb]
  dsimp only
  rw [hb]
  exact if_pos hmem

theorem Sound.setupChannelBuffer (hs : Sound s) : Sound s.setupChannelBuffer ∧
    s.setupChannelBuffer.channelBuffer.isSome = true := by
  cases hbuffer : s.channelBuffer with
  | some b =>
    rw [setupChannelBuffer_of_some hs hbuffer]
    exact ⟨hs, by rw [hbuffer]; rfl⟩
  | none =>
    rw [setupChannelBuffer_of_none hs hbuffer]
    have hnew : ∀ b, .channelBuffer b ∉ s.publishers := by
      intro b hmem
      rw [hs.current b hmem] at hbuffer
      cases hbuffer
    refine ⟨⟨?_, ?_, ?_, fun _ => rfl, fun _ _ => rfl⟩, rfl⟩
    · intro b hb
      obtain rfl := Option.some.inj hb
      rw [List.count_append, List.count_eq_zero_of_not_mem (hnew _), List.count_singleton_self]
    · intro b hmem
      rcases List.mem_append.mp hmem with hmem | hmem
      · exact absurd hmem (hnew b)
      · rw [List.mem_singleton, Publisher.channelBuffer.injEq] at hmem
        rw [hmem]
    · rintro b (hb | hb)
      · obtain rfl := Option.some.inj hb
        exact Nat.lt_succ_self _
      · exact Nat.lt_succ_of_lt (hs.made b (.inr hb))

/-- Closing publishers, and what the fields no invariant reads become, keeps the invariant. -/
theorem Sound.close (hs : Sound s) {ps : List Publisher} (hps : ps ⊆ s.publishers) (c : Bool) :
    Sound { s with closed := s.closed ++ ps, connected := c, caller := .idle } where
  registered := hs.registered
  current := hs.current
  made b hb := by
    rcases hb with hb | hb
    · exact hs.made b (.inl hb)
    · rcases List.mem_append.mp hb with hb | hb
      · exact hs.made b (.inr hb)
      · exact hs.made b (.inl (hs.current b (hps hb)))
  running := hs.running
  waiting _ h := nomatch h

/-- Dropping the channel buffer once its thread has left. -/
theorem Sound.dropChannelBuffer (hs : Sound s) {b : Nat} (hb : s.channelBuffer = some b)
    (hthread : s.thread = .exited) :
    Sound { s.dropChannelBuffer b with caller := .idle } where
  registered _ h := nomatch h
  current b' hmem := by
    have hcurrent := hs.current b' (List.mem_of_mem_erase hmem)
    obtain rfl := Option.some.inj (hb.symm.trans hcurrent)
    have hcount : (s.publishers.erase (.channelBuffer b)).count (.channelBuffer b) = 0 := by
      rw [List.count_erase_self, hs.registered b hb]
    exact absurd hmem (List.count_eq_zero.mp hcount)
  made b' hb' := by
    rcases hb' with hb' | hb'
    · cases hb'
    · rcases List.mem_append.mp hb' with hb' | hb'
      · exact hs.made b' (.inr hb')
      · rw [List.mem_singleton, Publisher.channelBuffer.injEq] at hb'
        rw [hb']
        exact hs.made b (.inl hb)
  running h := by
    have halive : s.thread = .alive := h
    rw [hthread] at halive
    cases halive
  waiting _ h := nomatch h

theorem sound_step (hs : Sound s) (h : Takes kind s event s') : Sound s' := by
  cases h with
  | «open» c hcaller => exact ⟨by simpa using hs.registered, by simpa using hs.current,
      by simpa using hs.made, by simpa using hs.running, by simpa using hs.waiting⟩
  | start hcaller hthread hkind =>
    obtain ⟨hsetup, hsome⟩ := hs.setupChannelBuffer
    exact ⟨hsetup.registered, hsetup.current, hsetup.made, fun _ => hsome, fun _ _ => hsome⟩
  | startIdle hcaller h => exact hs
  | stop hcaller hthread =>
    exact ⟨hs.registered, hs.current, hs.made, hs.running, fun _ _ => hs.running hthread⟩
  | stopIdle hcaller hthread => exact hs
  | close hcaller =>
    cases kind <;> exact ⟨hs.registered, hs.current, hs.made, hs.running, nofun⟩
  | closeJoins failure hcaller hthread =>
    exact ⟨hs.registered, hs.current, hs.made, hs.running, fun _ _ => hs.running hthread⟩
  | closeIdle failure _ hcaller hthread h =>
    obtain ⟨c, rfl⟩ := closePublishers_eq h
    exact hs.close (List.take_subset _ _) c
  | joined failure inClose _ hcaller hthread h =>
    obtain ⟨b, hb⟩ := Option.isSome_iff_exists.mp (hs.waiting inClose hcaller)
    obtain ⟨n, c, rfl⟩ := joined_of_some hb h
    exact (hs.dropChannelBuffer hb hthread).close (List.take_subset n _) c
  | daemonExits cause hthread h =>
    exact ⟨hs.registered, hs.current, hs.made, nofun, hs.waiting⟩

end Invariant

/-! ## How a buffer is stranded, and what a restart makes of it -/

section Stranded

variable {kind : Kind} {s s' : State} {event : Event}

/-- The buffer is stranded, and no thread is alive or waited for. -/
def Left (s : State) : Prop :=
  Stranded s ∧ s.thread ≠ .alive ∧ ∀ c, s.caller ≠ .joining c

theorem healthy_iff (hs : Sound s) : Healthy s ↔ ¬(s.thread = .alive ∧ Stranded s) := by
  constructor
  · rintro h ⟨halive, b, hb, hclosed⟩
    obtain ⟨b', hb', hopen, -⟩ := h halive
    obtain rfl := Option.some.inj (hb.symm.trans hb')
    exact hopen hclosed
  · intro h halive
    obtain ⟨b, hb⟩ := Option.isSome_iff_exists.mp (hs.running halive)
    exact ⟨b, hb, fun hclosed => h ⟨halive, b, hb, hclosed⟩, hs.registered b hb⟩

/-- A fresh buffer is not closed; `stop()` drops the one it closes. So only `close()` strands. -/
theorem strands_of_step (hs : Sound s) (hnot : ¬Stranded s) (h : Takes kind s event s')
    (hs' : Stranded s') : Strands s event := by
  obtain ⟨b, hb, hclosed⟩ := hs'
  cases h with
  | «open» c hcaller =>
    rw [open_channelBuffer] at hb
    rw [open_closed] at hclosed
    exact absurd ⟨b, hb, hclosed⟩ hnot
  | start hcaller hthread hkind =>
    cases hbuffer : s.channelBuffer with
    | some b' =>
      rw [setupChannelBuffer_of_some hs hbuffer] at hb hclosed
      exact absurd ⟨b, hb, hclosed⟩ hnot
    | none =>
      rw [setupChannelBuffer_of_none hs hbuffer] at hb hclosed
      obtain rfl := Option.some.inj hb
      exact absurd (hs.made _ (.inr hclosed)) (Nat.lt_irrefl _)
  | startIdle hcaller h => exact absurd ⟨b, hb, hclosed⟩ hnot
  | stop hcaller hthread => exact absurd ⟨b, hb, hclosed⟩ hnot
  | stopIdle hcaller hthread => exact absurd ⟨b, hb, hclosed⟩ hnot
  | close hcaller =>
    refine absurd ⟨b, ?_, ?_⟩ hnot
    · cases kind <;> exact hb
    · cases kind <;> exact hclosed
  | closeJoins failure hcaller hthread => exact absurd ⟨b, hb, hclosed⟩ hnot
  | closeIdle failure _ hcaller hthread h =>
    obtain ⟨c, rfl⟩ := closePublishers_eq h
    rcases List.mem_append.mp hclosed with hclosed | hclosed
    · exact absurd ⟨b, hb, hclosed⟩ hnot
    · exact ⟨failure, b, rfl, hcaller, hthread, hb, hclosed⟩
  | joined failure inClose _ hcaller hthread h =>
    obtain ⟨b', hb'⟩ := Option.isSome_iff_exists.mp (hs.waiting inClose hcaller)
    obtain ⟨n, c, rfl⟩ := joined_of_some hb' h
    cases hb
  | daemonExits cause hthread h => exact absurd ⟨b, hb, hclosed⟩ hnot

theorem left_of_strands (hstrands : Strands s event) (h : Takes kind s event s') : Left s' := by
  obtain ⟨failure, b, rfl, -, hthread, hb, hmem⟩ := hstrands
  cases h with
  | closeJoins _ _ halive => exact absurd halive hthread
  | closeIdle _ _ _ _ h =>
    obtain ⟨c, rfl⟩ := closePublishers_eq h
    exact ⟨⟨b, hb, List.mem_append_right _ hmem⟩, hthread, nofun⟩

/-- A stranded buffer stays until a `start()` takes it up again. -/
theorem left_step (hs : Sound s) (hleft : Left s) (h : Takes kind s event s') :
    Left s' ∨ event = .start ∧ s'.thread = .alive ∧ Stranded s' := by
  obtain ⟨⟨b, hb, hclosed⟩, hthread, hcaller'⟩ := hleft
  have hstay : Left s := ⟨⟨b, hb, hclosed⟩, hthread, hcaller'⟩
  cases h with
  | «open» c hcaller =>
    refine .inl ⟨⟨b, ?_, ?_⟩, ?_, ?_⟩
    · rw [open_channelBuffer, hb]
    · rwa [open_closed]
    · rwa [open_thread]
    · rwa [open_caller]
  | start hcaller _ hkind =>
    refine .inr ⟨rfl, rfl, b, ?_, ?_⟩
    · show s.setupChannelBuffer.channelBuffer = some b
      rw [setupChannelBuffer_of_some hs hb, hb]
    · show .channelBuffer b ∈ s.setupChannelBuffer.closed
      rwa [setupChannelBuffer_of_some hs hb]
  | startIdle hcaller h => exact .inl hstay
  | stop hcaller halive => exact absurd halive hthread
  | stopIdle hcaller _ => exact .inl hstay
  | close hcaller =>
    cases kind <;> exact .inl ⟨⟨b, hb, hclosed⟩, hthread, nofun⟩
  | closeJoins failure hcaller halive => exact absurd halive hthread
  | closeIdle failure _ hcaller _ h =>
    obtain ⟨c, rfl⟩ := closePublishers_eq h
    exact .inl ⟨⟨b, hb, List.mem_append_left _ hclosed⟩, hthread, nofun⟩
  | joined failure inClose _ hcaller _ h => exact absurd hcaller (hcaller' inClose)
  | daemonExits cause halive h => exact absurd halive hthread

/-- Without tags to poll there is never a channel buffer. -/
theorem unpolled_step (hkind : kind = .etherNetIPDevice false) (hnone : s.channelBuffer = none)
    (h : Takes kind s event s') : s'.channelBuffer = none := by
  subst hkind
  cases h with
  | «open» c hcaller => rw [open_channelBuffer, hnone]
  | start hcaller hthread hkind => exact absurd rfl hkind
  | startIdle hcaller h => exact hnone
  | stop hcaller hthread => exact hnone
  | stopIdle hcaller hthread => exact hnone
  | close hcaller => exact hnone
  | closeJoins failure hcaller hthread => exact hnone
  | closeIdle failure _ hcaller hthread h =>
    obtain ⟨c, rfl⟩ := closePublishers_eq h
    exact hnone
  | joined failure inClose _ hcaller hthread h =>
    unfold State.joined at h
    rw [hnone] at h
    obtain rfl := Option.some.inj h
    rfl
  | daemonExits cause hthread h => exact hnone

end Stranded

/-! ## Runs -/

section Runs

variable {kind : Kind} {n : Nat} {run : List Event} {s t : State}

/-- What holds of the start and is kept by the steps of sound states holds in every state reached. -/
theorem reached_induction {P : List Event → State → Prop} (h0 : P [] (initial n))
    (hstep : ∀ run t event t', Sound t → P run t → Takes kind t event t' →
      P (run ++ [event]) t')
    (h : (lifecycle kind).stateAfter (initial n) run = some s) : Sound s ∧ P run s := by
  refine (lifecycle kind).stateAfter_induction (P := fun run s => Sound s ∧ P run s)
    ⟨sound_initial n, h0⟩ ?_ h
  rintro run t event t' ⟨hsound, ht⟩ hstep'
  have htakes : Takes kind t event t' := takes_of_step hstep'
  exact ⟨sound_step hsound htakes, hstep run t event t' hsound ht htakes⟩

theorem sound_reached (h : (lifecycle kind).stateAfter (initial n) run = some s) : Sound s :=
  (reached_induction (P := fun _ _ => True) trivial (fun _ _ _ _ _ _ _ => trivial) h).1

/-- From a stranded buffer, a run with a `start()` passes through an unhealthy state. -/
theorem unhealthy_of_left (hkind : kind ≠ .etherNetIPDevice false) {mid : List Event}
    (hsound : Sound s) (hleft : Left s)
    (h : ((lifecycle kind).stateAfter s (mid ++ [.start])).isSome = true) :
    ∃ pre u, pre <+: mid ++ [.start] ∧ (lifecycle kind).stateAfter s pre = some u ∧
      ¬Healthy u := by
  induction mid generalizing s with
  | nil =>
    obtain ⟨u, hu⟩ := Option.isSome_iff_exists.mp h
    obtain ⟨t, ht, htu⟩ := (lifecycle kind).stateAfter_append_singleton.mp hu
    obtain rfl := Option.some.inj ht
    have htakes : Takes kind s .start u := takes_of_step htu
    refine ⟨[] ++ [.start], u, List.prefix_rfl, hu, ?_⟩
    rw [healthy_iff (sound_step hsound htakes), not_not]
    rcases left_step hsound hleft htakes with hleft' | ⟨-, halive, hstranded⟩
    · exfalso
      cases htakes with
      | start hcaller hthread hkind => exact hleft'.2.1 rfl
      | startIdle hcaller h =>
        rcases h with halive | hunpolled
        · exact hleft.2.1 halive
        · exact hkind hunpolled
    · exact ⟨halive, hstranded⟩
  | cons event mid ih =>
    rw [List.cons_append, EventLoop.stateAfter_cons] at h
    obtain ⟨u, hu⟩ := Option.isSome_iff_exists.mp h
    obtain ⟨t, ht, htu⟩ := Option.bind_eq_some_iff.mp hu
    have htakes : Takes kind s event t := takes_of_step ht
    have hsound' := sound_step hsound htakes
    rcases left_step hsound hleft htakes with hleft' | ⟨-, halive, hstranded⟩
    · obtain ⟨pre, v, hpre, hv, hunhealthy⟩ := ih hsound' hleft' (by rw [htu]; rfl)
      refine ⟨event :: pre, v, List.cons_prefix_cons.mpr ⟨rfl, hpre⟩, ?_, hunhealthy⟩
      rw [EventLoop.stateAfter_cons, ht]
      exact hv
    · refine ⟨[event], t, ⟨mid ++ [.start], rfl⟩, ?_, ?_⟩
      · rw [EventLoop.stateAfter_cons, ht]
        rfl
      · rw [healthy_iff hsound', not_not]
        exact ⟨halive, hstranded⟩

/-- Where a stranded buffer of a reached state comes from; if its daemon is alive, a `start()` came
in between. -/
theorem origin_of_stranded (h : (lifecycle kind).stateAfter (initial n) run = some s) :
    (Stranded s → ∃ pre event mid, run = pre ++ event :: mid ∧ StrandedBy kind n pre event) ∧
    (Stranded s → s.thread = .alive → ∃ pre event mid post,
      run = pre ++ event :: mid ++ [.start] ++ post ∧ StrandedBy kind n pre event) := by
  have h' := (lifecycle kind).stateAfter_induction (s := initial n)
    (P := fun run s => (lifecycle kind).stateAfter (initial n) run = some s ∧
      (Stranded s → ∃ pre event mid, run = pre ++ event :: mid ∧ StrandedBy kind n pre event) ∧
      (Stranded s → s.thread = .alive → ∃ pre event mid post,
        run = pre ++ event :: mid ++ [.start] ++ post ∧ StrandedBy kind n pre event))
    ?_ ?_ h
  · exact h'.2
  · refine ⟨rfl, ?_, ?_⟩
    · rintro ⟨b, hb, -⟩
      cases hb
    · rintro ⟨b, hb, -⟩
      cases hb
  · rintro run t event t' ⟨hrun, horigin, hrestart⟩ hstep
    have hsound : Sound t := sound_reached hrun
    have htakes : Takes kind t event t' := takes_of_step hstep
    refine ⟨(lifecycle kind).stateAfter_append_singleton.mpr ⟨t, hrun, hstep⟩, ?_, ?_⟩
    · intro hstranded
      by_cases hbefore : Stranded t
      · obtain ⟨pre, event', mid, rfl, hby⟩ := horigin hbefore
        exact ⟨pre, event', mid ++ [event], by simp, hby⟩
      · exact ⟨run, event, [], rfl, t, hrun, strands_of_step hsound hbefore htakes hstranded⟩
    · intro hstranded halive
      by_cases hbefore : Stranded t
      · by_cases hthread : t.thread = .alive
        · obtain ⟨pre, event', mid, post, rfl, hby⟩ := hrestart hbefore hthread
          exact ⟨pre, event', mid, post ++ [event], by simp, hby⟩
        · obtain ⟨pre, event', mid, rfl, hby⟩ := horigin hbefore
          obtain ⟨rfl, -⟩ := start_of_alive hthread htakes halive
          exact ⟨pre, event', mid, [], by simp, hby⟩
      · have hstrands := strands_of_step hsound hbefore htakes hstranded
        exact absurd halive (left_of_strands hstrands htakes).2.1

theorem unpolled_reached (h : (lifecycle (.etherNetIPDevice false)).stateAfter (initial n) run =
    some s) : s.channelBuffer = none :=
  (reached_induction (P := fun _ s => s.channelBuffer = none) rfl
    (fun _ _ _ _ _ hnone htakes => unpolled_step rfl hnone htakes) h).2

/-- `get_channel` meets a closed buffer only in an unhealthy state. -/
theorem getChannel_of_healthy (h : Healthy s) : s.getChannel ≠ .error .bufferClosed := by
  unfold State.getChannel
  by_cases halive : s.thread = .alive
  · obtain ⟨b, hb, hopen, -⟩ := h halive
    rw [if_pos halive, hb]
    dsimp only
    rw [if_neg hopen]
    nofun
  · rw [if_neg halive]
    nofun

/-- **The channel buffer is healthy exactly in the runs without a restart of a stranded buffer.**
In the others `get_channel` fails while the daemon publishes. -/
theorem channelBuffer_healthy_iff (kind : Kind) (n : Nat) (run : List Event) :
    (lifecycle kind).Throughout (fun s => Healthy s ∧ s.getChannel ≠ .error .bufferClosed)
        (initial n) run ↔ ¬RestartsStranded kind n run := by
  constructor
  · rintro hall ⟨pre, event, mid, hprefix, ⟨t, ht, hstrands⟩, hreached⟩
    have hkind : kind ≠ .etherNetIPDevice false := by
      rintro rfl
      obtain ⟨-, b, -, -, -, hb, -⟩ := hstrands
      rw [unpolled_reached ht] at hb
      cases hb
    obtain ⟨v, hv⟩ := Option.isSome_iff_exists.mp hreached
    rw [List.append_assoc, EventLoop.stateAfter_append, ht, Option.bind_some, List.cons_append,
      EventLoop.stateAfter_cons] at hv
    obtain ⟨u, hu, huv⟩ := Option.bind_eq_some_iff.mp hv
    have htakes : Takes kind t event u := takes_of_step hu
    have hleft := left_of_strands hstrands htakes
    obtain ⟨pre', w, hpre', hw, hunhealthy⟩ :=
      unhealthy_of_left hkind (sound_step (sound_reached ht) htakes) hleft (by rw [huv]; rfl)
    refine hunhealthy (hall (pre ++ event :: pre') w ?_ ?_).1
    · refine List.IsPrefix.trans ?_ hprefix
      rw [List.append_assoc, List.cons_append]
      exact (List.prefix_append_right_inj pre).mpr (List.cons_prefix_cons.mpr ⟨rfl, hpre'⟩)
    · rw [EventLoop.stateAfter_append, ht, Option.bind_some, EventLoop.stateAfter_cons, hu]
      exact hw
  · intro hnot pre t hpre ht
    have hhealthy : Healthy t := by
      rw [healthy_iff (sound_reached ht)]
      rintro ⟨halive, hstranded⟩
      obtain ⟨pre', event, mid, post, rfl, hby⟩ := (origin_of_stranded ht).2 hstranded halive
      refine hnot ⟨pre', event, mid, (List.prefix_append _ post).trans hpre, hby, ?_⟩
      rw [EventLoop.stateAfter_append] at ht
      obtain ⟨u, hu, -⟩ := Option.bind_eq_some_iff.mp ht
      rw [hu]
      rfl
    exact ⟨hhealthy, getChannel_of_healthy hhealthy⟩

/-- The daemon sees the stop event that `close()` has set before `stop()` looks at the thread; the
device is opened and started again. -/
def closeRace : List Event :=
  [.open true, .start, .close, .daemonExits .stopObserved, .closeStops .none, .open true, .start]

theorem closed_buffer_while_alive :
    ¬∀ (kind : Kind) (n : Nat) (run : List Event), (lifecycle kind).Throughout
      (fun s => Healthy s ∧ s.getChannel ≠ .error .bufferClosed) (initial n) run := by
  intro hall
  have hreached : ((lifecycle .modbusDevice).stateAfter (initial 0) closeRace).map (·.getChannel) =
      some (.error .bufferClosed) := rfl
  obtain ⟨s, hs, hget⟩ := Option.map_eq_some_iff.mp hreached
  exact (hall .modbusDevice 0 closeRace closeRace s List.prefix_rfl hs).2 hget

end Runs

end Instro.Instrument
