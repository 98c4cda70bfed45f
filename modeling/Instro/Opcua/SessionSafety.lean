import Instro.Opcua.Sessions

/-!
# Stopping sessions and disconnecting

Over any interleaving: a session that was told to have ended does nothing more, and the client is not
torn down while a session reads from it.
-/

namespace Instro.Opcua

open Instro.Library

variable {V : Type}

/-! ## Steps of a session -/

namespace OpcUaStreamSession

variable {session session' : OpcUaStreamSession V} {alive : Bool} {event : SessionEvent V}
  {actions : List (Action V)}

/-- The future of the session is gone. -/
def Ended : OpcUaStreamSession V → Prop
  | .polling _ worker => worker.thread.Dropped
  | .subscription _ worker => worker.thread.Dropped

def Settled : OpcUaStreamSession V → Prop
  | .polling _ worker => Future.Settled worker
  | .subscription _ worker => Future.Settled worker

/-- The future of the session waits, or is gone. -/
def Interruptible : OpcUaStreamSession V → Prop
  | .polling nodes worker =>
    ∀ s, worker.thread = .running s → (pollLoop (V := V) nodes).suspended s = true
  | .subscription nodes worker =>
    ∀ s, worker.thread = .running s → (subscriptionPump (collectNodes nodes)).suspended s = true

theorem step_cases (h : session.step alive event = some (actions, session')) :
    (∃ nodes worker workerEvent worker', session = .polling nodes worker ∧
      event = .polling workerEvent ∧ session' = .polling nodes worker' ∧
      (pollLoop nodes).step alive worker workerEvent = some (actions, worker')) ∨
    ∃ nodes worker workerEvent worker', session = .subscription nodes worker ∧
      event = .subscription workerEvent ∧ session' = .subscription nodes worker' ∧
      (subscriptionPump (collectNodes nodes)).step alive worker workerEvent =
        some (actions, worker') := by
  cases session with
  | polling nodes worker =>
    cases event with
    | polling workerEvent =>
      obtain ⟨⟨actions', worker'⟩, hstep, heq⟩ := Option.map_eq_some_iff.mp h
      obtain ⟨rfl, rfl⟩ := Prod.mk.inj heq
      exact .inl ⟨nodes, worker, workerEvent, worker', rfl, rfl, rfl, hstep⟩
    | subscription workerEvent => cases h
  | subscription nodes worker =>
    cases event with
    | polling workerEvent => cases h
    | subscription workerEvent =>
      obtain ⟨⟨actions', worker'⟩, hstep, heq⟩ := Option.map_eq_some_iff.mp h
      obtain ⟨rfl, rfl⟩ := Prod.mk.inj heq
      exact .inr ⟨nodes, worker, workerEvent, worker', rfl, rfl, rfl, hstep⟩

theorem settled_step (hsettled : session.Settled)
    (h : session.step alive event = some (actions, session')) : session'.Settled := by
  obtain ⟨nodes, worker, _, worker', rfl, -, rfl, hstep⟩ |
    ⟨nodes, worker, _, worker', rfl, -, rfl, hstep⟩ := step_cases h
  · exact Future.settled_step hsettled hstep
  · exact Future.settled_step hsettled hstep

theorem step_of_ended (hended : session.Ended)
    (h : session.step alive event = some (actions, session')) :
    actions = [] ∧ session'.Ended := by
  obtain ⟨nodes, worker, _, worker', rfl, -, rfl, hstep⟩ |
    ⟨nodes, worker, _, worker', rfl, -, rfl, hstep⟩ := step_cases h
  · exact Future.step_of_dropped hended hstep
  · exact Future.step_of_dropped hended hstep

/-- A session whose stop has succeeded has ended. -/
theorem ended_of_returned (hsettled : session.Settled) (hreturned : session.handle = .returned true) :
    session.Ended := by
  cases session with
  | polling nodes worker =>
    obtain ⟨_, rfl⟩ := hsettled hreturned
    trivial
  | subscription nodes worker =>
    obtain ⟨_, rfl⟩ := hsettled hreturned
    trivial

end OpcUaStreamSession

/-! ## References -/

section References

variable {session session' : OpcUaStreamSession V} {alive : Bool} {event : SessionEvent V}
  {actions : List (Action V)}

/-- The thread of a session that takes the client was resumed to read from it. -/
theorem alive_of_holdsClient (h : session.step alive event = some (actions, session'))
    (hbefore : session.holdsClient = false) (hafter : session'.holdsClient = true) :
    alive = true := by
  obtain ⟨nodes, worker, _, worker', rfl, -, rfl, hstep⟩ |
    ⟨nodes, worker, _, worker', rfl, -, rfl, hstep⟩ := OpcUaStreamSession.step_cases h
  · obtain ⟨stage, handle, input, next, rfl, -, hresume, rfl⟩ | ⟨-, -, hquiet⟩ :=
      Future.step_cases hstep
    · cases pollStep_of_resume hresume with
      | read => rfl
      | _ => cases hafter
    · cases hquiet with
      | stop => exact absurd (hbefore.symm.trans hafter) Bool.false_ne_true
      | timeout => exact absurd (hbefore.symm.trans hafter) Bool.false_ne_true
      | _ => cases hafter
  · obtain ⟨stage, handle, input, next, rfl, -, hresume, rfl⟩ | ⟨-, -, hquiet⟩ :=
      Future.step_cases hstep
    · cases pumpStep_of_resume hresume with
      | read => rfl
      | _ => cases hafter
    · cases hquiet with
      | stop => exact absurd (hbefore.symm.trans hafter) Bool.false_ne_true
      | timeout => exact absurd (hbefore.symm.trans hafter) Bool.false_ne_true
      | _ => cases hafter

/-- A session that is spawned has no reference to the client. -/
theorem settled_polling (nodes : List OpcUaNode) :
    (OpcUaStreamSession.polling (V := V) nodes (pollLoop (V := V) nodes).spawn).Settled := by
  intro h
  cases h

theorem settled_subscription (nodes : List OpcUaNode) :
    (OpcUaStreamSession.subscription (V := V) nodes
      (subscriptionPump (collectNodes nodes)).spawn).Settled := by
  intro h
  cases h

end References

/-! ## The client and its sessions -/

namespace System

variable {s s' : System V} {event : Event V} {observations : List (Observation V)}

/-- The strong count is right, the client is connected as long as it is referred to, and no stop has
succeeded too early. -/
structure Sound (s : System V) : Prop where
  strong : s.strong = s.owners + s.sessions.countP (·.holdsClient)
  connected : s.connection = .connected ↔ 0 < s.strong
  settled : ∀ session ∈ s.sessions, session.Settled

theorem sound_initial : (initial : System V).Sound :=
  ⟨rfl, by simp [initial], by simp [initial]⟩

theorem sound_addSession (hsound : s.Sound) {session : OpcUaStreamSession V}
    (hholds : session.holdsClient = false) (hsettled : session.Settled) :
    (s.addSession session).Sound where
  strong := by
    show s.strong = s.owners + (s.sessions ++ [session]).countP (·.holdsClient)
    rw [List.countP_append, List.countP_singleton, if_neg (by simp [hholds]), hsound.strong]
    rfl
  connected := hsound.connected
  settled session' hmem := by
    rcases List.mem_append.mp hmem with hmem | hmem
    · exact hsound.settled session' hmem
    · obtain rfl := List.mem_singleton.mp hmem
      exact hsettled

/-- Losing one of its references leaves the client connected exactly if another one is left. -/
theorem connected_of_loss {after : Connection} (hafter : after ≠ .connected) (hsound : s.Sound)
    (hpos : 0 < s.strong) :
    (if s.strong - 1 = 0 then after else s.connection) = .connected ↔ 0 < s.strong - 1 := by
  by_cases hlast : s.strong - 1 = 0
  · rw [if_pos hlast]
    exact iff_of_false hafter (by omega)
  · rw [if_neg hlast, hsound.connected]
    omega

theorem sound_call (hsound : s.Sound) (howners : 0 < s.owners) (call : ClientCall) :
    (s.call call).2.Sound := by
  have hstrong := hsound.strong
  have hpos : 0 < s.strong := by omega
  cases call with
  | clone =>
    refine ⟨?_, ?_, hsound.settled⟩
    · show s.strong + 1 = s.owners + 1 + s.sessions.countP _
      omega
    · exact iff_of_true (hsound.connected.mpr hpos) (Nat.succ_pos _)
  | drop =>
    refine ⟨?_, connected_of_loss (by decide) hsound hpos, hsound.settled⟩
    show s.strong - 1 = s.owners - 1 + s.sessions.countP _
    omega
  | disconnect =>
    have hcount : s.strong - 1 = s.owners - 1 + s.sessions.countP (·.holdsClient) := by omega
    have hafter : Connection.disconnected ≠ .connected := by decide
    have hconnected := connected_of_loss hafter hsound hpos
    unfold call disconnect
    by_cases hlast : s.strong - 1 = 0
    · rw [if_pos hlast] at hconnected
      simp only [if_pos hlast]
      exact ⟨hcount, hconnected, hsound.settled⟩
    · rw [if_neg hlast] at hconnected
      simp only [if_neg hlast]
      exact ⟨hcount, hconnected, hsound.settled⟩
  | startPolling nodes => exact sound_addSession hsound rfl (settled_polling nodes)
  | startSubscription nodes => exact sound_addSession hsound rfl (settled_subscription nodes)

theorem stepSession_cases {i : Nat} {event : SessionEvent V}
    (h : s.stepSession i event = some (observations, s')) :
    ∃ session session' actions, s.sessions[i]? = some session ∧
      session.step s.isAlive event = some (actions, session') ∧
      observations = actions.map (.session i) ∧
      s' = { s.transfer session.holdsClient session'.holdsClient with
        sessions := s.sessions.set i session' } := by
  obtain ⟨session, hsession, h⟩ := Option.bind_eq_some_iff.mp h
  obtain ⟨⟨actions, session'⟩, hstep, h⟩ := Option.bind_eq_some_iff.mp h
  obtain ⟨rfl, rfl⟩ := Prod.mk.inj (Option.some.inj h)
  exact ⟨session, session', actions, hsession, hstep, rfl, rfl⟩

theorem sound_stepSession (hsound : s.Sound) {i : Nat} {event : SessionEvent V}
    (h : s.stepSession i event = some (observations, s')) : s'.Sound := by
  obtain ⟨session, session', actions, hsession, hstep, -, rfl⟩ := stepSession_cases h
  obtain ⟨hi, rfl⟩ := List.getElem?_eq_some_iff.mp hsession
  have hmem : s.sessions[i] ∈ s.sessions := List.getElem_mem hi
  have hsettled : ∀ t ∈ s.sessions.set i session', t.Settled := by
    intro t ht
    rcases List.mem_or_eq_of_mem_set ht with ht | rfl
    · exact hsound.settled t ht
    · exact OpcUaStreamSession.settled_step (hsound.settled _ hmem) hstep
  have hcount := List.countP_set (p := (·.holdsClient)) (a := session') hi
  have hone : s.sessions[i].holdsClient = true → 0 < s.sessions.countP (·.holdsClient) :=
    fun hholds => List.countP_pos_iff.mpr ⟨_, hmem, hholds⟩
  have hstrong := hsound.strong
  cases hbefore : s.sessions[i].holdsClient with
  | false =>
    cases hafter : session'.holdsClient with
    | false =>
      simp only [hbefore, hafter, Bool.false_eq_true, if_false] at hcount
      refine ⟨?_, hsound.connected, hsettled⟩
      show s.strong = s.owners + (s.sessions.set i session').countP (·.holdsClient)
      omega
    | true =>
      have halive : 0 < s.strong := of_decide_eq_true (alive_of_holdsClient hstep hbefore hafter)
      simp only [hbefore, hafter, Bool.false_eq_true, if_false, if_true] at hcount
      refine ⟨?_, iff_of_true (hsound.connected.mpr halive) (Nat.succ_pos _), hsettled⟩
      show s.strong + 1 = s.owners + (s.sessions.set i session').countP (·.holdsClient)
      omega
  | true =>
    have hpos := hone hbefore
    cases hafter : session'.holdsClient with
    | false =>
      simp only [hbefore, hafter, Bool.false_eq_true, if_false, if_true] at hcount
      refine ⟨?_, connected_of_loss (by decide) hsound (by omega), hsettled⟩
      show s.strong - 1 = s.owners + (s.sessions.set i session').countP (·.holdsClient)
      omega
    | true =>
      simp only [hbefore, hafter, if_true] at hcount
      refine ⟨?_, hsound.connected, hsettled⟩
      show s.strong = s.owners + (s.sessions.set i session').countP (·.holdsClient)
      omega

theorem sound_step (hsound : s.Sound) (h : s.step event = some (observations, s')) : s'.Sound := by
  cases event with
  | client call =>
    obtain ⟨howners, h⟩ := Option.ite_none_right_eq_some.mp h
    have hcall := sound_call hsound howners call
    rw [Option.some.inj h] at hcall
    exact hcall
  | session i event => exact sound_stepSession hsound h

/-! ## What cannot happen any more -/

/-- A client that nothing refers to is never referred to again. -/
theorem step_of_unreferred (hsound : s.Sound) (hnone : s.strong = 0)
    (h : s.step event = some (observations, s')) :
    s'.strong = 0 ∧ s'.connection = s.connection := by
  have hstrong := hsound.strong
  cases event with
  | client call =>
    obtain ⟨howners, -⟩ := Option.ite_none_right_eq_some.mp h
    omega
  | session i event =>
    obtain ⟨session, session', actions, hsession, hstep, -, rfl⟩ := stepSession_cases h
    have hmem : session ∈ s.sessions := List.mem_of_getElem? hsession
    have hbefore : session.holdsClient = false := by
      rw [Bool.eq_false_iff]
      intro hholds
      have hcount : 0 < s.sessions.countP (·.holdsClient) :=
        List.countP_pos_iff.mpr ⟨session, hmem, hholds⟩
      omega
    cases hafter : session'.holdsClient with
    | false =>
      rw [hbefore]
      exact ⟨hnone, rfl⟩
    | true =>
      have halive : 0 < s.strong := of_decide_eq_true (alive_of_holdsClient hstep hbefore hafter)
      omega

/-- A session that has ended stays so, and nothing of it is seen in a step. -/
theorem step_of_ended {i : Nat} {session : OpcUaStreamSession V}
    (hsession : s.sessions[i]? = some session) (hended : session.Ended)
    (h : s.step event = some (observations, s')) :
    (∃ session', s'.sessions[i]? = some session' ∧ session'.Ended) ∧
      ∀ action, .session i action ∉ observations := by
  obtain ⟨hi, rfl⟩ := List.getElem?_eq_some_iff.mp hsession
  cases event with
  | client call =>
    obtain ⟨-, h⟩ := Option.ite_none_right_eq_some.mp h
    have hadd (session : OpcUaStreamSession V) :
        (s.addSession session).sessions[i]? = some s.sessions[i] := by
      unfold addSession
      rw [List.getElem?_append_left hi, hsession]
    cases call with
    | clone =>
      cases h
      exact ⟨⟨_, hsession, hended⟩, fun _ => List.not_mem_nil⟩
    | drop =>
      cases h
      exact ⟨⟨_, hsession, hended⟩, fun _ => List.not_mem_nil⟩
    | startPolling nodes =>
      cases h
      exact ⟨⟨_, hadd _, hended⟩, fun _ => List.not_mem_nil⟩
    | startSubscription nodes =>
      cases h
      exact ⟨⟨_, hadd _, hended⟩, fun _ => List.not_mem_nil⟩
    | disconnect =>
      unfold call disconnect at h
      dsimp only at h
      split_ifs at h
      · cases h
        exact ⟨⟨_, hsession, hended⟩, by simp⟩
      · cases h
        exact ⟨⟨_, hsession, hended⟩, by simp⟩
  | session j event =>
    obtain ⟨session, session', actions, hj, hstep, rfl, rfl⟩ := stepSession_cases h
    by_cases hij : i = j
    · subst hij
      obtain rfl : s.sessions[i] = session := Option.some.inj (hsession.symm.trans hj)
      obtain ⟨rfl, hended'⟩ := OpcUaStreamSession.step_of_ended hended hstep
      refine ⟨⟨session', List.getElem?_set_self hi, hended'⟩, fun _ => List.not_mem_nil⟩
    · refine ⟨⟨s.sessions[i], ?_, hended⟩, ?_⟩
      · show (s.sessions.set j session')[i]? = _
        rw [List.getElem?_set_ne (Ne.symm hij), hsession]
      · intro action hmem
        obtain ⟨_, -, heq⟩ := List.mem_map.mp hmem
        cases heq
        exact hij rfl

/-- `disconnect` succeeds exactly when the caller has the only reference and no session reads. -/
theorem disconnect_iff (hsound : s.Sound) (howners : 0 < s.owners) :
    (s.disconnect).1 = [.disconnected true] ↔
      s.owners = 1 ∧ ∀ session ∈ s.sessions, session.holdsClient = false := by
  have hstrong := hsound.strong
  have hlast : s.strong - 1 = 0 ↔
      s.owners = 1 ∧ s.sessions.countP (·.holdsClient) = 0 := by omega
  have hnone : s.sessions.countP (·.holdsClient) = 0 ↔
      ∀ session ∈ s.sessions, session.holdsClient = false := by
    rw [List.countP_eq_zero]
    simp
  rw [← hnone, ← hlast]
  unfold disconnect
  by_cases h : s.strong - 1 = 0 <;> simp [h]

end System

/-! ## Whole runs -/

section Runs

variable {s s' : System V} {es : List (Event V)}

theorem sound_run (hs : s.Sound) (h : streaming.stateAfter s es = some s') : s'.Sound :=
  streaming.stateAfter_induction (P := fun _ t => t.Sound) hs
    (fun _ _ _ _ ht hstep => System.sound_step ht (EventLoop.step_of_ofStep hstep)) h

/-- A session that has ended is not seen again. -/
theorem ended_is_silent {i : Nat} {session : OpcUaStreamSession V}
    (hsession : s.sessions[i]? = some session) (hended : session.Ended) (action : Action V) :
    .session i action ∉ streaming.actions s es := by
  induction es generalizing s session with
  | nil => exact List.not_mem_nil
  | cons e es ih =>
    cases hstep : (streaming.step s e).2 with
    | none =>
      have hnothing : (streaming.step s e).1 = [] := EventLoop.actions_of_impossible hstep
      rw [streaming.actions_cons_none hstep, hnothing]
      exact List.not_mem_nil
    | some t =>
      obtain ⟨⟨session', hsession', hended'⟩, hsilent⟩ :=
        System.step_of_ended hsession hended (EventLoop.step_of_ofStep hstep)
      rw [streaming.actions_cons_some hstep, List.mem_append, not_or]
      exact ⟨hsilent action, ih hsession' hended'⟩

theorem unreferred_run (hs : s.Sound) (hnone : s.strong = 0)
    (h : streaming.stateAfter s es = some s') :
    s'.strong = 0 ∧ s'.connection = s.connection := by
  refine (streaming.stateAfter_induction
    (P := fun _ t => t.Sound ∧ t.strong = 0 ∧ t.connection = s.connection) ⟨hs, hnone, rfl⟩ ?_ h).2
  rintro _ t e t' ⟨ht, hnone, hconnection⟩ hstep
  obtain ⟨hnone', hconnection'⟩ := System.step_of_unreferred ht hnone (EventLoop.step_of_ofStep hstep)
  exact ⟨System.sound_step ht (EventLoop.step_of_ofStep hstep), hnone', hconnection'.trans hconnection⟩

end Runs

/-- An event with which the thread of a stopped session, or the stop itself, comes to its end. -/
def SessionEvent.Finishing : SessionEvent V → Prop
  | .polling event => event ∈ [.cancel, .terminate, .receive]
  | .subscription event => event ∈ [.cancel, .terminate, .receive]

/-- What holds of a client and its sessions whatever has happened so far. -/
structure System.Safe (s : System V) : Prop where
  /-- The client is not torn down under a read. -/
  reading : ∀ session ∈ s.sessions, session.holdsClient = true → s.connection = .connected
  /-- Once it is gone, it stays so, and nothing is read from it. -/
  gone : s.connection ≠ .connected → ∀ es s', streaming.stateAfter s es = some s' →
    s'.connection = s.connection ∧ ∀ session ∈ s'.sessions, session.holdsClient = false
  disconnects : 0 < s.owners →
    ((streaming.step s (.client .disconnect)).1 = [.disconnected true] ↔
      s.owners = 1 ∧ ∀ session ∈ s.sessions, session.holdsClient = false)
  /-- A stop that has returned without an error was the end of the session. -/
  stopped : ∀ i session, s.sessions[i]? = some session → session.handle = .returned true →
    ∀ es action, .session i action ∉ streaming.actions s es
  /-- A stop that has not returned can go on as soon as the session waits. -/
  pending : ∀ i session timed, s.sessions[i]? = some session → session.handle = .waiting timed →
    session.Interruptible → ∃ event : SessionEvent V, event.Finishing ∧
      (s.step (.session i event)).isSome

theorem pending_of_waiting {s : System V} {i : Nat} {session : OpcUaStreamSession V} {timed : Bool}
    (hsession : s.sessions[i]? = some session) (hwaiting : session.handle = .waiting timed)
    (hinterruptible : session.Interruptible) :
    ∃ event : SessionEvent V, event.Finishing ∧ (s.step (.session i event)).isSome := by
  have hstep (event : SessionEvent V) (h : (session.step s.isAlive event).isSome) :
      (s.step (.session i event)).isSome := by
    obtain ⟨⟨actions, session'⟩, h⟩ := Option.isSome_iff_exists.mp h
    unfold System.step System.stepSession
    dsimp only
    rw [hsession]
    show ((session.step s.isAlive event).bind _).isSome
    rw [h]
    rfl
  cases session with
  | polling nodes worker =>
    obtain ⟨event, hmem, hsome⟩ :=
      Future.exists_step_of_waiting s.isAlive hwaiting hinterruptible
    refine ⟨.polling event, hmem, hstep _ ?_⟩
    exact Option.isSome_map.trans hsome
  | subscription nodes worker =>
    obtain ⟨event, hmem, hsome⟩ :=
      Future.exists_step_of_waiting s.isAlive hwaiting hinterruptible
    refine ⟨.subscription event, hmem, hstep _ ?_⟩
    exact Option.isSome_map.trans hsome

theorem safe_of_sound {s : System V} (hs : s.Sound) : s.Safe where
  reading session hmem hholds := by
    have hcount : 0 < s.sessions.countP (·.holdsClient) :=
      List.countP_pos_iff.mpr ⟨session, hmem, hholds⟩
    have hstrong := hs.strong
    exact hs.connected.mpr (by omega)
  gone hgone es s' h := by
    have hnone : s.strong = 0 := by
      rw [ne_eq, hs.connected] at hgone
      omega
    obtain ⟨hnone', hconnection⟩ := unreferred_run hs hnone h
    refine ⟨hconnection, ?_⟩
    have hstrong := (sound_run hs h).strong
    have hcount : s'.sessions.countP (·.holdsClient) = 0 := by omega
    rw [List.countP_eq_zero] at hcount
    simpa using hcount
  disconnects howners := by
    rw [← System.disconnect_iff hs howners]
    have hstep : s.step (.client .disconnect) = some s.disconnect := if_pos howners
    unfold streaming EventLoop.ofStep
    dsimp only
    rw [hstep]
    rfl
  stopped i session hsession hreturned es action :=
    ended_is_silent hsession (OpcUaStreamSession.ended_of_returned
      (hs.settled session (List.mem_of_getElem? hsession)) hreturned) action
  pending _ _ _ := pending_of_waiting

/-- Whatever the callers, the sessions and the server do, and in whichever order. -/
theorem sessions_safe (es : List (Event V)) :
    streaming.Throughout System.Safe System.initial es :=
  fun _ _ _ h => safe_of_sound (sound_run System.sound_initial h)

end Instro.Opcua
