import Instro.EthernetIp.Device
import Instro.Instrument.Lifecycle
import Instro.Modbus.Polling

/-!
# Stopping and shutting down

One event tells the daemon to stop and the operations of a device to refuse. `stop()` sets it if
there is a daemon to stop and leaves it set; only `open()` and `start()` clear it. So an open device
whose daemon was stopped refuses every operation until one of them is called.
-/

namespace Instro.Instrument

open Instro.Library

/-! ## Operations -/

/-- Every operation the caller issues is sent to the client: reads and writes of a Modbus device,
and those of an EtherNet/IP device. The connection is that of the state. -/
def Reaches (kind : Kind) (s : State) : Prop :=
  match kind with
  | .instrument => True
  | .modbusDevice =>
    (∀ link : Modbus.Link, link.shuttingDown = s.stopEvent → link.client.isSome = s.connected →
      ∀ request, (Modbus.modbusOp link request).requests = [request]) ∧
    ∀ link : Modbus.ReadLink, link.shuttingDown = s.stopEvent → link.client.isSome = s.connected →
      ∀ (α : Type) request (answer : Modbus.ReadClient → Except Modbus.ReadError α),
        (Modbus.modbusReadOp link request answer).requests = [request]
  | .etherNetIPDevice _ =>
    ∀ conn : EthernetIp.Connection, conn.stopping = s.stopEvent →
      conn.client.isSome = s.connected →
      ∀ (α : Type) request (answer : EthernetIp.Client → Except EthernetIp.NativeError α),
        (EthernetIp.eipOp conn request answer).requests = [request]

/-- A client that takes everything. -/
def acceptingClient : EthernetIp.Client where
  readTag _ := .error .closed
  readTags _ := .error .closed
  writeTag _ _ := .ok ()

/-- An operation of a connected device is sent unless the stop event is set. -/
theorem reaches_iff {kind : Kind} (hkind : kind ≠ .instrument) {s : State}
    (hconnected : s.connected = true) : Reaches kind s ↔ s.stopEvent = false := by
  cases kind with
  | instrument => exact absurd rfl hkind
  | modbusDevice =>
    constructor
    · rintro ⟨hwrite, -⟩
      have hsent := hwrite ⟨s.stopEvent, some fun _ => .ok ()⟩ rfl hconnected.symm (.writeCoil 0 true)
      cases hstop : s.stopEvent with
      | false => rfl
      | true =>
        rw [hstop] at hsent
        cases hsent
    · intro hstop
      constructor
      · rintro ⟨down, client⟩ rfl hclient request
        obtain ⟨respond, rfl⟩ := Option.isSome_iff_exists.mp (hclient.trans hconnected)
        unfold Modbus.modbusOp
        rw [Exchange.check_ok_bind (ensure_pos hstop)]
        rfl
      · rintro ⟨down, client⟩ rfl hclient α request answer
        obtain ⟨client, rfl⟩ := Option.isSome_iff_exists.mp (hclient.trans hconnected)
        unfold Modbus.modbusReadOp
        rw [Exchange.check_ok_bind (ensure_pos hstop)]
        rfl
  | etherNetIPDevice polled =>
    constructor
    · intro hsend
      have hsent := hsend ⟨s.stopEvent, some acceptingClient, true, fun _ => rfl⟩ rfl
        hconnected.symm Unit (.readTag "") fun _ => .ok ()
      cases hstop : s.stopEvent with
      | false => rfl
      | true =>
        rw [hstop] at hsent
        cases hsent
    · rintro hstop ⟨stopping, client, loaded, hloaded⟩ rfl hclient α request answer
      obtain ⟨client, rfl⟩ := Option.isSome_iff_exists.mp (hclient.trans hconnected)
      unfold EthernetIp.eipOp
      rw [Exchange.check_ok_bind (ensure_pos hstop)]
      rfl

/-! ## Histories -/

section Histories

variable (kind : Kind) (n : Nat)

/-- An `open()` of the run has left the device connected, and no `close()` was called since. -/
def Opened (run : List Event) : Prop :=
  ∃ pre c post t, run = pre ++ .open c :: post ∧
    (lifecycle kind).stateAfter (initial n) (pre ++ [.open c]) = some t ∧ t.connected = true ∧
    .close ∉ post

/-- A `stop()` of the run found the daemon alive, and neither `open()` nor `start()` was called
since. -/
def StopStands (run : List Event) : Prop :=
  ∃ pre mid t, run = pre ++ .stop :: mid ∧
    (lifecycle kind).stateAfter (initial n) pre = some t ∧ t.thread = .alive ∧
    (∀ c, .open c ∉ mid) ∧ .start ∉ mid

end Histories

section Runs

variable {kind : Kind} {n : Nat} {run : List Event} {event : Event} {s s' : State}

theorem opened_append_singleton (h : Opened kind n (run ++ [event])) :
    (∃ c, event = .open c ∧ ∃ t, (lifecycle kind).stateAfter (initial n) (run ++ [event]) = some t ∧
      t.connected = true) ∨ event ≠ .close ∧ Opened kind n run := by
  obtain ⟨pre, c, post, t, heq, ht, hconnected, hclose⟩ := h
  rcases List.eq_nil_or_concat post with rfl | ⟨post, last, rfl⟩
  · obtain ⟨rfl, hlast⟩ := List.append_inj' heq rfl
    obtain rfl := List.singleton_inj.mp hlast
    exact .inl ⟨c, rfl, t, ht, hconnected⟩
  · rw [List.concat_eq_append, ← List.cons_append, ← List.append_assoc] at heq
    obtain ⟨rfl, hlast⟩ := List.append_inj' heq rfl
    obtain rfl := List.singleton_inj.mp hlast
    rw [List.concat_eq_append, List.mem_append, not_or, List.mem_singleton] at hclose
    exact .inr ⟨Ne.symm hclose.2, pre, c, post, t, rfl, ht, hconnected, hclose.1⟩

theorem stopStands_append_singleton (hs : (lifecycle kind).stateAfter (initial n) run = some s) :
    StopStands kind n (run ++ [event]) ↔ event = .stop ∧ s.thread = .alive ∨
      (∀ c, event ≠ .open c) ∧ event ≠ .start ∧ StopStands kind n run := by
  constructor
  · rintro ⟨pre, mid, t, heq, ht, halive, hopen, hstart⟩
    rcases List.eq_nil_or_concat mid with rfl | ⟨mid, last, rfl⟩
    · obtain ⟨rfl, hlast⟩ := List.append_inj' heq rfl
      obtain rfl := List.singleton_inj.mp hlast
      obtain rfl := Option.some.inj (hs.symm.trans ht)
      exact .inl ⟨rfl, halive⟩
    · rw [List.concat_eq_append, ← List.cons_append, ← List.append_assoc] at heq
      obtain ⟨rfl, hlast⟩ := List.append_inj' heq rfl
      obtain rfl := List.singleton_inj.mp hlast
      rw [List.concat_eq_append, List.mem_append, not_or, List.mem_singleton] at hstart
      refine .inr ⟨?_, Ne.symm hstart.2, pre, mid, t, rfl, ht, halive, ?_, hstart.1⟩
      · intro c hc
        exact hopen c (by rw [List.concat_eq_append, hc]; simp)
      · intro c hc
        exact hopen c (by simp [hc])
  · rintro (⟨rfl, halive⟩ | ⟨hopen, hstart, pre, mid, t, rfl, ht, halive, hopens, hstarts⟩)
    · exact ⟨run, [], s, rfl, hs, halive, fun _ => List.not_mem_nil, List.not_mem_nil⟩
    · refine ⟨pre, mid ++ [event], t, by simp, ht, halive, ?_, ?_⟩
      · intro c hc
        rcases List.mem_append.mp hc with hc | hc
        · exact hopens c hc
        · exact hopen c (List.mem_singleton.mp hc).symm
      · intro hc
        rcases List.mem_append.mp hc with hc | hc
        · exact hstarts hc
        · exact hstart (List.mem_singleton.mp hc).symm

/-! ## What the stop event says -/

/-- Between calls a living daemon has not been told to stop, and without tags to poll there is no
daemon. -/
structure Undisturbed (kind : Kind) (s : State) : Prop where
  idle : s.caller = .idle → s.thread = .alive → s.stopEvent = false
  unpolled : kind = .etherNetIPDevice false → s.thread ≠ .alive

theorem undisturbed_step (hs : Undisturbed kind s) (h : Takes kind s event s') :
    Undisturbed kind s' where
  idle hcaller' halive := by
    cases h with
    | «open» c hcaller =>
      rw [open_thread] at halive
      cases kind with
      | instrument => exact hs.idle hcaller halive
      | modbusDevice => rfl
      | etherNetIPDevice polled => rfl
    | start hcaller hthread hkind => rfl
    | startIdle hcaller h => exact hs.idle hcaller halive
    | stop hcaller hthread => cases hcaller'
    | stopIdle hcaller hthread => exact absurd halive hthread
    | close hcaller => cases kind <;> cases hcaller'
    | closeJoins failure hcaller hthread => cases hcaller'
    | closeIdle failure _ hcaller hthread h =>
      obtain ⟨c, rfl⟩ := closePublishers_eq h
      exact absurd halive hthread
    | joined failure inClose _ hcaller hexited h =>
      rw [(joined_keeps h).1, hexited] at halive
      cases halive
    | daemonExits cause hthread h => cases halive
  unpolled hkind halive := (start_of_alive (hs.unpolled hkind) h halive).2 hkind

/-- In an open device the stop event is the trace of a `stop()`. -/
structure Tracks (s : State) (stands : Prop) : Prop where
  connected : s.connected = true
  caller : s.caller = .idle ∨ s.caller = .joining false
  stopEvent : s.stopEvent = true ↔ stands

theorem tracks_open {c : Bool} (hkind : kind ≠ .instrument) (hcaller : s.caller = .idle)
    (hconnected : (s.open kind c).connected = true) : Tracks (s.open kind c) False where
  connected := hconnected
  caller := .inl (by rw [open_caller, hcaller])
  stopEvent := by
    cases kind with
    | instrument => exact absurd rfl hkind
    | modbusDevice => exact iff_of_false Bool.false_ne_true id
    | etherNetIPDevice polled => exact iff_of_false Bool.false_ne_true id

/-- A step of an open device other than `close()`. -/
theorem tracks_step {stands : Prop} (hkind : kind ≠ .instrument) (hs : Undisturbed kind s)
    (htracks : Tracks s stands) (hunpolled : kind = .etherNetIPDevice false → ¬stands)
    (hclose : event ≠ .close) (h : Takes kind s event s') :
    Tracks s' (event = .stop ∧ s.thread = .alive ∨
      (∀ c, event ≠ .open c) ∧ event ≠ .start ∧ stands) := by
  cases h with
  | «open» c hcaller =>
    have hnot : ¬(Event.open c = .stop ∧ s.thread = .alive ∨
        (∀ c', Event.open c ≠ .open c') ∧ Event.open c ≠ .start ∧ stands) := by
      rintro (⟨h, -⟩ | ⟨h, -⟩)
      · cases h
      · exact h c rfl
    rw [eq_false hnot]
    refine tracks_open hkind hcaller ?_
    cases kind with
    | instrument => exact absurd rfl hkind
    | modbusDevice => simp [State.open, htracks.connected]
    | etherNetIPDevice polled => simp [State.open, htracks.connected]
  | start hcaller hthread _ =>
    exact ⟨by simp [htracks.connected], .inl (by simp [hcaller]), by simp⟩
  | startIdle hcaller hidle =>
    have hstop : ¬s.stopEvent = true := by
      rcases hidle with halive | hno
      · rw [hs.idle hcaller halive]
        exact Bool.false_ne_true
      · rw [htracks.stopEvent]
        exact hunpolled hno
    exact ⟨htracks.connected, htracks.caller, iff_of_false hstop (by simp)⟩
  | stop hcaller hthread => exact ⟨htracks.connected, .inr rfl, by simp [State.stop, hthread]⟩
  | stopIdle hcaller hthread =>
    exact ⟨htracks.connected, htracks.caller, by simp [hthread, htracks.stopEvent]⟩
  | close hcaller => exact absurd rfl hclose
  | closeJoins failure hcaller hthread =>
    rcases htracks.caller with h | h <;> rw [hcaller] at h <;> cases h
  | closeIdle failure _ hcaller hthread _ =>
    rcases htracks.caller with h | h <;> rw [hcaller] at h <;> cases h
  | joined failure inClose _ hcaller hthread hjoined =>
    have hplain : inClose = false := by
      rcases htracks.caller with h | h <;> rw [hcaller] at h <;> cases h
      rfl
    obtain ⟨-, hidle, hsame⟩ := joined_keeps hjoined
    obtain ⟨hstop, hconnected⟩ := hsame hplain
    refine ⟨hconnected.trans htracks.connected, .inl hidle, ?_⟩
    rw [hstop, htracks.stopEvent]
    simp
  | daemonExits cause hthread _ =>
    exact ⟨htracks.connected, htracks.caller, by simp [htracks.stopEvent]⟩

/-- Every state of an open device tracks its run. -/
theorem tracks_reached (hkind : kind ≠ .instrument)
    (h : (lifecycle kind).stateAfter (initial n) run = some s) :
    Undisturbed kind s ∧ (kind = .etherNetIPDevice false → ¬StopStands kind n run) ∧
      (Opened kind n run → Tracks s (StopStands kind n run)) := by
  have hall := (lifecycle kind).stateAfter_induction (s := initial n)
    (P := fun run s => (lifecycle kind).stateAfter (initial n) run = some s ∧
      Undisturbed kind s ∧ (kind = .etherNetIPDevice false → ¬StopStands kind n run) ∧
      (Opened kind n run → Tracks s (StopStands kind n run))) ?_ ?_ h
  · exact hall.2
  · refine ⟨rfl, ⟨fun _ _ => rfl, fun _ => nofun⟩, ?_, ?_⟩
    · rintro - ⟨pre, mid, t, heq, -⟩
      cases pre <;> cases heq
    · rintro ⟨pre, c, post, t, heq, -⟩
      cases pre <;> cases heq
  · rintro run t event t' ⟨hrun, hs, hunpolled, htracks⟩ hstep
    have htakes : Takes kind t event t' := takes_of_step hstep
    have hrun' := (lifecycle kind).stateAfter_append_singleton.mpr ⟨t, hrun, hstep⟩
    refine ⟨hrun', undisturbed_step hs htakes, ?_, ?_⟩
    · intro hno
      rw [stopStands_append_singleton hrun]
      rintro (⟨-, halive⟩ | ⟨-, -, hstands⟩)
      · exact hs.unpolled hno halive
      · exact hunpolled hno hstands
    · intro hopened
      rw [stopStands_append_singleton hrun]
      rcases opened_append_singleton hopened with ⟨c, rfl, u, hu, hconnected⟩ | ⟨hclose, hopened⟩
      · obtain rfl := Option.some.inj (hrun'.symm.trans hu)
        have hnot : ¬(Event.open c = .stop ∧ t.thread = .alive ∨
            (∀ c', Event.open c ≠ .open c') ∧ Event.open c ≠ .start ∧ StopStands kind n run) := by
          rintro (⟨h, -⟩ | ⟨h, -⟩)
          · cases h
          · exact h c rfl
        rw [eq_false hnot]
        cases htakes with
        | «open» _ hcaller => exact tracks_open hkind hcaller hconnected
      · exact tracks_step hkind hs (htracks hopened) hunpolled hclose htakes

/-- **An open device refuses the caller exactly while a `stop()` stands.** -/
theorem operations_reach_iff (hkind : kind ≠ .instrument) (hopened : Opened kind n run)
    (hreached : (lifecycle kind).stateAfter (initial n) run = some s) :
    Reaches kind s ↔ ¬StopStands kind n run := by
  obtain ⟨-, -, htracks⟩ := tracks_reached hkind hreached
  have hs := htracks hopened
  rw [reaches_iff hkind hs.connected, ← hs.stopEvent, Bool.not_eq_true]

/-- A device is opened and started. -/
def openStart : List Event := [.open true, .start]

theorem not_stopStands_openStart : ¬StopStands .modbusDevice 0 openStart := by
  rintro ⟨pre, mid, t, hrun, -⟩
  have hstop : Event.stop ∈ openStart := hrun ▸ List.mem_append_right pre List.mem_cons_self
  simp [openStart] at hstop

theorem operations_reach_started :
    Reaches .modbusDevice ⟨false, .alive, some 0, 1, [.channelBuffer 0], [], true, .idle⟩ :=
  (@operations_reach_iff .modbusDevice 0 openStart _ nofun ⟨[], true, [.start], _, rfl, rfl, rfl, by simp⟩ rfl).mpr
    not_stopStands_openStart

/-- Then its daemon is stopped. -/
def openStartStop : List Event :=
  openStart ++ [.stop, .daemonExits .stopObserved, .joined .none]

/-- The device is still open and its caller waits for nothing, and yet it is refused. -/
theorem stopped_device_refuses :
    ∃ s, Opened .modbusDevice 0 openStartStop ∧
      (lifecycle .modbusDevice).stateAfter (initial 0) openStartStop = some s ∧
      s.caller = .idle ∧ ¬Reaches .modbusDevice s := by
  refine ⟨⟨true, .exited, none, 1, [], [.channelBuffer 0], true, .idle⟩,
    ⟨[], true, _, _, rfl, rfl, rfl, by simp⟩, rfl, rfl, fun hreaches => ?_⟩
  have hrefused := hreaches.1 ⟨true, some fun _ => .ok ()⟩ rfl rfl (.writeCoil 0 true)
  cases hrefused

end Runs

end Instro.Instrument
