import Instro.Library.EventLoop
import Mathlib.Data.List.Count

/-!
# The background daemon

The caller opens, starts, stops and closes an instrument; the daemon thread runs beside it and
leaves when it sees the stop event or when a publisher raises on its timing measurement. A call is
one event, except where the caller reads or waits for the thread in the middle of it.
-/

namespace Instro.Instrument

open Instro.Library

/-- Whose lifecycle it is. `polled`: the EtherNet/IP configuration has tags to poll. -/
inductive Kind
  | instrument
  | modbusDevice
  | etherNetIPDevice (polled : Bool)
  deriving DecidableEq

/-- A publisher the instrument was given, or the `n`-th channel buffer made for it. -/
inductive Publisher
  | given (n : Nat)
  | channelBuffer (n : Nat)
  deriving DecidableEq

inductive Thread
  | none
  | alive
  | exited
  deriving DecidableEq

/-- Where the caller is: between calls, in `close()` before its `stop()` looks at the thread, or in
the `join` of a `stop()`. -/
inductive Caller
  | idle
  | closing
  | joining (inClose : Bool)
  deriving DecidableEq

/-- `created` counts the channel buffers made so far; `closed` lists the publishers that have been
closed, which none of them undoes. -/
structure State where
  stopEvent : Bool
  thread : Thread
  channelBuffer : Option Nat
  created : Nat
  publishers : List Publisher
  closed : List Publisher
  connected : Bool
  caller : Caller
  deriving DecidableEq

/-- After `__init__`, with `n` publishers given. -/
def initial (n : Nat) : State :=
  { stopEvent := false
    thread := .none
    channelBuffer := none
    created := 0
    publishers := (List.range n).map .given
    closed := []
    connected := false
    caller := .idle }

/-- What raises in `close()`: the publisher at an index, the client. -/
structure CloseFailure where
  publisher : Option Nat
  client : Bool

/-- Nothing raises. -/
def CloseFailure.none : CloseFailure := ⟨Option.none, false⟩

inductive ExitCause
  | stopObserved
  | publisherRaised
  deriving DecidableEq

/-- `closeStops` is the `stop()` inside `close()`, and what follows it if there is no thread to wait
for; `joined` is what follows the `join`. -/
inductive Event
  | open (connects : Bool)
  | start
  | stop
  | close
  | closeStops (failure : CloseFailure)
  | joined (failure : CloseFailure)
  | daemonExits (cause : ExitCause)

namespace State

variable (kind : Kind) (s : State)

/-! ## The calls -/

/-- A device clears the stop event before it looks for a client. -/
def «open» (connects : Bool) : State :=
  match kind with
  | .instrument => s
  | .modbusDevice | .etherNetIPDevice _ =>
    { s with stopEvent := false, connected := s.connected || connects }

def setupChannelBuffer : State :=
  let s :=
    match s.channelBuffer with
    | some _ => s
    | none => { s with channelBuffer := some s.created, created := s.created + 1 }
  match s.channelBuffer with
  | some b =>
    if .channelBuffer b ∈ s.publishers then s
    else { s with publishers := s.publishers ++ [.channelBuffer b] }
  | none => s

/-- `Instrument.start` -/
def startDaemon : State :=
  if s.thread = .alive then s
  else { s.setupChannelBuffer with stopEvent := false, thread := .alive }

/-- An EtherNet/IP device without polled tags raises. -/
def start : State :=
  match kind with
  | .instrument | .modbusDevice | .etherNetIPDevice true => s.startDaemon
  | .etherNetIPDevice false => s

/-- `stop()` up to its `join`. -/
def stop (inClose : Bool) : State :=
  { s with stopEvent := true, caller := .joining inClose }

/-- A device sets the stop event before the base class stops the daemon. -/
def close : State :=
  match kind with
  | .instrument => { s with caller := .closing }
  | .modbusDevice | .etherNetIPDevice _ => { s with stopEvent := true, caller := .closing }

/-- `stop()` after its `join`: the buffer is closed and dropped. -/
def dropChannelBuffer (b : Nat) : State :=
  { s with
    channelBuffer := none
    publishers := s.publishers.erase (.channelBuffer b)
    closed := s.closed ++ [.channelBuffer b] }

/-- An EtherNet/IP device logs what its client raises. -/
def closeClient (raises : Bool) : State :=
  match kind with
  | .instrument => s
  | .modbusDevice => { s with connected := s.connected && raises }
  | .etherNetIPDevice _ => { s with connected := false }

/-- `close()` after its `stop()`: close the publishers, then the client. A publisher that raises
ends it. The channel buffer does not raise. -/
def closePublishers (failure : CloseFailure) : Option State :=
  match failure.publisher with
  | none =>
    some (({ s with closed := s.closed ++ s.publishers, caller := .idle } : State).closeClient kind
      failure.client)
  | some i =>
    match s.publishers[i]? with
    | some (.given _) =>
      some { s with closed := s.closed ++ s.publishers.take i, caller := .idle }
    | _ => none

/-- After the `join`. -/
def joined (inClose : Bool) (failure : CloseFailure) : Option State :=
  match s.channelBuffer with
  -- the assertion fails
  | none => some { s with caller := .idle }
  | some b =>
    if inClose then (s.dropChannelBuffer b).closePublishers kind failure
    else some { s.dropChannelBuffer b with caller := .idle }

/-- Whether the daemon thread may leave its loop. The channel buffer does not raise. -/
def mayExit (cause : ExitCause) : Bool :=
  match cause with
  | .stopObserved => s.stopEvent
  | .publisherRaised => s.publishers.any fun p => p matches .given _

def daemonExits (cause : ExitCause) : Option State :=
  if s.thread = .alive ∧ s.mayExit cause = true then some { s with thread := .exited } else none

end State

/-- What an event leads to, if it is possible. -/
def step (kind : Kind) (s : State) (event : Event) : Option State :=
  match event, s.caller with
  | .open connects, .idle => some (s.open kind connects)
  | .start, .idle => some (s.start kind)
  | .stop, .idle => some (if s.thread = .alive then s.stop false else s)
  | .close, .idle => some (s.close kind)
  | .closeStops failure, .closing =>
    if s.thread = .alive then some (s.stop true) else s.closePublishers kind failure
  | .joined failure, .joining inClose =>
    if s.thread = .exited then s.joined kind inClose failure else none
  | .daemonExits cause, _ => s.daemonExits cause
  | _, _ => none

/-- The instrument and its daemon, in any order of their steps. -/
def lifecycle (kind : Kind) : EventLoop State Event Empty :=
  ⟨fun s event => ([], step kind s event)⟩

/-! ## `get_channel` -/

inductive ChannelError
  | noChannelBuffer
  | assertionError
  | bufferClosed
  deriving DecidableEq

/-- The buffer `get_channel` reads from. -/
def State.getChannel (s : State) : Except ChannelError Nat :=
  if s.thread = .alive then
    match s.channelBuffer with
    | none => .error .assertionError
    | some b => if .channelBuffer b ∈ s.closed then .error .bufferClosed else .ok b
  else .error .noChannelBuffer

/-! ## What a step does -/

section Steps

variable {kind : Kind} {s s' : State}

@[simp] theorem open_thread (c : Bool) : (s.open kind c).thread = s.thread := by cases kind <;> rfl

@[simp] theorem open_channelBuffer (c : Bool) :
    (s.open kind c).channelBuffer = s.channelBuffer := by cases kind <;> rfl

@[simp] theorem open_created (c : Bool) : (s.open kind c).created = s.created := by
  cases kind <;> rfl

@[simp] theorem open_publishers (c : Bool) : (s.open kind c).publishers = s.publishers := by
  cases kind <;> rfl

@[simp] theorem open_closed (c : Bool) : (s.open kind c).closed = s.closed := by cases kind <;> rfl

@[simp] theorem open_caller (c : Bool) : (s.open kind c).caller = s.caller := by cases kind <;> rfl

@[simp] theorem setupChannelBuffer_connected :
    s.setupChannelBuffer.connected = s.connected := by
  unfold State.setupChannelBuffer
  cases s.channelBuffer with
  | none =>
    dsimp only
    split <;> rfl
  | some b =>
    dsimp only
    split
    · split <;> rfl
    · rfl

@[simp] theorem setupChannelBuffer_caller : s.setupChannelBuffer.caller = s.caller := by
  unfold State.setupChannelBuffer
  cases s.channelBuffer with
  | none =>
    dsimp only
    split <;> rfl
  | some b =>
    dsimp only
    split
    · split <;> rfl
    · rfl

/-- What closing the publishers changes: some of them, from the first on, become closed. -/
theorem closePublishers_eq {failure : CloseFailure}
    (h : s.closePublishers kind failure = some s') :
    ∃ c, s' = { s with
      closed := s.closed ++ s.publishers.take (failure.publisher.getD s.publishers.length)
      connected := c
      caller := .idle } := by
  obtain ⟨publisher, client⟩ := failure
  unfold State.closePublishers at h
  cases publisher with
  | none =>
    obtain rfl := Option.some.inj h
    rw [Option.getD_none, List.take_length]
    cases kind with
    | instrument => exact ⟨_, rfl⟩
    | modbusDevice => exact ⟨_, rfl⟩
    | etherNetIPDevice polled => exact ⟨_, rfl⟩
  | some i =>
    dsimp only at h
    split at h
    · obtain rfl := Option.some.inj h
      exact ⟨_, rfl⟩
    · cases h

/-- What follows the `join` of a thread that had a channel buffer: the buffer is dropped, and in
`close()` some of the publishers left are closed. -/
theorem joined_of_some {failure : CloseFailure} {inClose : Bool} {b : Nat}
    (hb : s.channelBuffer = some b) (h : s.joined kind inClose failure = some s') :
    ∃ n c, s' = { s.dropChannelBuffer b with
      closed := (s.dropChannelBuffer b).closed ++ (s.dropChannelBuffer b).publishers.take n
      connected := c
      caller := .idle } := by
  unfold State.joined at h
  rw [hb] at h
  dsimp only at h
  split_ifs at h with hclose
  · obtain ⟨c, rfl⟩ := closePublishers_eq h
    exact ⟨_, c, rfl⟩
  · obtain rfl := Option.some.inj h
    refine ⟨0, s.connected, ?_⟩
    rw [List.take_zero, List.append_nil]
    rfl

/-- The steps, one constructor for each way an event goes. -/
inductive Takes (kind : Kind) (s : State) : Event → State → Prop
  | «open» (c : Bool) (hcaller : s.caller = .idle) : Takes kind s (.open c) (s.open kind c)
  | start (hcaller : s.caller = .idle) (hthread : s.thread ≠ .alive)
      (hkind : kind ≠ .etherNetIPDevice false) :
      Takes kind s .start { s.setupChannelBuffer with stopEvent := false, thread := .alive }
  | startIdle (hcaller : s.caller = .idle)
      (h : s.thread = .alive ∨ kind = .etherNetIPDevice false) : Takes kind s .start s
  | stop (hcaller : s.caller = .idle) (hthread : s.thread = .alive) :
      Takes kind s .stop (s.stop false)
  | stopIdle (hcaller : s.caller = .idle) (hthread : s.thread ≠ .alive) : Takes kind s .stop s
  | close (hcaller : s.caller = .idle) : Takes kind s .close (s.close kind)
  | closeJoins (failure : CloseFailure) (hcaller : s.caller = .closing)
      (hthread : s.thread = .alive) : Takes kind s (.closeStops failure) (s.stop true)
  | closeIdle (failure : CloseFailure) (s' : State) (hcaller : s.caller = .closing)
      (hthread : s.thread ≠ .alive) (h : s.closePublishers kind failure = some s') :
      Takes kind s (.closeStops failure) s'
  | joined (failure : CloseFailure) (inClose : Bool) (s' : State)
      (hcaller : s.caller = .joining inClose) (hthread : s.thread = .exited)
      (h : s.joined kind inClose failure = some s') : Takes kind s (.joined failure) s'
  | daemonExits (cause : ExitCause) (hthread : s.thread = .alive) (h : s.mayExit cause = true) :
      Takes kind s (.daemonExits cause) { s with thread := .exited }

theorem takes_start (hcaller : s.caller = .idle) : Takes kind s .start (s.start kind) := by
  by_cases hthread : s.thread = .alive
  · have hstart : s.start kind = s := by
      rcases kind with _ | _ | ⟨_ | _⟩ <;> simp [State.start, State.startDaemon, hthread]
    rw [hstart]
    exact .startIdle hcaller (.inl hthread)
  · by_cases hkind : kind = .etherNetIPDevice false
    · subst hkind
      exact .startIdle hcaller (.inr rfl)
    · have hstart : s.start kind =
          { s.setupChannelBuffer with stopEvent := false, thread := .alive } := by
        rcases kind with _ | _ | ⟨_ | _⟩
        · exact if_neg hthread
        · exact if_neg hthread
        · exact absurd rfl hkind
        · exact if_neg hthread
      rw [hstart]
      exact .start hcaller hthread hkind

theorem takes_of_step {event : Event} (h : step kind s event = some s') :
    Takes kind s event s' := by
  unfold step at h
  split at h
  case h_1 connects hcaller =>
    obtain rfl := Option.some.inj h
    exact .open connects hcaller
  case h_2 hcaller =>
    obtain rfl := Option.some.inj h
    exact takes_start hcaller
  case h_3 hcaller =>
    by_cases hthread : s.thread = .alive
    · rw [if_pos hthread] at h
      obtain rfl := Option.some.inj h
      exact .stop hcaller hthread
    · rw [if_neg hthread] at h
      obtain rfl := Option.some.inj h
      exact .stopIdle hcaller hthread
  case h_4 hcaller =>
    obtain rfl := Option.some.inj h
    exact .close hcaller
  case h_5 failure hcaller =>
    by_cases hthread : s.thread = .alive
    · rw [if_pos hthread] at h
      obtain rfl := Option.some.inj h
      exact .closeJoins failure hcaller hthread
    · rw [if_neg hthread] at h
      exact .closeIdle failure s' hcaller hthread h
  case h_6 failure inClose hcaller =>
    by_cases hthread : s.thread = .exited
    · rw [if_pos hthread] at h
      exact .joined failure inClose s' hcaller hthread h
    · rw [if_neg hthread] at h
      cases h
  case h_7 _ cause =>
    by_cases hexit : s.thread = .alive ∧ s.mayExit cause = true
    · unfold State.daemonExits at h
      rw [if_pos hexit] at h
      obtain rfl := Option.some.inj h
      exact .daemonExits cause hexit.1 hexit.2
    · unfold State.daemonExits at h
      rw [if_neg hexit] at h
      cases h
  case h_8 => cases h

/-- What follows the `join` leaves the thread and the stop event alone, and after a plain `stop()`
the connection too. -/
theorem joined_keeps {failure : CloseFailure} {inClose : Bool}
    (h : s.joined kind inClose failure = some s') :
    s'.thread = s.thread ∧ s'.caller = .idle ∧
      (inClose = false → s'.stopEvent = s.stopEvent ∧ s'.connected = s.connected) := by
  unfold State.joined at h
  split at h
  · obtain rfl := Option.some.inj h
    exact ⟨rfl, rfl, fun _ => ⟨rfl, rfl⟩⟩
  · split at h
    case isTrue hclose =>
      obtain ⟨c, rfl⟩ := closePublishers_eq h
      refine ⟨rfl, rfl, fun hplain => ?_⟩
      rw [hplain] at hclose
      cases hclose
    case isFalse =>
      obtain rfl := Option.some.inj h
      exact ⟨rfl, rfl, fun _ => ⟨rfl, rfl⟩⟩

/-- Only `start()` brings a thread to life. -/
theorem start_of_alive {event : Event} (hthread : s.thread ≠ .alive) (h : Takes kind s event s')
    (halive : s'.thread = .alive) : event = .start ∧ kind ≠ .etherNetIPDevice false := by
  cases h with
  | «open» c hcaller =>
    rw [open_thread] at halive
    exact absurd halive hthread
  | start hcaller hthread hkind => exact ⟨rfl, hkind⟩
  | startIdle hcaller h => exact absurd halive hthread
  | stop hcaller hthread => exact absurd halive ‹_›
  | stopIdle hcaller hthread => exact absurd halive hthread
  | close hcaller => cases kind <;> exact absurd halive hthread
  | closeJoins failure hcaller _ => exact absurd halive hthread
  | closeIdle failure _ hcaller _ h =>
    obtain ⟨c, rfl⟩ := closePublishers_eq h
    exact absurd halive hthread
  | joined failure inClose _ hcaller hexited h =>
    rw [(joined_keeps h).1] at halive
    exact absurd halive hthread
  | daemonExits cause _ h => cases halive

end Steps

end Instro.Instrument
