import Instro.Library.EventLoop
import Instro.Publishers.Buffers

/-!
# The channel buffer publisher

One monitor protects the buffers, the counts and the closed flag. `publish` and `close` hold it from
beginning to end; a `get` holds it from one wait to the next. A thread in `wait_for` may take the
monitor back at any time: it was notified, or its time is up, and it runs the same code.
-/

namespace Instro.Publishers

open Instro.Library

variable {α β τ : Type}

structure Measurement (α : Type) where
  channelData : List (String × List α)
  timestamps : List ℤ
  deriving DecidableEq

/-! ## The buffers -/

/-- `values` and `timestamps` are dictionaries, `totalAddedCount` a counter. -/
structure ChannelBuffer (β τ : Type) where
  maxlen : ℤ
  values : String → Option β
  timestamps : String → Option τ
  totalAddedCount : String → ℕ
  closed : Bool

/-- After `__init__`. -/
def ChannelBuffer.empty (maxlen : ℤ) : ChannelBuffer β τ where
  maxlen := maxlen
  values _ := none
  timestamps _ := none
  totalAddedCount _ := 0
  closed := false

/-- The buffers after some statements, and what the last one raised. -/
abbrev Statements (β τ : Type) := ChannelBuffer β τ × Except PyException Unit

/-- The statements that follow, unless one has raised. -/
def Statements.andThen (r : Statements β τ) (next : ChannelBuffer β τ → Statements β τ) :
    Statements β τ :=
  match r with
  | (s, .ok ()) => next s
  | (s, .error e) => (s, .error e)

namespace ChannelBuffer

variable (p : Publisher α β τ) (s : ChannelBuffer β τ) (channelName : String)

def setValues (buffer : β) : ChannelBuffer β τ :=
  { s with values := Function.update s.values channelName (some buffer) }

def setTimestamps (buffer : τ) : ChannelBuffer β τ :=
  { s with timestamps := Function.update s.timestamps channelName (some buffer) }

/-- `_ensure_channel` -/
def ensureChannel : Statements β τ :=
  if (s.values channelName).isSome then (s, .ok ())
  else
    match p.values.new s.maxlen with
    | .error e => (s, .error e)
    | .ok buffer =>
      let s := s.setValues channelName buffer
      match p.timestamps.new s.maxlen with
      | .error e => (s, .error e)
      | .ok buffer => (s.setTimestamps channelName buffer, .ok ())

/-- `_extend_values` -/
def extendValues (values : List α) : Statements β τ :=
  match s.values channelName with
  | none => (s, .error .keyError)
  | some buffer =>
    match p.values.extend buffer values with
    | .error e => (s, .error e)
    | .ok buffer => (s.setValues channelName buffer, .ok ())

/-- `_extend_timestamps` -/
def extendTimestamps (timestamps : List ℤ) : Statements β τ :=
  match s.timestamps channelName with
  | none => (s, .error .keyError)
  | some buffer =>
    match p.timestamps.extend buffer timestamps with
    | .error e => (s, .error e)
    | .ok buffer => (s.setTimestamps channelName buffer, .ok ())

def addCount (n : ℕ) : ChannelBuffer β τ :=
  { s with
    totalAddedCount :=
      Function.update s.totalAddedCount channelName (s.totalAddedCount channelName + n) }

/-- What `publish` does for one channel. -/
def publishChannel (timestamps : List ℤ) (values : List α) : Statements β τ :=
  Statements.andThen (s.ensureChannel p channelName) fun s =>
    Statements.andThen (s.extendValues p channelName values) fun s =>
      Statements.andThen (s.extendTimestamps p channelName timestamps) fun s =>
        (s.addCount channelName values.length, .ok ())

def publishChannels (timestamps : List ℤ) :
    ChannelBuffer β τ → List (String × List α) → Statements β τ
  | s, [] => (s, .ok ())
  | s, (channelName, values) :: channels =>
    Statements.andThen (s.publishChannel p channelName timestamps values) fun s =>
      publishChannels timestamps s channels

/-- `publish` of a measurement. A command is not buffered. -/
def publish (data : Measurement α) : Statements β τ :=
  publishChannels p data.timestamps s data.channelData

def close : ChannelBuffer β τ :=
  { s with
    closed := true
    values := fun _ => none
    timestamps := fun _ => none
    totalAddedCount := fun _ => 0 }

/-- `channel_name in self._values` -/
def hasChannel : Bool := (s.values channelName).isSome

/-- `_points_in_buffer` -/
def pointsInBuffer : Except PyException ℕ :=
  match s.values channelName with
  | none => .error .keyError
  | some buffer => .ok (p.values.length buffer)

/-- `_get_values` -/
def getValues (length : ℕ) : Except PyException (List α) :=
  match s.values channelName with
  | none => .error .keyError
  | some buffer => p.values.getLatest buffer length

/-- `_get_timestamps` -/
def getTimestamps (length : ℕ) : Except PyException (List ℤ) :=
  match s.timestamps channelName with
  | none => .error .keyError
  | some buffer => p.timestamps.getLatest buffer length

/-- The last `length` items, or as many as there are. -/
def latest (length : ℕ) : Except PyException (Measurement α) := do
  let n := min length (← s.pointsInBuffer p channelName)
  let values ← s.getValues p channelName n
  let timestamps ← s.getTimestamps p channelName n
  return ⟨[(channelName, values)], timestamps⟩

end ChannelBuffer

/-! ## Waiting -/

/-- `x < y` -/
def before (x y : PyFloat) : Bool := Number.lt (.float x) (.float y)

/-- `x <= y` -/
def notAfter (x y : PyFloat) : Bool := Number.le (.float x) (.float y)

/-- A round of `wait_for` when the predicate does not hold. -/
inductive Round
  | waits (endtime : PyFloat)
  | gaveUp
  | overflows

/-- The first round. A lock raises when it is to be waited for longer than `TIMEOUT_MAX`. -/
def firstRound (fl : Rounding) (timeoutMax timeout now : PyFloat) : Round :=
  if before timeoutMax timeout then .overflows else .waits (PyFloat.add fl now timeout)

def nextRound (fl : Rounding) (timeoutMax endtime now : PyFloat) : Round :=
  let waittime := PyFloat.sub fl endtime now
  if notAfter waittime (.finite 0) then .gaveUp
  else if before timeoutMax waittime then .overflows
  else .waits endtime

/-! ## Getting -/

/-- The arguments of `get`. -/
structure Call where
  channelName : String
  length : ℕ
  waitForNewSamples : Bool
  timeout : PyFloat
  length_pos : 1 ≤ length
  deriving DecidableEq

/-- The messages of `ChannelValueTimeoutError`. -/
inductive ValueTimeout
  | notAccumulated (channelName : String) (length : ℕ) (timeout : PyFloat) (available : ℕ)
  | closedBeforeAccumulated (channelName : String) (length available : ℕ)
  | notReceived (channelName : String) (length : ℕ) (timeout : PyFloat) (received : ℤ)
  | closedBeforeReceived (channelName : String) (length : ℕ)
  deriving DecidableEq

inductive GetError
  | channelNotFoundError (channelName : String) (timeout : PyFloat)
  | channelValueTimeoutError (message : ValueTimeout)
  /-- `ValueError`, "Publisher is closed." -/
  | publisherIsClosed (channelName : String)
  | python (e : PyException)
  deriving DecidableEq

/-- Where a `get` is when it does not hold the monitor. In the last three it is inside `wait_for`;
in `appeared` it is about to enter `_get_with_wait`. -/
inductive Phase
  | called
  | missing
  | appeared (remaining : PyFloat)
  | awaitsChannel (endtime : PyFloat)
  | awaitsPoints (endtime : PyFloat)
  | awaitsNew (startCount : ℕ) (remaining endtime : PyFloat)

structure Getter where
  call : Call
  startTime : PyFloat
  phase : Phase

/-- What a `get` comes to before it lets go of the monitor. -/
inductive Turn (α : Type)
  | goesOn (phase : Phase)
  | ends (result : Except GetError (Measurement α))

/-- An exception that nothing catches. -/
def escapes {γ : Type} (x : Except PyException γ) : Except GetError γ := x.mapError .python

section Turns

variable (p : Publisher α β τ) (fl : Rounding) (timeoutMax : PyFloat) (s : ChannelBuffer β τ)
  (call : Call)

/-- `timeout - elapsed` -/
def remaining (startTime now : PyFloat) : PyFloat :=
  PyFloat.sub fl call.timeout (PyFloat.sub fl now startTime)

/-- The end of `_get_with_buffer_wait`. -/
def accumulated : Except GetError (Measurement α) := do
  if s.closed then
    let currentLength ← escapes (s.pointsInBuffer p call.channelName)
    if currentLength < call.length then
      throw (.channelValueTimeoutError
        (.closedBeforeAccumulated call.channelName call.length currentLength))
  escapes (s.latest p call.channelName call.length)

variable {p s call} in
/-- Where the points can be counted, what is too few for the call is missed only after `close()`. -/
theorem accumulated_of_points {points : ℕ}
    (h : s.pointsInBuffer p call.channelName = .ok points) :
    accumulated p s call =
      if s.closed ∧ points < call.length then
        .error (.channelValueTimeoutError
          (.closedBeforeAccumulated call.channelName call.length points))
      else escapes (s.latest p call.channelName call.length) := by
  unfold accumulated
  rw [h]
  by_cases hclosed : s.closed = true
  · rw [if_pos hclosed, if_congr (and_iff_right hclosed) rfl rfl]
    show (if points < call.length then _ else _) = _
    split_ifs with hfew
    · rfl
    · rfl
  · rw [if_neg hclosed, if_neg fun h => hclosed h.1]

/-- The second wait of `_get_with_buffer_wait`. -/
def pointsWait (round : Round) : Turn α :=
  match s.pointsInBuffer p call.channelName with
  | .error e => .ends (.error (.python e))
  | .ok points =>
    if call.length ≤ points ∨ s.closed then .ends (accumulated p s call)
    else
      match round with
      | .waits endtime => .goesOn (.awaitsPoints endtime)
      | .gaveUp => .ends (.error (.channelValueTimeoutError
          (.notAccumulated call.channelName call.length call.timeout points)))
      | .overflows => .ends (.error (.python .overflowError))

/-- The wait for the channel is over. -/
def channelFound (startTime now later : PyFloat) : Turn α :=
  if s.closed then .ends (.error (.publisherIsClosed call.channelName))
  else
    let remaining := remaining fl call startTime now
    if call.waitForNewSamples then .goesOn (.appeared remaining)
    else if before (.finite 0) remaining then
      pointsWait p s call (firstRound fl timeoutMax remaining later)
    else .ends (accumulated p s call)

/-- The first wait of `get` and of `_get_with_buffer_wait`. -/
def channelWait (startTime : PyFloat) (round : Round) (now later : PyFloat) : Turn α :=
  if s.hasChannel call.channelName ∨ s.closed then
    channelFound p fl timeoutMax s call startTime now later
  else
    match round with
    | .waits endtime => .goesOn (.awaitsChannel endtime)
    | .gaveUp => .ends (.error (.channelNotFoundError call.channelName call.timeout))
    | .overflows => .ends (.error (.python .overflowError))

/-- The end of `_get_with_wait`. -/
def received (startCount : ℕ) : Except GetError (Measurement α) :=
  if s.closed ∧ s.totalAddedCount call.channelName < startCount + call.length then
    .error (.channelValueTimeoutError (.closedBeforeReceived call.channelName call.length))
  else escapes (s.latest p call.channelName call.length)

/-- The wait of `_get_with_wait`. -/
def newWait (startCount : ℕ) (remaining : PyFloat) (round : Round) : Turn α :=
  if startCount + call.length ≤ s.totalAddedCount call.channelName ∨ s.closed then
    .ends (received p s call startCount)
  else
    match round with
    | .waits endtime => .goesOn (.awaitsNew startCount remaining endtime)
    | .gaveUp => .ends (.error (.channelValueTimeoutError
        (.notReceived call.channelName call.length remaining
          (s.totalAddedCount call.channelName - startCount))))
    | .overflows => .ends (.error (.python .overflowError))

/-- What a `get` does with the monitor. It reads the clock once or twice. -/
def turn (getter : Getter) (now later : PyFloat) : Turn α :=
  let call := getter.call
  let start := getter.startTime
  match getter.phase with
  | .called =>
    if call.waitForNewSamples then
      if s.hasChannel call.channelName then .goesOn (.appeared (remaining fl call start now))
      else .goesOn .missing
    else channelWait p fl timeoutMax s call start (firstRound fl timeoutMax call.timeout now) now later
  | .missing =>
    channelWait p fl timeoutMax s call start (firstRound fl timeoutMax call.timeout now) now later
  | .awaitsChannel endtime =>
    channelWait p fl timeoutMax s call start (nextRound fl timeoutMax endtime now) now later
  | .awaitsPoints endtime => pointsWait p s call (nextRound fl timeoutMax endtime now)
  | .appeared remaining =>
    newWait p s call (s.totalAddedCount call.channelName) remaining
      (firstRound fl timeoutMax remaining now)
  | .awaitsNew startCount remaining endtime =>
    newWait p s call startCount remaining (nextRound fl timeoutMax endtime now)

end Turns

/-! ## The publisher and the threads -/

/-- The buffers, and the threads that are in a `get`. -/
structure System (β τ : Type) where
  buffer : ChannelBuffer β τ
  getters : ℕ → Option Getter

def System.initial (maxlen : ℤ) : System β τ := ⟨.empty maxlen, fun _ => none⟩

/-- `runs`: a thread in a `get` has the monitor. -/
inductive Event (α : Type)
  | publish (data : Measurement α)
  | close
  | get (thread : ℕ) (call : Call) (now : PyFloat)
  | runs (thread : ℕ) (now later : PyFloat)

/-- What a call has come to. -/
inductive Action (α : Type)
  | published (result : Except PyException Unit)
  | got (thread : ℕ) (call : Call) (result : Except GetError (Measurement α))
  deriving DecidableEq

namespace System

variable (s : System β τ) (thread : ℕ)

def setGetter (getter : Option Getter) : System β τ :=
  { s with getters := Function.update s.getters thread getter }

@[simp] theorem setGetter_self (getter : Option Getter) :
    (s.setGetter thread getter).getters thread = getter := Function.update_self ..

variable {s thread} in
theorem setGetter_ne {thread' : ℕ} (h : thread' ≠ thread) (getter : Option Getter) :
    (s.setGetter thread getter).getters thread' = s.getters thread' :=
  Function.update_of_ne h ..

/-- A thread calls `get`. -/
def get (call : Call) (now : PyFloat) : Option (System β τ) :=
  match s.getters thread with
  | some _ => none
  | none => some (s.setGetter thread (some ⟨call, now, .called⟩))

def runs (p : Publisher α β τ) (fl : Rounding) (timeoutMax now later : PyFloat) :
    Option (System β τ × List (Action α)) :=
  match s.getters thread with
  | none => none
  | some getter =>
    match turn p fl timeoutMax s.buffer getter now later with
    | .goesOn phase => some (s.setGetter thread (some { getter with phase }), [])
    | .ends result => some (s.setGetter thread none, [.got thread getter.call result])

end System

/-- What an event does, if it is possible. -/
def step (p : Publisher α β τ) (fl : Rounding) (timeoutMax : PyFloat) (s : System β τ) :
    Event α → Option (System β τ × List (Action α))
  | .publish data =>
    let (buffer, result) := s.buffer.publish p data
    some ({ s with buffer }, [.published result])
  | .close => some ({ s with buffer := s.buffer.close }, [])
  | .get thread call now => (s.get thread call now).map (·, [])
  | .runs thread now later => s.runs thread p fl timeoutMax now later

/-- Publishing, closing and getting, in any order of the steps that hold the monitor. -/
def monitor (p : Publisher α β τ) (fl : Rounding) (timeoutMax : PyFloat) :
    EventLoop (System β τ) (Event α) (Action α) where
  step s event :=
    match step p fl timeoutMax s event with
    | none => ([], none)
    | some (s, actions) => (actions, some s)

/-- What an event can do. -/
inductive Moves (p : Publisher α β τ) (fl : Rounding) (timeoutMax : PyFloat) (s : System β τ) :
    Event α → List (Action α) → System β τ → Prop
  | publish {data} : Moves p fl timeoutMax s (.publish data)
      [.published (s.buffer.publish p data).2] { s with buffer := (s.buffer.publish p data).1 }
  | close : Moves p fl timeoutMax s .close [] { s with buffer := s.buffer.close }
  | get {thread call now} (hnone : s.getters thread = none) :
      Moves p fl timeoutMax s (.get thread call now) []
        (s.setGetter thread (some ⟨call, now, .called⟩))
  | goesOn {thread now later getter phase} (hgetter : s.getters thread = some getter)
      (hturn : turn p fl timeoutMax s.buffer getter now later = .goesOn phase) :
      Moves p fl timeoutMax s (.runs thread now later) []
        (s.setGetter thread (some { getter with phase }))
  | ends {thread now later getter result} (hgetter : s.getters thread = some getter)
      (hturn : turn p fl timeoutMax s.buffer getter now later = .ends result) :
      Moves p fl timeoutMax s (.runs thread now later) [.got thread getter.call result]
        (s.setGetter thread none)

theorem moves_of_step {p : Publisher α β τ} {fl : Rounding} {timeoutMax : PyFloat}
    {s s' : System β τ} {event : Event α}
    (h : ((monitor p fl timeoutMax).step s event).2 = some s') :
    ∃ actions, ((monitor p fl timeoutMax).step s event).1 = actions ∧
      Moves p fl timeoutMax s event actions s' := by
  unfold monitor step at h ⊢
  cases event with
  | publish data =>
    cases h
    exact ⟨_, rfl, .publish⟩
  | close =>
    cases h
    exact ⟨_, rfl, .close⟩
  | get thread call now =>
    unfold System.get at h ⊢
    dsimp only at h ⊢
    cases hgetter : s.getters thread with
    | some getter =>
      rw [hgetter] at h
      cases h
    | none =>
      rw [hgetter] at h
      cases h
      exact ⟨_, rfl, .get hgetter⟩
  | runs thread now later =>
    unfold System.runs at h ⊢
    dsimp only at h ⊢
    cases hgetter : s.getters thread with
    | none =>
      rw [hgetter] at h
      cases h
    | some getter =>
      rw [hgetter] at h
      dsimp only at h ⊢
      cases hturn : turn p fl timeoutMax s.buffer getter now later with
      | goesOn phase =>
        rw [hturn] at h
        cases h
        exact ⟨_, rfl, .goesOn hgetter hturn⟩
      | ends result =>
        rw [hturn] at h
        cases h
        exact ⟨_, rfl, .ends hgetter hturn⟩

/-- An event that is not possible shows nothing. -/
theorem moves_of_mem {p : Publisher α β τ} {fl : Rounding} {timeoutMax : PyFloat} {s : System β τ}
    {event : Event α} {action : Action α}
    (h : action ∈ ((monitor p fl timeoutMax).step s event).1) :
    ∃ actions s', action ∈ actions ∧ Moves p fl timeoutMax s event actions s' := by
  cases hafter : ((monitor p fl timeoutMax).step s event).2 with
  | none =>
    unfold monitor at h hafter
    dsimp only at h hafter
    split at h
    · cases h
    · rename_i hstep
      rw [hstep] at hafter
      cases hafter
  | some s' =>
    obtain ⟨actions, hactions, hmoves⟩ := moves_of_step hafter
    exact ⟨actions, s', hactions ▸ h, hmoves⟩

end Instro.Publishers
