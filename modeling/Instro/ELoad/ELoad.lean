import Instro.Instrument.Packaging
import Instro.Library.EventLoop
import Instro.Library.Procedure

/-!
# The modes of an electronic load

`InstroELoad` remembers one mode for all its channels, and passes it to the driver with every level and
range. It remembers a mode before the driver has accepted it.
-/

namespace Instro.ELoad

open Instro.Library
open Instro.Instrument (Command Data Labels)

/-! ## The load -/

inductive LoadMode
  | CC
  | CR
  | CP
  | CV
  deriving DecidableEq

def LoadMode.value : LoadMode → String
  | CC => "CC"
  | CR => "CR"
  | CP => "CP"
  | CV => "CV"

inductive SlewRateDirection
  | RISE
  | FALL
  | BOTH
  deriving DecidableEq

/-- The calls of `ELoadDriverBase`. -/
inductive DriverCall
  | setMode (mode : LoadMode) (channel : ℤ)
  | setLevel (mode : LoadMode) (value : PyValue) (channel : ℤ) (currLimit : Option PyValue)
  | shortOutput (enable : Bool) (channel : ℤ)
  | setRange (mode : LoadMode) (value : PyValue) (channel : ℤ)
  | setSlewrate (direction : SlewRateDirection) (rate : PyValue) (channel : ℤ)
  | outputEnable (enable : Bool) (channel : ℤ)
  deriving DecidableEq

/-- A call of the driver that has been made. The driver accepts it, or it raises. -/
structure Made where
  call : DriverCall
  accepted : Bool
  deriving DecidableEq

inductive Raised
  /-- `ValueError` -/
  | valueError (message : String)
  /-- What the driver raises. -/
  | driver (message : String)
  | python (e : PyException)

structure InstroELoad where
  labels : Labels
  mode : Option LoadMode

/-- What a call of a method meets: the answer of the driver, and the time behind it. -/
structure Answer where
  driver : Except String Unit
  timeNs : ℤ

def Answer.accepted (answer : Answer) : Bool := answer.driver.toOption.isSome

abbrev Act := Procedure InstroELoad Made Raised

section Methods

variable (fl : Rounding) (answer : Answer) (channel : ℤ) (kwargs : Dict String String)

/-- The driver is called, and the command is packed. -/
def send (call : DriverCall) (legacy suffix : String) (data : Data) : Act Command := do
  Procedure.call ⟨call, answer.accepted⟩ (answer.driver.mapError .driver)
  let eload ← Procedure.get
  let descriptor := eload.labels.descriptor channel legacy suffix
  Procedure.lift
    ((eload.labels.packageCommand fl descriptor data answer.timeNs kwargs).mapError .python)

/-- A call that carries the mode. -/
def sendWithMode (message : String) (call : LoadMode → DriverCall) (suffix : String)
    (value : PyValue) : Act Command := do
  let eload ← Procedure.get
  match eload.mode with
  | none => Procedure.raise (.valueError message)
  | some mode => send fl answer channel kwargs (call mode) suffix suffix (.value value)

def setMode (mode : LoadMode) : Act Command := do
  Procedure.modify fun eload => { eload with mode := some mode }
  send fl answer channel kwargs (.setMode mode channel) "mode.cmd" "mode.cmd" (.text mode.value)

def setLevel (value : PyValue) (currLimit : Option PyValue) : Act Command :=
  sendWithMode fl answer channel kwargs "Mode must be set before setting level"
    (fun mode => .setLevel mode value channel currLimit) "level.cmd" value

def shortOutput (enable : Bool) : Act Command :=
  send fl answer channel kwargs (.shortOutput enable channel) "short.cmd" "short.cmd"
    (.value (.bool enable))

def setRange (value : PyValue) : Act Command :=
  sendWithMode fl answer channel kwargs "Mode must be set before setting range"
    (fun mode => .setRange mode value channel) "range.cmd" value

def setSlewrate (direction : SlewRateDirection) (rate : PyValue) : Act Command :=
  send fl answer channel kwargs (.setSlewrate direction rate channel) "slewrate.cmd" "slewrate.cmd"
    (.value rate)

def outputEnable (enable : Bool) : Act Command :=
  send fl answer channel kwargs (.outputEnable enable channel) "enable.cmd" "enabled.cmd"
    (.value (.bool enable))

end Methods

inductive Method
  | setMode (mode : LoadMode)
  | setLevel (value : PyValue) (currLimit : Option PyValue)
  | shortOutput (enable : Bool)
  | setRange (value : PyValue)
  | setSlewrate (direction : SlewRateDirection) (rate : PyValue)
  | outputEnable (enable : Bool)

/-- A call of a method, with what it meets. -/
structure Call where
  method : Method
  channel : ℤ
  kwargs : Dict String String
  answer : Answer

def Call.run (fl : Rounding) (call : Call) : Act Command :=
  match call.method with
  | .setMode mode => setMode fl call.answer call.channel call.kwargs mode
  | .setLevel value currLimit => setLevel fl call.answer call.channel call.kwargs value currLimit
  | .shortOutput enable => shortOutput fl call.answer call.channel call.kwargs enable
  | .setRange value => setRange fl call.answer call.channel call.kwargs value
  | .setSlewrate direction rate => setSlewrate fl call.answer call.channel call.kwargs direction rate
  | .outputEnable enable => outputEnable fl call.answer call.channel call.kwargs enable

/-- The load, and the calls of the driver it has made. -/
structure Session where
  eload : InstroELoad
  log : List Made

def Session.initial (labels : Labels) : Session := ⟨⟨labels, none⟩, []⟩

/-- The load over calls of its methods. -/
def session (fl : Rounding) : EventLoop Session Call Made where
  step s call :=
    let done := call.run fl s.eload
    (done.shown, some ⟨done.state, s.log ++ done.shown⟩)

/-! ## The modes of the channels -/

/-- The mode that a call of the driver asks for. -/
def Made.asks (made : Made) : Option LoadMode :=
  match made.call with
  | .setMode mode _ => some mode
  | _ => none

/-- The mode that a call of the driver leaves a channel in. -/
def Made.sets (channel : ℤ) (made : Made) : Option LoadMode :=
  match made.call with
  | .setMode mode channel' => if made.accepted ∧ channel' = channel then some mode else none
  | _ => none

/-- The mode and the channel of a `set_level` or a `set_range` of the driver. -/
def DriverCall.carries : DriverCall → Option (LoadMode × ℤ)
  | setLevel mode _ channel _ => some (mode, channel)
  | setRange mode _ channel => some (mode, channel)
  | _ => none

/-- `set_level` and `set_range` -/
def Method.needsMode : Method → Bool
  | setLevel _ _ => true
  | setRange _ => true
  | _ => false

/-- The mode of the last `set_mode`, on whatever channel, accepted or not. -/
def askedLast (log : List Made) : Option LoadMode := log.reverse.findSome? Made.asks

/-- The mode of the last `set_mode` on the channel that the driver accepted. -/
def acceptedLast (log : List Made) (channel : ℤ) : Option LoadMode :=
  log.reverse.findSome? (Made.sets channel)

/-- A level or a range goes to the driver with the mode of its channel, and a channel without a mode is
refused. -/
structure Kept (fl : Rounding) (s : Session) (call : Call) : Prop where
  carries : ∀ made ∈ (call.run fl s.eload).shown, ∀ mode channel,
    made.call.carries = some (mode, channel) → acceptedLast s.log channel = some mode
  refuses : call.method.needsMode = true → acceptedLast s.log call.channel = none →
    (call.run fl s.eload).shown = [] ∧
      ∃ message, (call.run fl s.eload).result = .error (.valueError message)

/-- The mode that was asked for last, on whatever channel, is the one the driver accepted last on the
channel of the call. -/
def Safe (s : Session) (call : Call) : Prop :=
  call.method.needsMode = true → askedLast s.log = acceptedLast s.log call.channel

section Log

variable {log : List Made} {made : Made} {channel : ℤ} {mode : LoadMode}

@[simp] theorem askedLast_append (log : List Made) (made : Made) :
    askedLast (log ++ [made]) = made.asks.or (askedLast log) := by
  unfold askedLast
  rw [List.reverse_append, List.findSome?_append]
  simp

@[simp] theorem acceptedLast_append (log : List Made) (made : Made) (channel : ℤ) :
    acceptedLast (log ++ [made]) channel = (made.sets channel).or (acceptedLast log channel) := by
  unfold acceptedLast
  rw [List.reverse_append, List.findSome?_append]
  simp

/-- A mode that has been accepted has been asked for. -/
theorem asks_of_sets (h : made.sets channel = some mode) : made.asks = some mode := by
  unfold Made.sets at h
  unfold Made.asks
  split at h
  · split_ifs at h
    exact h
  · cases h

/-- Where no mode has been asked for, none has been accepted. -/
theorem acceptedLast_eq_none (h : askedLast log = none) (channel : ℤ) :
    acceptedLast log channel = none := by
  refine List.findSome?_eq_none_iff.mpr fun made hmade => ?_
  have hasks : made.asks = none := List.findSome?_eq_none_iff.mp h made hmade
  cases hsets : made.sets channel with
  | none => rfl
  | some mode => rw [asks_of_sets hsets] at hasks; cases hasks

/-- A channel of which every mode asked for is accepted. -/
theorem askedLast_eq_append (h : askedLast log = acceptedLast log channel) {more : List Made}
    (hmore : ∀ made ∈ more, made.sets channel = made.asks) :
    askedLast (log ++ more) = acceptedLast (log ++ more) channel := by
  induction more using List.reverseRecOn with
  | nil => rwa [List.append_nil]
  | append_singleton more made ih =>
    obtain ⟨hmore, hmade⟩ := List.forall_mem_append.mp hmore
    rw [← List.append_assoc, askedLast_append, acceptedLast_append, ih hmore,
      hmade made (List.mem_singleton_self made)]

end Log

/-! ## What a call does -/

section Calls

variable {fl : Rounding} {answer : Answer} {channel : ℤ} {kwargs : Dict String String}
  {eload : InstroELoad} {mode : LoadMode}

@[simp] theorem send_state (call : DriverCall) (legacy suffix : String) (data : Data) :
    (send fl answer channel kwargs call legacy suffix data eload).state = eload := by
  obtain ⟨driver, timeNs⟩ := answer
  cases driver <;> rfl

@[simp] theorem send_shown (call : DriverCall) (legacy suffix : String) (data : Data) :
    (send fl answer channel kwargs call legacy suffix data eload).shown =
      [⟨call, answer.accepted⟩] := by
  obtain ⟨driver, timeNs⟩ := answer
  cases driver <;> rfl

theorem sendWithMode_none (h : eload.mode = none) (message : String) (make : LoadMode → DriverCall)
    (suffix : String) (value : PyValue) :
    sendWithMode fl answer channel kwargs message make suffix value eload =
      ⟨eload, [], .error (.valueError message)⟩ := by
  unfold sendWithMode
  rw [Procedure.get_bind, h]
  rfl

theorem sendWithMode_some (h : eload.mode = some mode) (message : String)
    (make : LoadMode → DriverCall) (suffix : String) (value : PyValue) :
    sendWithMode fl answer channel kwargs message make suffix value eload =
      send fl answer channel kwargs (make mode) suffix suffix (.value value) eload := by
  unfold sendWithMode
  rw [Procedure.get_bind, h]

/-- `set_level` and `set_range` pass the mode on for their channel. -/
theorem run_of_needsMode (fl : Rounding) {call : Call} (h : call.method.needsMode = true) :
    ∃ message make suffix value,
      call.run fl = sendWithMode fl call.answer call.channel call.kwargs message make suffix value ∧
        ∀ mode, (make mode).carries = some (mode, call.channel) := by
  obtain ⟨method, channel, kwargs, answer⟩ := call
  cases method with
  | setLevel value currLimit => exact ⟨_, _, _, _, rfl, fun mode => rfl⟩
  | setRange value => exact ⟨_, _, _, _, rfl, fun mode => rfl⟩
  | setMode _ => cases h
  | shortOutput _ => cases h
  | setSlewrate _ _ => cases h
  | outputEnable _ => cases h

/-- The other methods call the driver once, and `set_mode` remembers its mode whatever the driver does. -/
theorem run_of_not_needsMode (fl : Rounding) (eload : InstroELoad) {call : Call}
    (h : call.method.needsMode = false) :
    ∃ made, (call.run fl eload).shown = [made] ∧ made.call.carries = none ∧
      (∀ mode, made.asks = some mode → call.method = .setMode mode ∧
        made = ⟨.setMode mode call.channel, call.answer.accepted⟩) ∧
      (call.run fl eload).state.mode = made.asks.or eload.mode := by
  obtain ⟨method, channel, kwargs, answer⟩ := call
  cases method with
  | setMode mode =>
    refine ⟨⟨.setMode mode channel, answer.accepted⟩, ?_, rfl, ?_, ?_⟩
    · show (setMode fl answer channel kwargs mode eload).shown = _
      unfold setMode
      rw [Procedure.modify_bind, send_shown]
    · intro mode' hmode'
      obtain rfl : mode = mode' := Option.some.inj hmode'
      exact ⟨rfl, rfl⟩
    · show (setMode fl answer channel kwargs mode eload).state.mode = _
      unfold setMode
      rw [Procedure.modify_bind, send_state]
      rfl
  | shortOutput enable =>
    exact ⟨_, send_shown .., rfl, nofun, congrArg InstroELoad.mode (send_state ..)⟩
  | setSlewrate direction rate =>
    exact ⟨_, send_shown .., rfl, nofun, congrArg InstroELoad.mode (send_state ..)⟩
  | outputEnable enable =>
    exact ⟨_, send_shown .., rfl, nofun, congrArg InstroELoad.mode (send_state ..)⟩
  | setLevel _ _ => cases h
  | setRange _ => cases h

theorem asks_eq_none {call : DriverCall} {accepted : Bool} (h : call.carries.isSome = true) :
    Made.asks ⟨call, accepted⟩ = none := by
  cases call with
  | setMode mode channel => cases h
  | _ => rfl

end Calls

/-! ## Runs -/

section Runs

variable {fl : Rounding} {s s' : Session} {call : Call}

/-- The load remembers the mode that was asked for last. -/
def Session.Remembers (s : Session) : Prop := s.eload.mode = askedLast s.log

theorem Session.Remembers.step (h : s.Remembers) (hs' : ((session fl).step s call).2 = some s') :
    s'.Remembers := by
  obtain rfl := Option.some.inj hs'
  show (call.run fl s.eload).state.mode = askedLast (s.log ++ (call.run fl s.eload).shown)
  cases hneeds : call.method.needsMode with
  | false =>
    obtain ⟨made, hshown, -, -, hmode⟩ := run_of_not_needsMode fl s.eload hneeds
    rw [hshown, askedLast_append, hmode, h]
  | true =>
    obtain ⟨message, make, suffix, value, hrun, hcarries⟩ := run_of_needsMode fl hneeds
    rw [hrun]
    cases hmode : s.eload.mode with
    | none =>
      rw [sendWithMode_none hmode, List.append_nil]
      exact h
    | some mode =>
      have hasks : Made.asks ⟨make mode, call.answer.accepted⟩ = none :=
        asks_eq_none (by rw [hcarries]; rfl)
      rw [sendWithMode_some hmode, send_state, send_shown, askedLast_append, hasks]
      exact h

theorem kept_iff_safe (h : s.Remembers) : Kept fl s call ↔ Safe s call := by
  cases hneeds : call.method.needsMode with
  | false =>
    obtain ⟨made, hshown, hcarries, -, -⟩ := run_of_not_needsMode fl s.eload hneeds
    refine iff_of_true ⟨?_, fun h => by simp [hneeds] at h⟩ (fun h => by simp [hneeds] at h)
    intro made' hmade' mode channel hmode
    rw [hshown] at hmade'
    obtain rfl := List.mem_singleton.mp hmade'
    rw [hcarries] at hmode
    cases hmode
  | true =>
    obtain ⟨message, make, suffix, value, hrun, hcarries⟩ := run_of_needsMode fl hneeds
    cases hmode : s.eload.mode with
    | none =>
      -- No mode has been asked for: the call is refused, and none has been accepted.
      have hasked : askedLast s.log = none := h.symm.trans hmode
      refine iff_of_true ⟨?_, fun _ _ => ?_⟩ fun _ => ?_
      · rw [hrun, sendWithMode_none hmode]
        exact fun made hmade => absurd hmade List.not_mem_nil
      · rw [hrun, sendWithMode_none hmode]
        exact ⟨rfl, message, rfl⟩
      · rw [hasked, acceptedLast_eq_none hasked]
    | some mode =>
      have hasked : askedLast s.log = some mode := h.symm.trans hmode
      have hshown : (call.run fl s.eload).shown = [⟨make mode, call.answer.accepted⟩] := by
        rw [hrun, sendWithMode_some hmode, send_shown]
      constructor
      · intro hkept _
        rw [hasked]
        refine (hkept.carries ⟨make mode, call.answer.accepted⟩ ?_ mode call.channel ?_).symm
        · rw [hshown]
          exact List.mem_singleton_self _
        · exact hcarries mode
      · intro hsafe
        have haccepted : acceptedLast s.log call.channel = some mode :=
          (hsafe hneeds).symm.trans hasked
        refine ⟨?_, fun _ hnone => by rw [haccepted] at hnone; cases hnone⟩
        intro made hmade mode' channel hmade'
        rw [hshown] at hmade
        obtain rfl := List.mem_singleton.mp hmade
        obtain ⟨rfl, rfl⟩ := Prod.mk.inj (Option.some.inj ((hcarries mode).symm.trans hmade'))
        exact haccepted

end Runs

/-- Over any calls of the methods, levels and ranges go to the driver in the mode of their channel exactly
where the mode that was asked for last is the one that was accepted last on the channel. -/
theorem modes_kept_iff (fl : Rounding) (labels : Labels) (calls : List Call) :
    (session fl).Along (Kept fl) (Session.initial labels) calls ↔
      (session fl).Along Safe (Session.initial labels) calls := by
  have hinitial : (Session.initial labels).Remembers := rfl
  exact (session fl).along_congr hinitial (fun _ _ _ h hs' => h.step hs')
    fun _ _ h => kept_iff_safe h

/-- A call on the channel, whose mode the driver accepts if it is one that sets a mode. -/
def Call.Plain (channel : ℤ) (call : Call) : Prop :=
  call.channel = channel ∧ ∀ mode, call.method = .setMode mode → call.answer.accepted = true

theorem Call.Plain.sets_eq_asks {fl : Rounding} {channel : ℤ} {call : Call} {eload : InstroELoad}
    (h : call.Plain channel) : ∀ made ∈ (call.run fl eload).shown, made.sets channel = made.asks := by
  have hnone : ∀ made : Made, made.asks = none → made.sets channel = made.asks := by
    intro made hasks
    rw [hasks]
    cases hsets : made.sets channel with
    | none => rfl
    | some mode => exact absurd (asks_of_sets hsets) (by rw [hasks]; exact nofun)
  intro made hmade
  cases hneeds : call.method.needsMode with
  | false =>
    obtain ⟨made', hshown, -, hasked, -⟩ := run_of_not_needsMode fl eload hneeds
    rw [hshown] at hmade
    obtain rfl := List.mem_singleton.mp hmade
    cases hasks : made.asks with
    | none => exact (hnone made hasks).trans hasks
    | some mode =>
      obtain ⟨hmethod, rfl⟩ := hasked mode hasks
      unfold Made.sets
      exact if_pos ⟨h.2 mode hmethod, h.1⟩
  | true =>
    obtain ⟨message, make, suffix, value, hrun, hcarries⟩ := run_of_needsMode fl hneeds
    rw [hrun] at hmade
    cases hmode : eload.mode with
    | none =>
      rw [sendWithMode_none hmode] at hmade
      cases hmade
    | some mode =>
      rw [sendWithMode_some hmode, send_shown] at hmade
      obtain rfl := List.mem_singleton.mp hmade
      exact hnone _ (asks_eq_none (by rw [hcarries]; rfl))

/-- On one channel, and with no mode refused, every level and range goes out in the mode of the channel. -/
theorem modes_kept_of_plain {fl : Rounding} {labels : Labels} {channel : ℤ} {calls : List Call}
    (h : ∀ call ∈ calls, call.Plain channel) :
    (session fl).Along (Kept fl) (Session.initial labels) calls := by
  intro pre call s hpre hs
  obtain ⟨hbefore, hcall⟩ := List.forall_mem_append.mp fun c hc => h c (hpre.subset hc)
  have hinv : s.Remembers ∧ askedLast s.log = acceptedLast s.log channel := by
    refine (session fl).stateAfter_induction (P := fun pre s => (∀ call ∈ pre, call.Plain channel) →
      s.Remembers ∧ askedLast s.log = acceptedLast s.log channel) ?_ ?_ hs hbefore
    · exact fun _ => ⟨rfl, rfl⟩
    · intro pre s call s' ih hs' hplain
      obtain ⟨hpre, hcall⟩ := List.forall_mem_append.mp hplain
      obtain ⟨hremembers, hsame⟩ := ih hpre
      refine ⟨hremembers.step hs', ?_⟩
      obtain rfl := Option.some.inj hs'
      exact askedLast_eq_append hsame
        (hcall call (List.mem_singleton_self call)).sets_eq_asks
  obtain ⟨hremembers, hsame⟩ := hinv
  rw [kept_iff_safe hremembers]
  intro _
  rw [(hcall call (List.mem_singleton_self call)).1]
  exact hsame

/-- A mode for one channel and a mode for another, and then a level for the first. -/
def twoChannels : List Call :=
  [⟨.setMode .CC, 1, ∅, ⟨.ok (), 0⟩⟩, ⟨.setMode .CV, 2, ∅, ⟨.ok (), 1⟩⟩,
    ⟨.setLevel (.num (.int 5)) none, 1, ∅, ⟨.ok (), 2⟩⟩]

/-- Five amperes go to the driver as five volts. -/
theorem level_in_mode_of_other_channel :
    (session exact).actions (Session.initial ⟨"main", false, ∅⟩) twoChannels =
      [⟨.setMode .CC 1, true⟩, ⟨.setMode .CV 2, true⟩,
        ⟨.setLevel .CV (.num (.int 5)) 1 none, true⟩] ∧
    ¬ (session exact).Along (Kept exact) (Session.initial ⟨"main", false, ∅⟩)
      twoChannels := by
  refine ⟨rfl, fun h => ?_⟩
  have hlast := h (twoChannels.take 2) _ _ List.prefix_rfl rfl
  have hmode := hlast.carries _ (List.mem_singleton_self _) .CV 1 rfl
  exact absurd hmode (by decide)

end Instro.ELoad
