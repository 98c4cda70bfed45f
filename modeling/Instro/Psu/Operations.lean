import Instro.Library.EventLoop
import Instro.Psu.Commands
import Mathlib.Order.Lattice

/-!
# Operations

A power supply lives through command lines and the edits of the user interface, in any order. Each
operation changes the channels in one of a few ways, and what every change keeps of a channel holds
of every channel in every run.
-/

namespace Instro.Psu

open Instro.Library

/-! ## The user interface -/

inductive LoadParam
  | load
  | emf
  | probe

inductive LimitParam
  | voltage
  | current

def SimulatedPSUChannel.setLoad (ch : SimulatedPSUChannel) (param : LoadParam) (value : PyFloat) :
    SimulatedPSUChannel :=
  match param with
  | .load => { ch with load := { ch.load with resistance := value } }
  | .emf => { ch with load := { ch.load with emf := value } }
  | .probe => { ch with load := { ch.load with probeResistance := value } }

def SimulatedPSUChannel.setLimit (ch : SimulatedPSUChannel) (param : LimitParam)
    (value : PyFloat) : SimulatedPSUChannel :=
  match param with
  | .voltage => { ch with voltageMax := value }
  | .current => { ch with currentMax := value }

namespace SimulatedPSU

variable (fl : Rounding) (py : PyText) (psu : SimulatedPSU)

/-- `_add_channel` -/
def addChannel : SimulatedPSU :=
  let nextId := ((psu.channels.map (·.channelId)).max?).getD 0 + 1
  { psu with channels := psu.channels ++ [.init nextId defaultLoad] }

/-- `_remove_channel` -/
def removeChannel (channelId : ℤ) : SimulatedPSU :=
  { psu with channels := psu.channels.filter fun ch => ch.channelId ≠ channelId }

/-- The number in a prompt. Nothing is entered when the prompt is left. -/
def promptValue (valueStr : Option Text) : Option PyFloat :=
  match valueStr with
  | none => none
  | some text => if text = [] then none else py.float text

/-- `_prompt_set` -/
def promptSet (channelId : ℤ) (param : LoadParam) (valueStr : Option Text) : SimulatedPSU :=
  match promptValue py valueStr with
  | none => psu
  | some value =>
    match psu.channel channelId with
    | none => psu
    | some ch => (psu.setChannel channelId (ch.setLoad param value)).update fl

/-- `_prompt_set_limit` -/
def promptSetLimit (channelId : ℤ) (param : LimitParam) (valueStr : Option Text) : SimulatedPSU :=
  match promptValue py valueStr with
  | none => psu
  | some value =>
    if value.lt channelMin then psu
    else
      match psu.channel channelId with
      | none => psu
      | some ch => (psu.setChannel channelId (ch.setLimit param value)).reset

end SimulatedPSU

/-! ## Runs -/

/-- `gauss` is what the random numbers of a measurement turn out to be. -/
inductive Operation
  | command (line : Text) (gauss : PyFloat → PyFloat → PyFloat)
  | addChannel
  | removeChannel (channelId : ℤ)
  | promptSet (channelId : ℤ) (param : LoadParam) (valueStr : Option Text)
  | promptSetLimit (channelId : ℤ) (param : LimitParam) (valueStr : Option Text)

/-- What is entered for a load has the property, and a limit is finite. -/
def Operation.Enters (Loads : PyFloat → Prop) (py : PyText) : Operation → Prop
  | promptSet _ _ valueStr =>
    ∀ value, SimulatedPSU.promptValue py valueStr = some value → Loads value
  | promptSetLimit _ _ valueStr =>
    ∀ value, SimulatedPSU.promptValue py valueStr = some value → value.isFinite = true
  | _ => True

/-- The limit that is entered is finite; a load may be anything, an open circuit too. -/
def Operation.FiniteLimit (py : PyText) : Operation → Prop
  | promptSetLimit _ _ valueStr =>
    ∀ value, SimulatedPSU.promptValue py valueStr = some value → value.isFinite = true
  | _ => True

/-- The number entered in a prompt is finite. -/
def Operation.Finite (py : PyText) : Operation → Prop
  | promptSet _ _ valueStr =>
    ∀ value, SimulatedPSU.promptValue py valueStr = some value → value.isFinite = true
  | promptSetLimit _ _ valueStr =>
    ∀ value, SimulatedPSU.promptValue py valueStr = some value → value.isFinite = true
  | _ => True

section Runs

variable (fl : Rounding) (py : PyText)

/-- One operation. An exception that a command lets escape leaves the power supply as it is. -/
def operate (psu : SimulatedPSU) :
    Operation → List (Except PyException (Option Response)) × Option SimulatedPSU
  | .command line gauss =>
    match processScpiCommand fl py gauss psu line with
    | .ok (response, psu') => ([.ok response], some psu')
    | .error e => ([.error e], some psu)
  | .addChannel => ([], some psu.addChannel)
  | .removeChannel channelId => ([], some (psu.removeChannel channelId))
  | .promptSet channelId param valueStr =>
    ([], some (psu.promptSet fl py channelId param valueStr))
  | .promptSetLimit channelId param valueStr =>
    ([], some (psu.promptSetLimit py channelId param valueStr))

def psuLoop : EventLoop SimulatedPSU Operation (Except PyException (Option Response)) :=
  ⟨operate fl py⟩

end Runs

theorem Operation.FiniteLimit.enters {py : PyText} {op : Operation} (h : op.FiniteLimit py) :
    op.Enters (fun _ => True) py := by
  cases op with
  | promptSetLimit => exact h
  | promptSet => exact fun _ _ => trivial
  | _ => trivial

theorem Operation.Finite.enters {py : PyText} {op : Operation} (h : op.Finite py) :
    op.Enters (fun value => value.isFinite = true) py := by
  cases op with
  | promptSetLimit => exact h
  | promptSet => exact h
  | _ => trivial

/-! ## Changes -/

/-- A number between the bounds, or a bound that is asked for by name. -/
def Ranged (minimum maximum value : PyFloat) : Prop :=
  value = maximum ∨ value = minimum ∨ minimum.le value = true ∧ value.le maximum = true

/-- What an operation does to the settings of one channel. -/
inductive Edit (Loads : PyFloat → Prop) (ch : SimulatedPSUChannel) : SimulatedPSUChannel → Prop
  | voltage {v : PyFloat} (hrange : Ranged channelMin ch.voltageMax v)
      (hlevel : ch.overvoltageProtectionLevel.lt v = false) :
      Edit Loads ch { ch with voltageSetpoint := v }
  | current {i : PyFloat} (hrange : Ranged channelMin ch.currentMax i)
      (hlevel : ch.overcurrentProtectionLevel.lt i = false) :
      Edit Loads ch { ch with currentLimit := i }
  | ocpLevel {level : PyFloat} (hrange : Ranged protectionMin ch.currentMax level)
      (hlimit : level.lt ch.currentLimit = false) :
      Edit Loads ch { ch with overcurrentProtectionLevel := level }
  | ovpLevel {level : PyFloat} (hrange : Ranged protectionMin ch.voltageMax level)
      (hsetpoint : level.lt ch.voltageSetpoint = false) :
      Edit Loads ch { ch with overvoltageProtectionLevel := level }
  | ocpState (enable : Bool) : Edit Loads ch { ch with overcurrentProtectionEnabled := enable }
  | ovpState (enable : Bool) : Edit Loads ch { ch with overvoltageProtectionEnabled := enable }
  | outputOn : Edit Loads ch { ch.clearTrip with outputEnabled := true }
  | outputOff : Edit Loads ch { ch with outputEnabled := false }
  | clearTrip : Edit Loads ch ch.clearTrip
  | remoteSense (enable : Bool) : Edit Loads ch { ch with remoteSense := enable }
  | load (param : LoadParam) {value : PyFloat} (hvalue : Loads value) :
      Edit Loads ch (ch.setLoad param value)

/-- What an operation does to the channels. -/
inductive Change (fl : Rounding) (Loads : PyFloat → Prop) (psu : SimulatedPSU) : SimulatedPSU → Prop
  | same {psu' : SimulatedPSU} (h : psu'.channels = psu.channels) : Change fl Loads psu psu'
  | updated {psu' : SimulatedPSU} (h : psu'.channels = psu.channels.map (·.updated fl)) :
      Change fl Loads psu psu'
  | edit {channelId : ℤ} {ch ch' : SimulatedPSUChannel} (hfind : psu.channel channelId = some ch)
      (hedit : Edit Loads ch ch') : Change fl Loads psu ((psu.setChannel channelId ch').update fl)
  | reset : Change fl Loads psu psu.reset
  | limit {channelId : ℤ} {ch : SimulatedPSUChannel} {value : PyFloat}
      (hfind : psu.channel channelId = some ch) (param : LimitParam)
      (hfinite : value.isFinite = true) (hmin : value.lt channelMin = false) :
      Change fl Loads psu (psu.setChannel channelId (ch.setLimit param value)).reset
  | add : Change fl Loads psu psu.addChannel
  | remove (channelId : ℤ) : Change fl Loads psu (psu.removeChannel channelId)

/-- What every change keeps of a channel. -/
structure Stable (fl : Rounding) (Loads : PyFloat → Prop) (P : SimulatedPSUChannel → Prop) : Prop where
  init : ∀ channelId, P (.init channelId defaultLoad)
  updated : ∀ {ch}, P ch → P (ch.updated fl)
  edit : ∀ {ch ch'}, P ch → Edit Loads ch ch' → P (ch'.updated fl)
  reset : ∀ {ch}, P ch → P ch.reset
  limit : ∀ {ch value}, P ch → ∀ param, value.isFinite = true → value.lt channelMin = false →
    P (ch.setLimit param value).reset

section Changes

variable {fl : Rounding} {Loads : PyFloat → Prop} {py : PyText} {psu psu' : SimulatedPSU} {P : SimulatedPSUChannel → Prop}

theorem channel_mem {channelId : ℤ} {ch : SimulatedPSUChannel}
    (h : psu.channel channelId = some ch) : ch ∈ psu.channels :=
  List.mem_of_find?_eq_some h

theorem mem_replaceF {α : Type} {f : α → Option α} {x : α} {xs : List α} (h : x ∈ xs.replaceF f) :
    x ∈ xs ∨ ∃ y ∈ xs, f y = some x := by
  induction xs with
  | nil => exact absurd h List.not_mem_nil
  | cons y ys ih =>
    cases hf : f y with
    | none =>
      rw [List.replaceF_cons_of_none f hf] at h
      rcases List.mem_cons.mp h with rfl | h
      · exact .inl List.mem_cons_self
      · rcases ih h with h | ⟨z, hz, hfz⟩
        · exact .inl (List.mem_cons_of_mem y h)
        · exact .inr ⟨z, List.mem_cons_of_mem y hz, hfz⟩
    | some z =>
      rw [List.replaceF_cons_of_some f hf] at h
      rcases List.mem_cons.mp h with rfl | h
      · exact .inr ⟨y, List.mem_cons_self, hf⟩
      · exact .inl (List.mem_cons_of_mem y h)

/-- A channel is one of those before, or the one that was set. -/
theorem mem_setChannel {channelId : ℤ} {ch ch' : SimulatedPSUChannel}
    (h : ch ∈ (psu.setChannel channelId ch').channels) : ch ∈ psu.channels ∨ ch = ch' := by
  refine (mem_replaceF h).imp_right ?_
  rintro ⟨old, -, hset⟩
  split_ifs at hset
  exact (Option.some.inj hset).symm

/-- **Step lemma.** What every change keeps of a channel holds of all channels after one. -/
theorem Stable.change (hP : Stable fl Loads P) (h : Change fl Loads psu psu')
    (hpsu : ∀ ch ∈ psu.channels, P ch) : ∀ ch ∈ psu'.channels, P ch := by
  intro ch hmem
  cases h with
  | same h =>
    rw [h] at hmem
    exact hpsu ch hmem
  | updated h =>
    rw [h] at hmem
    obtain ⟨old, hold, rfl⟩ := List.mem_map.mp hmem
    exact hP.updated (hpsu old hold)
  | edit hfind hedit =>
    obtain ⟨old, hold, rfl⟩ := List.mem_map.mp hmem
    rcases mem_setChannel hold with hold | rfl
    · exact hP.updated (hpsu old hold)
    · exact hP.edit (hpsu _ (channel_mem hfind)) hedit
  | reset =>
    obtain ⟨old, hold, rfl⟩ := List.mem_map.mp hmem
    exact hP.reset (hpsu old hold)
  | limit hfind param hfinite hmin =>
    obtain ⟨old, hold, rfl⟩ := List.mem_map.mp hmem
    rcases mem_setChannel hold with hold | rfl
    · exact hP.reset (hpsu old hold)
    · exact hP.limit (hpsu _ (channel_mem hfind)) param hfinite hmin
  | add =>
    rcases List.mem_append.mp hmem with hmem | hmem
    · exact hpsu ch hmem
    · rw [List.mem_singleton.mp hmem]
      exact hP.init _
  | remove channelId => exact hpsu ch (List.mem_filter.mp hmem).1

end Changes

/-! ## What the operations change -/

/-- The errors that a command adds to the queue. -/
def queuedErrors (psu psu' : SimulatedPSU) : List SCPIError :=
  psu'.errorQueue.drop psu.errorQueue.length

/-- A command changes the channels in one of the ways of `Change`. Where it does more than
`_update`, it queues no error but those of a protection that trips. -/
structure Accounted (fl : Rounding) (Loads : PyFloat → Prop) (psu psu' : SimulatedPSU) : Prop where
  change : Change fl Loads psu psu'
  errors : psu'.channels = psu.channels ∨ psu'.channels = psu.channels.map (·.updated fl) ∨
    ∀ err ∈ queuedErrors psu psu', err.IsTrip

section Handlers

variable {fl : Rounding} {Loads : PyFloat → Prop} {py : PyText} {psu psu' : SimulatedPSU}

theorem Accounted.of_same (h : psu'.channels = psu.channels) : Accounted fl Loads psu psu' :=
  ⟨.same h, .inl h⟩

theorem Accounted.of_updated (h : psu'.channels = psu.channels.map (·.updated fl)) :
    Accounted fl Loads psu psu' :=
  ⟨.updated h, .inr (.inl h)⟩

/-- An emptied queue holds no new error. -/
theorem Accounted.of_cleared (hchange : Change fl Loads psu psu') (h : psu'.errorQueue = []) :
    Accounted fl Loads psu psu' := by
  refine ⟨hchange, .inr (.inr fun err hmem => ?_)⟩
  unfold queuedErrors at hmem
  rw [h, List.drop_nil] at hmem
  exact absurd hmem List.not_mem_nil

/-- `_update_channel` queues nothing but trips. -/
theorem isTrip_of_mem_update {ch : SimulatedPSUChannel} {err : SCPIError}
    (h : err ∈ (ch.update fl).2) : err.IsTrip := by
  unfold SimulatedPSUChannel.update at h
  dsimp only at h
  split_ifs at h
  · exact absurd h List.not_mem_nil
  · exact .inl (List.mem_singleton.mp h)
  · exact .inr (List.mem_singleton.mp h)
  · exact absurd h List.not_mem_nil

theorem edit_accounted {channel : ℤ}
    {change : SimulatedPSUChannel → Except Refusal SimulatedPSUChannel}
    (hedit : ∀ ch ch', change ch = .ok ch' → Edit Loads ch ch')
    (h : psu.edit fl channel change = .ok psu') : Accounted fl Loads psu psu' := by
  unfold SimulatedPSU.edit at h
  split at h
  · obtain rfl := Except.ok.inj h
    exact .of_same rfl
  · next ch hfind =>
    split at h
    · next ch' hchange =>
      obtain rfl := Except.ok.inj h
      refine ⟨.edit hfind (hedit ch ch' hchange), .inr (.inr fun err hmem => ?_)⟩
      have hmem : err ∈ (psu.errorQueue ++ _).drop psu.errorQueue.length := hmem
      rw [List.drop_left] at hmem
      obtain ⟨ch, -, herr⟩ := List.mem_flatMap.mp hmem
      exact isTrip_of_mem_update herr
    · obtain rfl := Except.ok.inj h
      exact .of_same rfl
    · cases h

theorem query_channels (psu : SimulatedPSU) (channel : ℤ) (missing : Response)
    (read : SimulatedPSUChannel → Response) :
    (psu.query channel missing read).2.channels = psu.channels := by
  unfold SimulatedPSU.query
  split <;> rfl

theorem ranged_of_parse {token : Text} {minimum maximum value : PyFloat}
    (h : parseRangedValue py token minimum maximum = .ok value) :
    Ranged minimum maximum value := by
  unfold parseRangedValue at h
  dsimp only at h
  split_ifs at h
  · exact .inl (Except.ok.inj h).symm
  · exact .inr (.inl (Except.ok.inj h).symm)
  · obtain ⟨x, -, h⟩ := bind_eq_ok.mp h
    obtain ⟨hrange, h⟩ := ensure_bind_eq_ok.mp h
    obtain rfl := Except.ok.inj h
    exact .inr (.inr hrange)

/-- A number that a setter accepts. -/
theorem number_accepted {args : List Text} {minimum maximum : PyFloat} {beyond : PyFloat → Bool}
    {err : SCPIError} {set : PyFloat → SimulatedPSUChannel} {ch' : SimulatedPSUChannel}
    (h : (do
      let token ← requireArgs args
      let value ← parseRangedValue py token minimum maximum
      ensure (¬ beyond value) (.queued err)
      return set value) = .ok ch') :
    ∃ value, Ranged minimum maximum value ∧ beyond value = false ∧ set value = ch' := by
  obtain ⟨token, -, h⟩ := bind_eq_ok.mp h
  obtain ⟨value, hparse, h⟩ := bind_eq_ok.mp h
  obtain ⟨hbeyond, h⟩ := ensure_bind_eq_ok.mp h
  exact ⟨value, ranged_of_parse hparse, Bool.eq_false_of_not_eq_true hbeyond, Except.ok.inj h⟩

/-- A state that a setter accepts. -/
theorem state_accepted {args : List Text} {parse : Text → Except Refusal Bool}
    {set : Bool → SimulatedPSUChannel} {ch' : SimulatedPSUChannel}
    (h : (do
      let token ← requireArgs args
      let enable ← parse token
      return set enable) = .ok ch') : ∃ enable, set enable = ch' := by
  obtain ⟨token, -, h⟩ := bind_eq_ok.mp h
  obtain ⟨enable, -, h⟩ := bind_eq_ok.mp h
  exact ⟨enable, Except.ok.inj h⟩

section Setters

variable {channel : ℤ} {args : List Text}

theorem setVoltage_accounted (h : psu.setVoltage fl py channel args = .ok psu') :
    Accounted fl Loads psu psu' := by
  refine edit_accounted (fun ch ch' hchange => ?_) h
  obtain ⟨v, hrange, hlevel, rfl⟩ := number_accepted hchange
  exact .voltage hrange hlevel

theorem setCurrent_accounted (h : psu.setCurrent fl py channel args = .ok psu') :
    Accounted fl Loads psu psu' := by
  refine edit_accounted (fun ch ch' hchange => ?_) h
  obtain ⟨i, hrange, hlevel, rfl⟩ := number_accepted hchange
  exact .current hrange hlevel

theorem setOcpLevel_accounted (h : psu.setOcpLevel fl py channel args = .ok psu') :
    Accounted fl Loads psu psu' := by
  refine edit_accounted (fun ch ch' hchange => ?_) h
  obtain ⟨level, hrange, hlimit, rfl⟩ :=
    number_accepted hchange
  exact .ocpLevel hrange hlimit

theorem setOvpLevel_accounted (h : psu.setOvpLevel fl py channel args = .ok psu') :
    Accounted fl Loads psu psu' := by
  refine edit_accounted (fun ch ch' hchange => ?_) h
  obtain ⟨level, hrange, hsetpoint, rfl⟩ :=
    number_accepted hchange
  exact .ovpLevel hrange hsetpoint

theorem setOcpState_accounted (h : psu.setOcpState fl py channel args = .ok psu') :
    Accounted fl Loads psu psu' := by
  refine edit_accounted (fun ch ch' hchange => ?_) h
  obtain ⟨enable, rfl⟩ := state_accepted hchange
  exact .ocpState enable

theorem setOvpState_accounted (h : psu.setOvpState fl py channel args = .ok psu') :
    Accounted fl Loads psu psu' := by
  refine edit_accounted (fun ch ch' hchange => ?_) h
  obtain ⟨enable, rfl⟩ := state_accepted hchange
  exact .ovpState enable

theorem setOutput_accounted (h : psu.setOutput fl py channel args = .ok psu') :
    Accounted fl Loads psu psu' := by
  refine edit_accounted (fun ch ch' hchange => ?_) h
  obtain ⟨enable, rfl⟩ := state_accepted hchange
  cases enable with
  | true => exact .outputOn
  | false => exact .outputOff

theorem clearProtectionLatch_accounted (h : psu.clearProtectionLatch fl channel = .ok psu') :
    Accounted fl Loads psu psu' := by
  refine edit_accounted (fun ch ch' hchange => ?_) h
  obtain rfl := Except.ok.inj hchange
  exact .clearTrip

theorem setRemoteSense_accounted (h : psu.setRemoteSense fl py channel args = .ok psu') :
    Accounted fl Loads psu psu' := by
  refine edit_accounted (fun ch ch' hchange => ?_) h
  obtain ⟨enable, rfl⟩ := state_accepted hchange
  exact .remoteSense enable

end Setters

/-- The state after a handler that answers nothing. -/
theorem silent_eq_ok {result : Except PyException SimulatedPSU} {response : Option Response}
    (h : silent result = .ok (response, psu')) : result = .ok psu' := by
  obtain ⟨psu'', hresult, hpair⟩ := map_eq_ok.mp h
  obtain ⟨-, rfl⟩ := Prod.mk.inj hpair
  exact hresult

/-- The state after a handler that answers. -/
theorem answered_eq_ok {result : Response × SimulatedPSU} {response : Option Response}
    (h : answered result = .ok (response, psu')) : result.2 = psu' :=
  (Prod.ext_iff.mp (Except.ok.inj h)).2

theorem handler_accounted {gauss : PyFloat → PyFloat → PyFloat} {channel : ℤ} {args : List Text}
    {response : Option Response} (handler : Handler)
    (h : handler.run fl py gauss psu channel args = .ok (response, psu')) :
    Accounted fl Loads psu psu' := by
  have hquery : ∀ {missing read}, answered (psu.query channel missing read) = .ok (response, psu') →
      Accounted fl Loads psu psu' := by
    intro missing read h
    rw [← answered_eq_ok h]
    exact .of_same (query_channels psu channel missing read)
  have hmeasure : ∀ {missing read},
      answered ((psu.update fl).query channel missing read) = .ok (response, psu') →
        Accounted fl Loads psu psu' := by
    intro missing read h
    rw [← answered_eq_ok h]
    exact .of_updated (query_channels (psu.update fl) channel missing read)
  cases handler with
  | getId =>
    obtain rfl := answered_eq_ok h
    exact .of_same rfl
  | reset =>
    obtain rfl := Except.ok.inj (silent_eq_ok h)
    exact .of_cleared .reset rfl
  | clearStatus =>
    obtain rfl := Except.ok.inj (silent_eq_ok h)
    exact .of_same rfl
  | getError =>
    obtain rfl := answered_eq_ok h
    exact .of_same rfl
  | setOutput => exact setOutput_accounted (silent_eq_ok h)
  | queryOutput => exact hquery h
  | clearProtectionLatch => exact clearProtectionLatch_accounted (silent_eq_ok h)
  | queryProtectionTripped => exact hquery h
  | measureVoltage => exact hmeasure h
  | measureCurrent => exact hmeasure h
  | setVoltage => exact setVoltage_accounted (silent_eq_ok h)
  | queryVoltage => exact hquery h
  | setCurrent => exact setCurrent_accounted (silent_eq_ok h)
  | queryCurrent => exact hquery h
  | setOcpLevel => exact setOcpLevel_accounted (silent_eq_ok h)
  | queryOcpLevel => exact hquery h
  | setOcpState => exact setOcpState_accounted (silent_eq_ok h)
  | queryOcpState => exact hquery h
  | setOvpLevel => exact setOvpLevel_accounted (silent_eq_ok h)
  | queryOvpLevel => exact hquery h
  | setOvpState => exact setOvpState_accounted (silent_eq_ok h)
  | queryOvpState => exact hquery h
  | setRemoteSense => exact setRemoteSense_accounted (silent_eq_ok h)
  | queryRemoteSense => exact hquery h

/-- **Commands.** Every line that is processed is accounted for. -/
theorem processScpiCommand_accounted {gauss : PyFloat → PyFloat → PyFloat} {line : Text}
    {response : Option Response}
    (h : processScpiCommand fl py gauss psu line = .ok (response, psu')) :
    Accounted fl Loads psu psu' := by
  have hpushed : ∀ {err} {response' : Option Response},
      (.ok (response', psu.pushError err) : Outcome) = .ok (response, psu') →
        Accounted fl Loads psu psu' := by
    intro err response' h
    obtain ⟨-, rfl⟩ := Prod.mk.inj (Except.ok.inj h)
    exact .of_same rfl
  unfold processScpiCommand at h
  dsimp only at h
  split_ifs at h with hblank
  · obtain ⟨-, rfl⟩ := Prod.mk.inj (Except.ok.inj h)
    exact .of_same rfl
  · obtain ⟨table, -, h⟩ := bind_eq_ok.mp h
    obtain ⟨⟨canonical, channel⟩, -, h⟩ := bind_eq_ok.mp h
    dsimp only at h
    split at h
    · exact hpushed h
    · next handler _ =>
      split_ifs at h with hparameters
      · exact hpushed h
      · unfold catchValueError at h
        split at h
        · exact hpushed h
        · exact handler_accounted handler h

end Handlers

/-! ## Every run -/

section Runs

variable {fl : Rounding} {Loads : PyFloat → Prop} {py : PyText} {psu psu' : SimulatedPSU}

/-- One operation is one change. -/
theorem operate_change {op : Operation} (henters : op.Enters Loads py)
    (h : (operate fl py psu op).2 = some psu') : Change fl Loads psu psu' := by
  cases op with
  | command line gauss =>
    unfold operate at h
    dsimp only at h
    split at h
    · next hprocess =>
      obtain rfl := Option.some.inj h
      exact (processScpiCommand_accounted hprocess).change
    · obtain rfl := Option.some.inj h
      exact .same rfl
  | addChannel =>
    obtain rfl := Option.some.inj h
    exact .add
  | removeChannel channelId =>
    obtain rfl := Option.some.inj h
    exact .remove channelId
  | promptSet channelId param valueStr =>
    obtain rfl := Option.some.inj h
    unfold SimulatedPSU.promptSet
    split
    · exact .same rfl
    · next value hvalue =>
      split
      · exact .same rfl
      · next ch hfind => exact .edit hfind (.load param (henters value hvalue))
  | promptSetLimit channelId param valueStr =>
    obtain rfl := Option.some.inj h
    unfold SimulatedPSU.promptSetLimit
    split
    · exact .same rfl
    · next value hvalue =>
      split_ifs with hmin
      · exact .same rfl
      · split
        · exact .same rfl
        · next ch hfind =>
          exact .limit hfind param (henters value hvalue) (Bool.eq_false_of_not_eq_true hmin)

/-- **Run lemma.** From default channels on, a stable property holds of every channel. -/
theorem Stable.run {P : SimulatedPSUChannel → Prop} (hP : Stable fl Loads P) {channelIds : List ℤ}
    {ops : List Operation} (henters : ∀ op ∈ ops, op.Enters Loads py)
    (hrun : (psuLoop fl py).stateAfter (.ofIds channelIds) ops = some psu) :
    ∀ ch ∈ psu.channels, P ch := by
  refine EventLoop.stateAfter_induction (psuLoop fl py)
    (P := fun done psu => (∀ op ∈ done, op.Enters Loads py) → ∀ ch ∈ psu.channels, P ch)
    (fun _ ch hch => ?_) (fun done psu op psu' ih hstep hdone => ?_) hrun henters
  · obtain ⟨channelId, -, rfl⟩ := List.mem_map.mp hch
    exact hP.init channelId
  · have hop := hdone op (List.mem_append_right _ (List.mem_singleton_self op))
    exact hP.change (operate_change hop hstep)
      (ih fun op hmem => hdone op (List.mem_append_left _ hmem))

end Runs

end Instro.Psu
