import Instro.Library.PyNumber
import Mathlib.Data.List.Basic

/-!
# The simulated power supply

Channels with their settings, protection and load, the circuit that a channel drives, and `_update`,
which brings what is observed in line with the settings and trips the protection.
-/

namespace Instro.Psu

open Instro.Library

/-- The errors that the simulator queues. -/
inductive SCPIError
  | noError
  | parameterNotAllowed
  | missingParameter
  | undefinedHeader
  | headerSuffixOutOfRange
  | invalidCharacterData
  | dataOutOfRange
  | illegalParameterValue
  | pvAboveOvp
  | pcAboveOcp
  | ovpBelowPv
  | ocpBelowPc
  | overcurrentProtectionTripped
  | overvoltageProtectionTripped
  deriving DecidableEq, Repr

namespace SCPIError

def code : SCPIError → ℤ
  | noError => 0
  | parameterNotAllowed => -108
  | missingParameter => -109
  | undefinedHeader => -113
  | headerSuffixOutOfRange => -114
  | invalidCharacterData => -141
  | dataOutOfRange => -222
  | illegalParameterValue => -224
  | pvAboveOvp => 301
  | pcAboveOcp => 303
  | ovpBelowPv => 304
  | ocpBelowPc => 305
  | overcurrentProtectionTripped => 323
  | overvoltageProtectionTripped => 324

def message : SCPIError → String
  | noError => "No error"
  | parameterNotAllowed => "Parameter not allowed"
  | missingParameter => "Missing parameter"
  | undefinedHeader => "Undefined header"
  | headerSuffixOutOfRange => "Header suffix out of range"
  | invalidCharacterData => "Invalid character data"
  | dataOutOfRange => "Data out of range"
  | illegalParameterValue => "Illegal parameter value"
  | pvAboveOvp => "PV Above OVP"
  | pcAboveOcp => "PC Above OCP"
  | ovpBelowPv => "OVP Below PV"
  | ocpBelowPc => "OCP Below PC"
  | overcurrentProtectionTripped => "Overcurrent protection tripped"
  | overvoltageProtectionTripped => "Overvoltage protection tripped"

/-- The errors of a protection that trips. -/
def IsTrip (e : SCPIError) : Prop :=
  e = overvoltageProtectionTripped ∨ e = overcurrentProtectionTripped

instance (e : SCPIError) : Decidable e.IsTrip := inferInstanceAs (Decidable (_ ∨ _))

end SCPIError

inductive OperatingMode
  | off
  | cv
  | cc
  deriving DecidableEq, Repr

/-- Probe leads, then the load resistor with an EMF in series. -/
structure SimulatedLoad where
  resistance : PyFloat
  emf : PyFloat
  probeResistance : PyFloat
  deriving DecidableEq

def defaultLoad : SimulatedLoad := ⟨.finite 1000, .finite 0, .finite 10⟩

def defaultVoltageMax : PyFloat := .finite 60

def defaultCurrentMax : PyFloat := .finite 10

def channelMin : PyFloat := .finite 0

def protectionMin : PyFloat := .finite 0

structure SimulatedPSUChannel where
  channelId : ℤ
  voltageMax : PyFloat
  currentMax : PyFloat
  voltageSetpoint : PyFloat
  currentLimit : PyFloat
  overvoltageProtectionLevel : PyFloat
  overvoltageProtectionEnabled : Bool
  overcurrentProtectionLevel : PyFloat
  overcurrentProtectionEnabled : Bool
  remoteSense : Bool
  outputEnabled : Bool
  load : SimulatedLoad
  terminalVoltage : PyFloat
  loadVoltage : PyFloat
  current : PyFloat
  mode : OperatingMode
  overvoltageTripped : Bool
  overcurrentTripped : Bool
  protectionLatched : Bool
  deriving DecidableEq

namespace SimulatedPSUChannel

/-- `__init__` -/
def init (channelId : ℤ) (load : SimulatedLoad) : SimulatedPSUChannel where
  channelId := channelId
  voltageMax := defaultVoltageMax
  currentMax := defaultCurrentMax
  voltageSetpoint := .finite 0
  currentLimit := .finite 0
  overvoltageProtectionLevel := defaultVoltageMax
  overvoltageProtectionEnabled := false
  overcurrentProtectionLevel := defaultCurrentMax
  overcurrentProtectionEnabled := false
  remoteSense := false
  outputEnabled := false
  load := load
  terminalVoltage := .finite 0
  loadVoltage := .finite 0
  current := .finite 0
  mode := .off
  overvoltageTripped := false
  overcurrentTripped := false
  protectionLatched := false

/-- What `_reset` does to a channel: the limits, the load and the sense mode stay. -/
def reset (ch : SimulatedPSUChannel) : SimulatedPSUChannel :=
  { init ch.channelId ch.load with
    voltageMax := ch.voltageMax
    currentMax := ch.currentMax
    remoteSense := ch.remoteSense
    overvoltageProtectionLevel := ch.voltageMax
    overcurrentProtectionLevel := ch.currentMax }

/-! ## Physics -/

/-- The resistance that the voltage setpoint drives: with remote sense not the probe leads. -/
def rTotal (fl : Rounding) (ch : SimulatedPSUChannel) : PyFloat :=
  if ch.remoteSense then ch.load.resistance
  else PyFloat.add fl ch.load.resistance ch.load.probeResistance

/-- The current that the load draws at the voltage setpoint. -/
def demand (fl : Rounding) (ch : SimulatedPSUChannel) : PyFloat :=
  let difference := PyFloat.sub fl ch.voltageSetpoint ch.load.emf
  let rTotal := ch.rTotal fl
  if rTotal.eq (.finite 0) then
    if difference.eq (.finite 0) then .finite 0 else .inf false
  else if ¬ rTotal.isFinite then .finite 0
  else PyFloat.quotient fl difference rTotal

/-- `_update_voltage_source` -/
def updateVoltageSource (fl : Rounding) (ch : SimulatedPSUChannel) : SimulatedPSUChannel :=
  let vSet := ch.voltageSetpoint
  let rLoad := ch.load.resistance
  let rProbe := ch.load.probeResistance
  let iDemand := ch.demand fl
  if iDemand.le ch.currentLimit then
    if ch.remoteSense then
      { ch with
        mode := .cv
        current := iDemand
        loadVoltage := vSet
        terminalVoltage := vSet.add fl (iDemand.mul fl rProbe) }
    else
      { ch with
        mode := .cv
        current := iDemand
        terminalVoltage := vSet
        loadVoltage := vSet.sub fl (iDemand.mul fl rProbe) }
  else
    let current := ch.currentLimit
    if rLoad.isFinite then
      let loadVoltage := (current.mul fl rLoad).add fl ch.load.emf
      { ch with
        mode := .cc
        current := current
        loadVoltage := loadVoltage
        terminalVoltage := loadVoltage.add fl (current.mul fl rProbe) }
    else
      { ch with
        mode := .cc
        current := current
        loadVoltage := .finite 0
        terminalVoltage := .finite 0 }

/-- `_sense_voltage` -/
def senseVoltage (ch : SimulatedPSUChannel) : PyFloat :=
  if ch.remoteSense then ch.loadVoltage else ch.terminalVoltage

/-- Nothing is delivered. -/
def deEnergize (ch : SimulatedPSUChannel) : SimulatedPSUChannel :=
  { ch with
    terminalVoltage := .finite 0
    loadVoltage := .finite 0
    current := .finite 0
    mode := .off }

/-- The protection latches and turns the output off. -/
def latch (ch : SimulatedPSUChannel) : SimulatedPSUChannel :=
  { ch.deEnergize with protectionLatched := true, outputEnabled := false }

/-- `_update_channel`: the channel, and the errors that it queues. -/
def update (fl : Rounding) (ch : SimulatedPSUChannel) : SimulatedPSUChannel × List SCPIError :=
  if ¬ ch.outputEnabled ∨ ch.protectionLatched then (ch.deEnergize, [])
  else
    let ch := ch.updateVoltageSource fl
    if ch.overvoltageProtectionEnabled ∧ ch.overvoltageProtectionLevel.lt ch.senseVoltage then
      ({ ch.latch with overvoltageTripped := true }, [.overvoltageProtectionTripped])
    else if ch.overcurrentProtectionEnabled ∧
        ch.overcurrentProtectionLevel.lt ch.current.abs then
      ({ ch.latch with overcurrentTripped := true }, [.overcurrentProtectionTripped])
    else (ch, [])

/-- The channel after `_update_channel`. -/
def updated (fl : Rounding) (ch : SimulatedPSUChannel) : SimulatedPSUChannel := (ch.update fl).1

end SimulatedPSUChannel

/-! ## The power supply -/

structure SimulatedPSU where
  channels : List SimulatedPSUChannel
  errorQueue : List SCPIError
  deriving DecidableEq

namespace SimulatedPSU

variable (psu : SimulatedPSU)

/-- A power supply with default channels. -/
def ofIds (channelIds : List ℤ) : SimulatedPSU where
  channels := channelIds.map fun id => .init id defaultLoad
  errorQueue := []

/-- `SimulatedPSU(num_channels)` -/
def init (numChannels : ℕ) : SimulatedPSU :=
  ofIds ((List.range numChannels).map fun i : ℕ => (i : ℤ) + 1)

/-- `_channel` -/
def channel (channelId : ℤ) : Option SimulatedPSUChannel :=
  psu.channels.find? fun ch => ch.channelId = channelId

/-- The channel that `channel` finds is now `ch'`. -/
def setChannel (channelId : ℤ) (ch' : SimulatedPSUChannel) : SimulatedPSU :=
  { psu with
    channels := psu.channels.replaceF fun ch =>
      if ch.channelId = channelId then some ch' else none }

/-- `_push_error` -/
def pushError (err : SCPIError) : SimulatedPSU :=
  { psu with errorQueue := psu.errorQueue ++ [err] }

/-- `_update` -/
def update (fl : Rounding) : SimulatedPSU where
  channels := psu.channels.map (·.updated fl)
  errorQueue := psu.errorQueue ++ psu.channels.flatMap fun ch => (ch.update fl).2

end SimulatedPSU

end Instro.Psu
