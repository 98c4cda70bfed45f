import Instro.Psu.DriverLines
import Instro.Psu.Protection

/-!
# The bench

What the simulator is to the driver: channels whose settings are changed one at a time, each change refused
with an error or made, and readings of what they deliver. A call of the driver does the one and nothing else,
and raises the errors of its own command.
-/

namespace Instro.Psu

open Instro.Library
open Instro.Psu.Bk914x (Method Value)
open Instro.Psu.Simulated (Raised)

/-! ## The abstract bench -/

inductive Setting
  | voltage (v : PyFloat)
  | currentLimit (i : PyFloat)
  | output (enable : Bool)
  | ovpLevel (v : PyFloat)
  | ovpState (enable : Bool)
  | ocpLevel (i : PyFloat)
  | ocpState (enable : Bool)
  | remoteSense (enable : Bool)

/-- The channel with the setting, or the error it is refused with. -/
def Setting.apply (ch : SimulatedPSUChannel) : Setting → Except SCPIError SimulatedPSUChannel
  | voltage v => do
    ensure (channelMin.le v ∧ v.le ch.voltageMax) .dataOutOfRange
    ensure (¬ ch.overvoltageProtectionLevel.lt v) .pvAboveOvp
    return { ch with voltageSetpoint := v }
  | currentLimit i => do
    ensure (channelMin.le i ∧ i.le ch.currentMax) .dataOutOfRange
    ensure (¬ ch.overcurrentProtectionLevel.lt i) .pcAboveOcp
    return { ch with currentLimit := i }
  | output enable => .ok { (if enable then ch.clearTrip else ch) with outputEnabled := enable }
  | ovpLevel v => do
    ensure (protectionMin.le v ∧ v.le ch.voltageMax) .dataOutOfRange
    ensure (¬ v.lt ch.voltageSetpoint) .ovpBelowPv
    return { ch with overvoltageProtectionLevel := v }
  | ovpState enable => .ok { ch with overvoltageProtectionEnabled := enable }
  | ocpLevel i => do
    ensure (protectionMin.le i ∧ i.le ch.currentMax) .dataOutOfRange
    ensure (¬ i.lt ch.currentLimit) .ocpBelowPc
    return { ch with overcurrentProtectionLevel := i }
  | ocpState enable => .ok { ch with overcurrentProtectionEnabled := enable }
  | remoteSense enable => .ok { ch with remoteSense := enable }

inductive Reading
  | voltage
  | current
  | output
  | ovpLevel
  | ovpState
  | ocpLevel
  | ocpState
  | remoteSense
  deriving DecidableEq

/-- What is read of a channel, with the noise of a measurement. -/
def Reading.of (fl : Rounding) (gauss : PyFloat → PyFloat → PyFloat) (ch : SimulatedPSUChannel) :
    Reading → Value
  | voltage => .float (addNoise fl gauss ch.senseVoltage (SimulatedPSU.noisePercent fl))
  | current => .float (addNoise fl gauss ch.current (SimulatedPSU.noisePercent fl))
  | output => .bool ch.outputEnabled
  | ovpLevel => .float ch.overvoltageProtectionLevel
  | ovpState => .bool ch.overvoltageProtectionEnabled
  | ocpLevel => .float ch.overcurrentProtectionLevel
  | ocpState => .bool ch.overcurrentProtectionEnabled
  | remoteSense => .bool ch.remoteSense

/-- What a method is for. A number is set to three places. -/
inductive Demand
  | set (setting : Setting)
  | read (reading : Reading)
  | unsupported (feature : String)

def demand (fl : Rounding) : Method → Demand
  | .setVoltage voltage => .set (.voltage (voltage.toPlaces fl 3))
  | .getVoltage => .read .voltage
  | .setCurrentLimit limit => .set (.currentLimit (limit.toPlaces fl 3))
  | .getCurrent => .read .current
  | .outputEnable enable => .set (.output enable)
  | .getOutputStatus => .read .output
  | .setOvervoltageProtectionLevel voltage => .set (.ovpLevel (voltage.toPlaces fl 3))
  | .getOvervoltageProtectionLevel => .read .ovpLevel
  | .setOvervoltageProtectionEnabled enabled => .set (.ovpState enabled)
  | .getOvervoltageProtectionEnabled => .read .ovpState
  | .setOvervoltageProtectionDelay _ => .unsupported "set_overvoltage_protection_delay"
  | .getOvervoltageProtectionDelay => .unsupported "get_overvoltage_protection_delay"
  | .setOvercurrentProtectionLevel current => .set (.ocpLevel (current.toPlaces fl 3))
  | .getOvercurrentProtectionLevel => .read .ocpLevel
  | .setOvercurrentProtectionEnabled enabled => .set (.ocpState enabled)
  | .getOvercurrentProtectionEnabled => .read .ocpState
  | .setRemoteSenseEnabled enabled => .set (.remoteSense enabled)
  | .getRemoteSenseEnabled => .read .remoteSense

/-- The channels, and how many commands they have been sent. -/
structure Bench where
  channels : List SimulatedPSUChannel
  commands : ℕ

namespace Bench

/-- The text of an error in the queue. -/
def errorText (err : SCPIError) : Text := (toString err.code ++ ",\"" ++ err.message ++ "\"").toList

def report (err : SCPIError) : Raised := .reported (errorText err)

/-- The first error there is, or the value. -/
def outcome {α : Type} (value : α) : List SCPIError → Except Raised α
  | [] => .ok value
  | err :: _ => .error (report err)

def channel (bench : Bench) (channelId : ℤ) : Option SimulatedPSUChannel :=
  bench.channels.find? fun ch => ch.channelId = channelId

/-- The channel with this number, and no other, is now `ch`. -/
def put (bench : Bench) (channelId : ℤ) (ch : SimulatedPSUChannel) : Bench :=
  { bench with
    channels := bench.channels.replaceF fun old =>
      if old.channelId = channelId then some ch else none }

/-- The command, and the query for its errors. -/
def sent (bench : Bench) : Bench := { bench with commands := bench.commands + 2 }

/-- A setting is refused, or made; then the protection may trip. -/
def set (fl : Rounding) (bench : Bench) (channelId : ℤ) (setting : Setting) :
    Except Raised Value × Bench :=
  match bench.channel channelId with
  | none => (.error (report .headerSuffixOutOfRange), bench.sent)
  | some ch =>
    match setting.apply ch with
    | .error err => (.error (report err), bench.sent)
    | .ok ch' =>
      (outcome .none (ch'.update fl).2, (bench.put channelId (ch'.updated fl)).sent)

def read (fl : Rounding) (gauss : ℕ → PyFloat → PyFloat → PyFloat) (bench : Bench) (channelId : ℤ)
    (reading : Reading) : Except Raised Value × Bench :=
  match bench.channel channelId with
  | none => (.error (report .headerSuffixOutOfRange), bench.sent)
  | some ch => (.ok (reading.of fl (gauss bench.commands) ch), bench.sent)

def perform (fl : Rounding) (gauss : ℕ → PyFloat → PyFloat → PyFloat) (bench : Bench)
    (channelId : ℤ) : Demand → Except Raised Value × Bench
  | .set setting => bench.set fl channelId setting
  | .read reading => bench.read fl gauss channelId reading
  | .unsupported feature => (.error (.featureNotSupported feature), bench)

/-- The bench over calls. -/
def loop (fl : Rounding) (gauss : ℕ → PyFloat → PyFloat → PyFloat) :
    EventLoop Bench (Method × ℤ) (Except Raised Value) where
  step bench call :=
    let done := bench.perform fl gauss call.2 (demand fl call.1)
    ([done.1], some done.2)

end Bench

end Instro.Psu
