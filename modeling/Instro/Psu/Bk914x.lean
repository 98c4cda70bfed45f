import Instro.Library.EventLoop
import Instro.Library.FloatText
import Instro.Library.Procedure

/-!
# The driver of the B&K Precision 914X

The instrument has one of its outputs selected, and a command for a channel acts on that output. The
driver writes `INST` before such a command, unless the channel is the one it selected last.
-/

namespace Instro.Psu.Bk914x

open Instro.Library

/-! ## Commands -/

inductive Query
  | measVolt
  | measCurr
  | outpStat
  | voltProt
  | currProt
  | currProtStat
  | voltSens
  | systErr
  deriving DecidableEq

inductive Command
  | inst (k : ℤ)
  | volt (voltage : PyFloat)
  | curr (currentLimit : PyFloat)
  | outpStat (enable : Bool)
  | voltProt (voltage : PyFloat)
  | currProt (current : PyFloat)
  | currProtStat (enabled : Bool)
  | voltSens (enabled : Bool)
  | query (q : Query)
  deriving DecidableEq

def Query.text : Query → Text
  | measVolt => "MEAS:VOLT?".toList
  | measCurr => "MEAS:CURR?".toList
  | outpStat => "OUTP:STAT?".toList
  | voltProt => "VOLT:PROT?".toList
  | currProt => "CURR:PROT?".toList
  | currProtStat => "CURR:PROT:STAT?".toList
  | voltSens => "VOLT:SENS?".toList
  | systErr => "SYST:ERR?".toList

def onOff (enabled : Bool) : Text := if enabled then " ON".toList else " OFF".toList

def Command.text : Command → Text
  | inst k => "INST ".toList ++ intText k
  | volt voltage => "VOLT ".toList ++ voltage.fixed 3
  | curr currentLimit => "CURR ".toList ++ currentLimit.fixed 3
  | outpStat enable => "OUTP:STAT".toList ++ onOff enable
  | voltProt voltage => "VOLT:PROT ".toList ++ voltage.fixed 3
  | currProt current => "CURR:PROT ".toList ++ current.fixed 3
  | currProtStat enabled => "CURR:PROT:STAT".toList ++ onOff enabled
  | voltSens enabled => "VOLT:SENS".toList ++ onOff enabled
  | query q => q.text

/-- The commands that act on the selected output. -/
def Command.ofChannel : Command → Bool
  | inst _ => false
  | query .systErr => false
  | _ => true

/-! ## The instrument -/

/-- An instrument with the outputs `0` to `last`, and a count of the errors in its queue. -/
structure Instrument (last : ℕ) where
  selected : Fin (last + 1)
  errors : ℕ
  deriving DecidableEq

/-- The output `INST k` leaves selected. -/
def Instrument.select {last : ℕ} (psu : Instrument last) (k : ℤ) : Fin (last + 1) :=
  if h : 0 ≤ k ∧ k ≤ last then ⟨k.toNat, by omega⟩ else psu.selected

def Instrument.receive {last : ℕ} (psu : Instrument last) : Command → Instrument last
  | .inst k =>
    ⟨psu.select k, if 0 ≤ k ∧ k ≤ last then psu.errors else psu.errors + 1⟩
  | .query .systErr => { psu with errors := psu.errors - 1 }
  | _ => psu

/-! ## The driver -/

/-- The driver and the instrument it is connected to. -/
structure Bench (last : ℕ) where
  isOpen : Bool
  activeChannel : Option ℤ
  psu : Instrument last
  deriving DecidableEq

/-- A command that has reached the instrument, with the output that was selected when it came. -/
structure Received (last : ℕ) where
  text : Text
  command : Command
  output : Fin (last + 1)
  deriving DecidableEq

inductive Raised
  /-- `RuntimeError`, "VisaDriver is not open. Call open() first." -/
  | notOpen
  /-- The transport raises. -/
  | visa
  /-- `RuntimeError`, "BK914X PSU reported error: {err}" -/
  | reported (err : Text)
  /-- `FeatureNotSupportedError` -/
  | featureNotSupported (feature : String)
  | python (e : PyException)
  deriving DecidableEq

/-- A write that raises may have reached the instrument. -/
inductive WriteOutcome
  | sent
  | lost
  | sentRaising
  deriving DecidableEq

/-- A read gives a text, or it raises: the transport, or the decoding. -/
inductive ReadOutcome
  | raises
  | text (response : Text)

/-- What the transport does in one call of the driver: the write of `INST`, if there is one, the write
of the command, the reads of its response, the write of `SYST:ERR?` and the reads of its response. -/
structure Wire where
  select : WriteOutcome
  command : WriteOutcome
  responses : ℕ → ReadOutcome
  check : WriteOutcome
  errors : ℕ → ReadOutcome

/-- Statements that talk to the instrument. -/
abbrev Talk (last : ℕ) := Procedure (Bench last) (Received last) Raised

section Transport

variable {last : ℕ}

/-- `_require_open_locked` -/
def requireOpen : Talk last Unit := do
  let bench ← Procedure.get
  if bench.isOpen then pure () else Procedure.raise .notOpen

/-- The command reaches the instrument. -/
def reach (command : Command) : Talk last Unit := do
  let bench ← Procedure.get
  Procedure.show ⟨command.text, command, bench.psu.selected⟩
  Procedure.modify fun bench => { bench with psu := bench.psu.receive command }

/-- `VisaDriver.write` -/
def write (command : Command) (outcome : WriteOutcome) : Talk last Unit := do
  requireOpen
  match outcome with
  | .sent => reach command
  | .lost => Procedure.raise .visa
  | .sentRaising => do
    reach command
    Procedure.raise .visa

/-- `VisaDriver.read_raw`, decoded and stripped. -/
def readRaw (outcome : ReadOutcome) : Talk last Text := do
  requireOpen
  match outcome with
  | .raises => Procedure.raise .visa
  | .text response => pure (PyText.strip response)

/-- The rounds of `_query_locked` that are left, from the read `i` on. -/
def readResponse (reads : ℕ → ReadOutcome) (i : ℕ) (response : Text) : ℕ → Talk last Text
  | 0 => pure response
  | rounds + 1 => do
    let response ← readRaw (reads i)
    if PyText.strip response ≠ [] then pure response
    else readResponse reads (i + 1) response rounds

/-- `_query_locked` -/
def queryLocked (query : Query) (outcome : WriteOutcome) (reads : ℕ → ReadOutcome) :
    Talk last Text := do
  write (.query query) outcome
  readResponse reads 0 [] 3

variable (wire : Wire)

/-- `_check_errors` -/
def checkErrors : Talk last Unit := do
  let err ← queryLocked .systErr wire.check wire.errors
  if err.head? = some '0' then pure () else Procedure.raise (.reported err)

/-- `_channel_select_locked` -/
def channelSelect (channel : ℤ) : Talk last Unit := do
  let bench ← Procedure.get
  if bench.activeChannel = some channel then pure ()
  else do
    write (.inst (channel - 1)) wire.select
    Procedure.modify fun bench => { bench with activeChannel := some channel }

/-- The channel is selected, the command is written, and the errors are read. -/
def setOn (command : Command) (channel : ℤ) : Talk last Unit := do
  channelSelect wire channel
  write command wire.command
  checkErrors wire

def queryOn (query : Query) (channel : ℤ) : Talk last Text := do
  channelSelect wire channel
  let value ← queryLocked query wire.command wire.responses
  checkErrors wire
  return value

end Transport

section Driver

variable {last : ℕ} (py : PyText) (wire : Wire)

def notSupported (feature : String) : Talk last Unit :=
  Procedure.raise (.featureNotSupported feature)

/-- `float(value)` -/
def toFloat (value : Text) : Except Raised PyFloat := (py.toFloat value).mapError .python

/-- `value.strip().upper() in {"1", "ON"}` -/
def isOn (value : Text) : Bool :=
  py.upper (PyText.strip value) = "1".toList ∨ py.upper (PyText.strip value) = "ON".toList

def setVoltage (voltage : PyFloat) (channel : ℤ) : Talk last Unit :=
  setOn wire (.volt voltage) channel

def getVoltage (channel : ℤ) : Talk last PyFloat := do
  let value ← queryOn wire .measVolt channel
  Procedure.lift (toFloat py value)

def setCurrentLimit (currentLimit : PyFloat) (channel : ℤ) : Talk last Unit :=
  setOn wire (.curr currentLimit) channel

def getCurrent (channel : ℤ) : Talk last PyFloat := do
  let value ← queryOn wire .measCurr channel
  Procedure.lift (toFloat py value)

def outputEnable (enable : Bool) (channel : ℤ) : Talk last Unit :=
  setOn wire (.outpStat enable) channel

def getOutputStatus (channel : ℤ) : Talk last Bool := do
  let resp ← queryOn wire .outpStat channel
  return resp = "1".toList

def setOvervoltageProtectionLevel (voltage : PyFloat) (channel : ℤ) : Talk last Unit :=
  setOn wire (.voltProt voltage) channel

def getOvervoltageProtectionLevel (channel : ℤ) : Talk last PyFloat := do
  let value ← queryOn wire .voltProt channel
  Procedure.lift (toFloat py value)

def setOvercurrentProtectionLevel (current : PyFloat) (channel : ℤ) : Talk last Unit :=
  setOn wire (.currProt current) channel

def getOvercurrentProtectionLevel (channel : ℤ) : Talk last PyFloat := do
  let value ← queryOn wire .currProt channel
  Procedure.lift (toFloat py value)

def setOvercurrentProtectionEnabled (enabled : Bool) (channel : ℤ) : Talk last Unit :=
  setOn wire (.currProtStat enabled) channel

def getOvercurrentProtectionEnabled (channel : ℤ) : Talk last Bool := do
  let value ← queryOn wire .currProtStat channel
  return isOn py value

def setRemoteSenseEnabled (enabled : Bool) (channel : ℤ) : Talk last Unit :=
  setOn wire (.voltSens enabled) channel

def getRemoteSenseEnabled (channel : ℤ) : Talk last Bool := do
  let value ← queryOn wire .voltSens channel
  return isOn py value

end Driver

/-! ## Calls and runs -/

/-- The methods of the driver that take a channel. -/
inductive Method
  | setVoltage (voltage : PyFloat)
  | getVoltage
  | setCurrentLimit (currentLimit : PyFloat)
  | getCurrent
  | outputEnable (enable : Bool)
  | getOutputStatus
  | setOvervoltageProtectionLevel (voltage : PyFloat)
  | getOvervoltageProtectionLevel
  | setOvervoltageProtectionEnabled (enabled : Bool)
  | getOvervoltageProtectionEnabled
  | setOvervoltageProtectionDelay (delay : PyFloat)
  | getOvervoltageProtectionDelay
  | setOvercurrentProtectionLevel (current : PyFloat)
  | getOvercurrentProtectionLevel
  | setOvercurrentProtectionEnabled (enabled : Bool)
  | getOvercurrentProtectionEnabled
  | setRemoteSenseEnabled (enabled : Bool)
  | getRemoteSenseEnabled

/-- What a method returns. -/
inductive Value
  | none
  | float (x : PyFloat)
  | bool (b : Bool)
  deriving DecidableEq

def Method.run {last : ℕ} (py : PyText) (wire : Wire) (channel : ℤ) : Method → Talk last Value
  | setVoltage voltage => (fun _ => .none) <$> Bk914x.setVoltage wire voltage channel
  | getVoltage => .float <$> Bk914x.getVoltage py wire channel
  | setCurrentLimit limit => (fun _ => .none) <$> Bk914x.setCurrentLimit wire limit channel
  | getCurrent => .float <$> Bk914x.getCurrent py wire channel
  | outputEnable enable => (fun _ => .none) <$> Bk914x.outputEnable wire enable channel
  | getOutputStatus => .bool <$> Bk914x.getOutputStatus wire channel
  | setOvervoltageProtectionLevel voltage =>
    (fun _ => .none) <$> Bk914x.setOvervoltageProtectionLevel wire voltage channel
  | getOvervoltageProtectionLevel => .float <$> Bk914x.getOvervoltageProtectionLevel py wire channel
  | setOvervoltageProtectionEnabled _ =>
    (fun _ => .none) <$> notSupported "set_overvoltage_protection_enabled"
  | getOvervoltageProtectionEnabled =>
    (fun _ => .none) <$> notSupported "get_overvoltage_protection_enabled"
  | setOvervoltageProtectionDelay _ =>
    (fun _ => .none) <$> notSupported "set_overvoltage_protection_delay"
  | getOvervoltageProtectionDelay =>
    (fun _ => .none) <$> notSupported "get_overvoltage_protection_delay"
  | setOvercurrentProtectionLevel current =>
    (fun _ => .none) <$> Bk914x.setOvercurrentProtectionLevel wire current channel
  | getOvercurrentProtectionLevel => .float <$> Bk914x.getOvercurrentProtectionLevel py wire channel
  | setOvercurrentProtectionEnabled enabled =>
    (fun _ => .none) <$> Bk914x.setOvercurrentProtectionEnabled wire enabled channel
  | getOvercurrentProtectionEnabled =>
    .bool <$> Bk914x.getOvercurrentProtectionEnabled py wire channel
  | setRemoteSenseEnabled enabled =>
    (fun _ => .none) <$> Bk914x.setRemoteSenseEnabled wire enabled channel
  | getRemoteSenseEnabled => .bool <$> Bk914x.getRemoteSenseEnabled py wire channel

/-- The command a method sends for its channel, if it is supported. -/
def Method.command : Method → Option Command
  | setVoltage voltage => some (.volt voltage)
  | getVoltage => some (.query .measVolt)
  | setCurrentLimit limit => some (.curr limit)
  | getCurrent => some (.query .measCurr)
  | outputEnable enable => some (.outpStat enable)
  | getOutputStatus => some (.query .outpStat)
  | setOvervoltageProtectionLevel voltage => some (.voltProt voltage)
  | getOvervoltageProtectionLevel => some (.query .voltProt)
  | setOvervoltageProtectionEnabled _ => none
  | getOvervoltageProtectionEnabled => none
  | setOvervoltageProtectionDelay _ => none
  | getOvervoltageProtectionDelay => none
  | setOvercurrentProtectionLevel current => some (.currProt current)
  | getOvercurrentProtectionLevel => some (.query .currProt)
  | setOvercurrentProtectionEnabled enabled => some (.currProtStat enabled)
  | getOvercurrentProtectionEnabled => some (.query .currProtStat)
  | setRemoteSenseEnabled enabled => some (.voltSens enabled)
  | getRemoteSenseEnabled => some (.query .voltSens)

inductive Event
  /-- `open` connects, or raises. -/
  | open (connects : Bool)
  | close
  /-- The instrument is switched off and on. -/
  | powerCycle
  | call (method : Method) (channel : ℤ) (wire : Wire)

/-- A command reaches the instrument in a call for `channel`. -/
structure Action (last : ℕ) where
  channel : ℤ
  received : Received last
  deriving DecidableEq

def Bench.initial {last : ℕ} (psu : Instrument last) : Bench last := ⟨false, none, psu⟩

/-- The driver and the instrument over calls. The instrument is switched off only while the driver is
closed. -/
def driver (last : ℕ) (py : PyText) : EventLoop (Bench last) Event (Action last) where
  step bench event :=
    match event with
    | .open connects => ([], some { bench with isOpen := bench.isOpen || connects })
    | .close => ([], some { bench with isOpen := false })
    | .powerCycle => ([], if bench.isOpen then none else some { bench with psu := ⟨0, 0⟩ })
    | .call method channel wire =>
      let done := method.run py wire channel bench
      (done.shown.map (Action.mk channel), some done.state)

end Instro.Psu.Bk914x
