import Instro.Library.Procedure
import Instro.Library.PyConversions
import Instro.Psu.Bk914x
import Instro.Psu.Server

/-!
# The driver of the simulator

`SimulatedPSU` of the drivers talks to `_handle_client` of the server over one connection: it writes a
command with the terminator behind it, reads the response of a query, and asks for the next error of the
queue after every command.
-/

namespace Instro.Psu.Simulated

open Instro.Library
open Instro.Psu.Bk914x (Method Value)

inductive Raised
  /-- The transport raises: the connection is closed, or no response comes in time. -/
  | visa
  /-- `RuntimeError`, "Simulated PSU reported error: {err}" -/
  | reported (err : Text)
  /-- `FeatureNotSupportedError`, "{feature} is not supported by SimulatedPSU" -/
  | featureNotSupported (feature : String)
  | python (e : PyException)
  deriving DecidableEq

/-- The connection to the server, and how many of its responses have been read. -/
structure Link where
  server : Connection
  read : ℕ

/-- Statements that talk to the server; they show the commands that are written. -/
abbrev Talk := Procedure Link Text Raised

section Transport

variable (fl : Rounding) (py : PyText) (gauss : ℕ → PyFloat → PyFloat → PyFloat)

/-- What the server receives of a command, up to the newline. -/
def sentLine (command : Text) : List UInt8 := Utf8.encode (command ++ ['\r'])

/-- `VisaDriver.write` -/
def write (command : Text) : Talk Unit := do
  let link ← Procedure.get
  if link.server.isEnded then Procedure.raise .visa
  else do
    Procedure.show command
    Procedure.modify fun link =>
      { link with
        server := handleLine fl py gauss (fun _ => false) link.server (sentLine command) }

/-- `VisaDriver.read` without the newline. The bytes are decoded as ASCII. -/
def read : Talk Text := do
  let link ← Procedure.get
  match link.server.served.sent[link.read]? with
  | none => Procedure.raise .visa
  | some response => do
    Procedure.modify fun link => { link with read := link.read + 1 }
    if response.all fun b => b.toNat < 0x80 then pure (PyBytes.latin1 response).dropLast
    else Procedure.raise (.python .valueError)

/-- `VisaDriver.query` -/
def query (command : Text) : Talk Text := do
  write fl py gauss command
  read

/-- `err.split(",", 1)[0].strip().lstrip("+")` -/
def errorCode (err : Text) : Text := (PyText.strip (err.takeWhile (· ≠ ','))).dropWhile (· = '+')

/-- `_check_errors` -/
def checkErrors : Talk Unit := do
  let err ← query fl py gauss ":SYST:ERR?".toList
  if errorCode err = ['0'] then pure () else Procedure.raise (.reported err)

/-- `_write_checked` -/
def writeChecked (command : Text) : Talk Unit := do
  write fl py gauss command
  checkErrors fl py gauss

/-- A query, and the errors after it. -/
def queryChecked (command : Text) : Talk Text := do
  let value ← query fl py gauss command
  checkErrors fl py gauss
  return value

/-- `_query_checked_float` -/
def queryCheckedFloat (command : Text) : Talk PyFloat := do
  let value ← queryChecked fl py gauss command
  Procedure.lift ((py.toFloat value).mapError .python)

end Transport

section Driver

variable (fl : Rounding) (py : PyText) (gauss : ℕ → PyFloat → PyFloat → PyFloat) (channel : ℤ)

/-- `f":SOUR{channel}"` and the like, with what follows. -/
def header (keyword : String) (channel : ℤ) (path : String) : Text :=
  ':' :: keyword.toList ++ (intText channel ++ path.toList)

def onOff (enabled : Bool) : Text := if enabled then "ON".toList else "OFF".toList

def setVoltage (voltage : PyFloat) : Talk Unit :=
  writeChecked fl py gauss (header "SOUR" channel ":VOLT " ++ voltage.fixed 3)

def getVoltage : Talk PyFloat := queryCheckedFloat fl py gauss (header "MEAS" channel ":VOLT?")

def setCurrentLimit (currentLimit : PyFloat) : Talk Unit :=
  writeChecked fl py gauss (header "SOUR" channel ":CURR " ++ currentLimit.fixed 3)

def getCurrent : Talk PyFloat := queryCheckedFloat fl py gauss (header "MEAS" channel ":CURR?")

def outputEnable (enable : Bool) : Talk Unit :=
  writeChecked fl py gauss (header "OUTP" channel ":STAT " ++ onOff enable)

def getOutputStatus : Talk Bool := do
  let resp ← queryChecked fl py gauss (header "OUTP" channel ":STAT?")
  return PyText.strip resp = "1".toList

def setOvervoltageProtectionLevel (voltage : PyFloat) : Talk Unit :=
  writeChecked fl py gauss (header "SOUR" channel ":VOLT:PROT " ++ voltage.fixed 3)

def getOvervoltageProtectionLevel : Talk PyFloat :=
  queryCheckedFloat fl py gauss (header "SOUR" channel ":VOLT:PROT:LEV?")

def setOvervoltageProtectionEnabled (enabled : Bool) : Talk Unit :=
  writeChecked fl py gauss (header "SOUR" channel ":VOLT:PROT:STAT " ++ onOff enabled)

def getOvervoltageProtectionEnabled : Talk Bool := do
  let resp ← queryChecked fl py gauss (header "SOUR" channel ":VOLT:PROT:STAT?")
  return PyText.strip resp = "1".toList

def notSupported (feature : String) : Talk Unit := Procedure.raise (.featureNotSupported feature)

def setOvercurrentProtectionLevel (current : PyFloat) : Talk Unit :=
  writeChecked fl py gauss (header "SOUR" channel ":CURR:PROT " ++ current.fixed 3)

def getOvercurrentProtectionLevel : Talk PyFloat :=
  queryCheckedFloat fl py gauss (header "SOUR" channel ":CURR:PROT:LEV?")

def setOvercurrentProtectionEnabled (enabled : Bool) : Talk Unit :=
  writeChecked fl py gauss (header "SOUR" channel ":CURR:PROT:STAT " ++ onOff enabled)

def getOvercurrentProtectionEnabled : Talk Bool := do
  let resp ← queryChecked fl py gauss (header "SOUR" channel ":CURR:PROT:STAT?")
  return PyText.strip resp = "1".toList

def setRemoteSenseEnabled (enabled : Bool) : Talk Unit :=
  writeChecked fl py gauss
    (header "SYST" channel ":SENS " ++ if enabled then "REM".toList else "LOC".toList)

def getRemoteSenseEnabled : Talk Bool := do
  let resp ← queryChecked fl py gauss (header "SYST" channel ":SENS?")
  return py.upper (PyText.strip resp) = "REM".toList

end Driver

/-- A method of the driver on a channel. -/
def run (fl : Rounding) (py : PyText) (gauss : ℕ → PyFloat → PyFloat → PyFloat) (channel : ℤ) :
    Method → Talk Value
  | .setVoltage voltage => (fun _ => .none) <$> setVoltage fl py gauss channel voltage
  | .getVoltage => .float <$> getVoltage fl py gauss channel
  | .setCurrentLimit limit => (fun _ => .none) <$> setCurrentLimit fl py gauss channel limit
  | .getCurrent => .float <$> getCurrent fl py gauss channel
  | .outputEnable enable => (fun _ => .none) <$> outputEnable fl py gauss channel enable
  | .getOutputStatus => .bool <$> getOutputStatus fl py gauss channel
  | .setOvervoltageProtectionLevel voltage =>
    (fun _ => .none) <$> setOvervoltageProtectionLevel fl py gauss channel voltage
  | .getOvervoltageProtectionLevel => .float <$> getOvervoltageProtectionLevel fl py gauss channel
  | .setOvervoltageProtectionEnabled enabled =>
    (fun _ => .none) <$> setOvervoltageProtectionEnabled fl py gauss channel enabled
  | .getOvervoltageProtectionEnabled => .bool <$> getOvervoltageProtectionEnabled fl py gauss channel
  | .setOvervoltageProtectionDelay _ =>
    (fun _ => .none) <$> notSupported "set_overvoltage_protection_delay"
  | .getOvervoltageProtectionDelay =>
    (fun _ => .none) <$> notSupported "get_overvoltage_protection_delay"
  | .setOvercurrentProtectionLevel current =>
    (fun _ => .none) <$> setOvercurrentProtectionLevel fl py gauss channel current
  | .getOvercurrentProtectionLevel => .float <$> getOvercurrentProtectionLevel fl py gauss channel
  | .setOvercurrentProtectionEnabled enabled =>
    (fun _ => .none) <$> setOvercurrentProtectionEnabled fl py gauss channel enabled
  | .getOvercurrentProtectionEnabled => .bool <$> getOvercurrentProtectionEnabled fl py gauss channel
  | .setRemoteSenseEnabled enabled =>
    (fun _ => .none) <$> setRemoteSenseEnabled fl py gauss channel enabled
  | .getRemoteSenseEnabled => .bool <$> getRemoteSenseEnabled fl py gauss channel

/-- The driver over calls. -/
def driver (fl : Rounding) (py : PyText) (gauss : ℕ → PyFloat → PyFloat → PyFloat) :
    EventLoop Link (Method × ℤ) (Except Raised Value) where
  step link call :=
    let done := run fl py gauss call.2 call.1 link
    ([done.result], some done.state)

end Instro.Psu.Simulated
