import Instro.Library.Cleanup
import Mathlib.Data.Int.Notation
import Mathlib.Data.List.Basic
import Mathlib.Logic.Function.Basic

/-!
# The VISA transport

`VisaDriver` opens a resource, configures it, talks to it and closes it. Any call of pyvisa may raise, and
so may the callers, in the middle of a sequence that holds the lock or of a block with another timeout.
-/

namespace Instro.Visa

open Instro.Library

/-! ## Configuration -/

inductive StopBits
  | one
  | onePointFive
  | two

/-- `int(stop_bits.value * 10)` -/
def StopBits.tenths : StopBits → ℕ
  | one => 10
  | onePointFive => 15
  | two => 20

inductive Parity
  | none
  | odd
  | even
  | mark
  | space
  deriving DecidableEq

/-- `VisaParity` -/
inductive VisaParity
  | none
  | even
  | odd
  | mark
  | space
  deriving DecidableEq

/-- `_PARITY_MAP` -/
def parityMap : Parity → VisaParity
  | .none => .none
  | .even => .even
  | .odd => .odd
  | .mark => .mark
  | .space => .space

inductive ControlFlow
  | none
  | xonXoff
  | rtsCts
  | dtrDsr

structure SerialConfig where
  baudRate : ℕ := 9600
  dataBits : ℕ := 8
  stopBits : StopBits := .one
  parity : Parity := .none
  flowControl : ControlFlow := .none

structure TerminatorConfig where
  read : String := "\n"
  write : String := "\r\n"

structure TimeoutConfig where
  connect : ℤ := 30
  recv : ℤ := 15
  send : ℤ := 15

structure VisaConfig where
  visaResource : String
  visaBackend : Option String := none
  serialConfig : SerialConfig := {}
  terminator : TerminatorConfig := {}
  timeout : TimeoutConfig := {}
  tcpNodelay : Bool := true

def defaultVisaBackend : String := "@ivi"

def fallbackVisaBackend : String := "@py"

/-- What is assigned to a resource. -/
inductive Setting
  | readTermination (text : String)
  | writeTermination (text : String)
  | timeout (ms : ℤ)
  | baudRate (rate : ℕ)
  | dataBits (bits : ℕ)
  | stopBits (tenths : ℕ)
  | parity (parity : VisaParity)
  | flowControl (flow : ControlFlow)

/-! ## Calls of pyvisa -/

inductive VisaCall
  | resourceManager (backend : String)
  | openResource (resource : String)
  | assign (inst : ℕ) (setting : Setting)
  | timeout (inst : ℕ)
  | interfaceType (inst : ℕ)
  | resourceName (inst : ℕ)
  | setsockopt (inst : ℕ)
  | write (inst : ℕ) (command : String)
  | read (inst : ℕ)
  | query (inst : ℕ) (command : String)
  | writeRaw (inst : ℕ) (data : List UInt8)
  | readRaw (inst : ℕ)
  | queryBinaryValues (inst : ℕ) (command : String) (datatype : Char) (isBigEndian : Bool)
  | clear (inst : ℕ)
  | close (inst : ℕ)

/-- What a call of pyvisa raises. -/
inductive Fault
  | osError
  | visaError
  | other
  deriving DecidableEq

inductive Raised
  | pyvisa (fault : Fault)
  /-- `RuntimeError`, "VisaDriver is not open. Call open() first." -/
  | notOpen
  /-- An exception of the caller. -/
  | caller
  deriving DecidableEq

/-- The driver's `_inst`, and what has come of the calls of pyvisa. Resources are numbered as they are
opened. -/
structure Session where
  inst : Option ℕ := none
  calls : ℕ := 0
  opened : ℕ := 0
  /-- The resources on which `close` was called. -/
  closed : List ℕ := []
  timeout : ℕ → ℤ := fun _ => 2000
  /-- The resources of which an assignment of the timeout has raised. -/
  unset : List ℕ := []

/-- Statements of the driver; they show the calls of pyvisa. -/
abbrev Talk := Procedure Session VisaCall Raised

/-- What the driver runs on: which calls raise, and what a resource is. -/
structure World where
  faults : ℕ → Option Fault
  /-- A resource of an ASRL interface -/
  isSerial : Bool
  /-- A resource with a socket of pyvisa-py behind it -/
  hasSocket : Bool

section Calls

variable (world : World)

/-- A call of pyvisa, with what it does to the resources if it returns and if it raises. -/
def attempt (call : VisaCall) (returned raised : Session → Session) : Talk Unit := fun s =>
  match world.faults s.calls with
  | none => ⟨returned { s with calls := s.calls + 1 }, [call], .ok ()⟩
  | some fault => ⟨raised { s with calls := s.calls + 1 }, [call], .error (.pyvisa fault)⟩

/-- A call that leaves the resources as they are. -/
def perform (call : VisaCall) : Talk Unit := attempt world call id id

/-- `rm.open_resource(…)`, with the number of the resource -/
def openResource (resource : String) : Talk ℕ := do
  let s ← Procedure.get
  attempt world (.openResource resource) (fun s => { s with opened := s.opened + 1 }) id
  return s.opened

/-- `inst.close()` -/
def closeResource (inst : ℕ) : Talk Unit :=
  let close := fun s : Session => { s with closed := inst :: s.closed }
  attempt world (.close inst) close close

/-- `inst.timeout = ms` -/
def setTimeout (inst : ℕ) (ms : ℤ) : Talk Unit :=
  attempt world (.assign inst (.timeout ms))
    (fun s => { s with timeout := Function.update s.timeout inst ms })
    (fun s => { s with unset := inst :: s.unset })

/-- `inst.timeout` -/
def getTimeout (inst : ℕ) : Talk ℤ := do
  perform world (.timeout inst)
  let s ← Procedure.get
  return s.timeout inst

/-! ## The driver -/

/-- `_open_resource_manager` -/
def openResourceManager : Option String → Talk Unit
  | some backend => perform world (.resourceManager backend)
  | none =>
    (perform world (.resourceManager defaultVisaBackend)).handle fun e =>
      if e = .pyvisa .osError ∨ e = .pyvisa .visaError then
        perform world (.resourceManager fallbackVisaBackend)
      else Procedure.raise e

/-- `_disable_nagle` -/
def disableNagle (inst : ℕ) : Talk Unit :=
  if world.hasSocket then
    (perform world (.setsockopt inst)).handle fun e =>
      if e = .pyvisa .osError then perform world (.resourceName inst) else Procedure.raise e
  else pure ()

def assign (inst : ℕ) (setting : Setting) : Talk Unit := perform world (.assign inst setting)

/-- The serial line of `_configure_resource`. -/
def configureSerial (inst : ℕ) (serial : SerialConfig) : Talk Unit := do
  assign world inst (.baudRate serial.baudRate)
  assign world inst (.dataBits serial.dataBits)
  assign world inst (.stopBits serial.stopBits.tenths)
  assign world inst (.parity (parityMap serial.parity))
  assign world inst (.flowControl serial.flowControl)

/-- `_configure_resource` -/
def configureResource (inst : ℕ) (cfg : VisaConfig) : Talk Unit := do
  assign world inst (.readTermination cfg.terminator.read)
  assign world inst (.writeTermination cfg.terminator.write)
  setTimeout world inst (cfg.timeout.recv * 1000)
  if cfg.tcpNodelay then disableNagle world inst
  perform world (.interfaceType inst)
  if world.isSerial then configureSerial world inst cfg.serialConfig

/-- `open` -/
def openDriver (cfg : VisaConfig) : Talk Unit := do
  let s ← Procedure.get
  if s.inst.isSome then pure ()
  else do
    openResourceManager world cfg.visaBackend
    let inst ← openResource world cfg.visaResource
    (configureResource world inst cfg).handle fun e => do
      (closeResource world inst).handle fun _ => pure ()
      Procedure.raise e
    Procedure.modify fun s => { s with inst := some inst }

/-- `close` -/
def closeDriver : Talk Unit := do
  let s ← Procedure.get
  match s.inst with
  | none => pure ()
  | some inst =>
    (closeResource world inst).cleanup (Procedure.modify fun s => { s with inst := none })

/-- `_require_open_locked` -/
def requireOpen : Talk ℕ := do
  let s ← Procedure.get
  match s.inst with
  | none => Procedure.raise .notOpen
  | some inst => return inst

end Calls

/-- The methods that talk to the resource. -/
inductive Method
  | write (command : String)
  | read
  | query (command : String)
  | writeRaw (data : List UInt8)
  | readRaw
  | queryRaw (command : String)
  | queryBinaryValues (command : String) (datatype : Char) (isBigEndian : Bool)
  | clear

/-- The calls of pyvisa that a method makes. -/
def Method.calls (inst : ℕ) : Method → List VisaCall
  | write command => [.write inst command]
  | read => [.read inst]
  | query command => [.query inst command]
  | writeRaw data => [.writeRaw inst data]
  | readRaw => [.readRaw inst]
  | queryRaw command => [.write inst command, .readRaw inst]
  | queryBinaryValues command datatype isBigEndian =>
    [.queryBinaryValues inst command datatype isBigEndian]
  | clear => [.clear inst]

section Scripts

variable (world : World) (cfg : VisaConfig)

def Method.run (method : Method) : Talk Unit := do
  let inst ← requireOpen
  (method.calls inst).forM (perform world)

/-- `temporary_timeout`, with what is done in the block. -/
def temporaryTimeout (timeoutMs : ℤ) (body : Talk Unit) : Talk Unit := do
  let inst ← requireOpen
  let original ← getTimeout world inst
  setTimeout world inst timeoutMs
  body.cleanup (setTimeout world inst original)

/-- What the callers of a driver do: calls one after another, blocks with another timeout, exceptions of
their own, and exceptions that they handle. -/
inductive Script
  | nothing
  | openDriver
  | closeDriver
  | call (method : Method)
  | fail
  | next (first second : Script)
  | handle (body handler : Script)
  | temporaryTimeout (timeoutMs : ℤ) (body : Script)

def Script.run : Script → Talk Unit
  | nothing => pure ()
  | openDriver => Visa.openDriver world cfg
  | closeDriver => Visa.closeDriver world
  | call method => method.run world
  | fail => Procedure.raise .caller
  | next first second => do
    first.run
    second.run
  | handle body handler => body.run.handle fun _ => handler.run
  | temporaryTimeout timeoutMs body => Visa.temporaryTimeout world timeoutMs body.run

end Scripts

end Instro.Visa
