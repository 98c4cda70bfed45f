import Instro.I2c.Types
import Instro.Library.EventLoop
import Instro.Library.KeyedUpdates

/-!
# The I2C interface

The calls of an interface run concurrently, one bus transaction at a time. A write holds the resource
lock from before the read of a field write to after its write; a query holds it over both of its
transactions; a read is a single transaction and takes no lock.
-/

namespace Instro.I2c

open Instro.Library

structure I2CInterface where
  name : String
  legacyNaming : Bool := false
  system : SystemDefinition

/-! ## The bus -/

/-- A register of the bus: the address of its device and the pointer that selects it. -/
abbrev Pointer : Type := Nat × List UInt8

/-- The bytes of a register, from the first one on. -/
abbrev Content : Type := Nat → UInt8

/-- What the register devices hold. Writing to a command device changes no register. -/
abbrev Memory : Type := Pointer → Content

/-- The bytes written after the pointer are the first ones of the register. -/
def Content.store (payload : List UInt8) (content : Content) : Content :=
  fun k => payload[k]?.getD (content k)

/-- The first bytes of the register. -/
def Content.load (content : Content) (length : Nat) : List UInt8 := (List.range length).map content

/-! ## Calls -/

inductive Call
  | write (peripheral registerAlias : String) (value : ℤ) (field : String)
  | resetReg (peripheral registerAlias : String)
  | read (peripheral registerAlias field : String)
  | query (peripheral batchCommand : String)

/-- What a call returns: the channel and the value of its measurement or command. -/
inductive Output
  | measurement (channel : String) (value : PyFloat)
  | command (channel : String) (value : PyFloat)

abbrev CallResult : Type := Except PyException Output

/-- `_addr_prefix` -/
def addrPrefix (addrWidthBytes regAddr : Nat) : Except PyException (List UInt8) :=
  match addrWidthBytes with
  | 1 => .ok [UInt8.ofNat (regAddr &&& 0xFF)]
  | 2 => Endianness.big.toBytes 2 regAddr
  | _ => .error .valueError

/-- A register of the system definition, with its pointer. -/
structure Target where
  device : RegisterDevice
  register : RegisterDef
  pointerBytes : List UInt8

def Target.pointer (target : Target) : Pointer := (target.device.address, target.pointerBytes)

structure RegisterWrite extends Target where
  value : ℤ
  field : String

structure RegisterRead extends Target where
  field : String

structure Query where
  device : CommandDevice
  batchCommand : String
  commandBytes : List UInt8

namespace I2CInterface

variable (i2c : I2CInterface)

/-- The start of `read` and `write`. -/
def target (peripheral registerAlias : String) : Except PyException Target := do
  match ← i2c.system.device peripheral with
  | .command _ => .error .valueError
  | .register device =>
    let register ← device.register registerAlias
    let pointerBytes ← addrPrefix device.addrWidthBytes register.register
    return { device, register, pointerBytes }

/-- The start of `query`: the values of the command are or'ed together. -/
def startQuery (peripheral batchCommand : String) : Except PyException Query := do
  match ← i2c.system.device peripheral with
  | .register _ => .error .valueError
  | .command device =>
    let values ← lookupKey device.batchCommands batchCommand
    let commandBytes ← device.endianness.toBytes 1 (values.foldl Int.lor 0)
    let _ ← device.dataWidthBytes
    return { device, batchCommand, commandBytes }

def sep : String := if i2c.legacyNaming then "_" else "."

/-- The published channel of the names of a device, a register and a field. -/
def channel (names : List String) : String := i2c.sep.intercalate (i2c.name :: names)

end I2CInterface

/-- The names of the channel of a register or a field. -/
def Target.channelNames (target : Target) (field : String) : List String :=
  [target.device.name, target.register.regAlias] ++ if field = "" then [] else [field]

/-! ## Register writes -/

namespace RegisterWrite

variable (w : RegisterWrite)

/-- What a whole write sends after the pointer. -/
def payload (data : ℤ) : Except PyException (List UInt8) := do
  let n ← w.register.dataWidthBytes
  w.register.endianness.toBytes n data

/-- What a field write sends after it has read the register: the value masked and shifted into the
bits of the field. -/
def mergedPayload (field : FieldDef) (content : Content) : Except PyException (List UInt8) := do
  let n ← w.register.dataWidthBytes
  let current := w.register.endianness.decode (content.load n)
  w.payload (insertBits field.lsb field.widthBits current w.value)

end RegisterWrite

/-! ## Reads -/

/-- The value of the register or the field. -/
def RegisterRead.data (fl : Rounding) (r : RegisterRead) (response : Nat) :
    Except PyException PyFloat :=
  if r.field = "" then r.register.format.floatFromRaw fl response
  else do
    let field ← r.register.field r.field
    PyFloat.ofInt fl (extractBits field.lsb field.widthBits response)

/-- What a read makes of the content of its register. -/
def RegisterRead.result (fl : Rounding) (i2c : I2CInterface) (r : RegisterRead)
    (content : Content) : CallResult := do
  let n ← r.register.dataWidthBytes
  let data ← r.data fl (r.register.endianness.decode (content.load n))
  return .measurement (i2c.channel (r.channelNames r.field)) data

def Query.result (fl : Rounding) (i2c : I2CInterface) (q : Query) (response : List UInt8) :
    CallResult := do
  let data ← q.device.dataFormat.floatFromRaw fl (q.device.endianness.decode response)
  return .measurement (i2c.channel [q.device.name, q.batchCommand]) data

/-- What a write returns after its transactions. -/
def RegisterWrite.result (fl : Rounding) (i2c : I2CInterface) (w : RegisterWrite) :
    CallResult := do
  let data ← PyFloat.ofInt fl w.value
  return .command
    (i2c.channel (w.channelNames w.field) ++ if i2c.legacyNaming then "_cmd" else ".cmd")
    data

/-! ## Running calls -/

/-- Where a call is. It holds the lock from `reading` to `writing` and from `commanding` to
`responding`; `written` has released it. -/
inductive Stage
  | waiting (w : RegisterWrite)
  | reading (w : RegisterWrite) (field : FieldDef)
  | writing (w : RegisterWrite) (payload : List UInt8)
  | written (w : RegisterWrite)
  | awaiting (q : Query)
  | commanding (q : Query)
  | responding (q : Query)
  | fetching (r : RegisterRead)
  | ended (result : CallResult)

def Stage.holdsLock : Stage → Bool
  | .reading _ _ | .writing _ _ | .commanding _ | .responding _ => true
  | _ => false

/-- A call that raises in `start` does so before it takes the lock. -/
def Stage.ofStart {α : Type} (start : Except PyException α) (stage : α → Stage) : Stage :=
  match start with
  | .ok a => stage a
  | .error e => .ended (.error e)

/-- A call up to its first bus transaction or the lock. -/
def I2CInterface.issue (i2c : I2CInterface) : Call → Stage
  | .write peripheral registerAlias value field =>
    .ofStart (i2c.target peripheral registerAlias) fun target =>
      .waiting { target with value, field }
  | .resetReg peripheral registerAlias =>
    .ofStart (i2c.target peripheral registerAlias) fun target =>
      .waiting { target with value := target.register.defaultValue, field := "" }
  | .read peripheral registerAlias field =>
    .ofStart (i2c.target peripheral registerAlias) fun target => .fetching { target with field }
  | .query peripheral batchCommand =>
    .ofStart (i2c.startQuery peripheral batchCommand) .awaiting

/-- A write that has taken the lock, up to its first bus transaction. -/
def RegisterWrite.begin (w : RegisterWrite) : Except PyException Stage :=
  if w.field = "" then do
    let payload ← w.payload w.value
    return .writing w payload
  else do
    let field ← w.register.field w.field
    let _ ← w.register.dataWidthBytes
    return .reading w field

/-- `calls`: the calls issued so far. `log`: the writes that have been on the bus, with the places
of their calls, in the order of the bus; nothing reads it. -/
structure State where
  memory : Memory
  lock : Option Nat
  calls : List Stage
  log : List (Nat × RegisterWrite)

inductive Event
  | issue (call : Call)
  | step (i : Nat)
  | respond (i : Nat) (response : List UInt8)

def initial (memory : Memory) : State := ⟨memory, none, [], []⟩

namespace State

variable (s : State)

def goto (i : Nat) (stage : Stage) : State := { s with calls := s.calls.set i stage }

/-- A call that does not hold the lock ends. -/
def finish (i : Nat) (result : CallResult) : State := s.goto i (.ended result)

/-- Take the lock, unless the call raises before its first transaction. -/
def enter (i : Nat) (stage : Except PyException Stage) : Option State :=
  match s.lock, stage with
  | some _, _ => none
  | none, .ok stage => some ({ s with lock := some i }.goto i stage)
  | none, .error e => some (s.finish i (.error e))

/-- The next step of a call: up to and with its next bus transaction. -/
def advance (fl : Rounding) (i2c : I2CInterface) (i : Nat) : Stage → Option State
  | .waiting w => s.enter i w.begin
  | .reading w field =>
    match w.mergedPayload field (s.memory w.pointer) with
    | .ok payload => some (s.goto i (.writing w payload))
    | .error e => some ({ s with lock := none }.finish i (.error e))
  | .writing w payload =>
    some ({ s with
      memory := updateAt s.memory w.pointer (Content.store payload)
      lock := none
      log := s.log ++ [(i, w)] }.goto i (.written w))
  | .written w => some (s.finish i (w.result fl i2c))
  | .awaiting q => s.enter i (.ok (.commanding q))
  | .commanding q => some (s.goto i (.responding q))
  | .responding _ => none
  | .fetching r => some (s.finish i (r.result fl i2c (s.memory r.pointer)))
  | .ended _ => none

/-- The device of a query answers it. -/
def respond (fl : Rounding) (i2c : I2CInterface) (i : Nat) (response : List UInt8) :
    Stage → Option State
  | .responding q => some ({ s with lock := none }.finish i (q.result fl i2c response))
  | _ => none

end State

/-- The interface, with its calls in any order of their steps. -/
def bus (fl : Rounding) (i2c : I2CInterface) : EventLoop State Event Empty where
  step s event :=
    ([],
      match event with
      | .issue call => some { s with calls := s.calls ++ [i2c.issue call] }
      | .step i => s.calls[i]?.bind (s.advance fl i2c i)
      | .respond i response => s.calls[i]?.bind (s.respond fl i2c i response))

end Instro.I2c
