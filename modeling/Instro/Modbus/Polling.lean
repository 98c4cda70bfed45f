import Instro.Modbus.Config
import Instro.Modbus.Device

/-!
# Polling a Modbus device

`read` asks for one register, `_read_group` for the span of a group and cuts it up. The daemon runs
one function for each group and one for each polled register outside the groups. The client is a
parameter: it answers each request.
-/

namespace Instro.Modbus

open Instro.Library

/-! ## Requests -/

/-- A request for items of one type, from an address on. -/
structure ReadRequest where
  registerType : RegisterType
  address : Nat
  count : Nat
  deriving DecidableEq

/-- What a read raises, with what the message shows. -/
inductive ReadError
  | unknownRegister (regAlias : String)
  | unknownGroup (group : String) (available : List String)
  | interpreter (e : PyException)
  | shuttingDown
  | notConnected
  | client (message : String)
  deriving DecidableEq

/-- The answers of the client, by address and count. -/
structure ReadClient where
  readHoldingRegisters : Nat → Nat → Except ReadError (List Nat)
  readInputRegisters : Nat → Nat → Except ReadError (List Nat)
  readCoils : Nat → Nat → Except ReadError (List Bool)
  readDiscreteInputs : Nat → Nat → Except ReadError (List Bool)

/-- The connection of a device that reads. -/
structure ReadLink where
  shuttingDown : Bool
  client : Option ReadClient

abbrev ReadM := Exchange ReadRequest ReadError

/-- `_modbus_op`: refuse while shutting down or not connected, else run the operation. -/
def modbusReadOp {α : Type} (link : ReadLink) (request : ReadRequest)
    (answer : ReadClient → Except ReadError α) : ReadM α := do
  .check (ensure (link.shuttingDown = false) .shuttingDown)
  match link.client with
  | none => .check (.error .notConnected)
  | some client => .send (fun _ => answer client) request

/-- The items of a response. -/
inductive Response
  | registers (words : List Nat)
  | bits (bits : List Bool)

namespace ReadLink

variable (link : ReadLink) (address count : Nat)

def readHoldingRegisters : ReadM Response :=
  modbusReadOp link ⟨.holding, address, count⟩ fun client =>
    (client.readHoldingRegisters address count).map .registers

def readInputRegisters : ReadM Response :=
  modbusReadOp link ⟨.input, address, count⟩ fun client =>
    (client.readInputRegisters address count).map .registers

def readCoils : ReadM Response :=
  modbusReadOp link ⟨.coil, address, count⟩ fun client =>
    (client.readCoils address count).map fun bits => .bits (bits.take count)

def readDiscreteInputs : ReadM Response :=
  modbusReadOp link ⟨.discrete, address, count⟩ fun client =>
    (client.readDiscreteInputs address count).map fun bits => .bits (bits.take count)

/-- The read of a register type. -/
def readByType (registerType : RegisterType) : ReadM Response :=
  match registerType with
  | .holding => link.readHoldingRegisters address count
  | .input => link.readInputRegisters address count
  | .coil => link.readCoils address count
  | .discrete => link.readDiscreteInputs address count

end ReadLink

/-! ## The values of a response -/

/-- The bit at an index. -/
def bitAt (bits : List Bool) (i : Nat) : Except PyException Number :=
  match bits[i]? with
  | some b => .ok (.int b.toNat)
  | none => .error .indexError

/-- `_decode_registers` with the layout of the register. -/
def decode (reg : RegisterDef) (words : List Nat) : Except PyException Number :=
  decodeRegisters reg.byteSwap reg.wordSwap reg.longSwap words reg.dataType

/-- `_read_register_raw`, once the response is there. -/
def rawOfResponse (reg : RegisterDef) : Response → Except PyException Number
  | .registers words => decode reg words
  | .bits bits => bitAt bits 0

/-- The channels of a register that is read on its own. -/
def registerEntry (fl : Rounding) (name : String) (reg : RegisterDef) (response : Response) :
    Except PyException Channels := do
  let rawValue ← rawOfResponse reg response
  let scaledValue ← applyScaling fl rawValue reg
  buildRegisterChannels name reg rawValue scaledValue

/-- `dict.update` -/
def Channels.update (channels new : Channels) : Channels := new ∪ channels

/-- The channels of one register of a group, from its part of the response. A bit is not scaled. -/
def groupEntry (fl : Rounding) (name : String) (startAddress : Nat) (response : Response)
    (reg : RegisterDef) : Except PyException Channels :=
  let offset := reg.startingAddress.val - startAddress
  match response with
  | .bits bits => do
    let rawValue ← bitAt bits offset
    buildRegisterChannels name reg rawValue rawValue
  | .registers words => do
    let rawValue ← decode reg ((words.drop offset).take reg.registerCount)
    let scaledValue ← applyScaling fl rawValue reg
    buildRegisterChannels name reg rawValue scaledValue

namespace ModbusDevice

variable (fl : Rounding) (dev : ModbusDevice) (link : ReadLink)

/-- `read` -/
def readAlias (regAlias : String) : ReadM Channels := do
  let reg ← .check (raiseAs (fun _ => .unknownRegister regAlias) (dev.config.getRegister regAlias))
  let response ← link.readByType reg.startingAddress reg.addressCount reg.registerType
  .check (raiseAs .interpreter (registerEntry fl dev.name reg response))

/-- `_read_group` -/
def readGroup (group : String) : ReadM Channels := do
  let regs ← .check (raiseAs
    (fun _ => .unknownGroup group (dev.config.groupIndex.map Prod.fst))
    (dev.config.getGroup group))
  match regs.head?, regs.getLast? with
  | some first, some last => do
    let response ←
      link.readByType first.startingAddress (groupSpan first last) first.registerType
    .check (raiseAs .interpreter (regs.foldlM (fun channels reg => do
      let new ← groupEntry fl dev.name first.startingAddress response reg
      return channels.update new) ∅))
  | _, _ => .check (.error (.interpreter .indexError))

/-! ## The daemon -/

/-- A function of the daemon. -/
inductive DaemonFunction
  | readGroup (group : String)
  | read (regAlias : String)
  deriving DecidableEq

/-- `_define_background_daemon` -/
def defineBackgroundDaemon : List DaemonFunction :=
  let grouped := dev.config.groupIndex.flatMap fun (_, regs) => regs.map (·.name)
  dev.config.groupIndex.map (fun (group, _) => .readGroup group) ++
    (dev.config.registers.filter fun reg => reg.poll ∧ reg.name ∉ grouped).map
      fun reg => .read reg.name

def runFunction : DaemonFunction → ReadM Channels
  | .readGroup group => dev.readGroup fl link group
  | .read regAlias => dev.readAlias fl link regAlias

/-- One function of a cycle: what it sent and what it published or raised. -/
structure Poll where
  function : DaemonFunction
  requests : List ReadRequest
  result : Except ReadError Channels

/-- `_background_daemon`: what a function raises stays its own, unless the device is closing. -/
def backgroundDaemon : List DaemonFunction → List Poll
  | [] => []
  | function :: functions =>
    let outcome := dev.runFunction fl link function
    ⟨function, outcome.requests, outcome.result⟩ ::
      match outcome.result with
      | .ok _ => backgroundDaemon functions
      | .error _ => if link.shuttingDown then [] else backgroundDaemon functions

/-- One cycle. -/
def cycle : List Poll := dev.backgroundDaemon fl link dev.defineBackgroundDaemon

/-- The channels published in a cycle, as often as they are. -/
def published : List String :=
  (dev.cycle fl link).flatMap fun poll =>
    match poll.result with
    | .ok channels => channels.keys
    | .error _ => []

end ModbusDevice

/-! ## A device as client -/

/-- What the device holds of a type, from an address on. -/
def Memory.respond (mem : Memory) (registerType : RegisterType) (address count : Nat) : Response :=
  match registerType with
  | .holding => .registers (readItems mem.holding address count)
  | .input => .registers (readItems mem.input address count)
  | .coil => .bits (readItems mem.coils address count)
  | .discrete => .bits (readItems mem.discrete address count)

/-- The connection to a device that answers with what it holds. -/
def Memory.link (mem : Memory) : ReadLink where
  shuttingDown := false
  client := some
    { readHoldingRegisters := fun address count => .ok (readItems mem.holding address count)
      readInputRegisters := fun address count => .ok (readItems mem.input address count)
      readCoils := fun address count => .ok (readItems mem.coils address count)
      readDiscreteInputs := fun address count => .ok (readItems mem.discrete address count) }

end Instro.Modbus
