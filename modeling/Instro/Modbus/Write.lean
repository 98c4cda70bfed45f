import Instro.Modbus.Device

/-!
# What a write sends

`write` decides everything before it sends: up to the request it is the pure `prepare`, and the
request is the last thing that can raise. The register checks are stated here as conditions on the
value.
-/

namespace Instro.Modbus

open Instro.Library

/-- The request that writes a raw value. -/
def requestOf (fl : Rounding) (reg : RegisterDef) (rawValue : PyValue) :
    Except WriteError Request :=
  match reg.registerType with
  | .holding => do
    let encoded ← encode fl reg rawValue
    return holdingRequest reg.startingAddress encoded
  | .coil => .ok (.writeCoil reg.startingAddress rawValue.number.truthy)
  | .input | .discrete => .error (.readOnlyType reg.registerType)

/-- The request for a value, or what is raised about it. -/
def requestFor (fl : Rounding) (reg : RegisterDef) (regAlias : String) (value : PyValue) :
    Except WriteError Request := do
  validateWriteValue reg regAlias value
  let rawValue ← rawValueOf fl reg value
  let rawValue ← validateRawValueRange fl reg regAlias rawValue
  requestOf fl reg rawValue

/-- The value that is written and its request, or what is raised instead. -/
def ModbusDevice.prepare (fl : Rounding) (dev : ModbusDevice) (regAlias : String)
    (arg : WriteArgument) : Except WriteError (PyValue × Request) := do
  let reg ← dev.getRegister regAlias
  let value ← resolveValue reg regAlias arg
  let request ← requestFor fl reg regAlias value
  return (value, request)

section Write

variable {fl : Rounding} {dev : ModbusDevice} {link : Link} {regAlias : String}
  {arg : WriteArgument}

theorem writeRegisterRaw_eq (reg : RegisterDef) (rawValue : PyValue) :
    writeRegisterRaw fl link reg rawValue =
      (Exchange.check (requestOf fl reg rawValue) >>= modbusOp link) := by
  unfold writeRegisterRaw requestOf
  cases reg.registerType with
  | holding => cases encode fl reg rawValue <;> rfl
  | coil => rfl
  | input => rfl
  | discrete => rfl

/-- **A write prepares, then sends.** -/
theorem write_eq : dev.write fl link regAlias arg = (do
    let (value, request) ← Exchange.check (dev.prepare fl regAlias arg)
    modbusOp link request
    return ⟨s!"{dev.name}.{regAlias}.cmd", value⟩) := by
  unfold ModbusDevice.write ModbusDevice.prepare requestFor
  simp only [Exchange.check_bind, Exchange.check_pure, bind_assoc, pure_bind, writeRegisterRaw_eq]

theorem write_of_prepare {value : PyValue} {request : Request}
    (h : dev.prepare fl regAlias arg = .ok (value, request)) :
    dev.write fl link regAlias arg = (do
      modbusOp link request
      return ⟨s!"{dev.name}.{regAlias}.cmd", value⟩) := by
  rw [write_eq, h]
  rfl

theorem write_of_prepare_error {e : WriteError} (h : dev.prepare fl regAlias arg = .error e) :
    dev.write fl link regAlias arg = ⟨[], .error e⟩ := by
  rw [write_eq, h]
  rfl

/-- The link lets a request through to the client. -/
def Link.IsUp (link : Link) (respond : Request → Except WriteError Unit) : Prop :=
  link.shuttingDown = false ∧ link.client = some respond

theorem modbusOp_cases (link : Link) (request : Request) :
    ((modbusOp link request).requests = [] ∧ ∃ e, (modbusOp link request).result = .error e) ∨
      ∃ respond, link.IsUp respond ∧
        modbusOp link request = ⟨[request], respond request⟩ := by
  unfold modbusOp Link.IsUp
  cases hdown : link.shuttingDown with
  | true => exact .inl ⟨rfl, _, rfl⟩
  | false =>
    cases hclient : link.client with
    | none => exact .inl ⟨rfl, _, rfl⟩
    | some respond => exact .inr ⟨respond, ⟨rfl, rfl⟩, rfl⟩

/-- A write that returns has sent the one request that was prepared. -/
theorem write_ok {cmd : Command} (h : (dev.write fl link regAlias arg).result = .ok cmd) :
    ∃ request, dev.prepare fl regAlias arg = .ok (cmd.value, request) ∧
      (dev.write fl link regAlias arg).requests = [request] := by
  cases hprep : dev.prepare fl regAlias arg with
  | error e =>
    rw [write_of_prepare_error hprep] at h
    cases h
  | ok p =>
    obtain ⟨value, request⟩ := p
    rw [write_of_prepare hprep] at h ⊢
    rcases modbusOp_cases link request with ⟨-, e, he⟩ | ⟨respond, -, hop⟩
    · rw [Exchange.bind_of_error he] at h
      cases h
    · cases hr : respond request with
      | error e =>
        rw [hop, hr, Exchange.bind_of_error rfl] at h
        cases h
      | ok u =>
        rw [hop, hr, Exchange.bind_of_ok rfl] at h ⊢
        obtain rfl := Except.ok.inj h
        exact ⟨request, rfl, rfl⟩

/-- A write that raises has sent nothing, or raises what the client answered. -/
theorem write_error {e : WriteError}
    (h : (dev.write fl link regAlias arg).result = .error e) :
    (dev.write fl link regAlias arg).requests = [] ∨
      ∃ respond request, link.client = some respond ∧ respond request = .error e := by
  cases hprep : dev.prepare fl regAlias arg with
  | error e' =>
    rw [write_of_prepare_error hprep]
    exact .inl rfl
  | ok p =>
    obtain ⟨value, request⟩ := p
    rw [write_of_prepare hprep] at h ⊢
    rcases modbusOp_cases link request with ⟨hnone, e', he⟩ | ⟨respond, hup, hop⟩
    · rw [Exchange.bind_of_error he]
      exact .inl hnone
    · cases hr : respond request with
      | error e' =>
        rw [hop, hr, Exchange.bind_of_error rfl] at h
        obtain rfl := Except.error.inj h
        exact .inr ⟨respond, request, hup.2, hr⟩
      | ok u =>
        rw [hop, hr, Exchange.bind_of_ok rfl] at h
        cases h

theorem mem_modbusOp_iff {sent request : Request} :
    sent ∈ (modbusOp link request).requests ↔ (∃ respond, link.IsUp respond) ∧ sent = request := by
  constructor
  · intro hsent
    rcases modbusOp_cases link request with ⟨hnone, -⟩ | ⟨respond, hup, hop⟩
    · rw [hnone] at hsent
      exact absurd hsent List.not_mem_nil
    · rw [hop] at hsent
      exact ⟨⟨respond, hup⟩, List.mem_singleton.mp hsent⟩
  · rintro ⟨⟨respond, hdown, hclient⟩, rfl⟩
    unfold modbusOp
    rw [hdown, hclient]
    exact List.mem_singleton_self _

/-- **What is sent** is what was prepared, over a link that is up. -/
theorem mem_requests_iff {request : Request} : request ∈ (dev.write fl link regAlias arg).requests ↔
    (∃ respond, link.IsUp respond) ∧ ∃ value, dev.prepare fl regAlias arg = .ok (value, request) := by
  rw [write_eq, Exchange.mem_requests_bind]
  constructor
  · rintro (h | ⟨⟨value, prepared⟩, hprepare, h⟩)
    · exact absurd h List.not_mem_nil
    · rw [Exchange.requests_bind_pure] at h
      obtain ⟨hup, rfl⟩ := mem_modbusOp_iff.mp h
      exact ⟨hup, value, hprepare⟩
  · rintro ⟨hup, value, hprepare⟩
    refine .inr ⟨(value, request), hprepare, ?_⟩
    rw [Exchange.requests_bind_pure]
    exact mem_modbusOp_iff.mpr ⟨hup, rfl⟩

theorem prepare_eq_ok {value : PyValue} {request : Request} :
    dev.prepare fl regAlias arg = .ok (value, request) ↔
      ∃ reg, dev.getRegister regAlias = .ok reg ∧ resolveValue reg regAlias arg = .ok value ∧
        requestFor fl reg regAlias value = .ok request := by
  unfold ModbusDevice.prepare
  constructor
  · intro h
    obtain ⟨reg, hreg, h⟩ := bind_eq_ok.mp h
    obtain ⟨value', hvalue, h⟩ := bind_eq_ok.mp h
    obtain ⟨request', hrequest, h⟩ := bind_eq_ok.mp h
    obtain ⟨rfl, rfl⟩ := Prod.mk.inj (Except.ok.inj h)
    exact ⟨reg, hreg, hvalue, hrequest⟩
  · rintro ⟨reg, hreg, hvalue, hrequest⟩
    exact bind_eq_ok.mpr ⟨reg, hreg, bind_eq_ok.mpr ⟨value, hvalue,
      bind_eq_ok.mpr ⟨request, hrequest, rfl⟩⟩⟩

/-- A link whose client accepts every request. -/
def acceptingLink : Link := ⟨false, some fun _ => .ok ()⟩

/-- With a client that accepts every request, a write returns exactly when it can be prepared. -/
theorem write_accepting_iff {cmd : Command} :
    (dev.write fl acceptingLink regAlias arg).result = .ok cmd ↔
      cmd.channel = s!"{dev.name}.{regAlias}.cmd" ∧
        ∃ request, dev.prepare fl regAlias arg = .ok (cmd.value, request) := by
  cases hprep : dev.prepare fl regAlias arg with
  | error e =>
    rw [write_of_prepare_error hprep]
    exact ⟨nofun, fun ⟨_, _, h⟩ => nomatch h⟩
  | ok p =>
    obtain ⟨value, request⟩ := p
    rw [write_of_prepare hprep]
    constructor
    · intro h
      obtain rfl := Except.ok.inj h
      exact ⟨rfl, request, rfl⟩
    · rintro ⟨hchannel, request', h⟩
      obtain ⟨rfl, -⟩ := Prod.mk.inj (Except.ok.inj h)
      exact congrArg (fun c => Except.ok (Command.mk c cmd.value)) hchannel.symm

end Write

/-! ## One register -/

/-- Addresses are written as numerals. -/
local instance neZero_addresses : NeZero (65535 + 1) := ⟨by decide⟩

/-- A holding register at address 0 with no options. -/
def plainRegister (dataType : DataType) : RegisterDef where
  name := "setpoint"
  startingAddress := 0
  registerType := .holding
  dataType := dataType
  byteSwap := false
  wordSwap := false
  longSwap := false
  scale := none
  bitmap := none
  poll := true
  writeMin := none
  writeMax := none
  writeValueMap := none
  readGroup := none

/-- A device of one register. -/
def oneRegisterDevice (reg : RegisterDef) : ModbusDevice := ⟨"plc", ⟨[reg]⟩⟩

end Instro.Modbus
