import Instro.Library.LastWrite
import Instro.Modbus.GroupReads
import Instro.Modbus.RoundTrip

/-!
# A Modbus device as a store

A device that stores what the writes send holds, under each alias, the value last written there. That
the registers of a type do not overlap is what this needs, and the overlap check asks for exactly that.
-/

namespace Instro.Modbus

open Instro.Library

/-! ## Blocks of items -/

section Blocks

variable {α : Type}

/-- Put a block of items at an address. -/
def storeItems (items : Nat → α) (address : Nat) (values : List α) : Nat → α :=
  fun a => if address ≤ a then values[a - address]?.getD (items a) else items a

theorem storeItems_of_outside {items : Nat → α} {address : Nat} {values : List α} {a : Nat}
    (h : a < address ∨ address + values.length ≤ a) : storeItems items address values a = items a := by
  unfold storeItems
  split_ifs with hle
  · rw [List.getElem?_eq_none (by omega), Option.getD_none]
  · rfl

theorem readItems_storeItems_self (items : Nat → α) (address : Nat) (values : List α) :
    readItems (storeItems items address values) address values.length = values := by
  apply List.ext_getElem?
  intro i
  by_cases hi : i < values.length
  · rw [getElem?_readItems _ _ hi, List.getElem?_eq_getElem hi]
    unfold storeItems
    rw [if_pos (Nat.le_add_right _ _), Nat.add_sub_cancel_left, List.getElem?_eq_getElem hi,
      Option.getD_some]
  · rw [List.getElem?_eq_none (by rw [length_readItems]; omega), List.getElem?_eq_none (by omega)]

theorem readItems_storeItems_of_apart (items : Nat → α) {address start count : Nat}
    {values : List α} (h : address + values.length ≤ start ∨ start + count ≤ address) :
    readItems (storeItems items address values) start count = readItems items start count := by
  unfold readItems
  refine List.map_congr_left fun i hi => ?_
  have hlt := List.mem_range.mp hi
  exact storeItems_of_outside (by omega)

end Blocks

/-! ## Requests on a memory -/

/-- What a device makes of a request. -/
def Memory.store (mem : Memory) : Request → Memory
  | .writeRegister address value =>
    { mem with holding := storeItems mem.holding address [value] }
  | .writeRegisters address values =>
    { mem with holding := storeItems mem.holding address values }
  | .writeCoil address value => { mem with coils := storeItems mem.coils address [value] }

theorem holds_store (mem : Memory) (request : Request) : (mem.store request).Holds request := by
  cases request with
  | writeRegister address value =>
    exact List.singleton_inj.mp (readItems_storeItems_self mem.holding address [value])
  | writeRegisters address values => exact readItems_storeItems_self mem.holding address values
  | writeCoil address value =>
    exact List.singleton_inj.mp (readItems_storeItems_self mem.coils address [value])

/-- The request writes the addresses of the register, all of them and no others. -/
inductive Fills (reg : RegisterDef) : Request → Prop
  | words {words : List Nat} (hholding : reg.registerType = .holding)
    (hlength : words.length = reg.addressCount) :
    Fills reg (holdingRequest reg.startingAddress words)
  | bit {value : Bool} (hcoil : reg.registerType = .coil) :
    Fills reg (.writeCoil reg.startingAddress value)

section Requests

variable {fl : Rounding} {reg reg' : RegisterDef} {regAlias : String} {value : PyValue}
  {request : Request} {mem mem' : Memory}

theorem store_holdingRequest (address : Nat) (words : List Nat) :
    mem.store (holdingRequest address words) =
      { mem with holding := storeItems mem.holding address words } := by
  match words with
  | [] => rfl
  | [_] => rfl
  | _ :: _ :: _ => rfl

theorem length_registers {bytes : List UInt8} {n : Nat} (h : bytes.length = 2 * n) :
    (registersOfBytes (swapOut reg.byteSwap reg.wordSwap reg.longSwap bytes)).length = n := by
  rw [length_registersOfBytes (by rw [length_swapOut]; omega), length_swapOut, h]
  omega

theorem length_of_format {k : Nat} {signed : Bool}
    (hformat : integerFormat reg.dataType = some (k, signed)) : k = 2 * reg.registerCount := by
  unfold RegisterDef.registerCount
  cases hdt : reg.dataType <;> rw [hdt] at hformat <;> simp [integerFormat] at hformat <;>
    exact hformat.1.symm

theorem length_pack {x : PyFloat} {bytes : List UInt8}
    (h : FloatFormat.binary32.pack x = .ok bytes) : bytes.length = 4 := by
  unfold FloatFormat.pack at h
  split at h
  · split_ifs at h
    obtain rfl := Except.ok.inj h
    exact length_toBytes _ _
  · obtain rfl := Except.ok.inj h
    exact length_toBytes _ _

theorem length_packInt {k : Nat} {signed : Bool} {n : ℤ} {bytes : List UInt8}
    (h : packInt k signed n = .ok bytes) : bytes.length = k := by
  unfold packInt at h
  split_ifs at h
  obtain rfl := Except.ok.inj h
  exact length_intToBytes k n

/-- An encoded value has as many registers as its data type. -/
theorem length_encodeValue {words : List Nat}
    (h : encodeValue fl reg.byteSwap reg.wordSwap reg.longSwap value reg.dataType = .ok words) :
    words.length = reg.registerCount := by
  unfold encodeValue at h
  cases hformat : integerFormat reg.dataType with
  | some format =>
    obtain ⟨k, signed⟩ := format
    rw [hformat] at h
    obtain ⟨n, -, h⟩ := bind_eq_ok.mp h
    obtain ⟨bytes, hpack, h⟩ := bind_eq_ok.mp h
    obtain rfl := Except.ok.inj h
    exact length_registers ((length_packInt hpack).trans (length_of_format hformat))
  | none =>
    rw [hformat] at h
    unfold RegisterDef.registerCount
    cases hdt : reg.dataType with
    | float32 =>
      rw [hdt] at h
      obtain ⟨x, -, h⟩ := bind_eq_ok.mp h
      obtain ⟨bytes, hpack, h⟩ := bind_eq_ok.mp h
      obtain rfl := Except.ok.inj h
      exact length_registers (length_pack hpack)
    | float64 =>
      rw [hdt] at h
      obtain ⟨x, -, h⟩ := bind_eq_ok.mp h
      obtain rfl := Except.ok.inj h
      exact length_registers (length_toBytes _ _)
    | bool =>
      rw [hdt] at h
      obtain rfl := Except.ok.inj h
      rfl
    | _ =>
      rw [hdt] at hformat
      cases hformat

theorem fills_of_requestFor (h : requestFor fl reg regAlias value = .ok request) :
    Fills reg request := by
  obtain ⟨-, raw, -, raw', -, hrequest⟩ := requestFor_eq_ok.mp h
  cases htype : reg.registerType with
  | holding =>
    obtain ⟨words, hwords, rfl⟩ := requestOf_holding htype hrequest
    have hbit : reg.registerType.isBit = false := by
      rw [htype]
      rfl
    exact .words htype ((length_encodeValue hwords).trans (addressCount_of_not_bit hbit).symm)
  | coil =>
    rw [requestOf_coil htype] at hrequest
    obtain rfl := Except.ok.inj hrequest
    exact .bit htype
  | input =>
    unfold requestOf at hrequest
    rw [htype] at hrequest
    cases hrequest
  | discrete =>
    unfold requestOf at hrequest
    rw [htype] at hrequest
    cases hrequest

/-- A register holds what was written to it, whatever else the device holds. -/
theorem readRegisterRaw_of_holds (hfills : Fills reg request) (h : mem.Holds request)
    (h' : mem'.Holds request) : readRegisterRaw mem reg = readRegisterRaw mem' reg := by
  unfold readRegisterRaw
  cases hfills with
  | words hholding hlength =>
    rw [holds_holdingRequest, hlength] at h h'
    rw [addressCount_of_not_bit (by rw [hholding]; rfl)] at h h'
    rw [hholding]
    show decodeRegisters _ _ _ (readItems mem.holding _ _) _ =
      decodeRegisters _ _ _ (readItems mem'.holding _ _) _
    rw [h, h']
  | bit hcoil =>
    rw [hcoil]
    show Except.ok (Number.int (mem.coils reg.startingAddress).toNat) =
      Except.ok (Number.int (mem'.coils reg.startingAddress).toNat)
    rw [show mem.coils reg.startingAddress = _ from h,
      show mem'.coils reg.startingAddress = _ from h']

/-- A write to a register leaves alone the registers of other types and those apart from it. -/
theorem readRegisterRaw_store (hfills : Fills reg request)
    (hapart : reg.registerType = reg'.registerType → Apart reg reg') :
    readRegisterRaw (mem.store request) reg' = readRegisterRaw mem reg' := by
  unfold readRegisterRaw
  cases hfills with
  | @words words hholding hlength =>
    rw [store_holdingRequest]
    cases htype : reg'.registerType with
    | holding =>
      have hcount : reg'.addressCount = reg'.registerCount :=
        addressCount_of_not_bit (by rw [htype]; rfl)
      have hblock : readItems (storeItems mem.holding reg.startingAddress words)
          reg'.startingAddress reg'.registerCount =
            readItems mem.holding reg'.startingAddress reg'.registerCount := by
        refine readItems_storeItems_of_apart mem.holding ?_
        rw [hlength, ← hcount]
        exact hapart (hholding.trans htype.symm)
      show decodeRegisters _ _ _ (readItems (storeItems _ _ _) _ _) _ = _
      rw [hblock]
    | input => rfl
    | coil => rfl
    | discrete => rfl
  | @bit value hcoil =>
    cases htype : reg'.registerType with
    | coil =>
      have hother : storeItems mem.coils reg.startingAddress [value] reg'.startingAddress =
          mem.coils reg'.startingAddress := by
        have h := hapart (hcoil.trans htype.symm)
        unfold Apart at h
        have hcount := one_le_addressCount reg
        have hcount' := one_le_addressCount reg'
        refine storeItems_of_outside ?_
        rw [List.length_singleton]
        omega
      show Except.ok (Number.int (Bool.toNat (storeItems _ _ _ _))) = _
      rw [hother]
    | holding => rfl
    | input => rfl
    | discrete => rfl

theorem read_congr {dev : ModbusDevice} (hreg : dev.config.getRegister regAlias = .ok reg)
    (h : readRegisterRaw mem reg = readRegisterRaw mem' reg) :
    dev.read fl mem regAlias = dev.read fl mem' regAlias := by
  unfold ModbusDevice.read
  rw [hreg]
  show (readRegisterRaw mem reg >>= _) = (readRegisterRaw mem' reg >>= _)
  rw [h]

end Requests

/-! ## The overlap check -/

/-- Storing values in the first register changes nothing in the second. -/
def Isolated (reg1 reg2 : RegisterDef) : Prop :=
  ∀ (items : Nat → Nat) (values : List Nat), values.length = reg1.addressCount →
    readItems (storeItems items reg1.startingAddress values) reg2.startingAddress
        reg2.addressCount =
      readItems items reg2.startingAddress reg2.addressCount

section Overlap

variable {reg1 reg2 : RegisterDef} {config : ModbusConfig}

theorem isolated_iff : Isolated reg1 reg2 ↔ Apart reg1 reg2 := by
  constructor
  · intro h
    by_contra hoverlap
    unfold Apart at hoverlap
    have hcount1 := one_le_addressCount reg1
    have hcount2 := one_le_addressCount reg2
    -- the first address of the later register belongs to both
    obtain ⟨a, hfirst, hsecond⟩ :
        ∃ a, (reg1.startingAddress.val ≤ a ∧ a < reg1.startingAddress.val + reg1.addressCount) ∧
          (reg2.startingAddress.val ≤ a ∧ a < reg2.startingAddress.val + reg2.addressCount) :=
      ⟨max reg1.startingAddress.val reg2.startingAddress.val, by omega, by omega⟩
    have hread := congrArg (·[a - reg2.startingAddress.val]?)
      (h (fun _ => 0) (List.replicate reg1.addressCount 1) List.length_replicate)
    rw [getElem?_readItems _ _ (by omega), getElem?_readItems _ _ (by omega),
      Nat.add_sub_cancel' hsecond.1] at hread
    unfold storeItems at hread
    rw [if_pos hfirst.1, List.getElem?_replicate_of_lt (by omega)] at hread
    cases hread
  · intro hapart items values hlength
    refine readItems_storeItems_of_apart items ?_
    rw [hlength]
    exact hapart

theorem checkOverlap_of_pairwise {regs : List RegisterDef} (h : regs.Pairwise Apart) :
    checkOverlap regs = .ok () := by
  induction regs with
  | nil => rfl
  | cons reg1 regs ih =>
    obtain ⟨hfirst, hrest⟩ := List.pairwise_cons.mp h
    refine bind_eq_ok.mpr ⟨(), forM_eq_ok.mpr fun reg2 hmem => ensure_eq_ok.mpr ?_, ih hrest⟩
    have hapart := hfirst reg2 hmem
    have hcount1 := one_le_addressCount reg1
    have hcount2 := one_le_addressCount reg2
    unfold Apart at hapart
    omega

/-- Two registers of one type are apart. -/
theorem apart_of_mem (h : config.validateNoRegisterOverlap = .ok ())
    (h1 : reg1 ∈ config.registers) (h2 : reg2 ∈ config.registers) (hne : reg1.name ≠ reg2.name)
    (htype : reg1.registerType = reg2.registerType) : Apart reg1 reg2 := by
  have : Std.Symm Apart := ⟨fun _ _ => Apart.symm⟩
  refine (apart_of_type h reg1.registerType).forall ?_ ?_ ?_
  · exact List.mem_filter.mpr ⟨h1, decide_eq_true rfl⟩
  · exact List.mem_filter.mpr ⟨h2, decide_eq_true htype.symm⟩
  · rintro rfl
    exact hne rfl

/-- The check refuses exactly the configurations in which storing values in one register changes what
is read of another register of its type. -/
theorem overlap_check_exact (config : ModbusConfig) :
    config.validateNoRegisterOverlap = .ok () ↔
      config.registers.Pairwise fun reg1 reg2 => reg1.registerType = reg2.registerType →
        Isolated reg1 reg2 ∧ Isolated reg2 reg1 := by
  have hpair (reg1 reg2 : RegisterDef) :
      (Isolated reg1 reg2 ∧ Isolated reg2 reg1) ↔ Apart reg1 reg2 := by
    rw [isolated_iff, isolated_iff]
    exact ⟨And.left, fun h => ⟨h, h.symm⟩⟩
  simp only [hpair]
  constructor
  · intro h
    rw [List.pairwise_iff_getElem]
    intro i j hi hj hij htype
    have hfilter := List.pairwise_filter.mp (apart_of_type h config.registers[i].registerType)
    exact List.pairwise_iff_getElem.mp hfilter i j hi hj hij (decide_eq_true rfl)
      (decide_eq_true htype.symm)
  · intro h
    refine forM_eq_ok.mpr ?_
    rintro ⟨registerType, regs⟩ hmem
    have hlookup := lookup_of_mem (nodup_keys_groupBy _ _) hmem
    rw [lookup_groupBy] at hlookup
    simp only [Option.some.injEq] at hlookup
    split_ifs at hlookup
    obtain rfl := Option.some.inj hlookup
    refine checkOverlap_of_pairwise (((sortByAddress_perm _).pairwise_iff Apart.symm).mpr ?_)
    refine List.pairwise_filter.mpr (h.imp ?_)
    intro reg1 reg2 hapart h1 h2
    exact hapart ((of_decide_eq_true h1).trans (of_decide_eq_true h2).symm)

end Overlap

/-! ## Calls of `write` -/

/-- A call of `write`. `applied`: the device has stored what was sent though the client raised. -/
structure WriteCall where
  regAlias : String
  arg : WriteArgument
  link : Link
  applied : Bool

namespace ModbusDevice

variable (fl : Rounding) (dev : ModbusDevice) (call : WriteCall)

/-- What the call sends, and its outcome. -/
def run : ModbusM Command := dev.write fl call.link call.regAlias call.arg

/-- The device stores what it is sent. -/
def takesEffect : Bool :=
  !(dev.run fl call).requests.isEmpty && ((dev.run fl call).result.isOk || call.applied)

def apply (mem : Memory) (call : WriteCall) : Memory :=
  if dev.takesEffect fl call then (dev.run fl call).requests.foldl Memory.store mem else mem

/-- What a call leaves under its alias: the value and the request that carries it. -/
def written : Option (String × (PyValue × Request)) :=
  if dev.takesEffect fl call then
    (dev.prepare fl call.regAlias call.arg).toOption.map fun entry => (call.regAlias, entry)
  else none

end ModbusDevice

section Calls

variable {fl : Rounding} {dev : ModbusDevice} {call : WriteCall} {mem : Memory}

theorem requests_of_write {link : Link} {regAlias : String} {arg : WriteArgument}
    (h : (dev.write fl link regAlias arg).requests ≠ []) :
    ∃ entry, dev.prepare fl regAlias arg = .ok entry ∧
      (dev.write fl link regAlias arg).requests = [entry.2] := by
  cases hprepare : dev.prepare fl regAlias arg with
  | error e =>
    rw [write_of_prepare_error hprepare] at h
    exact absurd rfl h
  | ok entry =>
    refine ⟨entry, rfl, ?_⟩
    rw [write_of_prepare hprepare, Exchange.requests_bind_pure] at h ⊢
    rcases modbusOp_cases link entry.2 with ⟨hnone, -⟩ | ⟨respond, -, hop⟩
    · exact absurd hnone h
    · rw [hop]

/-- A call that takes effect stores one request, which its register's checks have let through. -/
theorem takesEffect_cases (fl : Rounding) (dev : ModbusDevice) (call : WriteCall) :
    (dev.written fl call = none ∧ ∀ mem, dev.apply fl mem call = mem) ∨
    ∃ reg value request, dev.written fl call = some (reg.name, (value, request)) ∧
      dev.config.getRegister reg.name = .ok reg ∧
      requestFor fl reg reg.name value = .ok request ∧
      ∀ mem, dev.apply fl mem call = mem.store request := by
  unfold ModbusDevice.written ModbusDevice.apply
  cases heffect : dev.takesEffect fl call with
  | false => exact .inl ⟨rfl, fun _ => rfl⟩
  | true =>
    have hsent : (dev.run fl call).requests ≠ [] := by
      intro hnone
      unfold ModbusDevice.takesEffect at heffect
      rw [hnone] at heffect
      cases heffect
    obtain ⟨⟨value, request⟩, hprepare, hrequests⟩ := requests_of_write hsent
    obtain ⟨reg, hreg, -, hrequest⟩ := prepare_eq_ok.mp hprepare
    have hconfig := getRegister_of_device hreg
    obtain ⟨-, hname⟩ := mem_of_getRegister hconfig
    refine .inr ⟨reg, value, request, ?_, ?_, ?_, ?_⟩
    · rw [if_pos rfl, hprepare, hname]
      rfl
    · rw [hname]
      exact hconfig
    · rw [hname]
      exact hrequest
    · intro mem
      rw [if_pos rfl]
      show (dev.write fl call.link call.regAlias call.arg).requests.foldl _ _ = _
      rw [hrequests]
      rfl

end Calls

section Runs

variable {fl : Rounding} {dev : ModbusDevice} {reg : RegisterDef} {value : PyValue}
  {request : Request}

/-- What is read under an alias is what was written there: what any memory that holds the request
gives, and where the arithmetic is exact the value itself. -/
def Shows (fl : Rounding) (dev : ModbusDevice) (regAlias : String) (entry : PyValue × Request)
    (got : Except PyException Channels) : Prop :=
  (∀ mem : Memory, mem.Holds entry.2 → dev.read fl mem regAlias = got) ∧
  ∀ reg, dev.config.getRegister regAlias = .ok reg → fl = exact → reg.dataType.isFloat = false →
    RationalScale reg → BitRepresents reg entry.1 →
      ∃ channels x, got = .ok channels ∧ channels.lookup s!"{dev.name}.{reg.name}" = some x ∧
        ReturnsWritten reg entry.1 x

theorem writable_of_fills (h : Fills reg request) :
    reg.registerType = .holding ∨ reg.registerType = .coil := by
  cases h with
  | words hholding _ => exact .inl hholding
  | bit hcoil => exact .inr hcoil

theorem shows_store (hvalid : dev.config.Validates fl) (mem : Memory)
    (hreg : dev.config.getRegister reg.name = .ok reg)
    (hrequest : requestFor fl reg reg.name value = .ok request) :
    Shows fl dev reg.name (value, request) (dev.read fl (mem.store request) reg.name) := by
  have hfills := fills_of_requestFor hrequest
  constructor
  · intro mem' hmem'
    exact read_congr hreg (readRegisterRaw_of_holds hfills hmem' (holds_store mem request))
  · rintro reg' hreg' rfl htype hrational hbit
    obtain rfl := Except.ok.inj (hreg.symm.trans hreg')
    obtain ⟨n, x, hread, hscaled, hiff⟩ :=
      returned_of_requestFor (hvalid.registers reg (mem_of_getRegister hreg).1)
        (writable_of_fills hfills) htype hrational hrequest
    obtain ⟨channels, hchannels, hlookup⟩ :=
      read_of_raw (modelPostInit_ok hvalid.postInit).2.1 hreg
        (hread _ (holds_store mem request)) hscaled
    exact ⟨channels, x, hchannels, hlookup, hiff.mpr hbit⟩

/-- A write leaves alone what is read under the other aliases. -/
theorem read_store_of_ne (hoverlap : dev.config.validateNoRegisterOverlap = .ok ()) {mem : Memory}
    {regAlias : String} (hreg : dev.config.getRegister reg.name = .ok reg)
    (hfills : Fills reg request) (hne : reg.name ≠ regAlias) :
    dev.read fl (mem.store request) regAlias = dev.read fl mem regAlias := by
  cases hother : dev.config.getRegister regAlias with
  | error e =>
    unfold ModbusDevice.read
    rw [hother]
    rfl
  | ok reg' =>
    obtain ⟨hmem', rfl⟩ := mem_of_getRegister hother
    refine read_congr hother (readRegisterRaw_store hfills ?_)
    exact apart_of_mem hoverlap (mem_of_getRegister hreg).1 hmem' hne

end Runs

/-- **A device under the writes of a validated configuration is a store.** Each alias reads as the last
value that a write has left under it, or as it did at the start, whatever was written to other aliases
in between, and however the writes ended; in exact arithmetic what is read is the value itself. -/
theorem writes_refine_store (fl : Rounding) (dev : ModbusDevice) (hvalid : dev.config.Validates fl)
    (mem : Memory) (calls : List WriteCall) (reg : RegisterDef) (hreg : reg ∈ dev.config.registers) :
    match lastWritten (dev.written fl) calls reg.name with
    | some (value, request) =>
      (∀ mem' : Memory, mem'.Holds request →
        dev.read fl mem' reg.name = dev.read fl (calls.foldl (dev.apply fl) mem) reg.name) ∧
      (fl = exact → reg.dataType.isFloat = false → RationalScale reg → BitRepresents reg value →
        ReadsBack dev reg.name reg value (calls.foldl (dev.apply fl) mem))
    | none =>
      dev.read fl (calls.foldl (dev.apply fl) mem) reg.name = dev.read fl mem reg.name := by
  obtain ⟨hnames, -, hoverlap, -⟩ := modelPostInit_ok hvalid.postInit
  have hwrite : ∀ mem call regAlias entry, dev.written fl call = some (regAlias, entry) →
      Shows fl dev regAlias entry (dev.read fl (dev.apply fl mem call) regAlias) := by
    intro mem call regAlias entry hwritten
    obtain ⟨hnone, -⟩ | ⟨reg, value, request, hsome, hconfig, hrequest, hstore⟩ :=
      takesEffect_cases fl dev call
    · rw [hnone] at hwritten
      cases hwritten
    · rw [hsome] at hwritten
      cases hwritten
      rw [hstore]
      exact shows_store hvalid mem hconfig hrequest
  have hframe : ∀ mem call regAlias, (∀ entry, dev.written fl call ≠ some (regAlias, entry)) →
      dev.read fl (dev.apply fl mem call) regAlias = dev.read fl mem regAlias := by
    intro mem call regAlias hother
    obtain ⟨-, hsame⟩ | ⟨reg, value, request, hsome, hconfig, hrequest, hstore⟩ :=
      takesEffect_cases fl dev call
    · rw [hsame]
    · rw [hstore]
      refine read_store_of_ne hoverlap hconfig (fills_of_requestFor hrequest) ?_
      rintro rfl
      exact hother _ hsome
  have hlast := observe_foldl (fun regAlias mem => dev.read fl mem regAlias)
    hwrite hframe mem calls reg.name
  cases h : lastWritten (dev.written fl) calls reg.name with
  | none =>
    rw [h] at hlast
    exact hlast
  | some entry =>
    rw [h] at hlast
    refine ⟨hlast.1, ?_⟩
    rintro rfl
    exact hlast.2 reg (getRegister_of_mem hnames hreg) rfl

/-- A counter of two registers keeps its value when the word above it is written and when a later write
to it times out. -/
theorem writes_refine_store_process :
    ReadsBack processDevice "count" (groupedRegister "count" 10 .uint32 none) (.num (.int 70000))
      ([⟨"count", .value (.num (.int 70000)), acceptingLink, false⟩,
        ⟨"status", .value (.num (.int 7)), acceptingLink, false⟩,
        ⟨"count", .value (.num (.int 5)), ⟨false, some fun _ => .error (.client "timeout")⟩,
          false⟩].foldl (processDevice.apply exact)
        ⟨fun _ => 5, fun _ => 0, fun _ => false, fun _ => false⟩) :=
  (writes_refine_store exact processDevice processDevice_validates
    ⟨fun _ => 5, fun _ => 0, fun _ => false, fun _ => false⟩
    [⟨"count", .value (.num (.int 70000)), acceptingLink, false⟩,
      ⟨"status", .value (.num (.int 7)), acceptingLink, false⟩,
      ⟨"count", .value (.num (.int 5)), ⟨false, some fun _ => .error (.client "timeout")⟩, false⟩]
    (groupedRegister "count" 10 .uint32 none)
    (List.mem_cons_of_mem _ List.mem_cons_self)).2 rfl rfl nofun nofun

end Instro.Modbus
