import Instro.Modbus.GroupReads
import Instro.Modbus.RoundTrip

/-!
# The polling plan

One cycle of the daemon runs one function for each group and one for each polled register outside
the groups. Together they read the polled registers, each once, in requests within the limits of the
protocol.
-/

namespace Instro.Modbus

open Instro.Library

/-! ## What the functions read -/

namespace ModbusDevice

variable (dev : ModbusDevice)

/-- The registers a function takes from its response. -/
def registersOf : DaemonFunction → List RegisterDef
  | .readGroup group => (dev.config.getGroup group).toOption.getD []
  | .read regAlias => (dev.config.getRegister regAlias).toOption.toList

end ModbusDevice

section Plan

variable {fl : Rounding} {dev : ModbusDevice}

theorem getGroup_of_mem {group : String} {regs : List RegisterDef}
    (h : (group, regs) ∈ dev.config.groupIndex) : dev.config.getGroup group = .ok regs := by
  have hkeys : (dev.config.groupIndex.map Prod.fst).Nodup := by
    unfold ModbusConfig.groupIndex
    rw [List.map_map]
    exact nodup_keys_groupBy _ _
  unfold ModbusConfig.getGroup
  rw [lookup_of_mem hkeys h]

theorem registersOf_readGroup {group : String} {regs : List RegisterDef}
    (h : dev.config.getGroup group = .ok regs) : dev.registersOf (.readGroup group) = regs := by
  show (dev.config.getGroup group).toOption.getD [] = regs
  rw [h]
  rfl

theorem registersOf_read {regAlias : String} {reg : RegisterDef}
    (h : dev.config.getRegister regAlias = .ok reg) : dev.registersOf (.read regAlias) = [reg] := by
  show (dev.config.getRegister regAlias).toOption.toList = [reg]
  rw [h]
  rfl

/-- The groups hold the grouped registers. -/
theorem groupIndex_perm (config : ModbusConfig) :
    (config.groupIndex.flatMap Prod.snd).Perm
      (config.registers.filter fun reg => reg.readGroup.isSome) := by
  unfold ModbusConfig.groupIndex
  rw [List.flatMap_map]
  refine List.Perm.trans ?_ (flatMap_groupBy_perm _ _)
  exact List.Perm.flatMap_left _ fun group _ => sortByAddress_perm group.2

/-- A register is in a group exactly if its name is that of a grouped register. -/
theorem mem_grouped_iff (hnames : dev.config.validateUniqueRegisterNames = .ok ())
    {reg : RegisterDef} (hreg : reg ∈ dev.config.registers) :
    reg.name ∈ dev.config.groupIndex.flatMap (fun group => group.2.map (·.name)) ↔
      reg.readGroup.isSome = true := by
  have hnodup : (dev.config.registers.map (·.name)).Nodup := ensure_eq_ok.mp hnames
  have hmap : dev.config.groupIndex.flatMap (fun group => group.2.map (·.name)) =
      (dev.config.groupIndex.flatMap Prod.snd).map (·.name) := (List.map_flatMap).symm
  rw [hmap, ((groupIndex_perm dev.config).map _).mem_iff, List.mem_map]
  constructor
  · rintro ⟨reg', hmem, hname⟩
    obtain ⟨hmem, hgroup⟩ := List.mem_filter.mp hmem
    rwa [List.inj_on_of_nodup_map hnodup hmem hreg hname] at hgroup
  · intro hgroup
    exact ⟨reg, List.mem_filter.mpr ⟨hreg, hgroup⟩, rfl⟩

theorem poll_of_grouped (hvalid : dev.config.Validates fl) {reg : RegisterDef}
    (hreg : reg ∈ dev.config.registers) (hgroup : reg.readGroup.isSome = true) :
    reg.poll = true := by
  obtain ⟨-, -, -, htypes, -⟩ := modelPostInit_ok hvalid.postInit
  obtain ⟨types, -, htypes⟩ := checkGroupTypes_ok htypes
  obtain ⟨group, hgroup⟩ := Option.isSome_iff_exists.mp hgroup
  exact (htypes reg hreg group hgroup).1

/-- **The functions of a cycle read the polled registers, each once.** -/
theorem registersOf_perm (hvalid : dev.config.Validates fl) :
    (dev.defineBackgroundDaemon.flatMap dev.registersOf).Perm
      (dev.config.registers.filter (·.poll)) := by
  obtain ⟨hnames, -⟩ := modelPostInit_ok hvalid.postInit
  unfold ModbusDevice.defineBackgroundDaemon
  rw [List.flatMap_append, List.flatMap_map, List.flatMap_map]
  have hgroups : dev.config.groupIndex.flatMap
      (fun group => dev.registersOf (.readGroup group.1)) =
        dev.config.groupIndex.flatMap Prod.snd := by
    apply List.flatMap_congr
    rintro ⟨group, regs⟩ hmem
    exact registersOf_readGroup (getGroup_of_mem hmem)
  have hreads : ∀ regs : List RegisterDef, (∀ reg ∈ regs, reg ∈ dev.config.registers) →
      regs.flatMap (fun reg => dev.registersOf (.read reg.name)) = regs := by
    intro regs hregs
    conv_rhs => rw [← List.flatMap_singleton' regs]
    apply List.flatMap_congr
    intro reg hmem
    exact registersOf_read (getRegister_of_mem hnames (hregs reg hmem))
  have hungrouped : dev.config.registers.filter (fun reg => reg.poll ∧
      reg.name ∉ dev.config.groupIndex.flatMap fun group => group.2.map (·.name)) =
        (dev.config.registers.filter (·.poll)).filter fun reg => !reg.readGroup.isSome := by
    rw [List.filter_filter]
    apply List.filter_congr
    intro reg hreg
    simp only [mem_grouped_iff hnames hreg]
    cases reg.poll <;> cases reg.readGroup.isSome <;> rfl
  have hgrouped : dev.config.registers.filter (fun reg => reg.readGroup.isSome) =
      (dev.config.registers.filter (·.poll)).filter fun reg => reg.readGroup.isSome := by
    rw [List.filter_filter]
    apply List.filter_congr
    intro reg hreg
    cases hgroup : reg.readGroup.isSome with
    | false => rfl
    | true => exact (poll_of_grouped hvalid hreg hgroup).symm
  have hfirst := groupIndex_perm dev.config
  rw [hgrouped] at hfirst
  show ((dev.config.groupIndex.flatMap fun group => dev.registersOf (.readGroup group.1)) ++
    (dev.config.registers.filter (fun reg => reg.poll ∧ reg.name ∉
      dev.config.groupIndex.flatMap fun group => group.2.map (·.name))).flatMap
        fun reg => dev.registersOf (.read reg.name)).Perm _
  rw [hgroups, hreads _ fun reg hmem => (List.mem_filter.mp hmem).1, hungrouped]
  exact (hfirst.append_right _).trans (List.filter_append_perm _ _)

end Plan

/-! ## Requests -/

namespace ReadRequest

/-- Within the protocol's limits and the address space. -/
structure Legal (request : ReadRequest) : Prop where
  one_le : 1 ≤ request.count
  le_max : request.count ≤ request.registerType.maxPerRead
  within : request.address + request.count ≤ 65536

/-- The request asks for the addresses of the register. -/
structure CoversRegister (request : ReadRequest) (reg : RegisterDef) : Prop where
  sameType : request.registerType = reg.registerType
  start_le : request.address ≤ reg.startingAddress.val
  end_le : reg.startingAddress.val + reg.addressCount ≤ request.address + request.count

end ReadRequest

section Requests

variable {fl : Rounding} {dev : ModbusDevice} {link : ReadLink}

/-- What a function asks for, if it gets to ask. -/
def ModbusDevice.requestOf (dev : ModbusDevice) :
    ModbusDevice.DaemonFunction → Option ReadRequest
  | .readGroup group =>
    match dev.config.getGroup group with
    | .ok regs =>
      match regs.head?, regs.getLast? with
      | some first, some last =>
        some ⟨first.registerType, first.startingAddress, groupSpan first last⟩
      | _, _ => none
    | .error _ => none
  | .read regAlias =>
    match dev.config.getRegister regAlias with
    | .ok reg => some ⟨reg.registerType, reg.startingAddress, reg.addressCount⟩
    | .error _ => none

theorem mem_requests_modbusReadOp {α : Type} {request r : ReadRequest}
    {answer : ReadClient → Except ReadError α}
    (h : r ∈ (modbusReadOp link request answer).requests) : r = request := by
  obtain h | ⟨_, -, h⟩ := Exchange.mem_requests_bind.mp h
  · cases h
  · cases hclient : link.client with
    | none =>
      rw [hclient] at h
      cases h
    | some client =>
      rw [hclient] at h
      exact List.mem_singleton.mp h

theorem mem_requests_readByType {address count : Nat} {t : RegisterType} {r : ReadRequest}
    (h : r ∈ (link.readByType address count t).requests) : r = ⟨t, address, count⟩ := by
  cases t <;> exact mem_requests_modbusReadOp h

theorem mem_requests_runFunction {function : ModbusDevice.DaemonFunction} {r : ReadRequest}
    (h : r ∈ (dev.runFunction fl link function).requests) :
    dev.requestOf function = some r := by
  cases function with
  | readGroup group =>
    unfold ModbusDevice.requestOf
    obtain h | ⟨regs, hregs, h⟩ := Exchange.mem_requests_bind.mp h
    · cases h
    · have hgroup : dev.config.getGroup group = .ok regs := raiseAs_eq_ok.mp hregs
      dsimp only
      rw [hgroup]
      dsimp only
      cases hfirst : regs.head? with
      | none =>
        rw [hfirst] at h
        cases h
      | some first =>
        cases hlast : regs.getLast? with
        | none =>
          rw [hfirst, hlast] at h
          cases h
        | some last =>
          rw [hfirst, hlast] at h
          dsimp only at h ⊢
          obtain h | ⟨_, -, h⟩ := Exchange.mem_requests_bind.mp h
          · rw [mem_requests_readByType h]
          · cases h
  | read regAlias =>
    unfold ModbusDevice.requestOf
    obtain h | ⟨reg, hreg, h⟩ := Exchange.mem_requests_bind.mp h
    · cases h
    · have hreg : dev.config.getRegister regAlias = .ok reg := raiseAs_eq_ok.mp hreg
      dsimp only
      rw [hreg]
      obtain h | ⟨_, -, h⟩ := Exchange.mem_requests_bind.mp h
      · rw [mem_requests_readByType h]
      · cases h

theorem addressCount_le_max (reg : RegisterDef) :
    reg.addressCount ≤ reg.registerType.maxPerRead := by
  have hcount : reg.registerCount ≤ 4 := by
    unfold RegisterDef.registerCount
    cases reg.dataType <;> decide
  have hle := addressCount_le reg
  unfold RegisterType.maxPerRead maxCoilsPerRead maxRegistersPerRead
  split_ifs
  · omega
  · omega

/-- The request of a function is legal and covers the registers the function reads. -/
theorem requestOf_spec (hvalid : dev.config.Validates fl)
    {function : ModbusDevice.DaemonFunction} {r : ReadRequest}
    (h : dev.requestOf function = some r) :
    r.Legal ∧ ∀ reg ∈ dev.registersOf function, r.CoversRegister reg := by
  cases function with
  | readGroup group =>
    unfold ModbusDevice.requestOf at h
    dsimp only at h
    cases hgroup : dev.config.getGroup group with
    | error e =>
      rw [hgroup] at h
      cases h
    | ok regs =>
      obtain ⟨-, first, last, hcovers⟩ := covers_of_validates hvalid hgroup
      rw [hgroup] at h
      dsimp only at h
      rw [hcovers.head_eq, hcovers.getLast_eq] at h
      obtain rfl := Option.some.inj h
      refine ⟨⟨hcovers.one_le, hcovers.le_max, hcovers.within⟩, ?_⟩
      intro reg hreg
      rw [registersOf_readGroup hgroup] at hreg
      exact ⟨(hcovers.sameType reg hreg).symm, hcovers.start_le reg hreg,
        hcovers.end_le reg hreg⟩
  | read regAlias =>
    unfold ModbusDevice.requestOf at h
    dsimp only at h
    cases hreg : dev.config.getRegister regAlias with
    | error e =>
      rw [hreg] at h
      cases h
    | ok reg =>
      rw [hreg] at h
      obtain rfl := Option.some.inj h
      obtain ⟨hmem, -⟩ := mem_of_getRegister hreg
      refine ⟨⟨one_le_addressCount reg, addressCount_le_max reg,
        end_le_of_accepted (hvalid.registers reg hmem)⟩, ?_⟩
      intro reg' hreg'
      rw [registersOf_read hreg] at hreg'
      obtain rfl := List.mem_singleton.mp hreg'
      exact ⟨rfl, Nat.le_refl _, Nat.le_refl _⟩

/-- The polls of a cycle are runs of its functions. -/
theorem mem_backgroundDaemon {functions : List ModbusDevice.DaemonFunction}
    {poll : ModbusDevice.Poll} (h : poll ∈ dev.backgroundDaemon fl link functions) :
    poll.function ∈ functions ∧
      poll = ⟨poll.function, (dev.runFunction fl link poll.function).requests,
        (dev.runFunction fl link poll.function).result⟩ := by
  induction functions with
  | nil => cases h
  | cons function functions ih =>
    rw [ModbusDevice.backgroundDaemon] at h
    rcases List.mem_cons.mp h with rfl | h
    · exact ⟨List.mem_cons_self, rfl⟩
    · have hrest : poll ∈ dev.backgroundDaemon fl link functions := by
        split at h
        · exact h
        · split_ifs at h
          · cases h
          · exact h
      obtain ⟨hmem, heq⟩ := ih hrest
      exact ⟨List.mem_cons_of_mem _ hmem, heq⟩

/-- Whatever the client answers, every request of a cycle is legal. -/
theorem legal_of_cycle (hvalid : dev.config.Validates fl) :
    ∀ poll ∈ dev.cycle fl link, ∀ r ∈ poll.requests, r.Legal := by
  intro poll hpoll r hr
  obtain ⟨-, heq⟩ := mem_backgroundDaemon hpoll
  rw [heq] at hr
  exact (requestOf_spec hvalid (mem_requests_runFunction hr)).1

end Requests

/-! ## A device that returns what it is asked for -/

/-- Every read returns as many items as it asks for. -/
structure ReadClient.ReturnsCount (client : ReadClient) : Prop where
  holding : ∀ a c, ∃ words, client.readHoldingRegisters a c = .ok words ∧ words.length = c
  input : ∀ a c, ∃ words, client.readInputRegisters a c = .ok words ∧ words.length = c
  coils : ∀ a c, ∃ bits, client.readCoils a c = .ok bits ∧ bits.length = c
  discrete : ∀ a c, ∃ bits, client.readDiscreteInputs a c = .ok bits ∧ bits.length = c

/-- The device is connected to such a client and not closing. -/
def ReadLink.ReturnsCount (link : ReadLink) : Prop :=
  link.shuttingDown = false ∧ ∃ client, link.client = some client ∧ client.ReturnsCount

/-- A response of `count` items of a type. -/
inductive Response.Holds : RegisterType → Nat → Response → Prop
  | holding (words : List Nat) : Holds .holding words.length (.registers words)
  | input (words : List Nat) : Holds .input words.length (.registers words)
  | coil (bits : List Bool) : Holds .coil bits.length (.bits bits)
  | discrete (bits : List Bool) : Holds .discrete bits.length (.bits bits)

/-- `float` takes the integers of up to 64 bits. -/
def CoversWords (fl : Rounding) : Prop :=
  ∀ n : ℤ, |n| ≤ 2 ^ 64 → (fl n).isFinite = true

section Values

variable {fl : Rounding} {reg : RegisterDef}

theorem readByType_returnsCount {link : ReadLink} (h : link.ReturnsCount)
    (t : RegisterType) (address count : Nat) :
    ∃ response, link.readByType address count t = ⟨[⟨t, address, count⟩], .ok response⟩ ∧
      response.Holds t count := by
  obtain ⟨hdown, client, hclient, hreturns⟩ := h
  have hop {α : Type} (request : ReadRequest) (answer : ReadClient → Except ReadError α) :
      modbusReadOp link request answer = ⟨[request], answer client⟩ := by
    unfold modbusReadOp
    rw [Exchange.check_ok_bind (ensure_pos hdown), hclient]
    rfl
  cases t with
  | holding =>
    obtain ⟨words, hwords, rfl⟩ := hreturns.holding address count
    refine ⟨_, (hop _ _).trans ?_, .holding words⟩
    rw [hwords]
    rfl
  | input =>
    obtain ⟨words, hwords, rfl⟩ := hreturns.input address count
    refine ⟨_, (hop _ _).trans ?_, .input words⟩
    rw [hwords]
    rfl
  | coil =>
    obtain ⟨bits, hbits, rfl⟩ := hreturns.coils address count
    refine ⟨_, (hop _ _).trans ?_, .coil bits⟩
    rw [hbits]
    show (⟨_, .ok (.bits (bits.take bits.length))⟩ : ReadM Response) = _
    rw [List.take_length]
  | discrete =>
    obtain ⟨bits, hbits, rfl⟩ := hreturns.discrete address count
    refine ⟨_, (hop _ _).trans ?_, .discrete bits⟩
    rw [hbits]
    show (⟨_, .ok (.bits (bits.take bits.length))⟩ : ReadM Response) = _
    rw [List.take_length]

/-- A raw value: an integer of up to 64 bits, or a float of a register without bits. -/
def IsRaw (reg : RegisterDef) : Number → Prop
  | .int n => |n| ≤ 2 ^ 64
  | .float _ => reg.dataType ≠ .uint16

theorem bitAt_eq_ok {bits : List Bool} {i : Nat} (h : i < bits.length) :
    ∃ x, bitAt bits i = .ok x ∧ IsRaw reg x := by
  unfold bitAt
  rw [List.getElem?_eq_getElem h]
  refine ⟨_, rfl, ?_⟩
  show |((bits[i].toNat : Nat) : ℤ)| ≤ 2 ^ 64
  cases bits[i] <;> decide

theorem abs_intOfBytes_le {bytes : List UInt8} (h : bytes.length ≤ 8) (signed : Bool) :
    |intOfBytes signed bytes| ≤ 2 ^ 64 := by
  have hlt := ofBytes_lt bytes
  have hpow : 256 ^ bytes.length ≤ 2 ^ 64 := by
    calc 256 ^ bytes.length ≤ 256 ^ 8 := Nat.pow_le_pow_right (by omega) h
      _ = 2 ^ 64 := by norm_num
  have hcast : (256 : ℤ) ^ bytes.length = ((256 ^ bytes.length : Nat) : ℤ) := by push_cast; rfl
  unfold intOfBytes
  rw [hcast]
  generalize 256 ^ bytes.length = m at hlt hpow ⊢
  split_ifs
  · rw [abs_le]
    omega
  · rw [abs_le]
    omega

/-- As many words as the data type has decode. -/
theorem decode_eq_ok {words : List Nat} (h : words.length = reg.registerCount) :
    ∃ x, decode reg words = .ok x ∧ IsRaw reg x := by
  have hlength : (swapIn reg.byteSwap reg.wordSwap reg.longSwap
      (bytesOfRegisters words)).length = 2 * reg.registerCount := by
    rw [length_swapIn, length_bytesOfRegisters, h]
  unfold decode decodeRegisters
  cases hformat : integerFormat reg.dataType with
  | some format =>
    obtain ⟨k, signed⟩ := format
    have hk : 2 * reg.registerCount = k ∧ k ≤ 8 := by
      unfold RegisterDef.registerCount
      cases hdt : reg.dataType <;> rw [hdt] at hformat <;> cases hformat <;> decide
    rw [hk.1] at hlength
    dsimp only
    rw [if_pos hlength]
    exact ⟨_, rfl, abs_intOfBytes_le (hlength.trans_le hk.2) signed⟩
  | none =>
    unfold RegisterDef.registerCount at hlength h
    cases hdt : reg.dataType with
    | float32 =>
      rw [hdt] at hlength
      dsimp only at hlength ⊢
      rw [if_pos hlength]
      exact ⟨_, rfl, by rw [IsRaw, hdt]; nofun⟩
    | float64 =>
      rw [hdt] at hlength
      dsimp only at hlength ⊢
      rw [if_pos hlength]
      exact ⟨_, rfl, by rw [IsRaw, hdt]; nofun⟩
    | bool =>
      rw [hdt] at h
      obtain ⟨word, rfl⟩ := List.length_eq_one_iff.mp h
      refine ⟨_, rfl, ?_⟩
      show |(if word ≠ 0 then 1 else 0 : ℤ)| ≤ 2 ^ 64
      split_ifs
      · norm_num
      · norm_num
    | _ =>
      rw [hdt] at hformat
      cases hformat

theorem applyScaling_eq_ok (hfl : CoversWords fl) {x : Number} (hx : IsRaw reg x) :
    ∃ y, applyScaling fl x reg = .ok y := by
  unfold applyScaling
  cases reg.scale with
  | none => exact ⟨x, rfl⟩
  | some s =>
    have hfloat : ∃ z, x.toFloat fl = .ok z := by
      cases x with
      | int n => exact ⟨_, if_pos (hfl n hx)⟩
      | float z => exact ⟨z, rfl⟩
    obtain ⟨z, hz⟩ := hfloat
    unfold LinearScale.toPhysical
    rw [hz]
    exact ⟨_, rfl⟩

/-- Only a `uint16` register has bits, and its raw value is an integer. -/
theorem buildRegisterChannels_eq_ok (hacc : reg.Accepted fl) {raw : Number} (hraw : IsRaw reg raw)
    (name : String) (scaled : Number) :
    ∃ channels, buildRegisterChannels name reg raw scaled = .ok channels := by
  unfold buildRegisterChannels
  cases hbitmap : reg.bitmap with
  | none => exact ⟨_, rfl⟩
  | some bits =>
    cases bits with
    | nil => exact ⟨_, rfl⟩
    | cons bit bits =>
      cases raw with
      | int n => exact ⟨_, rfl⟩
      | float x =>
        have hcheck : reg.checkBitmap = .ok () := by
          unfold RegisterDef.Accepted RegisterDef.validateRegisterTypeConstraints at hacc
          iterate 9
            obtain ⟨_, -, hacc⟩ := bind_eq_ok.mp hacc
          exact hacc
        unfold RegisterDef.checkBitmap at hcheck
        rw [hbitmap] at hcheck
        exact absurd (ensure_bind_eq_ok.mp hcheck).1 hraw

/-- The items a read of a register returns give its channels. -/
theorem registerEntry_eq_ok (hfl : CoversWords fl) (hacc : reg.Accepted fl) {response : Response}
    (h : response.Holds reg.registerType reg.addressCount) (name : String) :
    ∃ channels, registerEntry fl name reg response = .ok channels := by
  have hraw : ∃ x, rawOfResponse reg response = .ok x ∧ IsRaw reg x := by
    generalize ht : reg.registerType = t at h
    generalize hn : reg.addressCount = n at h
    cases h with
    | holding words =>
      rw [addressCount_of_not_bit (by rw [ht]; rfl)] at hn
      exact decode_eq_ok hn.symm
    | input words =>
      rw [addressCount_of_not_bit (by rw [ht]; rfl)] at hn
      exact decode_eq_ok hn.symm
    | coil bits => exact bitAt_eq_ok (hn ▸ one_le_addressCount reg)
    | discrete bits => exact bitAt_eq_ok (hn ▸ one_le_addressCount reg)
  obtain ⟨x, hx, hraw⟩ := hraw
  obtain ⟨y, hy⟩ := applyScaling_eq_ok hfl hraw
  obtain ⟨channels, hchannels⟩ := buildRegisterChannels_eq_ok hacc hraw name y
  exact ⟨channels, bind_eq_ok.mpr ⟨x, hx, bind_eq_ok.mpr ⟨y, hy, hchannels⟩⟩⟩

/-- So do the items of a read that covers it: the slice is in range. -/
theorem groupEntry_eq_ok (hfl : CoversWords fl) (hacc : reg.Accepted fl) {response : Response}
    {t : RegisterType} {start count : Nat} (h : response.Holds t count)
    (ht : reg.registerType = t) (hstart : start ≤ reg.startingAddress.val)
    (hend : reg.startingAddress.val + reg.addressCount ≤ start + count) (name : String) :
    ∃ channels, groupEntry fl name start response reg = .ok channels := by
  have hcount := one_le_addressCount reg
  have hwords (words : List Nat) (hlength : words.length = count)
      (hbit : reg.registerType.isBit = false) :
      ∃ channels, groupEntry fl name start (.registers words) reg = .ok channels := by
    rw [addressCount_of_not_bit hbit] at hend
    have hslice : ((words.drop (reg.startingAddress.val - start)).take reg.registerCount).length =
        reg.registerCount := by
      rw [List.length_take, List.length_drop]
      omega
    obtain ⟨x, hx, hraw⟩ := decode_eq_ok hslice
    obtain ⟨y, hy⟩ := applyScaling_eq_ok hfl hraw
    obtain ⟨channels, hchannels⟩ := buildRegisterChannels_eq_ok hacc hraw name y
    exact ⟨channels, bind_eq_ok.mpr ⟨x, hx, bind_eq_ok.mpr ⟨y, hy, hchannels⟩⟩⟩
  have hbits (bits : List Bool) (hlength : bits.length = count) :
      ∃ channels, groupEntry fl name start (.bits bits) reg = .ok channels := by
    have hindex : reg.startingAddress.val - start < bits.length := by omega
    obtain ⟨x, hx, hraw⟩ := @bitAt_eq_ok reg bits _ hindex
    obtain ⟨channels, hchannels⟩ := buildRegisterChannels_eq_ok hacc hraw name x
    exact ⟨channels, bind_eq_ok.mpr ⟨x, hx, hchannels⟩⟩
  cases h with
  | holding words => exact hwords words rfl (by rw [ht]; rfl)
  | input words => exact hwords words rfl (by rw [ht]; rfl)
  | coil bits => exact hbits bits rfl
  | discrete bits => exact hbits bits rfl

end Values

/-! ## The cycle -/

section Cycle

variable {fl : Rounding} {dev : ModbusDevice} {link : ReadLink}

theorem readAlias_returnsCount (hfl : CoversWords fl) (hvalid : dev.config.Validates fl)
    (hlink : link.ReturnsCount) {reg : RegisterDef} {regAlias : String}
    (hreg : dev.config.getRegister regAlias = .ok reg) :
    ∃ channels, dev.readAlias fl link regAlias =
        ⟨[⟨reg.registerType, reg.startingAddress, reg.addressCount⟩], .ok channels⟩ ∧
      channels.keys.Perm (dev.channels reg) := by
  obtain ⟨-, hbits, -⟩ := modelPostInit_ok hvalid.postInit
  obtain ⟨hmem, -⟩ := mem_of_getRegister hreg
  obtain ⟨response, hread, hholds⟩ :=
    readByType_returnsCount hlink reg.registerType reg.startingAddress reg.addressCount
  obtain ⟨channels, hchannels⟩ :=
    registerEntry_eq_ok hfl (hvalid.registers reg hmem) hholds dev.name
  refine ⟨channels, ?_, keys_perm hbits hmem (mem_registerEntry hchannels)⟩
  unfold ModbusDevice.readAlias
  rw [hreg]
  show (link.readByType _ _ _ >>= _) = _
  rw [hread, Exchange.bind_of_ok rfl, hchannels]
  rfl

theorem readGroup_returnsCount (hfl : CoversWords fl) (hvalid : dev.config.Validates fl)
    (hlink : link.ReturnsCount) {group : String} {regs : List RegisterDef}
    (hgroup : dev.config.getGroup group = .ok regs) :
    ∃ r channels, dev.readGroup fl link group = ⟨[r], .ok channels⟩ ∧
      channels.keys.Perm (regs.flatMap dev.channels) := by
  obtain ⟨-, hbits, -⟩ := modelPostInit_ok hvalid.postInit
  obtain ⟨-, first, last, hcovers⟩ := covers_of_validates hvalid hgroup
  have hmem : ∀ reg ∈ regs, reg ∈ dev.config.registers := fun reg hreg =>
    ((mem_of_getGroup hgroup).mp hreg).1
  obtain ⟨response, hread, hholds⟩ := readByType_returnsCount hlink first.registerType
    first.startingAddress (groupSpan first last)
  obtain ⟨parts, hparts⟩ := exists_mapM_eq_ok fun reg hreg =>
    groupEntry_eq_ok hfl (hvalid.registers reg (hmem reg hreg)) hholds
      (hcovers.sameType reg hreg) (hcovers.start_le reg hreg) (hcovers.end_le reg hreg) dev.name
  have hkeys : (parts.flatMap (·.keys)).Perm (regs.flatMap dev.channels) :=
    flatMap_keys_perm hbits hmem
      ((forall₂_of_mapM_eq_ok hparts).imp fun _ _ h => mem_groupEntry h)
  have hnodup : (parts.flatMap (·.keys)).Nodup :=
    hkeys.nodup_iff.mpr (nodup_channels hbits (subperm_of_getGroup hgroup))
  have hmerged : (parts.foldl Channels.update ∅).keys.Perm (parts.flatMap (·.keys)) := by
    have hentries := (foldl_union_entries_perm parts ∅ hnodup).map Sigma.fst
    rw [List.map_append, List.map_flatMap] at hentries
    exact hentries
  refine ⟨⟨first.registerType, first.startingAddress, groupSpan first last⟩,
    parts.foldl Channels.update ∅, ?_, hmerged.trans hkeys⟩
  unfold ModbusDevice.readGroup
  rw [hgroup]
  show (match regs.head?, regs.getLast? with
    | some first, some last => _
    | _, _ => _ : ReadM Channels) = _
  rw [hcovers.head_eq, hcovers.getLast_eq]
  dsimp only
  rw [hread, Exchange.bind_of_ok rfl, foldlM_bind_eq_mapM, hparts]
  rfl

/-- A function of the plan sends one request and publishes the channels of its registers. -/
theorem runFunction_returnsCount (hfl : CoversWords fl) (hvalid : dev.config.Validates fl)
    (hlink : link.ReturnsCount) {function : ModbusDevice.DaemonFunction}
    (hmem : function ∈ dev.defineBackgroundDaemon) :
    ∃ r channels, dev.runFunction fl link function = ⟨[r], .ok channels⟩ ∧
      channels.keys.Perm ((dev.registersOf function).flatMap dev.channels) := by
  obtain ⟨hnames, -⟩ := modelPostInit_ok hvalid.postInit
  rcases List.mem_append.mp hmem with hmem | hmem
  · obtain ⟨⟨group, regs⟩, hgroup, rfl⟩ := List.mem_map.mp hmem
    have hget := getGroup_of_mem hgroup
    have hof : dev.registersOf (.readGroup group) = regs := by
      show (dev.config.getGroup group).toOption.getD [] = regs
      rw [hget]
      rfl
    rw [hof]
    exact readGroup_returnsCount hfl hvalid hlink hget
  · obtain ⟨reg, hreg, rfl⟩ := List.mem_map.mp hmem
    have hget := getRegister_of_mem hnames (List.mem_filter.mp hreg).1
    have hof : dev.registersOf (.read reg.name) = [reg] := by
      show (dev.config.getRegister reg.name).toOption.toList = [reg]
      rw [hget]
      rfl
    rw [hof, List.flatMap_singleton]
    obtain ⟨channels, hrun, hkeys⟩ := readAlias_returnsCount hfl hvalid hlink hget
    exact ⟨_, channels, hrun, hkeys⟩

/-- Functions that all succeed all run. -/
theorem backgroundDaemon_of_ok {functions : List ModbusDevice.DaemonFunction}
    (h : ∀ function ∈ functions, ∃ channels,
      (dev.runFunction fl link function).result = .ok channels) :
    dev.backgroundDaemon fl link functions = functions.map fun function =>
      ⟨function, (dev.runFunction fl link function).requests,
        (dev.runFunction fl link function).result⟩ := by
  induction functions with
  | nil => rfl
  | cons function functions ih =>
    obtain ⟨channels, hok⟩ := h function List.mem_cons_self
    rw [ModbusDevice.backgroundDaemon, List.map_cons,
      ← ih fun f hf => h f (List.mem_cons_of_mem _ hf), hok]

/-- The channels published in a cycle are those of the polled registers. -/
theorem published_perm (hfl : CoversWords fl) (hvalid : dev.config.Validates fl)
    (hlink : link.ReturnsCount) :
    (dev.published fl link).Perm ((dev.config.registers.filter (·.poll)).flatMap dev.channels) := by
  have hrun : ∀ function ∈ dev.defineBackgroundDaemon, ∃ channels,
      (dev.runFunction fl link function).result = .ok channels := by
    intro function hmem
    obtain ⟨r, channels, hrun, -⟩ := runFunction_returnsCount hfl hvalid hlink hmem
    exact ⟨channels, by rw [hrun]⟩
  unfold ModbusDevice.published ModbusDevice.cycle
  rw [backgroundDaemon_of_ok hrun, List.flatMap_map]
  refine List.Perm.trans ?_ ((registersOf_perm hvalid).flatMap_right dev.channels)
  rw [List.flatMap_assoc]
  apply List.Perm.flatMap_left
  intro function hmem
  obtain ⟨r, channels, hrun, hkeys⟩ := runFunction_returnsCount hfl hvalid hlink hmem
  rw [hrun]
  exact hkeys

/-- Two registers have no channel in common. -/
theorem disjoint_channels (hvalid : dev.config.Validates fl) {reg reg' : RegisterDef}
    (hreg : reg ∈ dev.config.registers) (hreg' : reg' ∈ dev.config.registers) (hne : reg ≠ reg') :
    (dev.channels reg).Disjoint (dev.channels reg') := by
  obtain ⟨-, hbits, -⟩ := modelPostInit_ok hvalid.postInit
  have hall := nodup_channels hbits (List.Subperm.refl dev.config.registers)
  have hsymm : Std.Symm (Function.onFun List.Disjoint dev.channels) := ⟨fun _ _ h => h.symm⟩
  exact (List.nodup_flatMap.mp hall).2.forall hreg hreg' hne

/-- A register's channel is published once if the register is polled, and else not at all. -/
theorem count_published (hfl : CoversWords fl) (hvalid : dev.config.Validates fl)
    (hlink : link.ReturnsCount) {reg : RegisterDef} (hreg : reg ∈ dev.config.registers) :
    (dev.published fl link).count (dev.channel reg.name) = if reg.poll then 1 else 0 := by
  obtain ⟨-, hbits, -⟩ := modelPostInit_ok hvalid.postInit
  rw [(published_perm hfl hvalid hlink).count_eq]
  have hnodup : ((dev.config.registers.filter (·.poll)).flatMap dev.channels).Nodup :=
    nodup_channels hbits List.filter_sublist.subperm
  have hself (reg : RegisterDef) : dev.channel reg.name ∈ dev.channels reg := List.mem_cons_self
  split_ifs with hpoll
  · exact List.count_eq_one_of_mem hnodup
      (List.mem_flatMap.mpr ⟨reg, List.mem_filter.mpr ⟨hreg, hpoll⟩, hself reg⟩)
  · rw [List.count_eq_zero]
    intro hmem
    obtain ⟨reg', hreg', hmem⟩ := List.mem_flatMap.mp hmem
    obtain ⟨hreg', hpoll'⟩ := List.mem_filter.mp hreg'
    have hne : reg' ≠ reg := by
      rintro rfl
      exact hpoll hpoll'
    exact disjoint_channels hvalid hreg' hreg hne hmem (hself reg)

theorem mem_foldlM_groupEntry {start : Nat} {response : Response} {regs : List RegisterDef}
    {acc channels : Channels}
    (h : regs.foldlM (fun channels reg => do
      let new ← groupEntry fl dev.name start response reg
      return channels.update new) acc = .ok channels) {k : String} (hk : k ∈ channels) :
    k ∈ acc ∨ ∃ reg ∈ regs, k ∈ dev.channels reg := by
  induction regs generalizing acc with
  | nil =>
    obtain rfl := Except.ok.inj h
    exact .inl hk
  | cons reg regs ih =>
    rw [List.foldlM_cons] at h
    obtain ⟨merged, hmerged, h⟩ := bind_eq_ok.mp h
    obtain ⟨new, hnew, hmerged⟩ := bind_eq_ok.mp hmerged
    obtain rfl := Except.ok.inj hmerged
    rcases ih h with hacc | ⟨reg', hreg', hk⟩
    · rcases AList.mem_union.mp hacc with hacc | hacc
      · exact .inr ⟨reg, List.mem_cons_self, (mem_groupEntry hnew k).mp hacc⟩
      · exact .inl hacc
    · exact .inr ⟨reg', List.mem_cons_of_mem _ hreg', hk⟩

/-- Whatever the client answers, a function returns no other channels than those of its registers. -/
theorem mem_channels_of_runFunction {function : ModbusDevice.DaemonFunction} {channels : Channels}
    (h : (dev.runFunction fl link function).result = .ok channels) {k : String} (hk : k ∈ channels) :
    ∃ reg ∈ dev.registersOf function, k ∈ dev.channels reg := by
  cases function with
  | read regAlias =>
    unfold ModbusDevice.runFunction ModbusDevice.readAlias at h
    rw [Exchange.result_bind] at h
    obtain ⟨reg, hreg, h⟩ := bind_eq_ok.mp h
    rw [Exchange.result_bind] at h
    obtain ⟨response, -, h⟩ := bind_eq_ok.mp h
    have hentry := raiseAs_eq_ok.mp h
    refine ⟨reg, ?_, (mem_registerEntry hentry k).mp hk⟩
    show reg ∈ (dev.config.getRegister regAlias).toOption.toList
    rw [raiseAs_eq_ok.mp hreg]
    exact List.mem_singleton_self reg
  | readGroup group =>
    unfold ModbusDevice.runFunction ModbusDevice.readGroup at h
    rw [Exchange.result_bind] at h
    obtain ⟨regs, hregs, h⟩ := bind_eq_ok.mp h
    rw [registersOf_readGroup (raiseAs_eq_ok.mp hregs)]
    split at h
    · rw [Exchange.result_bind] at h
      obtain ⟨response, -, h⟩ := bind_eq_ok.mp h
      exact (mem_foldlM_groupEntry (raiseAs_eq_ok.mp h) hk).resolve_left (AList.notMem_empty k)
    · cases h

/-- A register that is not polled is published by no cycle. -/
theorem notMem_published (hvalid : dev.config.Validates fl) (link : ReadLink) {reg : RegisterDef}
    (hreg : reg ∈ dev.config.registers) (hpoll : reg.poll = false) {k : String}
    (hk : k ∈ dev.channels reg) : k ∉ dev.published fl link := by
  intro hmem
  obtain ⟨poll, hcycle, hmem⟩ := List.mem_flatMap.mp hmem
  obtain ⟨hfunction, heq⟩ := mem_backgroundDaemon hcycle
  rw [heq] at hmem
  cases hresult : (dev.runFunction fl link poll.function).result with
  | error e =>
    rw [hresult] at hmem
    cases hmem
  | ok channels =>
    rw [hresult] at hmem
    obtain ⟨reg', hreg', hk'⟩ := mem_channels_of_runFunction hresult (AList.mem_keys.mpr hmem)
    have hpolled := (registersOf_perm hvalid).mem_iff.mp
      (List.mem_flatMap.mpr ⟨poll.function, hfunction, hreg'⟩)
    obtain ⟨hregister, hpoll'⟩ := List.mem_filter.mp hpolled
    have hne : reg' ≠ reg := by
      rintro rfl
      exact Bool.noConfusion (hpoll.symm.trans hpoll')
    exact disjoint_channels hvalid hregister hreg hne hk' hk

/-- **One cycle reads every polled register in exactly one request and publishes its channel exactly
once, and no other.** Whatever the client answers, the requests are legal and nothing of a register
that is not polled is published; on a device that returns what it is asked for, no function raises. -/
theorem cycle_spec (hfl : CoversWords fl) (hvalid : dev.config.Validates fl) :
    (∀ link, (∀ poll ∈ dev.cycle fl link, ∀ r ∈ poll.requests, r.Legal) ∧
      ∀ reg ∈ dev.config.registers, reg.poll = false →
        ∀ k ∈ dev.channels reg, k ∉ dev.published fl link) ∧
    ∀ link : ReadLink, link.ReturnsCount →
      (∀ poll ∈ dev.cycle fl link, (∃ channels, poll.result = .ok channels) ∧
        ∃ r, poll.requests = [r] ∧ ∀ reg ∈ dev.registersOf poll.function, r.CoversRegister reg) ∧
      ((dev.cycle fl link).flatMap fun poll => dev.registersOf poll.function).Perm
        (dev.config.registers.filter (·.poll)) ∧
      ∀ reg ∈ dev.config.registers,
        (dev.published fl link).count (dev.channel reg.name) = if reg.poll then 1 else 0 := by
  refine ⟨fun link => ⟨legal_of_cycle hvalid, fun reg hreg hpoll k hk =>
    notMem_published hvalid link hreg hpoll hk⟩, fun link hlink => ⟨?_, ?_, ?_⟩⟩
  · intro poll hpoll
    obtain ⟨hmem, heq⟩ := mem_backgroundDaemon hpoll
    obtain ⟨r, channels, hrun, -⟩ := runFunction_returnsCount hfl hvalid hlink hmem
    have hrequests : r ∈ (dev.runFunction fl link poll.function).requests := by
      rw [hrun]
      exact List.mem_singleton_self r
    rw [heq, hrun]
    exact ⟨⟨channels, rfl⟩, r, rfl, (requestOf_spec hvalid (mem_requests_runFunction hrequests)).2⟩
  · unfold ModbusDevice.cycle
    rw [backgroundDaemon_of_ok, List.flatMap_map]
    · exact registersOf_perm hvalid
    · intro function hmem
      obtain ⟨r, channels, hrun, -⟩ := runFunction_returnsCount hfl hvalid hlink hmem
      exact ⟨channels, by rw [hrun]⟩
  · exact fun reg hreg => count_published hfl hvalid hlink hreg

/-- Addresses are written as numerals. -/
local instance neZero_planAddresses : NeZero (65535 + 1) := ⟨by decide⟩

/-- A device with a group of two registers, a register of its own and one that is not polled. -/
def plantDevice : ModbusDevice :=
  ⟨"plc", ⟨processDevice.config.registers ++
    [{ groupedRegister "total" 20 .uint32 none with readGroup := none },
      { groupedRegister "spare" 30 .uint16 none with readGroup := none, poll := false }]⟩⟩

theorem plantDevice_validates : plantDevice.config.Validates exact where
  registers reg hreg := by
    have hmem : reg ∈ processDevice.config.registers ++ [_, _] := hreg
    rcases List.mem_append.mp hmem with hreg | hreg
    · exact processDevice_validates.registers reg hreg
    · rcases List.mem_cons.mp hreg with rfl | hreg
      · rfl
      · obtain rfl := List.mem_singleton.mp hreg
        rfl
  postInit := rfl

/-- Its cycle publishes the channels of three of the four registers, each of them once. -/
theorem cycle_spec_plant :
    let link := Memory.link ⟨fun _ => 5, fun _ => 0, fun _ => false, fun _ => false⟩
    (plantDevice.published exact link).count "plc.count" = 1 ∧
      (plantDevice.published exact link).count "plc.total" = 1 ∧
      (plantDevice.published exact link).count "plc.spare" = 0 := by
  have hreturns : (Memory.link ⟨fun _ => 5, fun _ => 0, fun _ => false,
      fun _ => false⟩).ReturnsCount := by
    refine ⟨rfl, _, rfl, ?_⟩
    exact ⟨fun _ _ => ⟨_, rfl, length_readItems _ _ _⟩, fun _ _ => ⟨_, rfl, length_readItems _ _ _⟩,
      fun _ _ => ⟨_, rfl, length_readItems _ _ _⟩, fun _ _ => ⟨_, rfl, length_readItems _ _ _⟩⟩
  have hcount := ((@cycle_spec _ plantDevice (fun _ _ => rfl) plantDevice_validates).2 _ hreturns).2.2
  exact ⟨hcount (groupedRegister "count" 10 .uint32 none) (by simp [plantDevice, processDevice]),
    hcount { groupedRegister "total" 20 .uint32 none with readGroup := none } (by simp [plantDevice]),
    hcount { groupedRegister "spare" 30 .uint16 none with readGroup := none, poll := false }
      (by simp [plantDevice])⟩

end Cycle

end Instro.Modbus
