import Instro.Library.Collect
import Instro.Modbus.Groups
import Instro.Modbus.Polling

/-!
# Group reads and individual reads

One read of a whole group, cut up by offsets, gives each register the items a read of its own would
give it. So a group read has exactly the channels of the reads of its registers.
-/

namespace Instro.Modbus

open Instro.Library

/-! ## Slices -/

section Slices

variable {α : Type} (items : Nat → α) (address : Nat)

@[simp] theorem length_readItems (count : Nat) : (readItems items address count).length = count := by
  unfold readItems
  rw [List.length_map, List.length_range]

theorem getElem?_readItems {count i : Nat} (h : i < count) :
    (readItems items address count)[i]? = some (items (address + i)) := by
  unfold readItems
  rw [List.getElem?_map, List.getElem?_range h]
  rfl

/-- A part of what is read is what a read of the part gives. -/
theorem slice_readItems {count offset n : Nat} (h : offset + n ≤ count) :
    ((readItems items address count).drop offset).take n =
      readItems items (address + offset) n := by
  apply List.ext_getElem?
  intro i
  rw [List.getElem?_take]
  split_ifs with hi
  · rw [List.getElem?_drop, getElem?_readItems items address (by omega),
      getElem?_readItems items _ hi, Nat.add_assoc]
  · rw [List.getElem?_eq_none]
    rw [length_readItems]
    omega

end Slices

/-! ## Reading from a device -/

section Device

variable {fl : Rounding} {dev : ModbusDevice} {mem : Memory} {reg : RegisterDef}

/-- A read of a device that answers sends one request. -/
theorem readByType_memory (t : RegisterType) (address count : Nat) :
    mem.link.readByType address count t =
      ⟨[⟨t, address, count⟩], .ok (mem.respond t address count)⟩ := by
  have htake (items : Nat → Bool) :
      (readItems items address count).take count = readItems items address count :=
    List.take_of_length_le (by rw [length_readItems])
  cases t with
  | holding => rfl
  | input => rfl
  | coil =>
    show (⟨_, .ok (.bits ((readItems mem.coils address count).take count))⟩ : ReadM Response) = _
    rw [htake]
    rfl
  | discrete =>
    show (⟨_, .ok (.bits ((readItems mem.discrete address count).take count))⟩ :
      ReadM Response) = _
    rw [htake]
    rfl

/-- The channels of a register, from what the device holds. -/
def registerChannels (fl : Rounding) (name : String) (mem : Memory) (reg : RegisterDef) :
    Except PyException Channels :=
  registerEntry fl name reg (mem.respond reg.registerType reg.startingAddress reg.addressCount)

theorem getRegister_of_mem (hnames : dev.config.validateUniqueRegisterNames = .ok ())
    (hreg : reg ∈ dev.config.registers) : dev.config.getRegister reg.name = .ok reg := by
  have hnodup : (dev.config.registers.map (·.name)).Nodup := ensure_eq_ok.mp hnames
  unfold ModbusConfig.getRegister
  cases hfind : dev.config.registers.reverse.find? fun reg' => reg'.name = reg.name with
  | none =>
    rw [List.find?_eq_none] at hfind
    exact absurd (decide_eq_true rfl) (hfind reg (List.mem_reverse.mpr hreg))
  | some reg' =>
    have hname : reg'.name = reg.name := by simpa using List.find?_some hfind
    have hmem : reg' ∈ dev.config.registers :=
      List.mem_reverse.mp (List.mem_of_find?_eq_some hfind)
    rw [List.inj_on_of_nodup_map hnodup hmem hreg hname]

/-- The read of a register asks for its items, and its channels are those of what is held. -/
theorem readAlias_memory (h : dev.config.getRegister reg.name = .ok reg) :
    dev.readAlias fl mem.link reg.name =
      ⟨[⟨reg.registerType, reg.startingAddress, reg.addressCount⟩],
        raiseAs .interpreter (registerChannels fl dev.name mem reg)⟩ := by
  unfold ModbusDevice.readAlias registerChannels
  rw [h]
  show (mem.link.readByType _ _ _ >>= _) = _
  rw [readByType_memory, Exchange.bind_of_ok rfl]
  rfl

theorem scale_of_bit {fl' : Rounding} (hacc : reg.Accepted fl')
    (hbit : reg.registerType.isBit = true) : reg.scale = none := by
  obtain ⟨_, hscale, -⟩ := bind_eq_ok.mp hacc
  have hnot := ensure_eq_ok.mp hscale
  cases hs : reg.scale with
  | none => rfl
  | some s =>
    rw [hs] at hnot
    refine absurd ⟨?_, rfl⟩ hnot
    revert hbit
    cases reg.registerType <;> decide

/-- A bit of a read is the bit that a read of its own has. -/
theorem bitAt_readItems (items : Nat → Bool) (start : Nat) {offset count : Nat}
    (h : offset < count) :
    bitAt (readItems items start count) offset =
      bitAt (readItems items (start + offset) 1) 0 := by
  unfold bitAt
  rw [getElem?_readItems items start h, getElem?_readItems items (start + offset) Nat.one_pos]
  rfl

/-- A register's part of a read that covers it has the channels of its own read. -/
theorem groupEntry_memory {fl' : Rounding} (hacc : reg.Accepted fl') {start count : Nat}
    (hstart : start ≤ reg.startingAddress.val)
    (hend : reg.startingAddress.val + reg.addressCount ≤ start + count) (name : String) :
    groupEntry fl name start (mem.respond reg.registerType start count) reg =
      registerChannels fl name mem reg := by
  obtain ⟨offset, hoffset⟩ := Nat.exists_eq_add_of_le hstart
  have hsub : reg.startingAddress.val - start = offset := by omega
  have hin : offset + reg.addressCount ≤ count := by omega
  unfold groupEntry registerChannels registerEntry
  dsimp only
  rw [hsub, hoffset]
  by_cases hbit : reg.registerType.isBit = true
  · have happly := @applyScaling_of_none fl reg (scale_of_bit hacc hbit)
    rw [addressCount_of_bit hbit] at hin ⊢
    unfold Memory.respond
    cases ht : reg.registerType with
    | holding => rw [ht] at hbit; cases hbit
    | input => rw [ht] at hbit; cases hbit
    | coil =>
      dsimp only [rawOfResponse]
      rw [bitAt_readItems _ start hin]
      simp only [happly]
      rfl
    | discrete =>
      dsimp only [rawOfResponse]
      rw [bitAt_readItems _ start hin]
      simp only [happly]
      rfl
  · have hcount := addressCount_of_not_bit (Bool.eq_false_iff.mpr hbit)
    rw [hcount] at hin ⊢
    unfold Memory.respond
    cases ht : reg.registerType with
    | holding =>
      dsimp only [rawOfResponse]
      rw [slice_readItems mem.holding start hin]
    | input =>
      dsimp only [rawOfResponse]
      rw [slice_readItems mem.input start hin]
    | coil => rw [ht] at hbit; exact absurd rfl hbit
    | discrete => rw [ht] at hbit; exact absurd rfl hbit

end Device

/-! ## Channel names -/

/-- The names a register publishes under: its own and those of its bits. -/
def RegisterDef.names (reg : RegisterDef) : List String :=
  reg.name :: (reg.bitmap.getD []).map (·.name)

namespace ModbusDevice

variable (dev : ModbusDevice)

/-- The channel of a name. -/
def channel (name : String) : String := s!"{dev.name}.{name}"

/-- The channels of a register. -/
def channels (reg : RegisterDef) : List String := reg.names.map dev.channel

theorem channel_injective : Function.Injective dev.channel := by
  intro a b h
  have h' : toString a = toString b := by simpa [channel] using h
  exact h'

end ModbusDevice

section Channels

variable {fl : Rounding} {dev : ModbusDevice} {reg : RegisterDef} {channels : Channels}

theorem mem_keys_foldl_insert (name : String) (value : BitDef → Number) (bits : List BitDef)
    (channels : Channels) (k : String) :
    k ∈ bits.foldl (fun channels bit => channels.insert s!"{name}.{bit.name}" (value bit)) channels ↔
      k ∈ channels ∨ k ∈ bits.map fun bit => s!"{name}.{bit.name}" := by
  induction bits generalizing channels with
  | nil => simp
  | cons bit bits ih =>
    rw [List.foldl_cons, ih, AList.mem_insert, List.map_cons, List.mem_cons]
    tauto

/-- A register publishes under its channels. -/
theorem mem_buildRegisterChannels {raw scaled : Number}
    (h : buildRegisterChannels dev.name reg raw scaled = .ok channels) (k : String) :
    k ∈ channels ↔ k ∈ dev.channels reg := by
  have hself : k ∈ (∅ : Channels).insert s!"{dev.name}.{reg.name}" scaled ↔
      k = dev.channel reg.name := by
    rw [AList.mem_insert]
    exact or_iff_left (AList.notMem_empty k)
  unfold ModbusDevice.channels RegisterDef.names
  rw [List.map_cons, List.mem_cons, List.map_map]
  unfold buildRegisterChannels at h
  cases hbitmap : reg.bitmap with
  | none =>
    rw [hbitmap] at h
    obtain rfl := Except.ok.inj h
    rw [hself]
    simp
  | some bits =>
    cases bits with
    | nil =>
      rw [hbitmap] at h
      obtain rfl := Except.ok.inj h
      rw [hself]
      simp
    | cons bit bits =>
      rw [hbitmap] at h
      obtain ⟨n, -, h⟩ := bind_eq_ok.mp h
      obtain rfl := Except.ok.inj h
      rw [mem_keys_foldl_insert, hself]
      rfl

theorem mem_registerEntry {response : Response}
    (h : registerEntry fl dev.name reg response = .ok channels) (k : String) :
    k ∈ channels ↔ k ∈ dev.channels reg := by
  obtain ⟨raw, -, h⟩ := bind_eq_ok.mp h
  obtain ⟨scaled, -, h⟩ := bind_eq_ok.mp h
  exact mem_buildRegisterChannels h k

theorem mem_groupEntry {start : Nat} {response : Response}
    (h : groupEntry fl dev.name start response reg = .ok channels) (k : String) :
    k ∈ channels ↔ k ∈ dev.channels reg := by
  unfold groupEntry at h
  dsimp only at h
  cases response with
  | bits bits =>
    obtain ⟨raw, -, h⟩ := bind_eq_ok.mp h
    exact mem_buildRegisterChannels h k
  | registers words =>
    obtain ⟨raw, -, h⟩ := bind_eq_ok.mp h
    obtain ⟨scaled, -, h⟩ := bind_eq_ok.mp h
    exact mem_buildRegisterChannels h k

/-- No two names of a configuration that validates are the same. -/
theorem nodup_names (h : dev.config.validateUniqueBitmapNames = .ok ()) :
    (dev.config.registers.flatMap RegisterDef.names).Nodup := by
  have hnodup : dev.config.channelNames.Nodup := ensure_eq_ok.mp h
  exact (List.map_append_flatMap_perm _ _ _).nodup_iff.mp hnodup

theorem nodup_channels (h : dev.config.validateUniqueBitmapNames = .ok ())
    {regs : List RegisterDef} (hregs : regs.Subperm dev.config.registers) :
    (regs.flatMap dev.channels).Nodup := by
  obtain ⟨regs', hperm, hsub⟩ := hregs
  rw [← (hperm.flatMap_right _).nodup_iff]
  have hall : (dev.config.registers.flatMap dev.channels).Nodup := by
    have hmap : dev.config.registers.flatMap dev.channels =
        (dev.config.registers.flatMap RegisterDef.names).map dev.channel :=
      (List.map_flatMap).symm
    rw [hmap]
    exact (nodup_names h).map dev.channel_injective
  exact hall.sublist (hsub.flatMap _)

/-- What is published under the channels of a register, each once. -/
theorem keys_perm (h : dev.config.validateUniqueBitmapNames = .ok ())
    (hreg : reg ∈ dev.config.registers) (hmem : ∀ k, k ∈ channels ↔ k ∈ dev.channels reg) :
    channels.keys.Perm (dev.channels reg) := by
  have hnodup := nodup_channels h (List.singleton_subperm_iff.mpr hreg)
  rw [List.flatMap_singleton] at hnodup
  exact (List.perm_ext_iff_of_nodup channels.keys_nodup hnodup).mpr hmem

/-- So for registers one by one. -/
theorem flatMap_keys_perm (h : dev.config.validateUniqueBitmapNames = .ok ())
    {regs : List RegisterDef} (hregs : ∀ reg ∈ regs, reg ∈ dev.config.registers)
    {parts : List Channels}
    (hparts : List.Forall₂ (fun reg channels => ∀ k, k ∈ channels ↔ k ∈ dev.channels reg)
      regs parts) :
    (parts.flatMap (·.keys)).Perm (regs.flatMap dev.channels) := by
  induction hparts with
  | nil => exact List.Perm.refl _
  | cons hmem hrest ih =>
    rw [List.flatMap_cons, List.flatMap_cons]
    exact (keys_perm h (hregs _ List.mem_cons_self) hmem).append
      (ih fun reg hreg => hregs reg (List.mem_cons_of_mem _ hreg))

theorem subperm_of_getGroup {group : String} {regs : List RegisterDef}
    (h : dev.config.getGroup group = .ok regs) : regs.Subperm dev.config.registers := by
  obtain ⟨rfl, -⟩ := getGroup_eq_ok.mp h
  exact (sortByAddress_perm _).subperm.trans List.filter_sublist.subperm

end Channels

/-! ## The group read -/

section Group

variable {fl fl' : Rounding} {dev : ModbusDevice} {group : String} {regs : List RegisterDef}

/-- The group read of a device that answers: one request, and the channels of each register. -/
theorem readGroup_memory (hvalid : dev.config.Validates fl')
    (hgroup : dev.config.getGroup group = .ok regs) (mem : Memory) :
    (dev.readGroup fl mem.link group).result = raiseAs .interpreter
      ((regs.mapM (registerChannels fl dev.name mem)).map fun parts =>
        parts.foldl Channels.update ∅) := by
  obtain ⟨-, first, last, hcovers⟩ := covers_of_validates hvalid hgroup
  have hentry : ∀ reg ∈ regs, groupEntry fl dev.name first.startingAddress
      (mem.respond first.registerType first.startingAddress (groupSpan first last)) reg =
        registerChannels fl dev.name mem reg := by
    intro reg hmem
    have hreg := ((mem_of_getGroup hgroup).mp hmem).1
    rw [← hcovers.sameType reg hmem]
    exact groupEntry_memory (hvalid.registers reg hreg) (hcovers.start_le reg hmem)
      (hcovers.end_le reg hmem) dev.name
  unfold ModbusDevice.readGroup
  rw [hgroup, Exchange.bind_of_ok rfl, hcovers.head_eq, hcovers.getLast_eq]
  dsimp only
  rw [readByType_memory, Exchange.bind_of_ok rfl, ← foldlM_bind_eq_mapM]
  show raiseAs _ _ = raiseAs _ _
  refine congrArg _ (foldlM_congr ?_ ∅)
  intro channels reg hmem
  rw [hentry reg hmem]

/-- The reads of the registers of a group, one after the other. -/
def ModbusDevice.readEach (fl : Rounding) (dev : ModbusDevice) (link : ReadLink)
    (regs : List RegisterDef) : Except ReadError (List Channels) :=
  regs.mapM fun reg => (dev.readAlias fl link reg.name).result

theorem readEach_memory (hnames : dev.config.validateUniqueRegisterNames = .ok ())
    (hregs : ∀ reg ∈ regs, reg ∈ dev.config.registers) (mem : Memory) :
    dev.readEach fl mem.link regs =
      raiseAs .interpreter (regs.mapM (registerChannels fl dev.name mem)) := by
  apply mapM_eq_raiseAs
  intro reg hmem
  rw [readAlias_memory (getRegister_of_mem hnames (hregs reg hmem))]

/-- **A group read has exactly the channel entries of the reads of its registers**, no two of them
under one name; and it raises what the first of them to raise does. -/
theorem readGroup_refines_reads (hvalid : dev.config.Validates fl)
    (hgroup : dev.config.getGroup group = .ok regs) (mem : Memory) :
    (∀ parts, dev.readEach fl mem.link regs = .ok parts →
      ∃ channels, (dev.readGroup fl mem.link group).result = .ok channels ∧
        channels.entries.Perm (parts.flatMap (·.entries)) ∧ (parts.flatMap (·.keys)).Nodup) ∧
    ∀ e, dev.readEach fl mem.link regs = .error e →
      (dev.readGroup fl mem.link group).result = .error e := by
  obtain ⟨hnames, hbits, -⟩ := modelPostInit_ok hvalid.postInit
  have hmem : ∀ reg ∈ regs, reg ∈ dev.config.registers := fun reg hreg =>
    ((mem_of_getGroup hgroup).mp hreg).1
  rw [readGroup_memory hvalid hgroup, readEach_memory hnames hmem]
  constructor
  · intro parts hparts
    have hparts := raiseAs_eq_ok.mp hparts
    have hkeys : (parts.flatMap (·.keys)).Perm (regs.flatMap dev.channels) :=
      flatMap_keys_perm hbits hmem
        ((forall₂_of_mapM_eq_ok hparts).imp fun _ _ h => mem_registerEntry h)
    have hnodup : (parts.flatMap (·.keys)).Nodup :=
      hkeys.nodup_iff.mpr (nodup_channels hbits (subperm_of_getGroup hgroup))
    refine ⟨parts.foldl Channels.update ∅, ?_, ?_, hnodup⟩
    · rw [hparts]
      rfl
    · exact foldl_union_entries_perm parts ∅ hnodup
  · intro e he
    cases hparts : regs.mapM (registerChannels fl dev.name mem) with
    | error e' =>
      rw [hparts] at he
      obtain rfl := Except.error.inj he
      rfl
    | ok parts =>
      rw [hparts] at he
      cases he

end Group

/-! ## A group of two widths -/

/-- Addresses are written as numerals. -/
local instance neZero_groupAddresses : NeZero (65535 + 1) := ⟨by decide⟩

def groupedRegister (name : String) (startingAddress : Fin 65536) (dataType : DataType)
    (bitmap : Option (List BitDef)) : RegisterDef where
  name := name
  startingAddress := startingAddress
  registerType := .holding
  dataType := dataType
  byteSwap := false
  wordSwap := false
  longSwap := false
  scale := none
  bitmap := bitmap
  poll := true
  writeMin := none
  writeMax := none
  writeValueMap := none
  readGroup := some "process"

/-- A status word with one named bit, and a counter of two registers below it. -/
def processDevice : ModbusDevice :=
  ⟨"plc", ⟨[groupedRegister "status" 12 .uint16 (some [⟨"running", 0⟩]),
    groupedRegister "count" 10 .uint32 none]⟩⟩

theorem processDevice_validates : processDevice.config.Validates exact where
  registers reg hreg := by
    rcases List.mem_cons.mp hreg with rfl | hreg
    · rfl
    · obtain rfl := List.mem_singleton.mp hreg
      rfl
  postInit := rfl

/-- The group read of a device that holds 5 everywhere has three channels. -/
theorem readGroup_refines_reads_process :
    ∃ channels, (processDevice.readGroup exact
        (Memory.link ⟨fun _ => 5, fun _ => 0, fun _ => false, fun _ => false⟩) "process").result =
          .ok channels ∧
      channels.entries.Perm [⟨"plc.count", .int 327685⟩, ⟨"plc.running", .int 1⟩,
        ⟨"plc.status", .int 5⟩] := by
  obtain ⟨channels, hok, hentries, -⟩ := (@readGroup_refines_reads _ processDevice
    "process" _ processDevice_validates rfl ⟨fun _ => 5, fun _ => 0, fun _ => false, fun _ => false⟩).1 _ rfl
  exact ⟨channels, hok, hentries⟩

end Instro.Modbus
