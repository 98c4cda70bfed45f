import Instro.Modbus.Config

/-!
# Read groups

What the checks of a configuration give a read group: its registers are of one type and all polled,
they follow each other without overlap, and one read within the limits covers them.
-/

namespace Instro.Modbus

open Instro.Library

/-! ## Addresses -/

/-- Neither register takes up an address of the other. -/
def Apart (reg1 reg2 : RegisterDef) : Prop :=
  reg1.startingAddress.val + reg1.addressCount ≤ reg2.startingAddress.val ∨
    reg2.startingAddress.val + reg2.addressCount ≤ reg1.startingAddress.val

theorem Apart.symm {reg1 reg2 : RegisterDef} (h : Apart reg1 reg2) : Apart reg2 reg1 := Or.symm h

theorem one_le_registerCount (reg : RegisterDef) : 1 ≤ reg.registerCount := by
  unfold RegisterDef.registerCount
  cases reg.dataType <;> decide

theorem one_le_addressCount (reg : RegisterDef) : 1 ≤ reg.addressCount := by
  unfold RegisterDef.addressCount
  split_ifs
  · exact Nat.le_refl 1
  · exact one_le_registerCount reg

theorem addressCount_le (reg : RegisterDef) : reg.addressCount ≤ reg.registerCount := by
  unfold RegisterDef.addressCount
  split_ifs
  · exact one_le_registerCount reg
  · exact Nat.le_refl _

theorem addressCount_of_bit {reg : RegisterDef} (h : reg.registerType.isBit = true) :
    reg.addressCount = 1 := if_pos h

theorem addressCount_of_not_bit {reg : RegisterDef} (h : reg.registerType.isBit = false) :
    reg.addressCount = reg.registerCount := by
  unfold RegisterDef.addressCount
  rw [h]
  rfl

/-- An accepted register ends within the address space. -/
theorem end_le_of_accepted {fl : Rounding} {reg : RegisterDef} (h : reg.Accepted fl) :
    reg.startingAddress.val + reg.addressCount ≤ 65536 := by
  unfold RegisterDef.Accepted RegisterDef.validateRegisterTypeConstraints at h
  obtain ⟨_, -, h⟩ := bind_eq_ok.mp h
  obtain ⟨_, -, h⟩ := bind_eq_ok.mp h
  obtain ⟨_, -, h⟩ := bind_eq_ok.mp h
  obtain ⟨_, hspan, -⟩ := bind_eq_ok.mp h
  have hend : reg.startingAddress.val + reg.registerCount - 1 ≤ 65535 := ensure_eq_ok.mp hspan
  have hcount := addressCount_le reg
  omega

/-! ## Sorting by address -/

theorem sortByAddress_perm (regs : List RegisterDef) : (sortByAddress regs).Perm regs :=
  List.perm_insertionSort _ regs

theorem sortByAddress_sorted (regs : List RegisterDef) :
    (sortByAddress regs).Pairwise fun reg1 reg2 => reg1.startingAddress ≤ reg2.startingAddress := by
  have : Std.Total fun reg1 reg2 : RegisterDef => reg1.startingAddress ≤ reg2.startingAddress :=
    ⟨fun _ _ => le_total _ _⟩
  have : IsTrans RegisterDef fun reg1 reg2 => reg1.startingAddress ≤ reg2.startingAddress :=
    ⟨fun _ _ _ => le_trans⟩
  exact List.pairwise_insertionSort _ regs

theorem pairwise_of_checkOverlap {regs : List RegisterDef} (h : checkOverlap regs = .ok ()) :
    regs.Pairwise Apart := by
  induction regs with
  | nil => exact List.Pairwise.nil
  | cons reg1 regs ih =>
    obtain ⟨_, hrest, h⟩ := bind_eq_ok.mp h
    refine List.pairwise_cons.mpr ⟨?_, ih h⟩
    intro reg2 hmem
    have hcheck := ensure_eq_ok.mp (forM_eq_ok.mp hrest reg2 hmem)
    have hcount1 := one_le_addressCount reg1
    have hcount2 := one_le_addressCount reg2
    unfold Apart
    omega

/-- Apart and in the order of their addresses, registers follow each other. -/
theorem consecutive_of_sorted {regs : List RegisterDef}
    (hsorted : regs.Pairwise fun reg1 reg2 => reg1.startingAddress ≤ reg2.startingAddress)
    (hapart : regs.Pairwise Apart) :
    regs.Pairwise fun reg1 reg2 =>
      reg1.startingAddress.val + reg1.addressCount ≤ reg2.startingAddress.val := by
  refine (hsorted.and hapart).imp ?_
  rintro reg1 reg2 ⟨hle, h | h⟩
  · exact h
  · have hcount := one_le_addressCount reg2
    have hle' : reg1.startingAddress.val ≤ reg2.startingAddress.val := hle
    omega

/-! ## The groups of a configuration that validates -/

section Groups

variable {fl : Rounding} {config : ModbusConfig} {group : String} {regs : List RegisterDef}

theorem modelPostInit_ok (h : config.modelPostInit = .ok ()) :
    config.validateUniqueRegisterNames = .ok () ∧ config.validateUniqueBitmapNames = .ok () ∧
      config.validateNoRegisterOverlap = .ok () ∧ config.validateGroupRegisterTypes = .ok () ∧
      config.validateGroupSpan = .ok () := by
  obtain ⟨_, hnames, h⟩ := bind_eq_ok.mp h
  obtain ⟨_, hbits, h⟩ := bind_eq_ok.mp h
  obtain ⟨_, hoverlap, h⟩ := bind_eq_ok.mp h
  obtain ⟨_, htypes, hspan⟩ := bind_eq_ok.mp h
  exact ⟨hnames, raiseAs_eq_ok.mp hbits, hoverlap, htypes, hspan⟩

/-- The registers of one type are apart. -/
theorem apart_of_type (h : config.validateNoRegisterOverlap = .ok ()) (t : RegisterType) :
    (config.registers.filter fun reg => reg.registerType = t).Pairwise Apart := by
  by_cases hnil : config.registers.filter (fun reg => reg.registerType = t) = []
  · rw [hnil]
    exact List.Pairwise.nil
  · have hlookup : (groupBy (fun reg => some reg.registerType) config.registers).lookup t =
        some (config.registers.filter fun reg => reg.registerType = t) := by
      rw [lookup_groupBy]
      simp only [Option.some.injEq]
      exact if_neg hnil
    have hcheck := forM_eq_ok.mp h _ (mem_of_lookup hlookup)
    exact ((sortByAddress_perm _).pairwise_iff Apart.symm).mp (pairwise_of_checkOverlap hcheck)

/-- A table of group types that passes has the type of every grouped register, which is polled. -/
theorem checkGroupTypes_ok {groups : List (String × RegisterType)}
    (h : checkGroupTypes groups regs = .ok ()) :
    ∃ types : List (String × RegisterType),
      (∀ group t, groups.lookup group = some t → types.lookup group = some t) ∧
      ∀ reg ∈ regs, ∀ group, reg.readGroup = some group →
        reg.poll = true ∧ types.lookup group = some reg.registerType := by
  induction regs generalizing groups with
  | nil => exact ⟨groups, fun _ _ h => h, fun _ hreg => absurd hreg List.not_mem_nil⟩
  | cons reg regs ih =>
    cases hgroup : reg.readGroup with
    | none =>
      rw [checkGroupTypes, hgroup] at h
      obtain ⟨types, hext, htypes⟩ := ih h
      refine ⟨types, hext, List.forall_mem_cons.mpr ⟨?_, htypes⟩⟩
      intro group hreg
      rw [hgroup] at hreg
      cases hreg
    | some group =>
      rw [checkGroupTypes, hgroup] at h
      obtain ⟨hpoll, h⟩ := ensure_bind_eq_ok.mp h
      cases hfirst : groups.lookup group with
      | some first =>
        rw [hfirst] at h
        obtain ⟨htype, h⟩ := ensure_bind_eq_ok.mp h
        obtain ⟨types, hext, htypes⟩ := ih h
        refine ⟨types, hext, List.forall_mem_cons.mpr ⟨?_, htypes⟩⟩
        intro group' hreg
        obtain rfl := Option.some.inj (hgroup.symm.trans hreg)
        exact ⟨hpoll, by rw [hext _ _ hfirst, htype]⟩
      | none =>
        rw [hfirst] at h
        obtain ⟨types, hext, htypes⟩ := ih h
        refine ⟨types, ?_, List.forall_mem_cons.mpr ⟨?_, htypes⟩⟩
        · intro group' t ht
          apply hext
          have hne : group' ≠ group := by
            rintro rfl
            rw [hfirst] at ht
            cases ht
          rw [lookup_cons_ite, if_neg hne, ht]
        · intro group' hreg
          obtain rfl := Option.some.inj (hgroup.symm.trans hreg)
          refine ⟨hpoll, hext _ _ ?_⟩
          rw [lookup_cons_ite, if_pos rfl]

theorem lookup_map_snd {β γ : Type} (f : β → γ) (groups : List (String × β)) (k : String) :
    (groups.map fun (k, b) => (k, f b)).lookup k = (groups.lookup k).map f := by
  induction groups with
  | nil => rfl
  | cons g groups ih =>
    obtain ⟨k', b⟩ := g
    rw [List.map_cons, lookup_cons_ite, lookup_cons_ite, ih]
    split_ifs
    · rfl
    · rfl

theorem getGroup_eq_ok : config.getGroup group = .ok regs ↔
    regs = sortByAddress (config.registers.filter fun reg => reg.readGroup = some group) ∧
      config.registers.filter (fun reg => reg.readGroup = some group) ≠ [] := by
  unfold ModbusConfig.getGroup ModbusConfig.groupIndex
  rw [lookup_map_snd, lookup_groupBy]
  split_ifs with hnil
  · exact ⟨nofun, fun h => absurd hnil h.2⟩
  · constructor
    · intro h
      exact ⟨(Except.ok.inj h).symm, hnil⟩
    · rintro ⟨rfl, -⟩
      rfl

/-- Each register ends before the next one starts. -/
def Consecutive (regs : List RegisterDef) : Prop :=
  regs.Pairwise fun reg1 reg2 =>
    reg1.startingAddress.val + reg1.addressCount ≤ reg2.startingAddress.val

/-- A read from `first` to `last` covers the registers of a group within the limits. -/
structure Covers (first last : RegisterDef) (regs : List RegisterDef) : Prop where
  head_eq : regs.head? = some first
  getLast_eq : regs.getLast? = some last
  sameType : ∀ reg ∈ regs, reg.registerType = first.registerType
  start_le : ∀ reg ∈ regs, first.startingAddress.val ≤ reg.startingAddress.val
  end_le : ∀ reg ∈ regs, reg.startingAddress.val + reg.addressCount ≤
    first.startingAddress.val + groupSpan first last
  one_le : 1 ≤ groupSpan first last
  within : first.startingAddress.val + groupSpan first last ≤ 65536
  le_max : groupSpan first last ≤ first.registerType.maxPerRead

theorem mem_of_getGroup (h : config.getGroup group = .ok regs) {reg : RegisterDef} :
    reg ∈ regs ↔ reg ∈ config.registers ∧ reg.readGroup = some group := by
  obtain ⟨rfl, -⟩ := getGroup_eq_ok.mp h
  rw [(sortByAddress_perm _).mem_iff, List.mem_filter, decide_eq_true_eq]

/-- The span is up to the end of the last register, if both are of one type. -/
theorem groupSpan_eq {first last : RegisterDef} (htype : last.registerType = first.registerType) :
    groupSpan first last =
      last.startingAddress.val + last.addressCount - first.startingAddress.val := by
  unfold groupSpan
  split_ifs with hbit
  · rw [addressCount_of_bit (by rw [htype, hbit])]
  · rw [addressCount_of_not_bit (by rw [htype]; exact Bool.eq_false_iff.mpr hbit)]

/-- Registers that follow each other lie between the first and the last. -/
theorem covers_of_consecutive {first last : RegisterDef} (hfirst : regs.head? = some first)
    (hlast : regs.getLast? = some last)
    (htype : ∀ reg ∈ regs, reg.registerType = first.registerType) (hregs : Consecutive regs)
    (hend : last.startingAddress.val + last.addressCount ≤ 65536)
    (hmax : groupSpan first last ≤ first.registerType.maxPerRead) : Covers first last regs := by
  have hlast_mem : last ∈ regs := List.mem_of_getLast? hlast
  have hstart : ∀ reg ∈ regs, first.startingAddress.val ≤ reg.startingAddress.val := by
    obtain ⟨tail, rfl⟩ := List.head?_eq_some_iff.mp hfirst
    intro reg hmem
    rcases List.mem_cons.mp hmem with rfl | hmem
    · exact Nat.le_refl _
    · exact (Nat.le_add_right _ _).trans ((List.pairwise_cons.mp hregs).1 reg hmem)
  have hend_last : ∀ reg ∈ regs, reg.startingAddress.val + reg.addressCount ≤
      last.startingAddress.val + last.addressCount := by
    obtain ⟨init, rfl⟩ := List.getLast?_eq_some_iff.mp hlast
    intro reg hmem
    rcases List.mem_append.mp hmem with hmem | hmem
    · have hle := (List.pairwise_append.mp hregs).2.2 reg hmem last (List.mem_singleton_self _)
      exact hle.trans (Nat.le_add_right _ _)
    · rw [List.mem_singleton.mp hmem]
  have hspan := groupSpan_eq (htype last hlast_mem)
  have hstart_last := hstart last hlast_mem
  have hcount := one_le_addressCount last
  refine ⟨hfirst, hlast, htype, hstart, ?_, ?_, ?_, hmax⟩
  · intro reg hmem
    have hreg := hend_last reg hmem
    omega
  · omega
  · omega

theorem consecutive_of_getGroup (hoverlap : config.validateNoRegisterOverlap = .ok ())
    (h : config.getGroup group = .ok regs) {t : RegisterType}
    (htype : ∀ reg ∈ regs, reg.registerType = t) : Consecutive regs := by
  have hregs := (getGroup_eq_ok.mp h).1
  have hsub : (config.registers.filter fun reg => reg.readGroup = some group).Sublist
      (config.registers.filter fun reg => reg.registerType = t) := by
    have hfilter : config.registers.filter (fun reg => reg.readGroup = some group) =
        (config.registers.filter fun reg => reg.registerType = t).filter
          fun reg => reg.readGroup = some group := by
      rw [List.filter_filter]
      apply List.filter_congr
      intro reg hreg
      by_cases hgroup : reg.readGroup = some group
      · simp [hgroup, htype reg ((mem_of_getGroup h).mpr ⟨hreg, hgroup⟩)]
      · simp [hgroup]
    rw [hfilter]
    exact List.filter_sublist
  have hapart : regs.Pairwise Apart := by
    rw [hregs, (sortByAddress_perm _).pairwise_iff Apart.symm]
    exact (apart_of_type hoverlap t).sublist hsub
  exact consecutive_of_sorted (by rw [hregs]; exact sortByAddress_sorted _) hapart

/-- **The registers of a read group are polled, and one read within the limits covers them.** -/
theorem covers_of_validates (hvalid : config.Validates fl) (h : config.getGroup group = .ok regs) :
    (∀ reg ∈ regs, reg.poll = true) ∧ ∃ first last, Covers first last regs := by
  obtain ⟨-, -, hoverlap, htypes, hspan⟩ := modelPostInit_ok hvalid.postInit
  obtain ⟨types, -, htypes⟩ := checkGroupTypes_ok htypes
  have hmem {reg : RegisterDef} :
      reg ∈ regs ↔ reg ∈ config.registers ∧ reg.readGroup = some group := mem_of_getGroup h
  refine ⟨fun reg hreg => (htypes reg (hmem.mp hreg).1 group (hmem.mp hreg).2).1, ?_⟩
  have hcheck : checkGroupSpan group regs = .ok () := by
    refine forM_eq_ok.mp hspan (group, regs) (mem_of_lookup ?_)
    unfold ModbusConfig.getGroup at h
    split at h
    · rename_i hlookup
      rw [hlookup, Except.ok.inj h]
    · cases h
  unfold checkGroupSpan at hcheck
  cases hfirst : regs.head? with
  | none =>
    rw [hfirst] at hcheck
    cases hcheck
  | some first =>
    cases hlast : regs.getLast? with
    | none =>
      rw [hfirst, hlast] at hcheck
      cases hcheck
    | some last =>
      rw [hfirst, hlast] at hcheck
      have hmax : groupSpan first last ≤ first.registerType.maxPerRead := ensure_eq_ok.mp hcheck
      have hfirst_mem : first ∈ regs := List.mem_of_head? hfirst
      have hfirst_type := (htypes first (hmem.mp hfirst_mem).1 group (hmem.mp hfirst_mem).2).2
      have htype : ∀ reg ∈ regs, reg.registerType = first.registerType := by
        intro reg hreg
        have hreg_type := (htypes reg (hmem.mp hreg).1 group (hmem.mp hreg).2).2
        exact Option.some.inj (hreg_type.symm.trans hfirst_type)
      refine ⟨first, last, covers_of_consecutive hfirst hlast htype
        (consecutive_of_getGroup hoverlap h htype) ?_ hmax⟩
      exact end_le_of_accepted
        (hvalid.registers last (hmem.mp (List.mem_of_getLast? hlast)).1)

end Groups

end Instro.Modbus
