import Instro.Modbus.Validation

/-!
# Value maps and writes

The checks of a value map mirror those of `write`, so that a label that validates can be written and
a value that can be written validates as a label. The mirror has one gap: it does not ask whether
the raw value of a float register can be packed.
-/

namespace Instro.Modbus

open Instro.Library

section Mirror

variable {fl : Rounding} {reg : RegisterDef} {label : String} {x : Number}

/-! ## What the map checks accept -/

/-- Configuration: the value of a label passes its checks. -/
def EntryAccepted (fl : Rounding) (reg : RegisterDef) (label : String) (x : Number) : Prop :=
  reg.checkEntryType fl label x = .ok () ∧ reg.checkEntryLimits label x = .ok ()

theorem entryAccepted_bool (hbool : reg.dataType = .bool) :
    EntryAccepted fl reg label x ↔ reg.limits.Admits x ∧ (x = .int 0 ∨ x = .int 1) := by
  unfold EntryAccepted RegisterDef.checkEntryType
  rw [if_pos (by simp [RegisterDef.isBoolRegister, hbool]), ensure_eq_ok, checkEntryLimits_eq_ok,
    and_comm]

theorem entryAccepted_integer (hholding : reg.registerType = .holding) {dtMin dtMax : ℤ}
    (hrange : integerRanges reg.dataType = some (dtMin, dtMax)) :
    EntryAccepted fl reg label x ↔ reg.limits.Admits x ∧ FitsInteger fl reg dtMin dtMax x := by
  have hbool := isBoolRegister_of_holding hholding fun hdt => by
    rw [hdt] at hrange
    cases hrange
  unfold EntryAccepted RegisterDef.checkEntryType
  rw [if_neg (by simp [hbool]), hrange, checkEntryLimits_eq_ok, and_comm]
  exact and_congr_right fun _ => checkIntegerEntry_eq_ok

theorem entryAccepted_float (hholding : reg.registerType = .holding)
    (hfloat : reg.dataType.isFloat = true) :
    EntryAccepted fl reg label x ↔ reg.limits.Admits x := by
  have hok : reg.checkEntryType fl label x = .ok () := by
    unfold RegisterDef.checkEntryType
    cases hdt : reg.dataType <;> rw [hdt] at hfloat <;>
      simp [RegisterDef.isBoolRegister, hdt, hholding, integerRanges, DataType.isFloat] at hfloat ⊢
  unfold EntryAccepted
  rw [checkEntryLimits_eq_ok]
  exact and_iff_right hok

/-- A map validates when each of its values does and no value is given twice. -/
theorem accepted_of_checkEntries {seen entries : List (String × Number)}
    (h : reg.checkEntries fl seen entries = .ok ()) :
    ∀ entry ∈ entries, EntryAccepted fl reg entry.1 entry.2 := by
  induction entries generalizing seen with
  | nil => exact fun _ h => absurd h List.not_mem_nil
  | cons entry entries ih =>
    obtain ⟨label, raw⟩ := entry
    unfold RegisterDef.checkEntries at h
    have hrest : (do
        reg.checkEntryType fl label raw
        reg.checkEntryLimits label raw
        reg.checkEntries fl ((label, raw) :: seen) entries) = .ok () := by
      split at h
      · cases h
      · exact h
    obtain ⟨⟨⟩, htype, hrest⟩ := bind_eq_ok.mp hrest
    obtain ⟨⟨⟩, hlimits, hrest⟩ := bind_eq_ok.mp hrest
    intro entry hentry
    rcases List.mem_cons.mp hentry with rfl | hentry
    · exact ⟨htype, hlimits⟩
    · exact ih hrest entry hentry

theorem checkEntries_singleton (h : EntryAccepted fl reg label x) :
    reg.checkEntries fl [] [(label, x)] = .ok () :=
  bind_eq_ok.mpr ⟨(), h.1, bind_eq_ok.mpr ⟨(), h.2, rfl⟩⟩

theorem Accepted.entry (hacc : reg.Accepted fl) {m : ValueMap}
    (hmap : reg.writeValueMap = some m) (hget : m.get label = some x) :
    EntryAccepted fl reg label x := by
  have hvalues := (accepted_iff.mp hacc).valueMap
  unfold RegisterDef.checkValueMap at hvalues
  rw [hmap] at hvalues
  obtain ⟨before, after, hentries, -⟩ := List.lookup_eq_some_iff.mp hget
  have hmem : (label, x) ∈ m.entries := by
    rw [hentries]
    simp
  exact accepted_of_checkEntries hvalues (label, x) hmem

/-- The register with the map of one entry. -/
def withEntry (reg : RegisterDef) (label : String) (x : Number) : RegisterDef :=
  { reg with writeValueMap := some ⟨[(label, x)], List.nodup_singleton label⟩ }

/-- In place of its map, an accepted register takes any map of one accepted value. -/
theorem accepted_withEntry (hacc : reg.Accepted fl) {m : ValueMap}
    (hmap : reg.writeValueMap = some m) (hentry : EntryAccepted fl reg label x) :
    (withEntry reg label x).Accepted fl := by
  have h := accepted_iff.mp hacc
  have hholding := Accepted.holding_of_map hacc hmap
  have hfields : (withEntry reg label x).checkWriteFields = .ok () :=
    ensure_eq_ok.mpr (.inr hholding)
  have hentries : (withEntry reg label x).checkEntries fl [] [(label, x)] = .ok () :=
    checkEntries_singleton hentry
  exact accepted_iff.mpr ⟨h.scale, h.wordSwap, h.longSwap, h.addressSpan, hfields, h.limitOrder,
    h.minRange, h.maxRange, hentries, h.bitmap⟩

end Mirror

/-! ## Agreement -/

section Agreement

variable {fl : Rounding} {dev : ModbusDevice} {regAlias : String} {reg : RegisterDef}

/-- `write` passes all its checks and encodes. -/
def Writes (fl : Rounding) (dev : ModbusDevice) (regAlias : String) (arg : WriteArgument) : Prop :=
  ∃ cmd, (dev.write fl acceptingLink regAlias arg).result = .ok cmd

/-- Every label can be written, and every finite number that can be written validates as a
label. -/
def MapAgrees (fl : Rounding) (dev : ModbusDevice) (regAlias : String) (reg : RegisterDef)
    (m : ValueMap) : Prop :=
  (∀ label x, m.get label = some x → Writes fl dev regAlias (.label label)) ∧
    ∀ value : PyValue, value.number.isFinite = true → Writes fl dev regAlias (.value value) →
      ∀ label, ∃ reg', reg.withValueMap fl [(label, value)] (List.nodup_singleton label) = .ok reg'

/-- The raw value of every label of a float register can be packed. -/
def LabelsPack (fl : Rounding) (reg : RegisterDef) (m : ValueMap) : Prop :=
  reg.dataType.isFloat = true → ∀ label x, m.get label = some x → FitsFloat fl reg x

theorem writes_iff (hreg : dev.config.getRegister regAlias = .ok reg) {arg : WriteArgument}
    {value : PyValue} (hvalue : resolveValue reg regAlias arg = .ok value) :
    Writes fl dev regAlias arg ↔ ∃ request, requestFor fl reg regAlias value = .ok request := by
  have hdev : dev.getRegister regAlias = .ok reg := raiseAs_eq_ok.mpr hreg
  unfold Writes
  constructor
  · rintro ⟨cmd, hcmd⟩
    obtain ⟨-, request, hprepare⟩ := write_accepting_iff.mp hcmd
    obtain ⟨reg', hreg', hvalue', hrequest⟩ := prepare_eq_ok.mp hprepare
    obtain rfl := Except.ok.inj (hdev.symm.trans hreg')
    obtain rfl := Except.ok.inj (hvalue.symm.trans hvalue')
    exact ⟨request, hrequest⟩
  · rintro ⟨request, hrequest⟩
    exact ⟨⟨_, value⟩, write_accepting_iff.mpr ⟨rfl, request,
      prepare_eq_ok.mpr ⟨reg, hdev, hvalue, hrequest⟩⟩⟩

theorem resolveValue_label {m : ValueMap} (hmap : reg.writeValueMap = some m) {label : String}
    {x : Number} (hget : m.get label = some x) :
    resolveValue reg regAlias (.label label) = .ok (.num x) := by
  unfold resolveValue
  simp only [hmap, hget]

/-- **Writing mirrors validating.** On a holding register a number passes `write` exactly when it
passes the checks of a map entry and, on a float register, can be packed. -/
theorem requestFor_iff_entryAccepted (label : String)
    (hholding : reg.registerType = .holding) {value : PyValue} :
    (∃ request, requestFor fl reg regAlias value = .ok request) ↔
      EntryAccepted fl reg label value.number ∧
        (value.isBool = true → reg.dataType = .bool) ∧
        (reg.dataType.isFloat = true → FitsFloat fl reg value.number) := by
  cases hformat : integerFormat reg.dataType with
  | some format =>
    obtain ⟨k, signed⟩ := format
    obtain ⟨⟨dtMin, dtMax⟩, hrange⟩ := range_of_format hformat
    have hnot : reg.dataType ≠ .bool ∧ reg.dataType.isFloat = false := by
      cases hdt : reg.dataType <;> rw [hdt] at hformat <;>
        simp [integerFormat, DataType.isFloat] at hformat ⊢
    rw [requestFor_integer_iff hholding hformat hrange, entryAccepted_integer hholding hrange]
    simp only [hnot.1, hnot.2, imp_false, Bool.not_eq_true]
    tauto
  | none =>
    cases hfloat : reg.dataType.isFloat with
    | true =>
      have hnot : reg.dataType ≠ .bool := by
        intro hbool
        rw [hbool] at hfloat
        cases hfloat
      rw [requestFor_float_iff hholding hfloat, entryAccepted_float hholding hfloat]
      simp only [hnot, imp_false, Bool.not_eq_true]
      tauto
    | false =>
      have hbool := eq_bool_of_format hformat hfloat
      rw [requestFor_bool_iff hholding hbool, entryAccepted_bool hbool]
      have hvalue : (value.isBool = true ∨ value = .num (.int 0) ∨ value = .num (.int 1)) ↔
          (value.number = .int 0 ∨ value.number = .int 1) := by
        cases value with
        | bool b => cases b <;> simp [PyValue.isBool, PyValue.number]
        | num x => simp [PyValue.isBool, PyValue.number]
      rw [hvalue]
      simp [hbool]

/-- **Map agreement.** The map of an accepted register agrees with `write` exactly when the raw
values of its labels can be packed. -/
theorem mapAgrees_iff (fl : Rounding) (dev : ModbusDevice) (regAlias : String) (reg : RegisterDef)
    (m : ValueMap) (hreg : dev.config.getRegister regAlias = .ok reg) (hacc : reg.Accepted fl)
    (hmap : reg.writeValueMap = some m) :
    MapAgrees fl dev regAlias reg m ↔ LabelsPack fl reg m := by
  have hholding := Accepted.holding_of_map hacc hmap
  constructor
  · rintro ⟨hlabels, -⟩ hfloat label x hget
    have hwrites := (writes_iff hreg (resolveValue_label hmap hget)).mp (hlabels label x hget)
    exact ((requestFor_iff_entryAccepted label hholding).mp hwrites).2.2 hfloat
  · intro hpack
    constructor
    · intro label x hget
      rw [writes_iff hreg (resolveValue_label hmap hget)]
      exact (requestFor_iff_entryAccepted label hholding).mpr
        ⟨Accepted.entry hacc hmap hget, nofun, fun hfloat => hpack hfloat label x hget⟩
    · intro value _ hwrites label
      have hvalue : resolveValue reg regAlias (.value value) = .ok value := rfl
      rw [writes_iff hreg hvalue] at hwrites
      obtain ⟨hentry, hbool, -⟩ := (requestFor_iff_entryAccepted label hholding).mp hwrites
      have hreject : rejectBoolInValueMap reg [(label, value)] = .ok () := by
        unfold rejectBoolInValueMap
        cases value with
        | bool b => rw [if_pos (.inl (hbool rfl))]
        | num x =>
          split_ifs
          · rfl
          · rfl
      refine ⟨withEntry reg label value.number, ?_⟩
      have haccepted := accepted_withEntry hacc hmap hentry
      exact bind_eq_ok.mpr ⟨(), hreject, bind_eq_ok.mpr ⟨(), haccepted, rfl⟩⟩

end Agreement

/-! ## Two registers -/

/-- A register of one label. -/
def labelledRegister (dataType : DataType) (x : Number) : RegisterDef :=
  withEntry (plainRegister dataType) "max" x

/-- The label of an `int16` register agrees with `write`. -/
theorem mapAgrees_int16 :
    MapAgrees exact (oneRegisterDevice (labelledRegister .int16 (.int 7))) "setpoint"
      (labelledRegister .int16 (.int 7)) ⟨[("max", .int 7)], List.nodup_singleton _⟩ := by
  refine (mapAgrees_iff exact _ "setpoint" (labelledRegister .int16 (.int 7)) _ rfl rfl rfl).mpr ?_
  intro hfloat
  cases hfloat

/-- A `float32` register takes the label `2.0 ** 129`, which no write can pack. -/
theorem float32_label_overflows :
    let reg := labelledRegister .float32 (.float (.finite (2 ^ 129)))
    reg.Accepted exact ∧
      ¬ MapAgrees exact (oneRegisterDevice reg) "setpoint" reg
        ⟨[("max", .float (.finite (2 ^ 129)))], List.nodup_singleton _⟩ := by
  refine ⟨rfl, ?_⟩
  rintro ⟨hlabels, -⟩
  have hreg : ∀ reg : RegisterDef, reg.name = "setpoint" →
      (oneRegisterDevice reg).config.getRegister "setpoint" = .ok reg := by
    intro reg hname
    simp [oneRegisterDevice, ModbusConfig.getRegister, hname]
  have hwrites := (writes_iff (hreg _ rfl) rfl).mp (hlabels "max" _ rfl)
  obtain ⟨-, -, raw, hraw, hfits⟩ := (requestFor_float_iff rfl rfl).mp hwrites
  obtain rfl := Except.ok.inj hraw
  have hlimit := hfits rfl (2 ^ 129) rfl
  norm_num at hlimit

end Instro.Modbus
