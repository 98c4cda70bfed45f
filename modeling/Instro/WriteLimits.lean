import Instro.EthernetIp.Write
import Instro.Modbus.Held

/-!
# Write limits

Both protocols guard a write by the same two negative comparisons of the value that is passed, ahead of the
checks of the data type. What the device is left with is that value only as far as its data type holds it: a
NaN passes both comparisons, a float is rounded to the format after them, and a scale works on the rounded
raw number.
-/

namespace Instro

open Instro.Library

/-- Every request that reaches the client is as it should be; if none does, the call raises. -/
def Guarded {ρ ε α : Type} (call : Exchange ρ ε α) (within : ρ → Prop) : Prop :=
  (∀ request ∈ call.requests, within request) ∧ call.RaisesUnlessSent

/-! ## Modbus -/

namespace Modbus

variable {fl : Rounding} {dev : ModbusDevice} {link : Link} {regAlias : String} {reg : RegisterDef}
  {arg : WriteArgument} {value : PyValue}

/-- The data type of a holding register accepts the value. -/
def TypeAccepts (fl : Rounding) (reg : RegisterDef) (value : PyValue) : Prop :=
  match integerRanges reg.dataType with
  | some (dtMin, dtMax) => value.isBool = false ∧ FitsInteger fl reg dtMin dtMax value.number
  | none =>
    if reg.dataType = .bool then value.isBool = true ∨ value = .num (.int 0) ∨ value = .num (.int 1)
    else value.isBool = false ∧ FitsFloat fl reg value.number

theorem requestFor_iff (hholding : reg.registerType = .holding) :
    (∃ request, requestFor fl reg regAlias value = .ok request) ↔
      reg.limits.Admits value.number ∧ TypeAccepts fl reg value := by
  unfold TypeAccepts
  cases hformat : integerFormat reg.dataType with
  | some format =>
    obtain ⟨k, signed⟩ := format
    obtain ⟨⟨dtMin, dtMax⟩, hrange⟩ := range_of_format hformat
    rw [hrange]
    exact requestFor_integer_iff hholding hformat hrange
  | none =>
    cases hfloat : reg.dataType.isFloat with
    | true =>
      have hnone : integerRanges reg.dataType = none := by
        cases hdt : reg.dataType <;> rw [hdt] at hfloat <;> first | rfl | cases hfloat
      have hbool : reg.dataType ≠ .bool := by
        intro hbool
        rw [hbool] at hfloat
        cases hfloat
      rw [hnone]
      simp only [if_neg hbool]
      exact requestFor_float_iff hholding hfloat
    | false =>
      have hbool := eq_bool_of_format hformat hfloat
      have hnone : integerRanges reg.dataType = none := by rw [hbool]; rfl
      rw [hnone]
      simp only [if_pos hbool]
      exact requestFor_bool_iff hholding hbool

theorem write_raisesUnlessSent : (dev.write fl link regAlias arg).RaisesUnlessSent := by
  rw [write_eq]
  refine .check_bind fun prepared _ => .bind_pure ?_ _
  intro hsent
  rcases modbusOp_cases link _ with ⟨-, he⟩ | ⟨respond, -, hop⟩
  · exact he
  · rw [hop] at hsent
    exact absurd hsent (List.cons_ne_nil _ _)

/-- The physical value that the request writes is within the limits of the register. -/
def WritesWithin (fl : Rounding) (reg : RegisterDef) (request : Request) : Prop :=
  ∃ x, Decodes fl reg request x ∧ reg.limits.Contains x

/-- A register of integers or a bit, without a scale, holds the value itself: no NaN is compared. Any other
register holds a number within the limits for it. -/
def HoldsWithin (fl : Rounding) (reg : RegisterDef) (x : Number) : Prop :=
  if reg.scale = none ∧ reg.dataType.isFloat = false then reg.limits.Comparable x
  else ∃ held, reg.held fl x = .ok held ∧ reg.limits.Contains held

/-- The values that the link, the data type and the two comparisons let through are held within the
limits. -/
def StaysWithin (fl : Rounding) (link : Link) (reg : RegisterDef) (regAlias : String)
    (arg : WriteArgument) : Prop :=
  ∀ value, resolveValue reg regAlias arg = .ok value → (∃ respond, link.IsUp respond) →
    TypeAccepts fl reg value → reg.limits.Admits value.number → HoldsWithin fl reg value.number

/-- An accepted value of an integer register or a bit without a scale is held as it is. -/
theorem held_of_typeAccepts (hscale : reg.scale = none) (hfloat : reg.dataType.isFloat = false)
    (htype : TypeAccepts fl reg value) :
    ∃ held, reg.held fl value.number = .ok held ∧ held.place = value.number.place := by
  unfold TypeAccepts at htype
  cases hrange : integerRanges reg.dataType with
  | some range =>
    rw [hrange] at htype
    obtain ⟨-, hfits⟩ := htype
    unfold FitsInteger at hfits
    rw [hscale] at hfits
    obtain ⟨n, hn, -⟩ := hfits
    refine ⟨.int n, held_integer hscale hrange hn, ?_⟩
    rw [Number.place_of_value hn]
    rfl
  | none =>
    have hbool : reg.dataType = .bool := by
      cases hdt : reg.dataType <;> simp [hdt, integerRanges, DataType.isFloat] at hrange hfloat ⊢
    rw [hrange] at htype
    simp only [if_pos hbool] at htype
    have hbit : ∃ b : Bool, value.number = .int b.toNat := by
      rcases htype with h | rfl | rfl
      · cases value with
        | bool b => exact ⟨b, rfl⟩
        | num x => cases h
      · exact ⟨false, rfl⟩
      · exact ⟨true, rfl⟩
    obtain ⟨b, hb⟩ := hbit
    rw [hb]
    exact ⟨_, held_bool hscale hbool b, rfl⟩

theorem holdsWithin_iff (htype : TypeAccepts fl reg value) (hadmits : reg.limits.Admits value.number) :
    HoldsWithin fl reg value.number ↔
      ∃ held, reg.held fl value.number = .ok held ∧ reg.limits.Contains held := by
  unfold HoldsWithin
  split_ifs with hexact
  · obtain ⟨held, hheld, hplace⟩ := held_of_typeAccepts hexact.1 hexact.2 htype
    constructor
    · intro hcomparable
      exact ⟨held, hheld,
        (Bounds.contains_of_place hplace).mpr (Bounds.contains_iff.mpr ⟨hadmits, hcomparable⟩)⟩
    · rintro ⟨held', hheld', hcontains⟩
      obtain rfl := Except.ok.inj (hheld.symm.trans hheld')
      exact (Bounds.contains_iff.mp ((Bounds.contains_of_place hplace).mp hcontains)).2
  · exact Iff.rfl

theorem guarded_iff (hreg : dev.config.getRegister regAlias = .ok reg)
    (hholding : reg.registerType = .holding) :
    Guarded (dev.write fl link regAlias arg) (WritesWithin fl reg) ↔
      StaysWithin fl link reg regAlias arg := by
  have hprepared : ∀ {value request}, dev.prepare fl regAlias arg = .ok (value, request) ↔
      resolveValue reg regAlias arg = .ok value ∧ requestFor fl reg regAlias value = .ok request := by
    intro value request
    rw [prepare_eq_ok]
    constructor
    · rintro ⟨reg', hreg', hvalue, hrequest⟩
      obtain rfl := Except.ok.inj (hreg.symm.trans (raiseAs_eq_ok.mp hreg'))
      exact ⟨hvalue, hrequest⟩
    · exact fun h => ⟨reg, raiseAs_eq_ok.mpr hreg, h⟩
  unfold Guarded WritesWithin StaysWithin
  rw [and_iff_left write_raisesUnlessSent]
  constructor
  · intro hguard value hvalue hup htype hadmits
    obtain ⟨request, hrequest⟩ := (requestFor_iff hholding).mpr ⟨hadmits, htype⟩
    obtain ⟨x, hdecodes, hcontains⟩ := hguard request
      (mem_requests_iff.mpr ⟨hup, value, hprepared.mpr ⟨hvalue, hrequest⟩⟩)
    exact (holdsWithin_iff htype hadmits).mpr ⟨x, (decodes_iff hholding hrequest).mp hdecodes, hcontains⟩
  · intro hstays request hsent
    obtain ⟨hup, value, hprepare⟩ := mem_requests_iff.mp hsent
    obtain ⟨hvalue, hrequest⟩ := hprepared.mp hprepare
    obtain ⟨hadmits, htype⟩ := (requestFor_iff hholding).mp ⟨request, hrequest⟩
    obtain ⟨x, hheld, hcontains⟩ :=
      (holdsWithin_iff htype hadmits).mp (hstays value hvalue hup htype hadmits)
    exact ⟨x, (decodes_iff hholding hrequest).mpr hheld, hcontains⟩

end Modbus

/-! ## EtherNet/IP -/

namespace EthernetIp

variable {fl : Rounding} {dev : EtherNetIPDevice} {conn : Connection} {tagAlias : String}
  {tag : TagDef} {arg : WriteArgument}

/-- The value that the request writes is a number within the limits of the tag. -/
def WritesWithin (tag : TagDef) (request : Request) : Prop :=
  ∃ x, Decodes tag request x ∧ tag.limits.Contains x

/-- A tag of integers holds the value itself: no NaN is compared. A tag of floats holds the float it is
cast to. -/
def HoldsWithin (fl : Rounding) (tag : TagDef) (x : Number) : Prop :=
  if tag.dataType.isFloat = false then tag.limits.Comparable x
  else ∃ held, tag.held fl x = .ok held ∧ tag.limits.Contains held

/-- The values that the connection, the data type and the two comparisons let through are held within the
limits. -/
def StaysWithin (fl : Rounding) (conn : Connection) (tag : TagDef) (arg : WriteArgument) : Prop :=
  ∀ x, arg = .value (.num x) → (∃ client, conn.IsUp client) → TypeAccepts fl tag x →
    tag.limits.Admits x → HoldsWithin fl tag x

theorem holdsWithin_iff {x : Number} (hadmits : tag.limits.Admits x) :
    HoldsWithin fl tag x ↔ ∃ held, tag.held fl x = .ok held ∧ tag.limits.Contains held := by
  unfold HoldsWithin
  split_ifs with hexact
  · have hheld : tag.held fl x = .ok x := by
      unfold TagDef.held
      cases hdt : tag.dataType <;> rw [hdt] at hexact <;> first | rfl | cases hexact
    rw [hheld]
    constructor
    · exact fun hcomparable => ⟨x, rfl, Bounds.contains_iff.mpr ⟨hadmits, hcomparable⟩⟩
    · rintro ⟨held, hx, hcontains⟩
      obtain rfl := Except.ok.inj hx
      exact (Bounds.contains_iff.mp hcontains).2
  · exact Iff.rfl

theorem guarded_iff (htag : dev.getTag tagAlias = .ok tag) (hbool : tag.dataType ≠ .bool) :
    Guarded (dev.writeTag conn fl tagAlias arg) (WritesWithin tag) ↔
      StaysWithin fl conn tag arg := by
  have hloaded : (∃ client, conn.IsUp client) → conn.nativeLoaded = true := by
    rintro ⟨client, -, hclient⟩
    exact conn.loaded_of_client (by rw [hclient]; rfl)
  unfold Guarded WritesWithin StaysWithin
  rw [and_iff_left writeTag_raisesUnlessSent]
  constructor
  · intro hguard x harg hup htype hadmits
    obtain ⟨⟨tag', value, plcValue⟩, hprepare⟩ :=
      (prepare_iff htag hbool (hloaded hup)).mpr ⟨x, harg, hadmits, htype⟩
    obtain ⟨rfl, x', held, harg', hheld, hpayload⟩ := prepared_held htag hbool hprepare
    obtain rfl : x = x' := by
      rw [harg] at harg'
      injections
    obtain ⟨y, ⟨plcValue', hrequest, hpayload'⟩, hcontains⟩ :=
      hguard _ (mem_requests_iff.mpr ⟨hup, _, _, _, hprepare, rfl⟩)
    obtain ⟨-, rfl⟩ := Request.writeTag.inj hrequest
    obtain rfl : held = y := by
      rw [hpayload] at hpayload'
      injections
    exact (holdsWithin_iff hadmits).mpr ⟨held, hheld, hcontains⟩
  · intro hstays request hsent
    obtain ⟨hup, tag', value, plcValue, hprepare, rfl⟩ := mem_requests_iff.mp hsent
    obtain ⟨rfl, x, held, harg, hheld, hpayload⟩ := prepared_held htag hbool hprepare
    obtain ⟨x', harg', hadmits, htype⟩ := (prepare_iff htag hbool (hloaded hup)).mp ⟨_, hprepare⟩
    obtain rfl : x = x' := by
      rw [harg] at harg'
      injections
    obtain ⟨held', hheld', hcontains⟩ :=
      (holdsWithin_iff hadmits).mp (hstays x harg hup htype hadmits)
    obtain rfl := Except.ok.inj (hheld.symm.trans hheld')
    exact ⟨held, ⟨plcValue, rfl, hpayload⟩, hcontains⟩

end EthernetIp

/-! ## Both protocols -/

/-- **Write limits.** On a holding register and on a numeric tag the limits guard what is written exactly
where the values that they let through are held within them. -/
theorem write_limits_iff (fl : Rounding) :
    (∀ (dev : Modbus.ModbusDevice) (link : Modbus.Link) (regAlias : String)
        (reg : Modbus.RegisterDef) (arg : Modbus.WriteArgument),
      dev.config.getRegister regAlias = .ok reg → reg.registerType = .holding →
        (Guarded (dev.write fl link regAlias arg) (Modbus.WritesWithin fl reg) ↔
          Modbus.StaysWithin fl link reg regAlias arg)) ∧
    ∀ (dev : EthernetIp.EtherNetIPDevice) (conn : EthernetIp.Connection) (tagAlias : String)
        (tag : EthernetIp.TagDef) (arg : EthernetIp.WriteArgument),
      dev.getTag tagAlias = .ok tag → tag.dataType ≠ .bool →
        (Guarded (dev.writeTag conn fl tagAlias arg) (EthernetIp.WritesWithin tag) ↔
          EthernetIp.StaysWithin fl conn tag arg) :=
  ⟨fun _ _ _ _ _ hreg hholding => Modbus.guarded_iff hreg hholding,
    fun _ _ _ _ _ htag hbool => EthernetIp.guarded_iff htag hbool⟩

/-! ## A register and a tag from 0 to 100 -/

def Modbus.limitedRegister : Modbus.RegisterDef :=
  { Modbus.plainRegister .float32 with
    writeMin := some (.int 0)
    writeMax := some (.int 100) }

def EthernetIp.limitedTag : EthernetIp.TagDef where
  tagAlias := "setpoint"
  tagName := "Setpoint"
  dataType := .real
  poll := true
  writeMin := some (.int 0)
  writeMax := some (.int 100)

/-- A device of one tag. -/
def EthernetIp.oneTagDevice (tag : EthernetIp.TagDef) : EthernetIp.EtherNetIPDevice :=
  ⟨"plc", ⟨"ethernetip", [tag]⟩⟩

/-- A connection whose client accepts every write. -/
def EthernetIp.acceptingConnection : EthernetIp.Connection where
  stopping := false
  client := some ⟨fun _ => .error .closed, fun _ => .error .closed, fun _ _ => .ok ()⟩
  nativeLoaded := true
  loaded_of_client := fun _ => rfl

/-- 12.5 is a float of 32 bits, and NaN stays NaN. -/
theorem packed_binary32 :
    FloatFormat.binary32.packed (.finite (25 / 2)) = .finite (25 / 2) ∧
      FloatFormat.binary32.cast (.finite (25 / 2)) = .finite (25 / 2) ∧
      FloatFormat.binary32.packed .nan = .nan ∧ FloatFormat.binary32.cast .nan = .nan := by
  decide +kernel

theorem Modbus.held_limitedRegister (x : PyFloat) : Modbus.limitedRegister.held exact (.float x) =
    .ok (.float (FloatFormat.binary32.packed x)) := rfl

theorem EthernetIp.held_limitedTag (x : PyFloat) : EthernetIp.limitedTag.held exact (.float x) =
    .ok (.float (FloatFormat.binary32.cast x)) := rfl

/-- The limits guard a write of 12.5. -/
theorem write_limits_number :
    Guarded ((Modbus.oneRegisterDevice Modbus.limitedRegister).write exact Modbus.acceptingLink
        "setpoint" (.value (.num (.float (.finite (25 / 2))))))
      (Modbus.WritesWithin exact Modbus.limitedRegister) ∧
    Guarded ((EthernetIp.oneTagDevice EthernetIp.limitedTag).writeTag
        EthernetIp.acceptingConnection exact "setpoint" (.value (.num (.float (.finite (25 / 2))))))
      (EthernetIp.WritesWithin EthernetIp.limitedTag) := by
  obtain ⟨hpacked, hcast, -, -⟩ := packed_binary32
  have hcontains : (Bounds.mk (some (.int 0)) (some (.int 100))).Contains
      (.float (.finite (25 / 2))) := by
    constructor
    · rintro _ ⟨⟩
      decide +kernel
    · rintro _ ⟨⟩
      decide +kernel
  constructor
  · refine ((write_limits_iff exact).1 _ _ _ _ _ rfl rfl).mpr ?_
    intro value hvalue _ _ _
    obtain rfl := Except.ok.inj hvalue
    refine ⟨_, Modbus.held_limitedRegister _, ?_⟩
    rw [hpacked]
    exact hcontains
  · refine ((write_limits_iff exact).2 _ _ _ EthernetIp.limitedTag _ rfl (by decide)).mpr ?_
    rintro _ ⟨⟩ _ _ _
    refine ⟨_, EthernetIp.held_limitedTag _, ?_⟩
    rw [hcast]
    exact hcontains

theorem isZero_two : (PyFloat.finite 2).isZero = false := by
  decide +kernel

/-- A bit from 0 to 1 with gain 2. -/
def Modbus.limitedBit : Modbus.RegisterDef :=
  { Modbus.scaledRegister .bool 2 isZero_two with
    writeMin := some (.int 0)
    writeMax := some (.int 1) }

/-- NaN is written to both, past both limits, and a bit that stands for 2 past its limit of 1. -/
theorem nan_passes_limits :
    Modbus.limitedRegister.Accepted exact ∧ EthernetIp.limitedTag.Accepted ∧
      Modbus.limitedBit.Accepted exact ∧
      ¬ Guarded ((Modbus.oneRegisterDevice Modbus.limitedRegister).write exact
          Modbus.acceptingLink "setpoint" (.value (.num (.float .nan))))
        (Modbus.WritesWithin exact Modbus.limitedRegister) ∧
      ¬ Guarded ((EthernetIp.oneTagDevice EthernetIp.limitedTag).writeTag
          EthernetIp.acceptingConnection exact "setpoint" (.value (.num (.float .nan))))
        (EthernetIp.WritesWithin EthernetIp.limitedTag) ∧
      ¬ Guarded ((Modbus.oneRegisterDevice Modbus.limitedBit).write exact
          Modbus.acceptingLink "setpoint" (.value (.bool true)))
        (Modbus.WritesWithin exact Modbus.limitedBit) := by
  obtain ⟨-, -, hpacked, hcast⟩ := packed_binary32
  have hadmits : (Bounds.mk (some (.int 0)) (some (.int 100))).Admits (.float .nan) := by
    constructor
    · rintro _ ⟨⟩
      rfl
    · rintro _ ⟨⟩
      rfl
  refine ⟨rfl, rfl, rfl, ?_, ?_, ?_⟩
  · rw [Modbus.guarded_iff rfl rfl]
    intro hstays
    obtain ⟨held, hheld, hlower, -⟩ := hstays (.num (.float .nan)) rfl ⟨_, rfl, rfl⟩
      ⟨rfl, .nan, rfl, fun _ _ h => nomatch h⟩ hadmits
    obtain rfl := Except.ok.inj ((Modbus.held_limitedRegister _).symm.trans hheld)
    rw [hpacked] at hlower
    exact Bool.false_ne_true (hlower _ rfl)
  · rw [EthernetIp.guarded_iff (show _ = Except.ok EthernetIp.limitedTag from rfl) (by decide)]
    intro hstays
    obtain ⟨held, hheld, hlower, -⟩ := hstays (.float .nan) rfl ⟨_, rfl, rfl⟩ ⟨_, rfl⟩ hadmits
    obtain rfl := Except.ok.inj ((EthernetIp.held_limitedTag _).symm.trans hheld)
    rw [hcast] at hlower
    exact Bool.false_ne_true (hlower _ rfl)
  · rw [Modbus.guarded_iff rfl rfl]
    intro hstays
    have htwo : (Modbus.limitedBit.held exact (.int 1)).toOption = some (.float (.finite 2)) := by
      decide +kernel
    have hbit : Modbus.limitedBit.limits.Admits (.int 1) := by
      constructor
      · rintro _ ⟨⟩
        rfl
      · rintro _ ⟨⟩
        rfl
    obtain ⟨held, hheld, -, hupper⟩ := hstays (.bool true) rfl ⟨_, rfl, rfl⟩ (.inl rfl) hbit
    obtain rfl := Except.ok.inj ((toOption_eq_some.mp htwo).symm.trans hheld)
    have hpast : (Number.float (.finite 2)).le (.int 1) = false := by decide +kernel
    exact Bool.false_ne_true (hpast.symm.trans (hupper _ rfl))

end Instro
