import Instro.EthernetIp.Device
import Instro.Library.Bounds
import Instro.Library.FloatCodec

/-!
# What a tag write sends

`write_tag` decides everything before it sends: up to the request it is the pure `prepare`. A
numeric tag prepares the values that neither limit refuses and that its type accepts.
-/

namespace Instro.EthernetIp

open Instro.Library

/-- The value that is written, its tag and its PLC value, or what is raised instead. -/
def EtherNetIPDevice.prepare (fl : Rounding) (dev : EtherNetIPDevice) (conn : Connection)
    (tagAlias : String) (arg : WriteArgument) :
    Except DeviceError (TagDef × PyValue × PlcValue) := do
  let tag ← dev.getTag tagAlias
  let value ← raiseAs .tag (tag.validateWriteValue arg)
  let plcValue ← buildPlcValue fl conn value tag
  return (tag, value, plcValue)

/-- The connection lets a request through to the client. -/
def Connection.IsUp (conn : Connection) (client : Client) : Prop :=
  conn.stopping = false ∧ conn.client = some client

/-- The write limits of a tag. -/
def TagDef.limits (tag : TagDef) : Bounds := ⟨tag.writeMin, tag.writeMax⟩

section Write

variable {fl : Rounding} {dev : EtherNetIPDevice} {conn : Connection} {tagAlias : String}
  {tag : TagDef} {arg : WriteArgument} {value : PyValue}

theorem writeTag_eq : dev.writeTag conn fl tagAlias arg = (do
    let (tag, value, plcValue) ← Exchange.check (dev.prepare fl conn tagAlias arg)
    writeTagRaw conn tag.tagName plcValue
    return ⟨dev.channel tag ++ ".cmd", value⟩) := by
  unfold EtherNetIPDevice.writeTag EtherNetIPDevice.prepare
  simp only [Exchange.check_bind, Exchange.check_pure, bind_assoc, pure_bind]

/-- An operation is refused, or it is sent to the client of the connection. -/
theorem eipOp_cases {α : Type} (conn : Connection) (request : Request)
    (answer : Client → Except NativeError α) :
    ((eipOp conn request answer).requests = [] ∧
        ∃ e, (eipOp conn request answer).result = .error e) ∨
      ∃ client, conn.IsUp client ∧
        eipOp conn request answer = ⟨[request], raiseAs .client (answer client)⟩ := by
  unfold eipOp Connection.IsUp
  cases hstop : conn.stopping with
  | true => exact .inl ⟨rfl, _, rfl⟩
  | false =>
    cases hclient : conn.client with
    | none => exact .inl ⟨rfl, _, rfl⟩
    | some client => exact .inr ⟨client, ⟨rfl, rfl⟩, rfl⟩

/-- On a connection that is up the operation is the client's answer. -/
theorem eipOp_of_up {α : Type} {client : Client} (hup : conn.IsUp client) (request : Request)
    (answer : Client → Except NativeError α) :
    eipOp conn request answer = ⟨[request], raiseAs .client (answer client)⟩ := by
  unfold eipOp
  rw [hup.1, hup.2]
  rfl

/-- A write that does not reach the client raises. -/
theorem writeTag_raisesUnlessSent : (dev.writeTag conn fl tagAlias arg).RaisesUnlessSent := by
  rw [writeTag_eq]
  refine .check_bind fun prepared _ => .bind_pure ?_ _
  intro hsent
  rcases eipOp_cases conn _ _ with ⟨-, he⟩ | ⟨client, -, hop⟩
  · exact he
  · unfold writeTagRaw at hsent
    rw [hop] at hsent
    exact absurd hsent (List.cons_ne_nil _ _)

theorem mem_eipOp_iff {α : Type} {sent request : Request} {answer : Client → Except NativeError α} :
    sent ∈ (eipOp conn request answer).requests ↔ (∃ client, conn.IsUp client) ∧ sent = request := by
  constructor
  · intro hsent
    rcases eipOp_cases conn request answer with ⟨hnone, -⟩ | ⟨client, hup, hop⟩
    · rw [hnone] at hsent
      exact absurd hsent List.not_mem_nil
    · rw [hop] at hsent
      exact ⟨⟨client, hup⟩, List.mem_singleton.mp hsent⟩
  · rintro ⟨⟨client, hup⟩, rfl⟩
    rw [eipOp_of_up hup]
    exact List.mem_singleton_self _

/-- **What is sent** is what was prepared, over a connection that is up. -/
theorem mem_requests_iff {request : Request} :
    request ∈ (dev.writeTag conn fl tagAlias arg).requests ↔ (∃ client, conn.IsUp client) ∧
      ∃ tag value plcValue, dev.prepare fl conn tagAlias arg = .ok (tag, value, plcValue) ∧
        request = .writeTag tag.tagName plcValue := by
  rw [writeTag_eq, Exchange.mem_requests_bind]
  constructor
  · rintro (h | ⟨⟨tag, value, plcValue⟩, hprepare, h⟩)
    · exact absurd h List.not_mem_nil
    · rw [Exchange.requests_bind_pure] at h
      obtain ⟨hup, rfl⟩ := mem_eipOp_iff.mp h
      exact ⟨hup, tag, value, plcValue, hprepare, rfl⟩
  · rintro ⟨hup, tag, value, plcValue, hprepare, rfl⟩
    refine .inr ⟨(tag, value, plcValue), hprepare, ?_⟩
    rw [Exchange.requests_bind_pure]
    exact mem_eipOp_iff.mpr ⟨hup, rfl⟩

/-! ## Numeric tags -/

/-- The type of a numeric tag accepts the argument: an integer of its range, or a number that
converts to a float. -/
def TypeAccepts (fl : Rounding) (tag : TagDef) (x : Number) : Prop :=
  match integerRanges tag.dataType with
  | some (minVal, maxVal) => ∃ n, x = .int n ∧ minVal ≤ n ∧ n ≤ maxVal
  | none => ∃ f, x.toFloat fl = .ok f

theorem validateNumericWriteLimits_eq_ok {x : Number} :
    tag.validateNumericWriteLimits x = .ok () ↔ tag.limits.Admits x := by
  unfold TagDef.validateNumericWriteLimits Bounds.Admits TagDef.limits
  cases tag.writeMin <;> cases tag.writeMax <;> simp

theorem validateIntegerRawValue_eq_ok {minVal maxVal n : ℤ} :
    tag.validateIntegerRawValue minVal maxVal arg = .ok n ↔
      arg = .value (.num (.int n)) ∧ minVal ≤ n ∧ n ≤ maxVal := by
  unfold TagDef.validateIntegerRawValue
  split
  · simp
  · simp
  · simp
  · rw [ensure_bind_eq_ok, pure_eq_ok]
    constructor
    · rintro ⟨hrange, rfl⟩
      exact ⟨rfl, hrange⟩
    · rintro ⟨harg, hrange⟩
      obtain rfl : _ = n := by injections
      exact ⟨hrange, rfl⟩

theorem validateWriteValue_integer {minVal maxVal : ℤ}
    (hrange : integerRanges tag.dataType = some (minVal, maxVal)) :
    tag.validateWriteValue arg = .ok value ↔
      ∃ n, arg = .value (.num (.int n)) ∧ value = .num (.int n) ∧ minVal ≤ n ∧ n ≤ maxVal ∧
        tag.limits.Admits (.int n) := by
  unfold TagDef.validateWriteValue
  simp only [hrange, bind_eq_ok, validateIntegerRawValue_eq_ok, pure_eq_ok]
  constructor
  · rintro ⟨n, ⟨harg, hn⟩, ⟨⟩, hlimits, rfl⟩
    exact ⟨n, harg, rfl, hn.1, hn.2, validateNumericWriteLimits_eq_ok.mp hlimits⟩
  · rintro ⟨n, harg, rfl, hmin, hmax, hadmits⟩
    exact ⟨n, ⟨harg, hmin, hmax⟩, (), validateNumericWriteLimits_eq_ok.mpr hadmits, rfl⟩

theorem validateWriteValue_float (hrange : integerRanges tag.dataType = none)
    (hbool : tag.dataType ≠ .bool) :
    tag.validateWriteValue arg = .ok value ↔
      ∃ x, arg = .value (.num x) ∧ value = .num x ∧ tag.limits.Admits x := by
  unfold TagDef.validateWriteValue
  rw [hrange]
  simp only [if_neg hbool]
  match arg with
  | .value (.bool b) => simp
  | .text s => simp
  | .value (.num x) =>
    simp only [bind_eq_ok, pure_eq_ok]
    constructor
    · rintro ⟨⟨⟩, hlimits, rfl⟩
      exact ⟨x, rfl, rfl, validateNumericWriteLimits_eq_ok.mp hlimits⟩
    · rintro ⟨y, hy, rfl, hadmits⟩
      obtain rfl : x = y := by injections
      exact ⟨(), validateNumericWriteLimits_eq_ok.mpr hadmits, rfl⟩

theorem buildPlcValue_integer (hloaded : conn.nativeLoaded = true) {minVal maxVal n : ℤ}
    (hrange : integerRanges tag.dataType = some (minVal, maxVal)) (hmin : minVal ≤ n)
    (hmax : n ≤ maxVal) : ∃ plcValue, buildPlcValue fl conn (.num (.int n)) tag = .ok plcValue := by
  unfold buildPlcValue requireNative
  rw [ensure_pos hloaded]
  cases hdt : tag.dataType <;> rw [hdt] at hrange <;> cases hrange
  all_goals exact ⟨_, raiseAs_eq_ok.mpr (ensure_bind_eq_ok.mpr ⟨⟨hmin, hmax⟩, rfl⟩)⟩

theorem buildPlcValue_float (hloaded : conn.nativeLoaded = true)
    (hrange : integerRanges tag.dataType = none) (hbool : tag.dataType ≠ .bool) {x : Number} :
    (∃ plcValue, buildPlcValue fl conn (.num x) tag = .ok plcValue) ↔
      ∃ f, x.toFloat fl = .ok f := by
  unfold buildPlcValue requireNative
  rw [ensure_pos hloaded]
  have hfloat : tag.dataType = .real ∨ tag.dataType = .lreal := by
    cases hdt : tag.dataType <;> rw [hdt] at hrange hbool <;> simp [integerRanges] at hrange hbool ⊢
  rcases hfloat with hdt | hdt <;> rw [hdt]
  all_goals
    constructor
    · rintro ⟨plcValue, h⟩
      obtain ⟨⟨⟩, -, h⟩ := bind_eq_ok.mp h
      obtain ⟨f, hf, -⟩ := bind_eq_ok.mp h
      exact ⟨f, raiseAs_eq_ok.mp hf⟩
    · rintro ⟨f, hf⟩
      exact ⟨_, bind_eq_ok.mpr ⟨(), rfl, bind_eq_ok.mpr ⟨f, raiseAs_eq_ok.mpr hf, rfl⟩⟩⟩

/-! ### What a tag holds -/

/-- The number that a numeric tag holds for a number: its float is cast to the format of the tag. -/
def TagDef.held (fl : Rounding) (tag : TagDef) (x : Number) : Except PyException Number :=
  match tag.dataType with
  | .real => do
    let f ← x.toFloat fl
    return .float (FloatFormat.binary32.cast f)
  | .lreal => do
    let f ← x.toFloat fl
    return .float (FloatFormat.binary64.cast f)
  | _ => .ok x

/-- The request writes the number, as Python reads the value of the PLC. -/
def Decodes (tag : TagDef) (request : Request) (x : Number) : Prop :=
  ∃ plcValue, request = .writeTag tag.tagName plcValue ∧ plcValue.payload = .value (.num x)

/-- An integer that is built is the one that Python reads. -/
theorem payload_ofInteger {dataType : DataType} {n : ℤ} {plcValue : PlcValue}
    (h : PlcValue.ofInteger dataType n = .ok plcValue) : plcValue.payload = .value (.num (.int n)) := by
  have hpayload : ∀ {m : ℤ}, m = n → Payload.value (.num (.int m)) = .value (.num (.int n)) :=
    fun h => congrArg (fun m => Payload.value (.num (.int m))) h
  unfold PlcValue.ofInteger at h
  cases dataType with
  | bool | real | lreal => cases h
  | sint | int | dint | lint =>
    obtain ⟨⟨hmin, hmax⟩, h⟩ := ensure_bind_eq_ok.mp h
    obtain rfl := Except.ok.inj h
    refine hpayload ?_
    first
      | exact Int8.toInt_ofInt_of_le hmin (by omega)
      | exact Int16.toInt_ofInt_of_le hmin (by omega)
      | exact Int32.toInt_ofInt_of_le hmin (by omega)
      | exact Int64.toInt_ofInt_of_le hmin (by omega)
  | usint | uint | udint | ulint =>
    obtain ⟨⟨hmin, hmax⟩, h⟩ := ensure_bind_eq_ok.mp h
    obtain rfl := Except.ok.inj h
    refine hpayload ?_
    have hnat : ((n.toNat : ℕ) : ℤ) = n := Int.toNat_of_nonneg hmin
    refine Eq.trans (congrArg Nat.cast ?_) hnat
    first
      | exact UInt8.toNat_ofNat_of_lt' (by simp only [UInt8.size]; omega)
      | exact UInt16.toNat_ofNat_of_lt' (by simp only [UInt16.size]; omega)
      | exact UInt32.toNat_ofNat_of_lt' (by simp only [UInt32.size]; omega)
      | exact UInt64.toNat_ofNat_of_lt' (by simp only [UInt64.size]; omega)

/-- The bits of a cast float give the float of the format. -/
theorem payload_real (f : PyFloat) :
    (PlcValue.real f).payload = .value (.num (.float (FloatFormat.binary32.cast f))) := by
  have hword : (UInt32.ofNat (FloatFormat.binary32.castBits f)).toNat =
      ofBytes (toBytes 4 (FloatFormat.binary32.castBits f)) := by
    rw [ofBytes_toBytes]
    exact UInt32.toNat_ofNat'
  exact congrArg (fun w => Payload.value (.num (.float (FloatFormat.binary32.ofBits w)))) hword

theorem payload_lreal (f : PyFloat) :
    (PlcValue.lreal f).payload = .value (.num (.float (FloatFormat.binary64.cast f))) := by
  have hword : (UInt64.ofNat (FloatFormat.binary64.castBits f)).toNat =
      ofBytes (toBytes 8 (FloatFormat.binary64.castBits f)) := by
    rw [ofBytes_toBytes]
    exact UInt64.toNat_ofNat'
  exact congrArg (fun w => Payload.value (.num (.float (FloatFormat.binary64.ofBits w)))) hword

/-- The value that is built for a tag is the number that the tag holds. -/
theorem payload_buildPlcValue (hbool : tag.dataType ≠ .bool) {x : Number} {plcValue : PlcValue}
    (h : buildPlcValue fl conn (.num x) tag = .ok plcValue) :
    ∃ held, tag.held fl x = .ok held ∧ plcValue.payload = .value (.num held) := by
  obtain ⟨⟨⟩, -, h⟩ := bind_eq_ok.mp h
  unfold TagDef.held
  cases hdt : tag.dataType with
  | bool => exact absurd hdt hbool
  | real =>
    rw [hdt] at h
    obtain ⟨f, hf, h⟩ := bind_eq_ok.mp h
    obtain rfl := Except.ok.inj h
    exact ⟨_, bind_eq_ok.mpr ⟨f, raiseAs_eq_ok.mp hf, rfl⟩, payload_real f⟩
  | lreal =>
    rw [hdt] at h
    obtain ⟨f, hf, h⟩ := bind_eq_ok.mp h
    obtain rfl := Except.ok.inj h
    exact ⟨_, bind_eq_ok.mpr ⟨f, raiseAs_eq_ok.mp hf, rfl⟩, payload_lreal f⟩
  | _ =>
    rw [hdt] at h
    cases x with
    | float f => cases h
    | int n => exact ⟨.int n, rfl, payload_ofInteger (raiseAs_eq_ok.mp h)⟩

/-- **What a numeric tag writes.** -/
theorem prepare_iff (htag : dev.getTag tagAlias = .ok tag) (hbool : tag.dataType ≠ .bool)
    (hloaded : conn.nativeLoaded = true) :
    (∃ prepared, dev.prepare fl conn tagAlias arg = .ok prepared) ↔
      ∃ x, arg = .value (.num x) ∧ tag.limits.Admits x ∧ TypeAccepts fl tag x := by
  have hprepare : (∃ prepared, dev.prepare fl conn tagAlias arg = .ok prepared) ↔
      ∃ value, tag.validateWriteValue arg = .ok value ∧
        ∃ plcValue, buildPlcValue fl conn value tag = .ok plcValue := by
    unfold EtherNetIPDevice.prepare
    constructor
    · rintro ⟨prepared, h⟩
      obtain ⟨tag', htag', h⟩ := bind_eq_ok.mp h
      obtain rfl := Except.ok.inj (htag.symm.trans htag')
      obtain ⟨value, hvalue, h⟩ := bind_eq_ok.mp h
      obtain ⟨plcValue, hplc, -⟩ := bind_eq_ok.mp h
      exact ⟨value, raiseAs_eq_ok.mp hvalue, plcValue, hplc⟩
    · rintro ⟨value, hvalue, plcValue, hplc⟩
      exact ⟨_, bind_eq_ok.mpr ⟨tag, htag, bind_eq_ok.mpr ⟨value, raiseAs_eq_ok.mpr hvalue,
        bind_eq_ok.mpr ⟨plcValue, hplc, rfl⟩⟩⟩⟩
  rw [hprepare]
  unfold TypeAccepts
  cases hrange : integerRanges tag.dataType with
  | some range =>
    obtain ⟨minVal, maxVal⟩ := range
    constructor
    · rintro ⟨value, hvalue, -⟩
      obtain ⟨n, harg, -, hmin, hmax, hadmits⟩ := (validateWriteValue_integer hrange).mp hvalue
      exact ⟨.int n, harg, hadmits, n, rfl, hmin, hmax⟩
    · rintro ⟨x, harg, hadmits, n, rfl, hmin, hmax⟩
      exact ⟨_, (validateWriteValue_integer hrange).mpr ⟨n, harg, rfl, hmin, hmax, hadmits⟩,
        buildPlcValue_integer hloaded hrange hmin hmax⟩
  | none =>
    constructor
    · rintro ⟨value, hvalue, hplc⟩
      obtain ⟨x, harg, rfl, hadmits⟩ := (validateWriteValue_float hrange hbool).mp hvalue
      exact ⟨x, harg, hadmits, (buildPlcValue_float hloaded hrange hbool).mp hplc⟩
    · rintro ⟨x, harg, hadmits, hfloat⟩
      exact ⟨.num x, (validateWriteValue_float hrange hbool).mpr ⟨x, harg, rfl, hadmits⟩,
        (buildPlcValue_float hloaded hrange hbool).mpr hfloat⟩

/-- A prepared value is the number that the tag holds. -/
theorem prepared_held (htag : dev.getTag tagAlias = .ok tag) (hbool : tag.dataType ≠ .bool)
    {tag' : TagDef} {plcValue : PlcValue}
    (h : dev.prepare fl conn tagAlias arg = .ok (tag', value, plcValue)) :
    tag' = tag ∧ ∃ x held, arg = .value (.num x) ∧ tag.held fl x = .ok held ∧
      plcValue.payload = .value (.num held) := by
  unfold EtherNetIPDevice.prepare at h
  obtain ⟨tag'', htag'', h⟩ := bind_eq_ok.mp h
  obtain rfl := Except.ok.inj (htag.symm.trans htag'')
  obtain ⟨value', hvalue, h⟩ := bind_eq_ok.mp h
  obtain ⟨plcValue', hplc, h⟩ := bind_eq_ok.mp h
  obtain ⟨rfl, hpair⟩ := Prod.mk.inj (Except.ok.inj h)
  obtain ⟨rfl, rfl⟩ := Prod.mk.inj hpair
  have hnumber : ∃ x, arg = .value (.num x) ∧ value' = .num x := by
    cases hrange : integerRanges tag.dataType with
    | some range =>
      obtain ⟨n, harg, hn, -⟩ := (validateWriteValue_integer hrange).mp (raiseAs_eq_ok.mp hvalue)
      exact ⟨.int n, harg, hn⟩
    | none =>
      obtain ⟨x, harg, hx, -⟩ := (validateWriteValue_float hrange hbool).mp (raiseAs_eq_ok.mp hvalue)
      exact ⟨x, harg, hx⟩
  obtain ⟨x, harg, rfl⟩ := hnumber
  obtain ⟨held, hheld, hpayload⟩ := payload_buildPlcValue hbool hplc
  exact ⟨rfl, x, held, harg, hheld, hpayload⟩

end Write

end Instro.EthernetIp
