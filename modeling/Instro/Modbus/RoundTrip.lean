import Instro.Modbus.Validation
import Mathlib.Tactic.Linarith

/-!
# Writing, then reading

What a device holds after a write, `read` turns back into the value that was written, up to the
rounding of a scaled value. A scale on a boolean register is the exception: any raw value but zero
is stored as 1.
-/

namespace Instro.Modbus

open Instro.Library

/-- The device holds what the request has written. -/
def Memory.Holds (mem : Memory) : Request → Prop
  | .writeRegister address value => mem.holding address = value
  | .writeRegisters address values => readItems mem.holding address values.length = values
  | .writeCoil address value => mem.coils address = value

/-- What is read is what was written: exactly without a scale, and with one up to a millionth of
its gain. -/
def ReturnsWritten (reg : RegisterDef) (written : PyValue) (got : Number) : Prop :=
  match reg.scale with
  | none => got.eq written.number = true
  | some s => ∃ gain v r, s.gain.value? = some gain ∧ written.number.value? = some v ∧
      got.value? = some r ∧ |r - v| ≤ |gain| * (1 / 1000000)

/-- Reading the alias gives the written value. -/
def ReadsBack (dev : ModbusDevice) (regAlias : String) (reg : RegisterDef) (written : PyValue)
    (mem : Memory) : Prop :=
  ∃ channels got, dev.read exact mem regAlias = .ok channels ∧
    channels.lookup s!"{dev.name}.{reg.name}" = some got ∧ ReturnsWritten reg written got

/-- The gain and offset of the register's scale are rationals. -/
def RationalScale (reg : RegisterDef) : Prop :=
  ∀ s, reg.scale = some s → s.gain.isFinite = true ∧ s.offset.isFinite = true

/-- On a boolean register with a scale, the written value is the physical value of a raw bit: of 0
exactly, or of 1 up to a millionth of the gain. -/
def BitRepresents (reg : RegisterDef) (written : PyValue) : Prop :=
  reg.registerType = .holding → reg.dataType = .bool → ∀ s, reg.scale = some s →
    ∀ gain offset v, s.gain.value? = some gain → s.offset.value? = some offset →
      written.number.value? = some v → v = offset ∨ |offset + gain - v| ≤ |gain| * (1 / 1000000)

/-! ## What the device holds -/

section Reading

variable {reg : RegisterDef} {mem : Memory}

theorem holds_holdingRequest {address : Nat} {words : List Nat} :
    mem.Holds (holdingRequest address words) ↔
      readItems mem.holding address words.length = words := by
  match words with
  | [] => exact Iff.rfl
  | [word] =>
    show mem.holding address = word ↔ [mem.holding (address + 0)] = [word]
    rw [Nat.add_zero, List.singleton_inj]
  | _ :: _ :: _ => exact Iff.rfl

theorem exists_holds (request : Request) : ∃ mem : Memory, mem.Holds request := by
  have hwords : ∀ address (words : List Nat),
      ∃ mem : Memory, readItems mem.holding address words.length = words := by
    intro address words
    refine ⟨⟨fun a => words.getD (a - address) 0, fun _ => 0, fun _ => false, fun _ => false⟩, ?_⟩
    refine List.ext_getElem (by simp [readItems]) fun i h _ => ?_
    have hi : i < words.length := by simpa [readItems] using h
    simp [readItems, List.getElem?_eq_getElem hi]
  cases request with
  | writeRegister address value =>
    obtain ⟨mem, h⟩ := hwords address [value]
    exact ⟨mem, holds_holdingRequest.mpr h⟩
  | writeRegisters address values => exact hwords address values
  | writeCoil address value => exact ⟨⟨fun _ => 0, fun _ => 0, fun _ => value, fun _ => false⟩, rfl⟩

/-- An integer register reads back the integer that was encoded. -/
theorem readRegisterRaw_of_format (hholding : reg.registerType = .holding) {k : Nat}
    {signed : Bool} (hformat : integerFormat reg.dataType = some (k, signed)) {n : ℤ}
    (hfits : IntFits k signed n)
    (hmem : mem.Holds (holdingRequest reg.startingAddress
      (registersOfBytes (swapOut reg.byteSwap reg.wordSwap reg.longSwap (intToBytes k n))))) :
    readRegisterRaw mem reg = .ok (.int n) := by
  have hk : k % 2 = 0 ∧ reg.registerCount = k / 2 := by
    unfold RegisterDef.registerCount
    cases hdt : reg.dataType <;> rw [hdt] at hformat <;> simp [integerFormat] at hformat <;>
      obtain ⟨rfl, -⟩ := hformat <;> exact ⟨rfl, rfl⟩
  have hlen : (registersOfBytes
      (swapOut reg.byteSwap reg.wordSwap reg.longSwap (intToBytes k n))).length =
        reg.registerCount := by
    rw [length_registersOfBytes (by simpa using hk.1), length_swapOut, length_intToBytes, hk.2]
  rw [holds_holdingRequest, hlen] at hmem
  unfold readRegisterRaw
  rw [hholding]
  show decodeRegisters _ _ _ (readItems _ _ _) _ = _
  rw [hmem]
  exact decodeRegisters_of_format reg.byteSwap reg.wordSwap reg.longSwap hformat hk.1 hfits

/-- A boolean holding register reads back the bit that was encoded. -/
theorem readRegisterRaw_of_bool (hholding : reg.registerType = .holding)
    (hbool : reg.dataType = .bool) {b : Bool}
    (hmem : mem.Holds (holdingRequest reg.startingAddress [if b then 1 else 0])) :
    readRegisterRaw mem reg = .ok (.int b.toNat) := by
  have hcount : reg.registerCount = 1 := by
    unfold RegisterDef.registerCount
    rw [hbool]
  rw [holds_holdingRequest] at hmem
  unfold readRegisterRaw
  rw [hholding]
  show decodeRegisters _ _ _ (readItems _ _ reg.registerCount) _ = _
  have hread : readItems mem.holding reg.startingAddress reg.registerCount =
      [if b then 1 else 0] := by
    rw [hcount]
    exact hmem
  rw [hread, hbool]
  cases b <;> rfl

theorem readRegisterRaw_of_coil (hcoil : reg.registerType = .coil) {b : Bool}
    (hmem : mem.Holds (.writeCoil reg.startingAddress b)) :
    readRegisterRaw mem reg = .ok (.int b.toNat) := by
  have hb : mem.coils reg.startingAddress = b := hmem
  unfold readRegisterRaw
  rw [hcoil]
  show Except.ok (Number.int (mem.coils reg.startingAddress).toNat) = _
  rw [hb]

/-- No bit of a register takes the register's channel. -/
theorem lookup_buildRegisterChannels (name : String) (raw : ℤ) (scaled : Number)
    (hbits : ∀ bit ∈ reg.bitmap.getD [], bit.name ≠ reg.name) :
    ∃ channels, buildRegisterChannels name reg (.int raw) scaled = .ok channels ∧
      channels.lookup s!"{name}.{reg.name}" = some scaled := by
  have hfold : ∀ (bits : List BitDef) (channels : Channels),
      (∀ bit ∈ bits, bit.name ≠ reg.name) →
      channels.lookup s!"{name}.{reg.name}" = some scaled →
      (bits.foldl (fun channels bit =>
        channels.insert s!"{name}.{bit.name}" (.int (raw / 2 ^ bit.bitIndex.val % 2)))
        channels).lookup s!"{name}.{reg.name}" = some scaled := by
    intro bits
    induction bits with
    | nil => exact fun _ _ h => h
    | cons bit bits ih =>
      intro channels hne h
      refine ih _ (fun b hb => hne b (List.mem_cons_of_mem _ hb)) ?_
      rw [AList.lookup_insert_ne, h]
      intro heq
      have : toString reg.name = toString bit.name := by simpa using heq
      exact hne bit List.mem_cons_self this.symm
  unfold buildRegisterChannels
  have hself : ((∅ : Channels).insert s!"{name}.{reg.name}" scaled).lookup
      s!"{name}.{reg.name}" = some scaled := AList.lookup_insert _
  cases hbitmap : reg.bitmap with
  | none => exact ⟨_, rfl, hself⟩
  | some bits =>
    cases bits with
    | nil => exact ⟨_, rfl, hself⟩
    | cons bit bits =>
      refine ⟨_, rfl, hfold (bit :: bits) _ ?_ hself⟩
      rw [hbitmap] at hbits
      exact hbits

end Reading

/-! ## Exact scaling -/

section Scaling

variable {s : LinearScale} {gain offset : ℚ}

theorem gain_ne_zero (hgain : s.gain.value? = some gain) : gain ≠ 0 := by
  have h := s.gain_ne_zero
  rw [PyFloat.isZero_of_value hgain] at h
  exact of_decide_eq_false h

theorem toPhysical_exact (hgain : s.gain.value? = some gain)
    (hoffset : s.offset.value? = some offset) (n : ℤ) :
    ∃ x, s.toPhysical exact (.int n) = .ok x ∧ x.value? = some (offset + gain * n) := by
  refine ⟨_, rfl, ?_⟩
  exact PyFloat.value?_add hoffset (PyFloat.value?_mul hgain rfl)

theorem toRaw_exact (hgain : s.gain.value? = some gain) (hoffset : s.offset.value? = some offset)
    {v : Number} {x : PyFloat} {r : ℚ} (h : s.toRaw exact v = .ok x) (hx : x.value? = some r) :
    ∃ q, v.value? = some q ∧ r = (q - offset) / gain := by
  obtain ⟨f, hf, h⟩ := bind_eq_ok.mp h
  obtain ⟨d, hd, rfl⟩ := PyFloat.value_of_div hgain (gain_ne_zero hgain) h hx
  obtain ⟨q, hq, rfl⟩ := PyFloat.value_of_sub hoffset hd
  refine ⟨q, ?_, rfl⟩
  cases v with
  | int n =>
    obtain rfl := Except.ok.inj hf
    exact hq
  | float y =>
    obtain rfl := Except.ok.inj hf
    exact hq

theorem toRaw_of_value (hgain : s.gain.value? = some gain)
    (hoffset : s.offset.value? = some offset) {v : Number} {q : ℚ} (hv : v.value? = some q) :
    ∃ x, s.toRaw exact v = .ok x ∧ x.value? = some ((q - offset) / gain) := by
  have hf : ∃ f, v.toFloat exact = .ok f ∧ f.value? = some q := by
    cases v with
    | int n => exact ⟨_, rfl, hv⟩
    | float y => exact ⟨y, rfl, hv⟩
  obtain ⟨f, hf, hfq⟩ := hf
  obtain ⟨x, hx, hxq⟩ := PyFloat.value?_div (PyFloat.value?_sub hfq hoffset) hgain
    (gain_ne_zero hgain)
  exact ⟨x, bind_eq_ok.mpr ⟨f, hf, hx⟩, hxq⟩

/-- A raw value that is not fractional is within a millionth of an integer. -/
theorem near_of_not_isFractional {x : PyFloat} {n : ℤ} (hround : x.round = .ok n)
    (h : isFractional exact x = .ok false) : ∃ r, x.value? = some r ∧ |r - n| ≤ 1 / 1000000 := by
  obtain ⟨r, hr, -⟩ := PyFloat.value_of_round hround
  refine ⟨r, hr, ?_⟩
  obtain ⟨m, hm, h⟩ := bind_eq_ok.mp h
  obtain rfl : n = m := Except.ok.inj (hround.symm.trans hm)
  obtain ⟨y, hy, h⟩ := bind_eq_ok.mp h
  obtain rfl : PyFloat.finite n = y := Except.ok.inj hy
  have hlt := Except.ok.inj h
  have habs : (PyFloat.sub exact x (.finite n)).abs.value? = some |r - n| :=
    PyFloat.value?_abs (PyFloat.value?_sub hr rfl)
  rw [Number.lt_of_values (x := .float (exact (1 / 1000000)))
    (y := .float (PyFloat.sub exact x (.finite n)).abs) rfl habs] at hlt
  exact not_lt.mp (of_decide_eq_false hlt)

end Scaling

/-! ## Every register -/

section Registers

variable {reg : RegisterDef} {regAlias : String} {value : PyValue} {request : Request}

/-- What a request leaves in the device reads as one integer, and its physical value is the written
one exactly when a bit register can represent it. -/
def Returned (reg : RegisterDef) (value : PyValue) (request : Request) : Prop :=
  ∃ n x, (∀ mem : Memory, mem.Holds request → readRegisterRaw mem reg = .ok (.int n)) ∧
    applyScaling exact (.int n) reg = .ok x ∧ (ReturnsWritten reg value x ↔ BitRepresents reg value)

/-- Without a scale an integer of the written value is the written value. -/
theorem returnsWritten_of_none (h : reg.scale = none) {n : ℤ}
    (hv : value.number.value? = some (n : ℚ)) :
    ReturnsWritten reg value (.int n) ↔ BitRepresents reg value := by
  have hbit : BitRepresents reg value := by
    intro _ _ s hs
    rw [h] at hs
    cases hs
  refine iff_of_true ?_ hbit
  unfold ReturnsWritten
  rw [h]
  show (Number.int n).eq value.number = true
  rw [Number.eq_of_values (x := .int n) rfl hv]
  exact decide_eq_true rfl

theorem returned_coil (hacc : reg.Accepted exact) (hcoil : reg.registerType = .coil)
    (h : requestFor exact reg regAlias value = .ok request) : Returned reg value request := by
  have hscale := Accepted.scale_of_coil hacc hcoil
  obtain ⟨hvalid, raw, hraw, raw', hraw', hrequest⟩ := requestFor_eq_ok.mp h
  obtain ⟨-, -, htype⟩ := validateWriteValue_eq_ok.mp hvalid
  obtain ⟨b, hb⟩ := bool_of_checkValueType (by simp [RegisterDef.isBoolRegister, hcoil]) htype
  rw [rawValueOf_of_none hscale] at hraw
  obtain rfl := Except.ok.inj hraw
  obtain rfl := validateRawValueRange_of_none hscale hraw'
  rw [requestOf_coil hcoil, hb, truthy_bool] at hrequest
  obtain rfl := Except.ok.inj hrequest
  refine ⟨b.toNat, .int b.toNat, fun mem hmem => readRegisterRaw_of_coil hcoil hmem,
    applyScaling_of_none hscale _, returnsWritten_of_none hscale ?_⟩
  rw [hb]
  rfl

theorem returned_integer (hholding : reg.registerType = .holding) {k : Nat} {signed : Bool}
    (hformat : integerFormat reg.dataType = some (k, signed)) (hrational : RationalScale reg)
    (h : requestFor exact reg regAlias value = .ok request) : Returned reg value request := by
  obtain ⟨⟨dtMin, dtMax⟩, hrange⟩ := range_of_format hformat
  have hbool := isBoolRegister_of_holding hholding fun hdt => by
    rw [hdt] at hformat
    cases hformat
  obtain ⟨hvalid, raw, hraw, raw', hraw', hrequest⟩ := requestFor_eq_ok.mp h
  obtain ⟨-, -, htype⟩ := validateWriteValue_eq_ok.mp hvalid
  obtain ⟨words, hwords, rfl⟩ := requestOf_holding hholding hrequest
  cases hscale : reg.scale with
  | none =>
    rw [rawValueOf_of_none hscale] at hraw
    obtain rfl := Except.ok.inj hraw
    obtain rfl := validateRawValueRange_of_none hscale hraw'
    obtain ⟨-, hint⟩ := (checkValueType_integer hbool hrange).mp htype
    obtain ⟨n, hv, hn⟩ := hint hscale
    have hround := round_of_integer hv
    have hfits := (fits_of_range hrange hformat).mpr hn
    rw [encodeValue_of_format exact _ _ _ hformat hround hfits] at hwords
    obtain rfl := Except.ok.inj hwords
    exact ⟨n, .int n, fun mem hmem => readRegisterRaw_of_format hholding hformat hfits hmem,
      applyScaling_of_none hscale _, returnsWritten_of_none hscale hv⟩
  | some s =>
    obtain ⟨x, hx, rfl⟩ := rawValueOf_of_some hscale hraw
    obtain ⟨n, hround, hfrac, hlo, hhi, rfl⟩ := 
      (validateRawValueRange_eq_ok hscale hrange).mp hraw'
    have hfits := (fits_of_range hrange hformat).mpr ⟨hlo, hhi⟩
    rw [encodeValue_of_format exact _ _ _ hformat (n := n) rfl hfits] at hwords
    obtain rfl := Except.ok.inj hwords
    obtain ⟨hg, ho⟩ := hrational s hscale
    obtain ⟨gain, hgain⟩ := Option.isSome_iff_exists.mp hg
    obtain ⟨offset, hoffset⟩ := Option.isSome_iff_exists.mp ho
    obtain ⟨r, hr, hnear⟩ := near_of_not_isFractional hround hfrac
    obtain ⟨v, hv, rfl⟩ := toRaw_exact hgain hoffset hx hr
    obtain ⟨y, hy, hyval⟩ := toPhysical_exact hgain hoffset n
    refine ⟨n, .float y, fun mem hmem => readRegisterRaw_of_format hholding hformat hfits hmem,
      applyScaling_of_some hscale hy, iff_of_true ?_ ?_⟩
    · unfold ReturnsWritten
      rw [hscale]
      refine ⟨gain, v, offset + gain * n, hgain, hv, hyval, ?_⟩
      have hne := gain_ne_zero hgain
      have hdiff : offset + gain * n - v = -(gain * ((v - offset) / gain - n)) := by
        field_simp
        ring
      rw [hdiff, abs_neg, abs_mul]
      exact mul_le_mul_of_nonneg_left hnear (abs_nonneg gain)
    · intro _ hdt
      rw [hdt] at hformat
      cases hformat

/-- The bit of a scaled boolean register reads back as the written value exactly when it represents
the value. -/
theorem returnsWritten_bit_iff (hholding : reg.registerType = .holding)
    (hbool : reg.dataType = .bool) {s : LinearScale} (hscale : reg.scale = some s) {gain offset v : ℚ}
    (hgain : s.gain.value? = some gain) (hoffset : s.offset.value? = some offset)
    (hv : value.number.value? = some v) {y : PyFloat}
    (hy : y.value? = some (offset + gain * ((decide (v ≠ offset)).toNat : ℤ))) :
    ReturnsWritten reg value (.float y) ↔ BitRepresents reg value := by
  unfold ReturnsWritten
  rw [hscale]
  constructor
  · rintro ⟨gain', v', r, hgain', hv', hr, hle⟩ _ _ s' hs' gain'' offset' v'' hgain'' hoffset' hv''
    obtain rfl := Option.some.inj (hscale.symm.trans hs')
    obtain rfl := Option.some.inj (hgain.symm.trans hgain')
    obtain rfl := Option.some.inj (hgain.symm.trans hgain'')
    obtain rfl := Option.some.inj (hoffset.symm.trans hoffset')
    obtain rfl := Option.some.inj (hv.symm.trans hv')
    obtain rfl := Option.some.inj (hv.symm.trans hv'')
    obtain rfl := Option.some.inj (hy.symm.trans hr)
    by_cases hvo : v = offset
    · exact .inl hvo
    · right
      rw [decide_eq_true hvo] at hle
      simpa using hle
  · intro hbit
    have hrep := hbit hholding hbool s hscale gain offset v hgain hoffset hv
    refine ⟨gain, v, _, hgain, hv, hy, ?_⟩
    by_cases hvo : v = offset
    · simp [hvo]
    · rw [decide_eq_true hvo]
      simpa using hrep.resolve_left hvo

theorem returned_bool (hholding : reg.registerType = .holding) (hbool : reg.dataType = .bool)
    (hrational : RationalScale reg) (h : requestFor exact reg regAlias value = .ok request) :
    Returned reg value request := by
  obtain ⟨hvalid, raw, hraw, raw', hraw', hrequest⟩ := requestFor_eq_ok.mp h
  obtain ⟨-, -, htype⟩ := validateWriteValue_eq_ok.mp hvalid
  obtain ⟨b, hb⟩ := bool_of_checkValueType (by simp [RegisterDef.isBoolRegister, hbool]) htype
  have hpass : raw' = raw := by
    unfold validateRawValueRange at hraw'
    rw [hbool] at hraw'
    exact (Except.ok.inj hraw').symm
  subst hpass
  obtain ⟨words, hwords, rfl⟩ := requestOf_holding hholding hrequest
  have hwords : words = [if raw'.number.truthy then 1 else 0] := by
    rw [hbool] at hwords
    exact (Except.ok.inj hwords).symm
  subst hwords
  have hread : ∀ mem : Memory,
      mem.Holds (holdingRequest reg.startingAddress [if raw'.number.truthy then 1 else 0]) →
        readRegisterRaw mem reg = .ok (.int raw'.number.truthy.toNat) :=
    fun mem hmem => readRegisterRaw_of_bool hholding hbool hmem
  refine ⟨raw'.number.truthy.toNat, ?_⟩
  cases hscale : reg.scale with
  | none =>
    rw [rawValueOf_of_none hscale] at hraw
    obtain rfl := Except.ok.inj hraw
    rw [hb, truthy_bool] at hread ⊢
    refine ⟨.int b.toNat, hread, applyScaling_of_none hscale _, returnsWritten_of_none hscale ?_⟩
    rw [hb]
    rfl
  | some s =>
    obtain ⟨x, hx, rfl⟩ := rawValueOf_of_some hscale hraw
    obtain ⟨hg, ho⟩ := hrational s hscale
    obtain ⟨gain, hgain⟩ := Option.isSome_iff_exists.mp hg
    obtain ⟨offset, hoffset⟩ := Option.isSome_iff_exists.mp ho
    have hv : value.number.value? = some (b.toNat : ℚ) := by
      rw [hb]
      rfl
    obtain ⟨x', hx', hxval⟩ := toRaw_of_value hgain hoffset hv
    obtain rfl : x' = x := Except.ok.inj (hx'.symm.trans hx)
    -- the raw value is 0 where the value is the offset
    have hzero : ((b.toNat : ℚ) - offset) / gain = 0 ↔ (b.toNat : ℚ) = offset := by
      rw [div_eq_zero_iff, sub_eq_zero, or_iff_left (gain_ne_zero hgain)]
    have htruthy : (PyValue.num (.float x')).number.truthy = decide ((b.toNat : ℚ) ≠ offset) := by
      show decide (x'.value? ≠ some 0) = _
      rw [hxval]
      simp only [ne_eq, Option.some.injEq, hzero]
    obtain ⟨y, hy, hyval⟩ :=
      toPhysical_exact hgain hoffset (PyValue.num (.float x')).number.truthy.toNat
    rw [htruthy] at hyval
    exact ⟨.float y, hread, applyScaling_of_some hscale hy,
      returnsWritten_bit_iff hholding hbool hscale hgain hoffset hv hyval⟩

/-- What a request of an accepted register leaves in the device. -/
theorem returned_of_requestFor (hacc : reg.Accepted exact)
    (hwritable : reg.registerType = .holding ∨ reg.registerType = .coil)
    (htype : reg.dataType.isFloat = false) (hrational : RationalScale reg)
    (h : requestFor exact reg regAlias value = .ok request) : Returned reg value request := by
  rcases hwritable with hholding | hcoil
  · cases hformat : integerFormat reg.dataType with
    | some format => exact returned_integer hholding hformat hrational h
    | none => exact returned_bool hholding (eq_bool_of_format hformat htype) hrational h
  · exact returned_coil hacc hcoil h

end Registers

/-! ## The device -/

section Device

variable {dev : ModbusDevice} {regAlias : String} {reg : RegisterDef}

theorem mem_of_getRegister (h : dev.config.getRegister regAlias = .ok reg) :
    reg ∈ dev.config.registers ∧ reg.name = regAlias := by
  unfold ModbusConfig.getRegister at h
  cases hfind : dev.config.registers.reverse.find? fun reg => reg.name = regAlias with
  | none =>
    rw [hfind] at h
    cases h
  | some reg' =>
    rw [hfind] at h
    obtain rfl := Except.ok.inj h
    exact ⟨List.mem_reverse.mp (List.mem_of_find?_eq_some hfind),
      by simpa using List.find?_some hfind⟩

/-- Where the channel names of a configuration are distinct, no bit has the name of a register. -/
theorem bit_name_ne (hnames : dev.config.validateUniqueBitmapNames = .ok ())
    (h : dev.config.getRegister regAlias = .ok reg) :
    ∀ bit ∈ reg.bitmap.getD [], bit.name ≠ reg.name := by
  intro bit hbit heq
  obtain ⟨hmem, -⟩ := mem_of_getRegister h
  have hnodup : dev.config.channelNames.Nodup := ensure_eq_ok.mp hnames
  have hdisjoint := (List.nodup_append.mp hnodup).2.2
  exact hdisjoint reg.name (List.mem_map_of_mem hmem) bit.name
    (List.mem_flatMap.mpr ⟨reg, hmem, List.mem_map_of_mem hbit⟩) heq.symm

theorem getRegister_of_device (h : dev.getRegister regAlias = .ok reg) :
    dev.config.getRegister regAlias = .ok reg := raiseAs_eq_ok.mp h

/-- The read of a register whose raw value is an integer. -/
theorem read_of_raw (hnames : dev.config.validateUniqueBitmapNames = .ok ())
    (hreg : dev.config.getRegister regAlias = .ok reg) {mem : Memory} {n : ℤ} {x : Number}
    (hraw : readRegisterRaw mem reg = .ok (.int n))
    (hscaled : applyScaling exact (.int n) reg = .ok x) :
    ∃ channels, dev.read exact mem regAlias = .ok channels ∧
      channels.lookup s!"{dev.name}.{reg.name}" = some x := by
  obtain ⟨channels, hbuild, hlookup⟩ :=
    lookup_buildRegisterChannels dev.name n x (bit_name_ne hnames hreg)
  refine ⟨channels, ?_, hlookup⟩
  exact bind_eq_ok.mpr ⟨reg, hreg, bind_eq_ok.mpr ⟨_, hraw, bind_eq_ok.mpr ⟨x, hscaled, hbuild⟩⟩⟩

end Device

/-- The device that holds what a write has sent reads back the written value. -/
def RoundTrips (dev : ModbusDevice) (link : Link) (regAlias : String) (reg : RegisterDef)
    (arg : WriteArgument) (value : PyValue) : Prop :=
  ∀ mem : Memory, (∀ request ∈ (dev.write exact link regAlias arg).requests, mem.Holds request) →
    ReadsBack dev regAlias reg value mem

/-- An accepted value is read back exactly when a bit register can represent it. -/
theorem roundTrips_iff {dev : ModbusDevice} {link : Link} {regAlias : String} {reg : RegisterDef}
    {arg : WriteArgument} (hnames : dev.config.validateUniqueBitmapNames = .ok ())
    (hreg : dev.config.getRegister regAlias = .ok reg) (hacc : reg.Accepted exact)
    (hwritable : reg.registerType = .holding ∨ reg.registerType = .coil)
    (htype : reg.dataType.isFloat = false) (hrational : RationalScale reg) {value : PyValue}
    (hvalue : resolveValue reg regAlias arg = .ok value) {cmd : Command}
    (hcmd : (dev.write exact link regAlias arg).result = .ok cmd) :
    RoundTrips dev link regAlias reg arg value ↔ BitRepresents reg value := by
  obtain ⟨request, hprepare, hsent⟩ := write_ok hcmd
  obtain ⟨reg', hreg', hvalue', hrequest⟩ := prepare_eq_ok.mp hprepare
  obtain rfl : reg' = reg := Except.ok.inj ((getRegister_of_device hreg').symm.trans hreg)
  obtain rfl : cmd.value = value := Except.ok.inj (hvalue'.symm.trans hvalue)
  obtain ⟨n, x, hread, hscaled, hiff⟩ :=
    returned_of_requestFor hacc hwritable htype hrational hrequest
  unfold RoundTrips
  rw [hsent, ← hiff]
  constructor
  · intro htrip
    obtain ⟨mem, hmem⟩ := exists_holds request
    obtain ⟨channels, got, hchannels, hgot, hret⟩ :=
      htrip mem fun r hr => List.mem_singleton.mp hr ▸ hmem
    obtain ⟨channels', hchannels', hx⟩ := read_of_raw hnames hreg (hread mem hmem) hscaled
    obtain rfl := Except.ok.inj (hchannels.symm.trans hchannels')
    obtain rfl := Option.some.inj (hgot.symm.trans hx)
    exact hret
  · intro hret mem hmem
    obtain ⟨channels, hchannels, hx⟩ :=
      read_of_raw hnames hreg (hread mem (hmem request List.mem_cons_self)) hscaled
    exact ⟨channels, x, hchannels, hx, hret⟩

/-- **Round trip.** On an accepted register that holds integers or booleans, every accepted value is
read back, except where a scaled boolean register cannot represent it. A write that raises has sent
nothing, unless it raises what the client answered. -/
theorem write_read_round_trip_iff (dev : ModbusDevice) (link : Link) (regAlias : String)
    (reg : RegisterDef) (arg : WriteArgument)
    (hnames : dev.config.validateUniqueBitmapNames = .ok ())
    (hreg : dev.config.getRegister regAlias = .ok reg) (hacc : reg.Accepted exact)
    (hwritable : reg.registerType = .holding ∨ reg.registerType = .coil)
    (htype : reg.dataType.isFloat = false) (hrational : RationalScale reg) :
    (∀ value cmd, resolveValue reg regAlias arg = .ok value →
      (dev.write exact link regAlias arg).result = .ok cmd →
        (RoundTrips dev link regAlias reg arg value ↔ BitRepresents reg value)) ∧
    (∀ e, (dev.write exact link regAlias arg).result = .error e →
      (dev.write exact link regAlias arg).requests = [] ∨
        ∃ respond request, link.client = some respond ∧ respond request = .error e) := by
  constructor
  · intro value cmd hvalue hcmd
    exact roundTrips_iff hnames hreg hacc hwritable htype hrational hvalue hcmd
  · intro e he
    exact write_error he

/-! ## A scaled boolean register -/

def scaledRegister (dataType : DataType) (gain : ℚ) (h : (PyFloat.finite gain).isZero = false) :
    RegisterDef :=
  { plainRegister dataType with scale := some ⟨.finite gain, .finite 0, h⟩ }

/-- Two registers with a gain of a half, all bytes in the reverse order. -/
def swappedRegister : RegisterDef :=
  { scaledRegister .int32 (1 / 2) (by decide +kernel) with byteSwap := true, wordSwap := true }

/-- -2.5 is sent as -5 and read back. -/
theorem write_read_round_trip_swapped :
    RoundTrips (oneRegisterDevice swappedRegister) acceptingLink "setpoint" swappedRegister
      (.value (.num (.float (.finite (-5 / 2))))) (.num (.float (.finite (-5 / 2)))) := by
  have hrational : RationalScale swappedRegister := by
    intro s hs
    obtain rfl := Option.some.inj hs
    exact ⟨rfl, rfl⟩
  have hwritten : ((oneRegisterDevice swappedRegister).write exact acceptingLink "setpoint"
      (.value (.num (.float (.finite (-5 / 2)))))).result.toOption.isSome = true := by
    decide +kernel
  obtain ⟨cmd, hcmd⟩ := Option.isSome_iff_exists.mp hwritten
  refine ((write_read_round_trip_iff (oneRegisterDevice swappedRegister) acceptingLink "setpoint"
    swappedRegister (.value (.num (.float (.finite (-5 / 2))))) rfl rfl rfl (.inl rfl) rfl
    hrational).1 _ cmd rfl (toOption_eq_some.mp hcmd)).mpr ?_
  intro _ hbool
  cases hbool

/-- A boolean register with gain 2: `True` is stored as 1 and read back as 2. -/
theorem scaled_bool_reads_two :
    let reg := scaledRegister .bool 2 (by decide +kernel)
    let dev := oneRegisterDevice reg
    reg.Accepted exact ∧
      (dev.write exact acceptingLink "setpoint" (.value (.bool true))).result =
        .ok ⟨"plc.setpoint.cmd", .bool true⟩ ∧
      ¬ RoundTrips dev acceptingLink "setpoint" reg (.value (.bool true)) (.bool true) := by
  have hacc : (scaledRegister .bool 2 (by decide +kernel)).Accepted exact := rfl
  refine ⟨hacc, rfl, ?_⟩
  have hrational : RationalScale (scaledRegister .bool 2 (by decide +kernel)) := by
    intro s hs
    obtain rfl := Option.some.inj hs
    exact ⟨rfl, rfl⟩
  rw [roundTrips_iff rfl rfl hacc (.inl rfl) rfl hrational rfl rfl]
  intro h
  have hbit := h rfl rfl _ rfl 2 0 ((1 : ℤ) : ℚ) rfl rfl rfl
  norm_num at hbit

end Instro.Modbus
