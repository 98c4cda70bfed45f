import Instro.I2c.Interface

/-!
# Register writes without interruption

What a write does to the content of its register when nothing comes between its transactions, and
what a read makes of it afterwards.
-/

namespace Instro.I2c

open Instro.Library

/-! ## Register maps -/

/-- The indices of the registers fit the pointers of their devices, and the fields their registers. -/
def SystemDefinition.Fits (system : SystemDefinition) : Prop :=
  ∀ name device, (name, .register device) ∈ system.devices →
    ∀ registerAlias register, (registerAlias, register) ∈ device.registers →
      register.register < 256 ^ device.addrWidthBytes ∧
      ∀ fieldName field, (fieldName, field) ∈ register.fields →
        field.lsb + field.widthBits ≤ register.format.transferBits

/-- A register of the map. -/
structure Target.Fits (target : Target) : Prop where
  pointerBytes : addrPrefix target.device.addrWidthBytes target.register.register =
    .ok target.pointerBytes
  index : target.register.register < 256 ^ target.device.addrWidthBytes
  fields : ∀ fieldName field, target.register.field fieldName = .ok field →
    field.lsb + field.widthBits ≤ target.register.format.transferBits

/-- What tells one register of a bus from another. -/
def Target.id (target : Target) : Nat × Nat × Nat :=
  (target.device.address, target.device.addrWidthBytes, target.register.register)

/-! ## The number in a register -/

section Number

variable {content : Content} {e : Endianness} {n : Nat}

@[simp] theorem length_load : (content.load n).length = n := by
  simp [Content.load]

/-- The payload is what is read back. -/
theorem load_store {payload : List UInt8} :
    (content.store payload).load payload.length = payload := by
  unfold Content.load
  apply List.ext_getElem (by simp)
  intro k _ hk
  rw [List.getElem_map, List.getElem_range]
  unfold Content.store
  rw [List.getElem?_eq_getElem hk, Option.getD_some]

theorem store_of_le {payload : List UInt8} {k : Nat} (h : payload.length ≤ k) :
    content.store payload k = content k := by
  unfold Content.store
  rw [List.getElem?_eq_none h, Option.getD_none]

theorem decode_lt (bs : List UInt8) : e.decode bs < 256 ^ bs.length := by
  cases e with
  | big => exact ofBytes_lt bs
  | little => exact (ofBytes_lt bs.reverse).trans_eq (by rw [List.length_reverse])

theorem length_encode (k m : Nat) : (e.encode k m).length = k := by
  cases e with
  | big => exact length_toBytes k m
  | little => exact List.length_reverse.trans (length_toBytes k m)

theorem decode_encode (k m : Nat) : e.decode (e.encode k m) = m % 256 ^ k := by
  cases e with
  | big => exact ofBytes_toBytes k m
  | little => rw [Endianness.decode, Endianness.encode, List.reverse_reverse, ofBytes_toBytes]

theorem toBytes_eq_ok {m : ℤ} {bytes : List UInt8} (h : e.toBytes n m = .ok bytes) :
    bytes.length = n ∧ (e.decode bytes : ℤ) = m := by
  obtain ⟨⟨hnonneg, hlt⟩, h⟩ := ensure_bind_eq_ok.mp h
  obtain rfl := Except.ok.inj h
  refine ⟨length_encode n m.toNat, ?_⟩
  have hlt' : m.toNat < 256 ^ n := by
    zify
    rwa [Int.toNat_of_nonneg hnonneg]
  rw [decode_encode, Nat.mod_eq_of_lt hlt', Int.toNat_of_nonneg hnonneg]

end Number

section Map

variable {i2c : I2CInterface} {target target' : Target}

theorem mem_of_lookupKey {α : Type} {entries : List (String × α)} {key : String} {a : α}
    (h : lookupKey entries key = .ok a) : (key, a) ∈ entries := by
  induction entries with
  | nil => cases h
  | cons entry entries ih =>
    obtain ⟨k, b⟩ := entry
    unfold lookupKey at h
    by_cases hk : key = k
    · subst hk
      rw [List.lookup_cons_self] at h
      obtain rfl := Except.ok.inj h
      exact List.mem_cons_self
    · rw [List.lookup_cons, beq_eq_false_iff_ne.mpr hk] at h
      exact List.mem_cons_of_mem _ (ih h)

theorem fits_of_target (hfits : i2c.system.Fits) {peripheral registerAlias : String}
    (h : i2c.target peripheral registerAlias = .ok target) : target.Fits := by
  obtain ⟨device, hdevice, h⟩ := bind_eq_ok.mp h
  cases device with
  | command device => cases h
  | register device =>
    obtain ⟨register, hregister, h⟩ := bind_eq_ok.mp h
    obtain ⟨pointerBytes, hpointer, h⟩ := bind_eq_ok.mp h
    obtain rfl := Except.ok.inj h
    obtain ⟨hindex, hfields⟩ := hfits peripheral device (mem_of_lookupKey hdevice)
      registerAlias register (mem_of_lookupKey hregister)
    exact ⟨hpointer, hindex, fun fieldName field hfield =>
      hfields fieldName field (mem_of_lookupKey hfield)⟩

/-- The pointer spells the index. -/
theorem ofBytes_addrPrefix {width index : Nat} {bytes : List UInt8}
    (h : addrPrefix width index = .ok bytes) (hindex : index < 256 ^ width) :
    bytes.length = width ∧ ofBytes bytes = index := by
  unfold addrPrefix at h
  split at h
  · obtain rfl := Except.ok.inj h
    refine ⟨rfl, ?_⟩
    have hlow : index &&& 0xFF = index := by
      rw [show 0xFF = 2 ^ 8 - 1 from rfl, Nat.and_two_pow_sub_one_eq_mod]
      exact Nat.mod_eq_of_lt hindex
    have hbyte : (UInt8.ofNat index).toNat = index % 256 := UInt8.toNat_ofNat'
    rw [hlow]
    show (UInt8.ofNat index).toNat * 1 + 0 = index
    omega
  · obtain ⟨hlength, hdecode⟩ := toBytes_eq_ok h
    exact ⟨hlength, Int.ofNat_inj.mp hdecode⟩
  · cases h

theorem pointer_eq_iff (h : target.Fits) (h' : target'.Fits) :
    target.pointer = target'.pointer ↔ target.id = target'.id := by
  obtain ⟨hlength, hindex⟩ := ofBytes_addrPrefix h.pointerBytes h.index
  obtain ⟨hlength', hindex'⟩ := ofBytes_addrPrefix h'.pointerBytes h'.index
  constructor
  · intro hpointer
    obtain ⟨haddress, hbytes⟩ := Prod.mk.inj hpointer
    unfold Target.id
    rw [haddress, ← hlength, ← hlength', ← hindex, ← hindex', hbytes]
  · intro hid
    obtain ⟨haddress, hrest⟩ := Prod.mk.inj hid
    obtain ⟨hwidth, hregister⟩ := Prod.mk.inj hrest
    have hbytes := h.pointerBytes
    rw [hwidth, hregister, h'.pointerBytes] at hbytes
    unfold Target.pointer
    rw [haddress, Except.ok.inj hbytes]

end Map

/-! ## Writes -/

namespace RegisterWrite

variable (w : RegisterWrite)

/-- What the write sends after the pointer. -/
def sends (content : Content) : Except PyException (List UInt8) :=
  if w.field = "" then w.payload w.value
  else do
    let field ← w.register.field w.field
    w.mergedPayload field content

/-- What the write makes of its register. -/
def applyTo (content : Content) : Content :=
  match w.sends content with
  | .ok payload => content.store payload
  | .error _ => content

/-- The number the register holds. -/
def number (n : Nat) (content : Content) : Nat := w.register.endianness.decode (content.load n)

end RegisterWrite

/-- A write changes a field of its register and nothing else, however wide its value is. -/
structure ChangesOnly (w : RegisterWrite) (field : FieldDef) (n : Nat) : Prop where
  beyond : ∀ content k, n ≤ k → w.applyTo content k = content k
  bits : ∀ content i, (w.number n (w.applyTo content)).testBit i =
    if field.lsb ≤ i ∧ i < field.lsb + field.widthBits then
      (w.value % 2 ^ field.widthBits).toNat.testBit (i - field.lsb)
    else (w.number n content).testBit i

section Writes

variable {w : RegisterWrite} {field : FieldDef} {n : Nat}

theorem dataWidthBytes_eq_ok {register : RegisterDef} :
    register.dataWidthBytes = .ok n ↔
      register.format.transferBits % 8 = 0 ∧ register.format.transferBits / 8 = n := by
  unfold RegisterDef.dataWidthBytes DataFormat.dataWidthBytes
  rw [ensure_bind_eq_ok]
  exact and_congr_right' ⟨Except.ok.inj, congrArg Except.ok⟩

/-- A field write is never out of range. -/
theorem mergedPayload_ok (hfits : w.Fits) (hfield : w.register.field w.field = .ok field)
    (hwidth : w.register.dataWidthBytes = .ok n) (content : Content) :
    ∃ m : Nat, insertBits field.lsb field.widthBits (w.number n content) w.value = m ∧
      ∃ payload, w.mergedPayload field content = .ok payload ∧ payload.length = n ∧
        w.register.endianness.decode payload = m := by
  obtain ⟨m, hm, -⟩ := insertBits_spec field.lsb field.widthBits (w.number n content) w.value
  obtain ⟨hbytes, rfl⟩ := dataWidthBytes_eq_ok.mp hwidth
  have hpow : (256 : Nat) ^ (w.register.format.transferBits / 8) =
      2 ^ w.register.format.transferBits := by
    rw [show 256 = 2 ^ 8 from rfl, ← pow_mul, Nat.mul_div_cancel' (Nat.dvd_of_mod_eq_zero hbytes)]
  have hnumber : w.number (w.register.format.transferBits / 8) content <
      2 ^ w.register.format.transferBits := by
    rw [← hpow]
    exact (decode_lt _).trans_eq (by rw [length_load])
  have hlt : m < 256 ^ (w.register.format.transferBits / 8) := by
    rw [hpow]
    exact insertBits_lt hm hnumber (hfits.fields _ _ hfield)
  have hrange : 0 ≤ (m : ℤ) ∧ (m : ℤ) < 256 ^ (w.register.format.transferBits / 8) :=
    ⟨Int.natCast_nonneg m, by exact_mod_cast hlt⟩
  have hpayload : w.mergedPayload field content =
      .ok (w.register.endianness.encode (w.register.format.transferBits / 8) m) := by
    unfold RegisterWrite.mergedPayload RegisterWrite.payload
    rw [hwidth]
    show w.register.endianness.toBytes _ (insertBits field.lsb field.widthBits
      (w.number (w.register.format.transferBits / 8) content) w.value) = _
    rw [hm]
    unfold Endianness.toBytes
    rw [ensure_pos hrange]
    rfl
  refine ⟨m, hm, _, hpayload, length_encode _ _, ?_⟩
  rw [decode_encode, Nat.mod_eq_of_lt hlt]

theorem number_applyTo (hfits : w.Fits) (hname : w.field ≠ "")
    (hfield : w.register.field w.field = .ok field) (hwidth : w.register.dataWidthBytes = .ok n)
    (content : Content) :
    insertBits field.lsb field.widthBits (w.number n content) w.value =
        w.number n (w.applyTo content) ∧
      ∀ k, n ≤ k → w.applyTo content k = content k := by
  obtain ⟨m, hm, payload, hpayload, rfl, hdecode⟩ :=
    mergedPayload_ok hfits hfield hwidth content
  have happly : w.applyTo content = content.store payload := by
    unfold RegisterWrite.applyTo RegisterWrite.sends
    rw [if_neg hname, hfield]
    show (match w.mergedPayload field content with
      | .ok payload => content.store payload
      | .error _ => content) = _
    rw [hpayload]
  rw [happly]
  refine ⟨?_, fun k hk => store_of_le hk⟩
  unfold RegisterWrite.number at hm ⊢
  rw [load_store, hm, hdecode]

theorem changesOnly (hfits : w.Fits) (hname : w.field ≠ "")
    (hfield : w.register.field w.field = .ok field) (hwidth : w.register.dataWidthBytes = .ok n) :
    ChangesOnly w field n where
  beyond content := (number_applyTo hfits hname hfield hwidth content).2
  bits content i := by
    obtain ⟨m, hm, hbits⟩ := insertBits_spec field.lsb field.widthBits (w.number n content) w.value
    rw [(number_applyTo hfits hname hfield hwidth content).1] at hm
    obtain rfl := Int.ofNat_inj.mp hm
    exact hbits i

theorem data_of_field (fl : Rounding) {r : RegisterRead} (hname : r.field ≠ "")
    (hfield : r.register.field r.field = .ok field) (response : Nat) :
    r.data fl response =
      PyFloat.ofInt fl (extractBits field.lsb field.widthBits response) := by
  unfold RegisterRead.data
  rw [if_neg hname, hfield]
  rfl

/-- Reading the field after the write. -/
theorem result_applyTo (fl : Rounding) (i2c : I2CInterface) (hfits : w.Fits)
    (hname : w.field ≠ "") (hfield : w.register.field w.field = .ok field)
    (hwidth : w.register.dataWidthBytes = .ok n) (content : Content) :
    RegisterRead.result fl i2c ⟨w.toTarget, w.field⟩ (w.applyTo content) =
      (PyFloat.ofInt fl (w.value % 2 ^ field.widthBits)).map
        (.measurement (i2c.channel (w.channelNames w.field))) := by
  have hnumber := (number_applyTo hfits hname hfield hwidth content).1
  unfold RegisterRead.result
  dsimp only
  rw [hwidth]
  show (RegisterRead.data fl ⟨w.toTarget, w.field⟩ (w.number n (w.applyTo content)) >>=
    fun data => .ok _) = _
  rw [data_of_field fl hname hfield, extractBits_of_insertBits hnumber]
  cases PyFloat.ofInt fl (w.value % 2 ^ field.widthBits) with
  | ok x => rfl
  | error e => rfl

/-- A field write that sends something has its field and its width. -/
theorem field_of_sends {content : Content} {payload : List UInt8} (hname : w.field ≠ "")
    (h : w.sends content = .ok payload) :
    ∃ field n, w.register.field w.field = .ok field ∧ w.register.dataWidthBytes = .ok n := by
  unfold RegisterWrite.sends at h
  rw [if_neg hname] at h
  obtain ⟨field, hfield, h⟩ := bind_eq_ok.mp h
  obtain ⟨n, hwidth, -⟩ := bind_eq_ok.mp h
  exact ⟨field, n, hfield, hwidth⟩

/-- A whole write that sends something sets its register to its value. -/
theorem number_of_whole {content : Content} {payload : List UInt8} (hname : w.field = "")
    (h : w.sends content = .ok payload) :
    ∃ n, w.register.dataWidthBytes = .ok n ∧
      ∀ content, (w.number n (w.applyTo content) : ℤ) = w.value ∧
        ∀ k, n ≤ k → w.applyTo content k = content k := by
  have hsends (content : Content) : w.sends content = w.payload w.value := if_pos hname
  rw [hsends] at h
  obtain ⟨n, hwidth, hbytes⟩ := bind_eq_ok.mp h
  obtain ⟨rfl, hdecode⟩ := toBytes_eq_ok hbytes
  refine ⟨payload.length, hwidth, fun content => ?_⟩
  have happly : w.applyTo content = content.store payload := by
    unfold RegisterWrite.applyTo
    rw [hsends, h]
  rw [happly]
  refine ⟨?_, fun k hk => store_of_le hk⟩
  unfold RegisterWrite.number
  rw [load_store, hdecode]

end Writes

end Instro.I2c
