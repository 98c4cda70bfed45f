import Instro.Library.Checked
import Instro.Library.PyBytes

/-!
# Setup blocks of the Siglent driver

The panel setup travels as a definite-length block: a hash, the number of digits of the length, the length,
and so many bytes. `_parse_ieee_block` takes as many of them as there are.
-/

namespace Instro.Scope

open Instro.Library

/-! ## The driver -/

/-- `b"#"` -/
def hash : UInt8 := 0x23

def newline : UInt8 := 0x0a

/-- `int(chr(b))`. Of the first 256 characters only the ten digits are read. -/
def charInt (b : UInt8) : Except PyException ℕ :=
  let c := Char.ofNat b.toNat
  if PyText.isDigit c then .ok (c.toNat - '0'.toNat) else .error .valueError

/-- `_parse_ieee_block` -/
def parseIeeeBlock (raw : List UInt8) : Except PyException (List UInt8) :=
  match PyBytes.find hash raw with
  | none => .error .valueError
  | some hashIdx => do
    let b ← PyBytes.get raw (hashIdx + 1)
    let ndigits ← charInt b
    let length ← PyBytes.toInt (PyBytes.slice raw (hashIdx + 2) ↑(hashIdx + 2 + ndigits))
    let start := hashIdx + 2 + ndigits
    return PyBytes.slice raw start (start + length)

/-- The block that `load_settings` makes of a file: `#9`, the length in nine digits or more, the bytes of
the file, and a newline. -/
def settingsBlock (data : List UInt8) : List UInt8 :=
  Utf8.encode ('#' :: '9' :: padded 9 data.length) ++ data ++ [newline]

/-- What `load_settings` writes to the instrument. -/
def loadSettings (data : List UInt8) : List UInt8 := Utf8.encode "PNSU ".toList ++ settingsBlock data

/-- `save_settings` of a reply: the file after it, and what it returns. -/
def saveSettings (file : Option (List UInt8)) (reply : List UInt8) :
    Option (List UInt8) × Except PyException (List UInt8) :=
  match parseIeeeBlock reply with
  | .ok data => (some data, .ok data)
  | .error e => (file, .error e)

/-! ## Blocks -/

/-- The first hash begins a header that declares a length, and `rest` stands behind it. -/
def Declares (raw : List UInt8) (length : ℤ) (rest : List UInt8) : Prop :=
  ∃ front d field, hash ∉ front ∧ raw = front ++ hash :: d :: (field ++ rest) ∧
    charInt d = .ok field.length ∧ PyBytes.toInt field = .ok length

/-- The bytes that the header declares are there. -/
def Complete (raw : List UInt8) : Prop :=
  ∃ length rest, Declares raw length rest ∧ 0 ≤ length ∧ length ≤ rest.length

/-- A length can be read from the first hash on, of the digits that are there. -/
def Readable (raw : List UInt8) : Prop :=
  ∃ front d tail ndigits length, hash ∉ front ∧ raw = front ++ hash :: d :: tail ∧
    charInt d = .ok ndigits ∧ PyBytes.toInt (tail.take ndigits) = .ok length

section Parse

variable {front tail rest rest' raw : List UInt8} {length length' : ℤ}

theorem find_hash (h : hash ∉ front) (tail : List UInt8) :
    PyBytes.find hash (front ++ hash :: tail) = some front.length := by
  unfold PyBytes.find
  rw [if_pos (by simp), List.idxOf_append_of_notMem h, List.idxOf_cons_self]
  rfl

/-- There is one header at most. -/
theorem Declares.unique (h : Declares raw length rest) (h' : Declares raw length' rest') :
    length = length' ∧ rest = rest' := by
  obtain ⟨front, d, field, hfront, rfl, hd, hfield⟩ := h
  obtain ⟨front', d', field', hfront', hraw, hd', hfield'⟩ := h'
  have hfind : front.length = front'.length := by
    have h := find_hash hfront (d :: (field ++ rest))
    rw [hraw, find_hash hfront'] at h
    exact (Option.some.inj h).symm
  obtain ⟨-, hhash⟩ := List.append_inj hraw hfind
  obtain ⟨-, hdigit⟩ := List.cons.inj hhash
  obtain ⟨rfl, hbehind⟩ := List.cons.inj hdigit
  have hlength : field.length = field'.length := Except.ok.inj (hd.symm.trans hd')
  obtain ⟨rfl, rfl⟩ := List.append_inj hbehind hlength
  exact ⟨Except.ok.inj (hfield.symm.trans hfield'), rfl⟩

/-- A slice behind the first two bytes of the header. -/
theorem slice_tail (front tail : List UInt8) (d : UInt8) (i j : ℕ) :
    PyBytes.slice (front ++ hash :: d :: tail) (front.length + 2 + i) ↑(front.length + 2 + j) =
      (tail.take j).drop i := by
  have hfront : front ++ hash :: d :: tail = (front ++ [hash, d]) ++ tail := by simp
  have hlength : front.length + 2 = (front ++ [hash, d]).length := by simp
  unfold PyBytes.slice
  rw [if_neg (by omega), Int.toNat_natCast, hfront, hlength, List.take_length_add_append,
    List.drop_length_add_append]

/-- The parse of a block, from its first hash on. -/
theorem parseIeeeBlock_eq (h : hash ∉ front) (d : UInt8) (tail : List UInt8) :
    parseIeeeBlock (front ++ hash :: d :: tail) = (do
      let ndigits ← charInt d
      let length ← PyBytes.toInt (tail.take ndigits)
      return PyBytes.slice (front ++ hash :: d :: tail) (front.length + 2 + ndigits)
        (↑(front.length + 2 + ndigits) + length)) := by
  have hget : PyBytes.get (front ++ hash :: d :: tail) (front.length + 1) = .ok d := by
    unfold PyBytes.get
    rw [List.getElem?_append_right (by omega)]
    simp
  have hslice := fun ndigits => slice_tail front tail d 0 ndigits
  simp only [Nat.add_zero, List.drop_zero] at hslice
  unfold parseIeeeBlock
  rw [find_hash h]
  dsimp only
  rw [hget]
  simp only [hslice]
  rfl

/-- A header that is read in full, and a length that is not negative: what is there is returned. -/
theorem parseIeeeBlock_of_declares (h : Declares raw length rest) (hlength : 0 ≤ length) :
    parseIeeeBlock raw = .ok (rest.take length.toNat) := by
  obtain ⟨front, d, field, hfront, rfl, hd, hfield⟩ := h
  obtain ⟨n, rfl⟩ := Int.eq_ofNat_of_zero_le hlength
  have hslice := slice_tail front (field ++ rest) d field.length (field.length + n)
  rw [List.take_length_add_append, List.drop_left, ← Nat.add_assoc, Nat.cast_add] at hslice
  rw [parseIeeeBlock_eq hfront, hd]
  show (PyBytes.toInt ((field ++ rest).take field.length) >>= _) = _
  rw [List.take_left, hfield]
  exact congrArg Except.ok hslice

theorem readable_iff : Readable raw ↔ ∃ payload, parseIeeeBlock raw = .ok payload := by
  constructor
  · rintro ⟨front, d, tail, ndigits, length, hfront, rfl, hd, hlength⟩
    rw [parseIeeeBlock_eq hfront, hd]
    show ∃ payload, (PyBytes.toInt (tail.take ndigits) >>= _) = _
    rw [hlength]
    exact ⟨_, rfl⟩
  · rintro ⟨payload, hpayload⟩
    by_cases hmem : hash ∈ raw
    · obtain ⟨front, tail, rfl, hfront⟩ := List.eq_append_cons_of_mem hmem
      cases tail with
      | nil =>
        -- there is no byte behind the hash
        unfold parseIeeeBlock at hpayload
        rw [find_hash hfront] at hpayload
        obtain ⟨b, hb, -⟩ := bind_eq_ok.mp hpayload
        unfold PyBytes.get at hb
        rw [List.getElem?_eq_none (by simp)] at hb
        cases hb
      | cons d tail =>
        rw [parseIeeeBlock_eq hfront] at hpayload
        obtain ⟨ndigits, hd, hpayload⟩ := bind_eq_ok.mp hpayload
        obtain ⟨length, hlength, -⟩ := bind_eq_ok.mp hpayload
        exact ⟨front, d, tail, ndigits, length, hfront, rfl, hd, hlength⟩
    · unfold parseIeeeBlock PyBytes.find at hpayload
      rw [if_neg hmem] at hpayload
      cases hpayload

/-- Exactly so many bytes are returned as are declared, where the block is complete. -/
theorem returns_declared_iff :
    (∀ payload, parseIeeeBlock raw = .ok payload →
      ∃ length rest, Declares raw length rest ∧ (payload.length : ℤ) = length) ↔
      (Readable raw → Complete raw) := by
  constructor
  · intro h hreadable
    obtain ⟨payload, hpayload⟩ := readable_iff.mp hreadable
    obtain ⟨length, rest, hdeclares, hlength⟩ := h payload hpayload
    have hnonneg : 0 ≤ length := hlength ▸ Int.natCast_nonneg _
    rw [parseIeeeBlock_of_declares hdeclares hnonneg] at hpayload
    obtain rfl := Except.ok.inj hpayload
    rw [List.length_take] at hlength
    exact ⟨length, rest, hdeclares, hnonneg, by omega⟩
  · intro h payload hpayload
    obtain ⟨length, rest, hdeclares, hnonneg, hle⟩ := h (readable_iff.mpr ⟨payload, hpayload⟩)
    rw [parseIeeeBlock_of_declares hdeclares hnonneg] at hpayload
    obtain rfl := Except.ok.inj hpayload
    refine ⟨length, rest, hdeclares, ?_⟩
    rw [List.length_take]
    omega

end Parse

/-! ## Blocks that `load_settings` builds -/

section Settings

variable {front data : List UInt8}

theorem length_padded {width n : ℕ} (hwidth : 0 < width) (h : n < 10 ^ width) :
    (padded width n).length = width := by
  have hle : (PyText.ofNat n).length ≤ width := by
    rw [ofNat_eq]
    exact (Nat.length_toDigits_le_iff (by decide) hwidth).mpr h
  unfold padded
  rw [List.length_append, List.length_replicate]
  omega

theorem toNat_of_isDigit {c : Char} (h : PyText.isDigit c = true) : c.toNat < 0x80 := by
  have hnine : c.toNat ≤ '9'.toNat := (Char.isDigit_iff_toNat.mp h).2
  exact hnine.trans_lt (by decide)

theorem settingsBlock_eq (data : List UInt8) : settingsBlock data =
    hash :: 0x39 :: (Utf8.encode (padded 9 data.length) ++ (data ++ [newline])) := by
  have hhash : String.utf8EncodeChar '#' = [hash] := by decide
  have hnine : String.utf8EncodeChar '9' = [0x39] := by decide
  unfold settingsBlock Utf8.encode
  rw [List.flatMap_cons, List.flatMap_cons, hhash, hnine, List.append_assoc]
  simp only [List.cons_append, List.nil_append]

/-- The header of a block declares the length of the data. -/
theorem declares_settingsBlock (hfront : hash ∉ front) (hlength : data.length < 10 ^ 9) :
    Declares (front ++ settingsBlock data) data.length (data ++ [newline]) := by
  have hdigits := digits_padded 9 data.length
  have hascii : ∀ c ∈ padded 9 data.length, c.toNat < 0x80 := fun c hc =>
    toNat_of_isDigit (hdigits.2 c hc)
  have hwidth := length_padded (by decide) hlength
  have hlatin := PyBytes.latin1_encode hascii
  have hfield : (Utf8.encode (padded 9 data.length)).length = 9 := by
    rw [PyBytes.encode_ascii hascii, List.length_map, hwidth]
  refine ⟨front, 0x39, Utf8.encode (padded 9 data.length), hfront, ?_, ?_, ?_⟩
  · rw [settingsBlock_eq]
  · rw [hfield]
    decide
  · rw [← hlatin] at hdigits
    rw [PyBytes.toInt_of_digits hdigits (by omega), hlatin, number_padded]

theorem parseIeeeBlock_settingsBlock (hfront : hash ∉ front) (hlength : data.length < 10 ^ 9) :
    parseIeeeBlock (front ++ settingsBlock data) = .ok data := by
  rw [parseIeeeBlock_of_declares (declares_settingsBlock hfront hlength) (Int.natCast_nonneg _),
    Int.toNat_natCast, List.take_left]

end Settings

/-- **Setup blocks.** A block that `load_settings` builds is parsed as its data. Of any bytes the
parser returns as many as the header declares or raises, exactly if the block is complete or its
header is not read. -/
theorem setup_block_iff (front data raw : List UInt8) :
    (hash ∉ front → data.length < 10 ^ 9 → parseIeeeBlock (front ++ settingsBlock data) = .ok data) ∧
    ((∀ payload, parseIeeeBlock raw = .ok payload →
        ∃ length rest, Declares raw length rest ∧ (payload.length : ℤ) = length) ↔
      (Readable raw → Complete raw)) :=
  ⟨parseIeeeBlock_settingsBlock, returns_declared_iff⟩

/-- A block of five bytes that is cut short after three. -/
def cutBlock : List UInt8 := Utf8.encode "#9000000005abc".toList

/-- What is left of it is saved as a setup. -/
theorem cut_block_saved : saveSettings none cutBlock =
      (some (Utf8.encode "abc".toList), .ok (Utf8.encode "abc".toList)) ∧
    ∀ length rest, Declares cutBlock length rest → length = 5 := by
  have hdeclares : Declares cutBlock 5 (Utf8.encode "abc".toList) :=
    ⟨[], 0x39, Utf8.encode "000000005".toList, by decide, rfl, rfl, by decide +kernel⟩
  refine ⟨by decide +kernel, fun length rest h => ?_⟩
  exact (h.unique hdeclares).1

end Instro.Scope
