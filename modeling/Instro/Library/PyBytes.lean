import Instro.Library.FloatReading
import Instro.Library.Utf8

/-!
# Python bytes

The methods of `bytes` on lists of bytes. `int` reads the bytes as ASCII, whatever the Unicode tables
say of the characters beyond it.
-/

namespace Instro.Library

namespace PyBytes

/-- The characters of the bytes, one for each. -/
def latin1 (bytes : List UInt8) : Text := bytes.map fun b => Char.ofNat b.toNat

/-- `raw.find(b)`, or `none` for -1. -/
def find (b : UInt8) (raw : List UInt8) : Option ℕ := if b ∈ raw then some (raw.idxOf b) else none

/-- `raw[i]` -/
def get (raw : List UInt8) (i : ℕ) : Except PyException UInt8 :=
  match raw[i]? with
  | some b => .ok b
  | none => .error .indexError

/-- `raw[start:stop]`. A negative stop counts from the end. -/
def slice (raw : List UInt8) (start : ℕ) (stop : ℤ) : List UInt8 :=
  (raw.take (if stop < 0 then stop + raw.length else stop).toNat).drop start

/-- What `int` skips around a number: space, tab, and the four that follow it. -/
def isSpace (c : Char) : Bool := c = ' ' || (0x09 ≤ c.toNat && c.toNat ≤ 0x0d)

/-- The digits of a number, without the underscores that may stand between them. -/
def digits? : Text → Option Text
  | [] => none
  | [c] => if PyText.isDigit c then some [c] else none
  | c :: d :: text =>
    if PyText.isDigit c then (c :: ·) <$> (if d = '_' then digits? text else digits? (d :: text))
    else none

/-- More than 4300 digits are refused. -/
def ofDigits (text : Text) : Except PyException ℕ :=
  match digits? text with
  | some digits =>
    if 4300 < digits.length then .error .valueError else .ok (Numeral.number digits)
  | none => .error .valueError

/-- `int(raw)` -/
def toInt (raw : List UInt8) : Except PyException ℤ :=
  match ((latin1 raw).dropWhile isSpace).rdropWhile isSpace with
  | '-' :: text => (ofDigits text).map fun n => -(n : ℤ)
  | '+' :: text => (ofDigits text).map fun n => (n : ℤ)
  | text => (ofDigits text).map fun n => (n : ℤ)

/-! ## Numbers that are written in digits -/

theorem digits?_of_digits {text : Text} (h : Numeral.Digits text) : digits? text = some text := by
  obtain ⟨hne, hdigits⟩ := h
  induction text with
  | nil => exact absurd rfl hne
  | cons c text ih =>
    obtain ⟨hc, htext⟩ := List.forall_mem_cons.mp hdigits
    cases text with
    | nil => exact if_pos hc
    | cons d text =>
      have hd : d ≠ '_' := by
        rintro rfl
        exact absurd (htext '_' List.mem_cons_self) (by decide)
      rw [digits?, if_pos hc, if_neg hd, ih (List.cons_ne_nil _ _) htext]
      rfl

theorem isSpace_of_isDigit {c : Char} (h : PyText.isDigit c = true) :
    isSpace c = false ∧ c ≠ '-' ∧ c ≠ '+' := by
  have hne : ∀ d : Char, PyText.isDigit d = false → c ≠ d := by
    rintro d hd rfl
    exact Bool.false_ne_true (hd.symm.trans h)
  refine ⟨?_, hne '-' rfl, hne '+' rfl⟩
  have hzero : '0'.toNat ≤ c.toNat := (Char.isDigit_iff_toNat.mp h).1
  have hlow : ¬c.toNat ≤ 0x0d := by
    have hval : '0'.toNat = 48 := rfl
    omega
  unfold isSpace
  rw [decide_eq_false (hne ' ' rfl), decide_eq_false hlow, Bool.and_false]
  rfl

/-- Digits alone are read as the number they stand for. -/
theorem toInt_of_digits {raw : List UInt8} (h : Numeral.Digits (latin1 raw))
    (hlength : raw.length ≤ 4300) : toInt raw = .ok (Numeral.number (latin1 raw) : ℤ) := by
  have hspace : ∀ c ∈ latin1 raw, ¬isSpace c = true := by
    intro c hc
    rw [(isSpace_of_isDigit (h.2 c hc)).1]
    exact Bool.false_ne_true
  have hnumber : ofDigits (latin1 raw) = .ok (Numeral.number (latin1 raw)) := by
    unfold ofDigits
    rw [digits?_of_digits h]
    exact if_neg (by simpa [latin1] using hlength)
  unfold toInt
  rw [List.dropWhile_eq_self_iff.mpr fun hlength => hspace _ (List.getElem_mem hlength),
    List.rdropWhile_eq_self_iff.mpr fun hne => hspace _ (List.getLast_mem hne)]
  split
  · rename_i text htext
    exact absurd rfl (isSpace_of_isDigit (h.2 '-' (by rw [htext]; exact List.mem_cons_self))).2.1
  · rename_i text htext
    exact absurd rfl (isSpace_of_isDigit (h.2 '+' (by rw [htext]; exact List.mem_cons_self))).2.2
  · rw [hnumber]
    rfl

/-- Text in ASCII is encoded character by character. -/
theorem encode_ascii {text : Text} (h : ∀ c ∈ text, c.toNat < 0x80) :
    Utf8.encode text = text.map fun c => UInt8.ofNat c.toNat := by
  unfold Utf8.encode
  induction text with
  | nil => rfl
  | cons c text ih =>
    obtain ⟨hc, htext⟩ := List.forall_mem_cons.mp h
    have hone : String.utf8EncodeChar c = [UInt8.ofNat c.toNat] := by
      simp [String.utf8EncodeChar, Nat.le_of_lt_succ hc]
    rw [List.flatMap_cons, hone, ih htext]
    rfl

theorem latin1_encode {text : Text} (h : ∀ c ∈ text, c.toNat < 0x80) :
    latin1 (Utf8.encode text) = text := by
  have hchar : ∀ c ∈ text, Char.ofNat (UInt8.ofNat c.toNat).toNat = c := by
    intro c hc
    have hbyte : c.toNat < UInt8.size := (h c hc).trans (by decide)
    rw [UInt8.toNat_ofNat_of_lt' hbyte, Char.ofNat_toNat]
  unfold latin1
  rw [encode_ascii h, List.map_map]
  exact (List.map_congr_left hchar).trans (List.map_id' text)

end PyBytes

end Instro.Library
