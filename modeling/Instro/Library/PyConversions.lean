import Instro.Library.FloatReading
import Instro.Library.PyBytes
import Instro.Library.TextParts
import Mathlib.Data.Bool.AllAny

/-!
# Conversions between floats and text

What `str.upper` does to ASCII and `float` to the texts that Python itself writes of a float, so that a number
that is written by one party and read by another is the number to the places written.
-/

namespace Instro.Library

/-- What is documented of the conversions: ASCII is mapped to uppercase letter by letter, and `float` reads
numerals and the names of the values that have none. -/
structure PyText.Documented (py : PyText) (fl : Rounding) : Prop extends py.CaseMapping where
  upper_ascii : ∀ c : Char, c.toNat < 0x80 → py.upperChar c = [c.toUpper]
  float_numeral : ∀ n : Numeral, n.WellFormed → py.float n.text = some (n.toFloat fl)
  float_inf : ∀ negative, py.float (signText negative ++ "inf".toList) = some (.inf negative)
  float_nan : py.float "nan".toList = some .nan

section Documented

variable {py : PyText} {fl : Rounding} {text : Text} {x : PyFloat} {q : ℚ} {digits : ℕ}

theorem PyText.Documented.upper_eq_map (hpy : py.Documented fl) (h : ∀ c ∈ text, c.toNat < 0x80) :
    py.upper text = text.map Char.toUpper := by
  induction text with
  | nil => rfl
  | cons c text ih =>
    obtain ⟨hc, htext⟩ := List.forall_mem_cons.mp h
    show py.upperChar c ++ py.upper text = _
    rw [hpy.upper_ascii c hc, ih htext]
    rfl

/-! ## Numbers to so many places -/

/-- The numeral of `f"{x:.{digits}f}"` for a finite float of the value `q`. -/
def fixedNumeral (digits : ℕ) (x : PyFloat) (q : ℚ) : Numeral :=
  let scaled := (roundHalfEven (|q| * 10 ^ digits)).toNat
  ⟨x.isNegative, PyText.ofNat (scaled / 10 ^ digits), some (padded digits (scaled % 10 ^ digits)), none⟩

theorem fixed_eq_text (hx : x.value? = some q) (digits : ℕ) :
    x.fixed digits = (fixedNumeral digits x q).text := by
  unfold PyFloat.fixed
  rw [hx]
  simp [fixedNumeral, Numeral.text, Numeral.fractionText, Numeral.exponentText]

/-- The float with so many digits after the point, as it reads back. -/
def PyFloat.toPlaces (fl : Rounding) (digits : ℕ) (x : PyFloat) : PyFloat :=
  match x.value? with
  | some q => (fixedNumeral digits x q).toFloat fl
  | none => x

theorem whole_ofNat (n : ℕ) : PyText.ofNat n = ['0'] ∨
    ∃ c rest, PyText.ofNat n = c :: rest ∧ c ≠ '0' ∧ Numeral.Digits (c :: rest) := by
  rcases Nat.eq_zero_or_pos n with rfl | hn
  · exact .inl rfl
  · obtain ⟨c, rest, hdigits, hc⟩ := head_ofNat hn
    refine .inr ⟨c, rest, hdigits, hc, List.cons_ne_nil _ _, ?_⟩
    rw [← hdigits]
    exact fun d hd => isDigit_ofNat hd

theorem wellFormed_fixedNumeral (digits : ℕ) (x : PyFloat) (q : ℚ) :
    (fixedNumeral digits x q).WellFormed where
  whole := whole_ofNat _
  fraction fraction h := by
    obtain rfl := Option.some.inj h
    exact digits_padded _ _
  exponent _ _ h := nomatch h

/-- **What is written to so many places reads back to these places.** -/
theorem float_fixed (hpy : py.Documented fl) (digits : ℕ) (x : PyFloat) :
    py.float (x.fixed digits) = some (x.toPlaces fl digits) := by
  cases hx : x.value? with
  | some q =>
    rw [fixed_eq_text hx, hpy.float_numeral _ (wellFormed_fixedNumeral digits x q)]
    unfold PyFloat.toPlaces
    rw [hx]
  | none =>
    unfold PyFloat.fixed PyFloat.toPlaces
    rw [hx]
    cases x with
    | finite q => cases hx
    | negZero => cases hx
    | inf negative => exact hpy.float_inf negative
    | nan => exact hpy.float_nan

/-- A double that is written with `repr` reads back. -/
theorem float_repr (hpy : py.Documented double) (h : FloatFormat.binary64.IsFloat x) :
    py.float (x.repr double) = some x := by
  unfold PyFloat.repr
  cases hx : x.value? with
  | some q =>
    obtain ⟨hwell, -, hread⟩ := numeral_reads hx h
    show py.float (numeral double x q).text = some x
    rw [hpy.float_numeral _ hwell, hread]
  | none =>
    cases x with
    | finite q => cases hx
    | negZero => cases hx
    | inf negative => exact hpy.float_inf negative
    | nan => exact hpy.float_nan

/-- What is read of a float to so many places is a double. -/
theorem isFloat_toPlaces (digits : ℕ) (x : PyFloat) :
    FloatFormat.binary64.IsFloat (x.toPlaces double digits) := by
  unfold PyFloat.toPlaces
  cases hx : x.value? with
  | some q => exact (fixedNumeral digits x q).isFloat_toFloat
  | none =>
    cases x with
    | finite q => cases hx
    | negZero => cases hx
    | inf negative => trivial
    | nan => trivial

end Documented

/-! ## ASCII -/

section Ascii

variable {text : Text}

theorem toNat_lt_of_isDigit {c : Char} (h : PyText.isDigit c = true) : c.toNat < 0x80 := by
  unfold PyText.isDigit Char.isDigit at h
  simp only [Bool.and_eq_true, decide_eq_true_eq, ge_iff_le, UInt32.le_iff_toNat_le] at h
  have hnine : '9'.val.toNat = 57 := rfl
  show c.val.toNat < 0x80
  omega

theorem ascii_signText (negative : Bool) : ∀ c ∈ signText negative, c.toNat < 0x80 := by
  cases negative with
  | true => exact List.forall_mem_singleton.mpr (by decide)
  | false => exact fun _ h => absurd h List.not_mem_nil

/-- A numeral is written in ASCII. -/
theorem Numeral.WellFormed.ascii {n : Numeral} (h : n.WellFormed) : ∀ c ∈ n.text, c.toNat < 0x80 := by
  have hdigits : ∀ {digits}, Numeral.Digits digits → ∀ c ∈ digits, c.toNat < 0x80 :=
    fun h c hc => toNat_lt_of_isDigit (h.2 c hc)
  have hwhole : ∀ c ∈ n.whole, c.toNat < 0x80 := by
    rcases h.whole with hzero | ⟨c, rest, hrest, -, hall⟩
    · rw [hzero]
      exact List.forall_mem_singleton.mpr (by decide)
    · rw [hrest]
      exact hdigits hall
  have hfraction : ∀ c ∈ Numeral.fractionText n.fraction, c.toNat < 0x80 := by
    cases hn : n.fraction with
    | none => exact fun _ h => absurd h List.not_mem_nil
    | some digits => exact List.forall_mem_cons.mpr ⟨by decide, hdigits (h.fraction digits hn)⟩
  have hexponent : ∀ c ∈ Numeral.exponentText n.exponent, c.toNat < 0x80 := by
    cases hn : n.exponent with
    | none => exact fun _ h => absurd h List.not_mem_nil
    | some exponent =>
      obtain ⟨negative, digits⟩ := exponent
      have hall := hdigits (h.exponent negative digits hn)
      cases negative with
      | true => exact List.forall_mem_cons.mpr ⟨by decide, List.forall_mem_cons.mpr ⟨by decide, hall⟩⟩
      | false => exact List.forall_mem_cons.mpr ⟨by decide, List.forall_mem_cons.mpr ⟨by decide, hall⟩⟩
  unfold Numeral.text
  simp only [List.forall_mem_append]
  exact ⟨ascii_signText n.negative, hwhole, hfraction, hexponent⟩

/-- A double is written in ASCII. -/
theorem ascii_repr {x : PyFloat} (h : FloatFormat.binary64.IsFloat x) :
    ∀ c ∈ x.repr double, c.toNat < 0x80 := by
  unfold PyFloat.repr
  cases hx : x.value? with
  | some q =>
    obtain ⟨hwell, -, -⟩ := numeral_reads hx h
    exact hwell.ascii
  | none =>
    cases x with
    | finite q => cases hx
    | negZero => cases hx
    | inf negative => exact List.forall_mem_append.mpr ⟨ascii_signText negative,
        List.all_iff_forall_prop.mp (by decide)⟩
    | nan => exact List.all_iff_forall_prop.mp (by decide)

/-- ASCII comes through the wire as it is. -/
theorem decode_encode_ascii (h : ∀ c ∈ text, c.toNat < 0x80) :
    Utf8.decode (Utf8.encode text) = text := by
  have hbytes : ∀ c ∈ text, (UInt8.ofNat c.toNat).toNat = c.toNat := by
    intro c hc
    exact UInt8.toNat_ofNat_of_lt' ((h c hc).trans (by decide))
  rw [PyBytes.encode_ascii h, Utf8.decode_ascii, List.map_map]
  · refine (List.map_congr_left fun c hc => ?_).trans (List.map_id text)
    show Char.ofNat (UInt8.ofNat c.toNat).toNat = c
    rw [hbytes c hc, Char.ofNat_toNat]
  · rw [List.forall_mem_map]
    intro c hc
    rw [hbytes c hc]
    exact h c hc

/-- A text between two characters that are no spaces is stripped of what spaces follow it. -/
theorem strip_append_spaces {spaces : Text} (hne : text ≠ [])
    (hhead : PyText.isSpace (text.head hne) = false)
    (hlast : PyText.isSpace (text.getLast hne) = false)
    (hspaces : ∀ c ∈ spaces, PyText.isSpace c = true) : PyText.strip (text ++ spaces) = text := by
  obtain ⟨c, rest, rfl⟩ := List.exists_cons_of_ne_nil hne
  have hhead : PyText.isSpace c = false := hhead
  unfold PyText.strip
  rw [List.cons_append, List.dropWhile_cons_of_neg (by simp [hhead]), ← List.cons_append]
  unfold List.rdropWhile
  rw [List.reverse_append, List.dropWhile_append_of_pos (fun c hc =>
    hspaces c (List.mem_reverse.mp hc))]
  have hkeep := List.rdropWhile_eq_self_iff (p := PyText.isSpace) (l := c :: rest)
  exact hkeep.mpr fun _ => by simp [hlast]

end Ascii

end Instro.Library
