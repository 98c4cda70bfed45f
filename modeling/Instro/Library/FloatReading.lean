import Instro.Library.Double
import Instro.Library.FloatText

/-!
# What is written reads back

The text of a numeral reads back as the numeral, and the numeral `repr` gives a double reads as the
double.
-/

namespace Instro.Library

/-! ## Digits -/

section Digits

variable {digits digits' : Text} {n : ℕ}

theorem ofNat_eq (n : ℕ) : PyText.ofNat n = Nat.toDigits 10 n := Nat.toList_repr

theorem isDigit_ofNat {c : Char} (h : c ∈ PyText.ofNat n) : PyText.isDigit c = true := by
  rw [ofNat_eq] at h
  exact Nat.isDigit_of_mem_toDigits (by decide) (by decide) h

theorem ofNat_ne_nil (n : ℕ) : PyText.ofNat n ≠ [] := by
  rw [ofNat_eq]
  exact Nat.toDigits_ne_nil

theorem number_ofNat (n : ℕ) : Numeral.number (PyText.ofNat n) = n := by
  rw [ofNat_eq]
  exact Nat.ofDigitChars_ten_toDigits

theorem number_append (digits digits' : Text) : Numeral.number (digits ++ digits') =
    Numeral.number digits * 10 ^ digits'.length + Numeral.number digits' := by
  unfold Numeral.number
  rw [Nat.ofDigitChars_append, Nat.ofDigitChars_eq_ofDigitChars_zero, mul_comm]

theorem number_zeros (k : ℕ) : Numeral.number (List.replicate k '0') = 0 := by
  unfold Numeral.number
  rw [Nat.ofDigitChars_replicate_zero, mul_zero]

theorem number_zeros_append (k : ℕ) (digits : Text) :
    Numeral.number (List.replicate k '0' ++ digits) = Numeral.number digits := by
  rw [number_append, number_zeros, zero_mul, zero_add]

theorem number_append_zeros (digits : Text) (k : ℕ) :
    Numeral.number (digits ++ List.replicate k '0') = Numeral.number digits * 10 ^ k := by
  rw [number_append, number_zeros, add_zero, List.length_replicate]

/-- So many digits stand for less than the power of ten. -/
theorem number_lt (h : ∀ c ∈ digits, PyText.isDigit c = true) :
    Numeral.number digits < 10 ^ digits.length := by
  induction digits using List.reverseRecOn with
  | nil => exact Nat.one_pos
  | append_singleton digits c ih =>
    have hdigits := ih fun d hd => h d (List.mem_append_left _ hd)
    have hc : Numeral.number [c] < 10 := by
      have hdigit : PyText.isDigit c = true := h c (List.mem_append_right _ List.mem_cons_self)
      have hnine : c.toNat ≤ '9'.toNat := (Char.isDigit_iff_toNat.mp hdigit).2
      show 10 * 0 + (c.toNat - '0'.toNat) < 10
      have hchars : '9'.toNat = 57 ∧ '0'.toNat = 48 := ⟨rfl, rfl⟩
      omega
    rw [number_append, List.length_append, List.length_singleton, pow_one, pow_succ]
    omega

/-- The digits of a number are no more than those it is read from. -/
theorem length_ofNat_number (hne : digits ≠ []) (h : ∀ c ∈ digits, PyText.isDigit c = true) :
    (PyText.ofNat (Numeral.number digits)).length ≤ digits.length := by
  rw [ofNat_eq]
  exact (Nat.length_toDigits_le_iff (by decide) (List.length_pos_of_ne_nil hne)).mpr (number_lt h)

/-- The digits of a number that is not zero begin with another digit. -/
theorem head_ofNat (hn : 0 < n) : ∃ c rest, PyText.ofNat n = c :: rest ∧ c ≠ '0' := by
  rw [ofNat_eq]
  induction n using Nat.strong_induction_on with
  | _ n ih =>
    by_cases hless : n < 10
    · have hdigit : ∀ m < 10, 0 < m → Nat.digitChar m ≠ '0' := by decide
      exact ⟨n.digitChar, [], Nat.toDigits_of_lt_base hless, hdigit n hless hn⟩
    · obtain ⟨c, rest, hrest, hc⟩ := ih (n / 10) (by omega) (by omega)
      refine ⟨c, rest ++ [(n % 10).digitChar], ?_, hc⟩
      rw [Nat.toDigits_of_base_le (by decide) (by omega), hrest]
      rfl

/-- Taking the zeros off the end. -/
theorem strip_zeros (digits : Text) : ∃ k, digits =
    digits.rdropWhile (· = '0') ++ List.replicate k '0' := by
  refine ⟨(digits.rtakeWhile (· = '0')).length, ?_⟩
  have hzeros : digits.rtakeWhile (· = '0') =
      List.replicate (digits.rtakeWhile (· = '0')).length '0' := by
    rw [List.eq_replicate_iff]
    refine ⟨rfl, fun c hc => ?_⟩
    simpa using List.mem_rtakeWhile_imp hc
  rw [← hzeros]
  exact List.rdropWhile_append_rtakeWhile.symm

end Digits

/-! ## Numerals -/

namespace Numeral

/-- A text of digits, and at least one. -/
def Digits (digits : Text) : Prop := digits ≠ [] ∧ ∀ c ∈ digits, PyText.isDigit c = true

/-- The parts are such as a reader takes: the whole number is zero or begins with another digit. -/
structure WellFormed (n : Numeral) : Prop where
  whole : n.whole = ['0'] ∨ ∃ c rest, n.whole = c :: rest ∧ c ≠ '0' ∧ Digits (c :: rest)
  fraction : ∀ digits, n.fraction = some digits → Digits digits
  exponent : ∀ negative digits, n.exponent = some (negative, digits) → Digits digits

/-- What stands after a numeral does not go on with it. -/
def Stops (rest : Text) : Prop :=
  ∀ c, rest.head? = some c → PyText.isDigit c = false ∧ c ≠ '.' ∧ c ≠ 'e' ∧ c ≠ 'E'

section Scan

variable {n : Numeral} {digits rest : Text}

theorem takeWhile_digits (hdigits : ∀ c ∈ digits, PyText.isDigit c = true)
    (hrest : ∀ c, rest.head? = some c → PyText.isDigit c = false) :
    (digits ++ rest).takeWhile PyText.isDigit = digits ∧
      (digits ++ rest).dropWhile PyText.isDigit = rest := by
  induction digits with
  | nil =>
    cases rest with
    | nil => exact ⟨rfl, rfl⟩
    | cons c rest =>
      have hc : PyText.isDigit c = false := hrest c rfl
      rw [List.nil_append, List.takeWhile_cons_of_neg (by simp [hc]),
        List.dropWhile_cons_of_neg (by simp [hc])]
      exact ⟨rfl, rfl⟩
  | cons c digits ih =>
    obtain ⟨hc, hdigits⟩ := List.forall_mem_cons.mp hdigits
    obtain ⟨htake, hdrop⟩ := ih hdigits
    rw [List.cons_append, List.takeWhile_cons_of_pos hc, List.dropWhile_cons_of_pos hc, htake, hdrop]
    exact ⟨rfl, rfl⟩

theorem scanExponent_text (hwell : n.WellFormed) (hrest : Stops rest) :
    scanExponent (exponentText n.exponent ++ rest) = (n.exponent, rest) := by
  cases hexponent : n.exponent with
  | none =>
    cases rest with
    | nil => rfl
    | cons c rest =>
      obtain ⟨-, -, he, hE⟩ := hrest c rfl
      exact if_neg fun h => h.1.elim he hE
  | some exponent =>
    obtain ⟨negative, digits⟩ := exponent
    obtain ⟨hne, hdigits⟩ := hwell.exponent negative digits hexponent
    obtain ⟨htake, hdrop⟩ := takeWhile_digits hdigits fun c hc => (hrest c hc).1
    have hsign : scanSign ((exponentText (some (negative, digits)) ++ rest).tail) =
        (negative, digits ++ rest) := by
      cases negative with
      | true => rfl
      | false => rfl
    have htext : exponentText (some (negative, digits)) ++ rest =
        'e' :: (exponentText (some (negative, digits)) ++ rest).tail := by
      cases negative with
      | true => rfl
      | false => rfl
    rw [htext]
    unfold scanExponent
    dsimp only
    rw [hsign, htake, hdrop, if_pos ⟨.inl rfl, hne⟩]

/-- What follows a part goes on with no digit. -/
theorem exponent_head (hrest : Stops rest) (c : Char)
    (hc : (exponentText n.exponent ++ rest).head? = some c) :
    PyText.isDigit c = false ∧ c ≠ '.' := by
  cases hexponent : n.exponent with
  | none =>
    rw [hexponent] at hc
    exact ⟨(hrest c hc).1, (hrest c hc).2.1⟩
  | some exponent =>
    rw [hexponent] at hc
    obtain ⟨negative, digits⟩ := exponent
    cases negative with
    | true =>
      obtain rfl := Option.some.inj hc
      exact ⟨rfl, by decide⟩
    | false =>
      obtain rfl := Option.some.inj hc
      exact ⟨rfl, by decide⟩

theorem scanFraction_text (hwell : n.WellFormed) (hrest : Stops rest) :
    scanFraction (fractionText n.fraction ++ (exponentText n.exponent ++ rest)) =
      (n.fraction, exponentText n.exponent ++ rest) := by
  cases hfraction : n.fraction with
  | none =>
    show scanFraction (exponentText n.exponent ++ rest) = _
    unfold scanFraction
    split
    · rename_i digits heq
      exact absurd rfl (exponent_head (n := n) hrest '.' (by rw [heq]; rfl)).2
    · rfl
  | some digits =>
    obtain ⟨hne, hdigits⟩ := hwell.fraction digits hfraction
    obtain ⟨htake, hdrop⟩ := takeWhile_digits hdigits
      fun c hc => (exponent_head (n := n) hrest c hc).1
    show (if (digits ++ (exponentText n.exponent ++ rest)).takeWhile PyText.isDigit = [] then _
      else (some ((digits ++ (exponentText n.exponent ++ rest)).takeWhile PyText.isDigit),
        (digits ++ (exponentText n.exponent ++ rest)).dropWhile PyText.isDigit)) = _
    rw [htake, hdrop, if_neg hne]

theorem fraction_head (hrest : Stops rest) (c : Char)
    (hc : (fractionText n.fraction ++ (exponentText n.exponent ++ rest)).head? = some c) :
    PyText.isDigit c = false := by
  cases hfraction : n.fraction with
  | none =>
    rw [hfraction] at hc
    exact (exponent_head hrest c hc).1
  | some digits =>
    rw [hfraction] at hc
    obtain rfl := Option.some.inj hc
    rfl

theorem scanWhole_text (hwell : n.WellFormed) (hrest : Stops rest) :
    scanWhole (n.whole ++ (fractionText n.fraction ++ (exponentText n.exponent ++ rest))) =
      some (n.whole, fractionText n.fraction ++ (exponentText n.exponent ++ rest)) := by
  rcases hwell.whole with hzero | ⟨c, more, hwhole, hc, -, hdigits⟩
  · rw [hzero]
    rfl
  · obtain ⟨hfirst, hmore⟩ := List.forall_mem_cons.mp hdigits
    obtain ⟨htake, hdrop⟩ := takeWhile_digits hmore (fraction_head (n := n) hrest)
    rw [hwhole, List.cons_append]
    show (if c = '0' then _ else if PyText.isDigit c then _ else none) = _
    rw [if_neg hc, if_pos hfirst, htake, hdrop]

theorem scanUnsigned_text (hwell : n.WellFormed) (hrest : Stops rest) (negative : Bool) :
    scanUnsigned negative
        (n.whole ++ (fractionText n.fraction ++ (exponentText n.exponent ++ rest))) =
      some (⟨negative, n.whole, n.fraction, n.exponent⟩, rest) := by
  unfold scanUnsigned
  rw [scanWhole_text hwell hrest]
  dsimp only [Option.map]
  rw [scanFraction_text hwell hrest, scanExponent_text hwell hrest]

/-- A whole number begins with a digit. -/
theorem WellFormed.head (hwell : n.WellFormed) :
    ∃ c more, n.whole = c :: more ∧ PyText.isDigit c = true := by
  rcases hwell.whole with hzero | ⟨c, more, hwhole, -, -, hdigits⟩
  · exact ⟨'0', [], hzero, rfl⟩
  · exact ⟨c, more, hwhole, hdigits c List.mem_cons_self⟩

/-- **The text of a numeral reads back as the numeral.** -/
theorem scan_text (hwell : n.WellFormed) (hrest : Stops rest) :
    scan (n.text ++ rest) = some (n, rest) := by
  have hparts := scanUnsigned_text hwell hrest
  obtain ⟨c, more, hwhole, hc⟩ := hwell.head
  obtain ⟨negative, whole, fraction, exponent⟩ := n
  unfold text
  rw [List.append_assoc, List.append_assoc, List.append_assoc]
  cases negative with
  | true => exact hparts true
  | false =>
    obtain rfl : whole = c :: more := hwhole
    have hsign : ¬(some c = some '-') := by
      rintro hc'
      obtain rfl := Option.some.inj hc'
      cases hc
    exact (if_neg hsign).trans (hparts false)

/-! ### What is read -/

theorem digits_takeWhile (text : Text) : ∀ c ∈ text.takeWhile PyText.isDigit, PyText.isDigit c = true :=
  fun _ => List.mem_takeWhile_imp

theorem digits_of_scanWhole {text whole : Text} (h : scanWhole text = some (whole, rest)) :
    Digits whole := by
  cases text with
  | nil => cases h
  | cons c more =>
    unfold scanWhole at h
    dsimp only at h
    split_ifs at h with hzero hdigit
    · obtain ⟨rfl, -⟩ := Prod.mk.inj (Option.some.inj h)
      rw [hzero]
      exact ⟨List.cons_ne_nil _ _, List.forall_mem_singleton.mpr rfl⟩
    · obtain ⟨rfl, -⟩ := Prod.mk.inj (Option.some.inj h)
      exact ⟨List.cons_ne_nil _ _, List.forall_mem_cons.mpr ⟨hdigit, digits_takeWhile more⟩⟩

theorem digits_of_scanUnsigned {negative : Bool} {text : Text}
    (h : scanUnsigned negative text = some (n, rest)) : Digits n.whole := by
  unfold scanUnsigned at h
  obtain ⟨⟨whole, after⟩, hwhole, hn⟩ := Option.map_eq_some_iff.mp h
  obtain ⟨rfl, -⟩ := Prod.mk.inj hn
  exact digits_of_scanWhole hwhole

/-- The whole number that is read has a digit. -/
theorem digits_of_scan {text : Text} (h : scan text = some (n, rest)) : Digits n.whole := by
  unfold scan at h
  split_ifs at h
  · exact digits_of_scanUnsigned h
  · exact digits_of_scanUnsigned h

end Scan

end Numeral

/-! ## The digits of a float -/

/-- The digits of a number that is not zero, without the zeros at the end. -/
structure Significant (digits : Text) (n k : ℕ) : Prop where
  isDigits : Numeral.Digits digits
  head : ∃ c rest, digits = c :: rest ∧ c ≠ '0'
  number : Numeral.number digits * 10 ^ k = n
  length : (PyText.ofNat n).length = digits.length + k

theorem exists_significant {n : ℕ} (hn : 0 < n) :
    ∃ k, Significant ((PyText.ofNat n).rdropWhile (· = '0')) n k := by
  obtain ⟨k, hk⟩ := strip_zeros (PyText.ofNat n)
  obtain ⟨c, rest, hhead, hc⟩ := head_ofNat hn
  set digits := (PyText.ofNat n).rdropWhile (· = '0') with hdigits
  have hne : digits ≠ [] := by
    intro hnil
    rw [hnil, List.nil_append, hhead] at hk
    have hmem : c ∈ List.replicate k '0' := hk ▸ List.mem_cons_self
    exact hc (List.eq_of_mem_replicate hmem)
  refine ⟨k, ⟨hne, fun d hd => ?_⟩, ?_, ?_, ?_⟩
  · apply isDigit_ofNat (n := n)
    rw [hk]
    exact List.mem_append_left _ hd
  · cases hcases : digits with
    | nil => exact absurd hcases hne
    | cons d more =>
      rw [hcases, hhead] at hk
      obtain ⟨rfl, -⟩ := List.cons.inj hk
      exact ⟨c, more, rfl, hc⟩
  · have hnumber := congrArg Numeral.number hk
    rw [number_append_zeros, number_ofNat] at hnumber
    exact hnumber.symm
  · conv_lhs => rw [hk]
    rw [List.length_append, List.length_replicate]

section Shown

variable {digits : Text} {n k : ℕ} {negative : Bool} {point scale : ℤ}

theorem digits_zeros (k : ℕ) {digits : Text} (h : Numeral.Digits digits) :
    Numeral.Digits (List.replicate k '0' ++ digits) := by
  refine ⟨by simp [h.1], fun c hc => ?_⟩
  rcases List.mem_append.mp hc with hc | hc
  · rw [List.eq_of_mem_replicate hc]
    rfl
  · exact h.2 c hc

/-- What `repr` writes for a float: a numeral that is not an integer, with this sign and magnitude. -/
structure Writes (written : Numeral) (negative : Bool) (magnitude : ℚ) : Prop where
  wellFormed : written.WellFormed
  isInt : written.isInt = false
  negative : written.negative = negative
  magnitude : written.magnitude = magnitude

/-- The value of the number in its significant digits. -/
theorem Significant.value (h : Significant digits n k) (scale : ℤ) :
    (n : ℚ) * 10 ^ scale = Numeral.number digits * 10 ^ (k + scale) := by
  rw [← h.number, zpow_add₀ (by norm_num), zpow_natCast]
  push_cast
  ring

theorem Significant.whole (h : Significant digits n k) {front : Text} (hfront : front ≠ [])
    (hbegins : front <+: digits ++ List.replicate (front.length - digits.length) '0') :
    ∃ c rest, front = c :: rest ∧ c ≠ '0' ∧ Numeral.Digits (c :: rest) := by
  obtain ⟨c, rest, hdigits, hc⟩ := h.head
  cases front with
  | nil => exact absurd rfl hfront
  | cons d more =>
    rw [hdigits, List.cons_append] at hbegins
    obtain ⟨rfl, -⟩ := List.cons_prefix_cons.mp hbegins
    refine ⟨d, more, rfl, hc, nofun, fun c' hc' => ?_⟩
    rw [← List.cons_append, ← hdigits] at hbegins
    rcases List.mem_append.mp (hbegins.subset hc') with hmem | hmem
    · exact h.isDigits.2 c' hmem
    · rw [List.eq_of_mem_replicate hmem]
      rfl

/-- The numeral has the significant digits, with `j` zeros after them, and the scale that goes with
them. -/
theorem Significant.writes (h : Significant digits n k) {written : Numeral} {j : ℕ}
    (hwell : written.WellFormed) (hint : written.isInt = false)
    (hnumber : Numeral.number (written.whole ++ written.fraction.getD []) =
      Numeral.number digits * 10 ^ j) (hscale : written.scale + j = k + scale) :
    Writes written written.negative (n * 10 ^ scale) := by
  refine ⟨hwell, hint, rfl, ?_⟩
  unfold Numeral.magnitude
  rw [hnumber, h.value, ← hscale, add_comm written.scale, zpow_add₀ (by norm_num), zpow_natCast]
  push_cast
  ring

theorem writes_positional (h : Significant digits n k) (hpoint : point = digits.length + k + scale) :
    Writes (positional negative digits point) negative (n * 10 ^ scale) := by
  have hlength : 0 < digits.length := List.length_pos_of_ne_nil h.isDigits.1
  unfold positional
  split_ifs with hsmall hlarge
  · -- zeros between the point and the digits
    refine h.writes (j := 0) ⟨.inl rfl, ?_, nofun⟩ rfl ?_ ?_
    · intro fraction hfraction
      obtain rfl := Option.some.inj hfraction
      exact digits_zeros (-point).toNat h.isDigits
    · rw [pow_zero, mul_one]
      exact number_zeros_append ((-point).toNat + 1) digits
    · unfold Numeral.scale
      simp only [Option.getD_some, List.length_append, List.length_replicate]
      omega
  · -- zeros between the digits and the point
    refine h.writes (j := point.toNat - digits.length + 1)
      ⟨.inr (h.whole (by simp [h.isDigits.1]) ?_), ?_, nofun⟩ rfl ?_ ?_
    · rw [List.length_append, List.length_replicate, Nat.add_sub_cancel_left]
    · intro fraction hfraction
      obtain rfl := Option.some.inj hfraction
      exact ⟨nofun, List.forall_mem_singleton.mpr rfl⟩
    · show Numeral.number (digits ++ List.replicate _ '0' ++ List.replicate 1 '0') = _
      rw [List.append_assoc, List.replicate_append_replicate, number_append_zeros]
    · unfold Numeral.scale
      simp only [Option.getD_some, List.length_singleton]
      omega
  · -- the point is among the digits
    have hfront : digits.take point.toNat ≠ [] := by
      rw [Ne, List.take_eq_nil_iff]
      rintro (hzero | hnil)
      · omega
      · exact h.isDigits.1 hnil
    refine h.writes (j := 0) ⟨.inr (h.whole hfront ?_), ?_, nofun⟩ rfl ?_ ?_
    · exact (List.take_prefix _ _).trans (List.prefix_append _ _)
    · intro fraction hfraction
      obtain rfl := Option.some.inj hfraction
      refine ⟨?_, fun c hc => h.isDigits.2 c (List.mem_of_mem_drop hc)⟩
      rw [Ne, List.drop_eq_nil_iff]
      omega
    · rw [pow_zero, mul_one]
      exact congrArg Numeral.number (List.take_append_drop _ digits)
    · unfold Numeral.scale
      simp only [Option.getD_some, List.length_drop]
      omega

theorem afterPoint_getD (digits : Text) : (afterPoint digits).getD [] = digits := by
  unfold afterPoint
  split_ifs with hnil
  · exact hnil.symm
  · rfl

theorem afterPoint_eq_some {fraction : Text} (h : afterPoint digits = some fraction) :
    digits ≠ [] ∧ digits = fraction := by
  unfold afterPoint at h
  split_ifs at h with hnil
  exact ⟨hnil, Option.some.inj h⟩

theorem number_padded (width n : ℕ) : Numeral.number (padded width n) = n := by
  unfold padded
  rw [number_zeros_append, number_ofNat]

theorem digits_padded (width n : ℕ) : Numeral.Digits (padded width n) :=
  digits_zeros _ ⟨ofNat_ne_nil n, fun _ hc => isDigit_ofNat hc⟩

theorem writes_scientific (h : Significant digits n k)
    (hpoint : point = digits.length + k + scale) :
    Writes (scientific negative digits (point - 1)) negative (n * 10 ^ scale) := by
  obtain ⟨c, rest, rfl, hc⟩ := h.head
  refine h.writes (j := 0) ⟨.inr ⟨c, [], rfl, hc, nofun, ?_⟩, ?_, ?_⟩ (Bool.and_false _) ?_ ?_
  · intro d hd
    obtain rfl := List.mem_singleton.mp hd
    exact h.isDigits.2 d List.mem_cons_self
  · intro fraction hfraction
    obtain ⟨hne, rfl⟩ := afterPoint_eq_some hfraction
    exact ⟨hne, fun d hd => h.isDigits.2 d (List.mem_cons_of_mem _ hd)⟩
  · intro sign exponent hexponent
    obtain ⟨-, rfl⟩ := Prod.mk.inj (Option.some.inj hexponent)
    exact digits_padded 2 _
  · rw [pow_zero, mul_one]
    show Numeral.number ([c] ++ (afterPoint rest).getD []) = _
    rw [afterPoint_getD]
    rfl
  · show (if decide (point - 1 < 0) then _ else _) - (((afterPoint rest).getD []).length : ℤ) + _ = _
    rw [afterPoint_getD, number_padded]
    simp only [List.length_cons] at hpoint
    simp only [decide_eq_true_eq]
    split_ifs <;> omega

theorem writes_shown (negative : Bool) {n : ℕ} (hn : 0 < n) (scale : ℤ) :
    Writes (shown negative n scale) negative (n * 10 ^ scale) := by
  obtain ⟨k, h⟩ := exists_significant hn
  have hpoint : ((PyText.ofNat n).length : ℤ) + scale =
      ((PyText.ofNat n).rdropWhile (· = '0')).length + k + scale := by
    rw [h.length]
    push_cast
    rfl
  unfold shown
  dsimp only
  split_ifs
  · exact writes_scientific h hpoint
  · exact writes_positional h hpoint

end Shown

/-! ## Doubles -/

section Doubles

variable {q : ℚ}

/-- What `float` reads is a double. -/
theorem Numeral.isFloat_toFloat (n : Numeral) : FloatFormat.binary64.IsFloat (n.toFloat double) := by
  unfold Numeral.toFloat
  split_ifs with hzero
  · unfold PyFloat.zero
    split_ifs
    · trivial
    · exact FloatFormat.isFloat_zero FloatFormat.binary64_proper
  · exact FloatFormat.isFloat_round FloatFormat.binary64_proper _
  · exact FloatFormat.isFloat_round FloatFormat.binary64_proper _

/-- A fraction with a power of two below it has finitely many decimals. -/
theorem exists_decimal {d j M : ℕ} (h : |q| * 2 ^ d = M) (hdj : d ≤ j) :
    ∃ N : ℕ, |q| * 10 ^ j = N := by
  refine ⟨M * 5 ^ d * 10 ^ (j - d), ?_⟩
  have hten : (10 : ℚ) ^ j = 2 ^ d * 5 ^ d * 10 ^ (j - d) := by
    rw [← mul_pow, ← pow_sub_mul_pow 10 hdj]
    norm_num [mul_comm]
  push_cast
  rw [hten, ← h]
  ring

/-- A double is a multiple of the least one. -/
theorem IsFloat.scaled (h : FloatFormat.binary64.IsFloat (.finite q)) :
    ∃ M : ℕ, |q| * 2 ^ 1074 = M := by
  obtain ⟨m, k, habs, -, -, hk⟩ := h
  have hmin : FloatFormat.binary64.minExponent = -1022 := by decide
  have hbits : FloatFormat.binary64.fractionBits = 52 := rfl
  rw [hmin, hbits] at hk
  refine ⟨m * 2 ^ (k + 1074).toNat, ?_⟩
  have hsum : (((k + 1074).toNat : ℕ) : ℤ) = k + (1074 : ℕ) := by omega
  rw [habs, mul_assoc, ← zpow_natCast (2 : ℚ) 1074, ← zpow_add₀ two_ne_zero]
  push_cast
  rw [← zpow_natCast (2 : ℚ) (k + 1074).toNat, hsum]
  rfl

theorem IsFloat.log_lt (hq : q ≠ 0) (h : FloatFormat.binary64.IsFloat (.finite q)) :
    Int.log 10 |q| < 342 := by
  have hlimit : |q| < 2 ^ 1024 := by
    refine h.lt_limit.trans ?_
    have hstep : (0 : ℚ) < 2 ^ ((FloatFormat.binary64.bias : ℤ) -
        FloatFormat.binary64.fractionBits - 1) := zpow_pos two_pos _
    unfold FloatFormat.limit
    have hbias : FloatFormat.binary64.bias + 1 = 1024 := by decide
    rw [hbias]
    exact sub_lt_self _ hstep
  have hpower : (2 : ℚ) ^ 1024 ≤ 10 ^ 342 := by
    calc (2 : ℚ) ^ 1024 = 2 * 8 ^ 341 := by
          rw [show (8 : ℚ) = 2 ^ 3 by norm_num, ← pow_mul, ← pow_succ']
      _ ≤ 10 * 10 ^ 341 := by
          apply mul_le_mul (by norm_num) (pow_le_pow_left₀ (by norm_num) (by norm_num) 341)
          · positivity
          · norm_num
      _ = 10 ^ 342 := (pow_succ' 10 341).symm
  apply (Int.lt_zpow_iff_log_lt (by norm_num) (abs_pos.mpr hq)).mp
  exact_mod_cast hlimit.trans_le hpower

/-- The digits of a number of this scale read back. -/
theorem readsBack_of_eq {n : ℕ} {scale : ℤ} (h : FloatFormat.binary64.IsFloat (.finite q))
    (hn : |q| = n * 10 ^ scale) : readsBack double q n scale = true := by
  unfold readsBack
  rw [decide_eq_true_iff]
  have hq : (if q < 0 then -(n * 10 ^ scale) else n * 10 ^ scale : ℚ) = q := by
    rw [← hn]
    split_ifs with hneg
    · rw [abs_of_neg hneg, neg_neg]
    · exact abs_of_nonneg (not_lt.mp hneg)
  rw [hq]
  exact FloatFormat.round_of_isFloat FloatFormat.binary64_proper h

/-- With all its decimals a double reads back. -/
theorem withDigits_isSome (hq : q ≠ 0) (h : FloatFormat.binary64.IsFloat (.finite q)) :
    (withDigits double q 1499).isSome = true := by
  obtain ⟨M, hM⟩ := IsFloat.scaled h
  have hlog := IsFloat.log_lt hq h
  obtain ⟨j, hj⟩ : ∃ j : ℕ, Int.log 10 |q| - (1499 : ℕ) = -(j : ℤ) :=
    ⟨(-(Int.log 10 |q| - (1499 : ℕ))).toNat, by omega⟩
  obtain ⟨N, hN⟩ := exists_decimal hM (show 1074 ≤ j by omega)
  have hscaled : |q| / 10 ^ (-(j : ℤ)) = ((N : ℤ) : ℚ) := by
    rw [zpow_neg, zpow_natCast, div_inv_eq_mul, hN]
    rfl
  have hvalue : |q| = N * 10 ^ (-(j : ℤ)) := by
    rw [zpow_neg, zpow_natCast, ← hN]
    field_simp
  unfold withDigits
  dsimp only
  rw [hj, Option.isSome_map, List.find?_isSome]
  refine ⟨N, ?_, readsBack_of_eq h hvalue⟩
  unfold neighbours
  dsimp only
  rw [hscaled, roundHalfEven_intCast, Int.toNat_natCast]
  exact List.mem_cons_self

/-- `repr` finds digits that read back. -/
theorem exists_shortest (hq : q ≠ 0) (h : FloatFormat.binary64.IsFloat (.finite q)) :
    ∃ n scale, shortest double q = some (n, scale) ∧ readsBack double q n scale = true ∧ 0 < n := by
  have hsome : (shortest double q).isSome = true := by
    unfold shortest
    rw [List.findSome?_isSome_iff]
    exact ⟨1499, List.mem_range.mpr (by omega), withDigits_isSome hq h⟩
  obtain ⟨⟨n, scale⟩, hshortest⟩ := Option.isSome_iff_exists.mp hsome
  obtain ⟨more, -, hmore⟩ := List.exists_of_findSome?_eq_some hshortest
  unfold withDigits at hmore
  obtain ⟨digits, hfound, hdigits⟩ := Option.map_eq_some_iff.mp hmore
  obtain ⟨rfl, rfl⟩ := Prod.mk.inj hdigits
  have hback := List.find?_some hfound
  refine ⟨digits, _, hshortest, hback, Nat.pos_of_ne_zero ?_⟩
  -- zero reads as zero
  rintro rfl
  unfold readsBack at hback
  rw [decide_eq_true_iff] at hback
  have hzero : double 0 = .finite ((0 : ℤ) : ℚ) := by
    rw [← Int.cast_zero]
    exact double.round_int 0 (by norm_num)
  rw [Nat.cast_zero, zero_mul, neg_zero, ite_self, hzero] at hback
  exact hq (by simpa using (PyFloat.finite.inj hback).symm)

/-- **What `repr` writes reads back.** The numeral of a finite double is none of an integer, and
`float` of it is the double. -/
theorem numeral_reads {x : PyFloat} (hx : x.value? = some q) (h : FloatFormat.binary64.IsFloat x) :
    (numeral double x q).WellFormed ∧ (numeral double x q).isInt = false ∧
      (numeral double x q).toFloat double = x := by
  unfold numeral
  split_ifs with hzero
  · have hnumber : Numeral.magnitude ⟨x.isNegative, ['0'], some ['0'], none⟩ = 0 :=
      zero_mul _
    refine ⟨⟨.inl rfl, ?_, nofun⟩, rfl, (if_pos hnumber).trans ?_⟩
    · intro fraction hfraction
      obtain rfl := Option.some.inj hfraction
      exact ⟨nofun, List.forall_mem_singleton.mpr rfl⟩
    · subst hzero
      cases x with
      | finite p =>
        obtain rfl := Option.some.inj hx
        rfl
      | negZero => rfl
      | inf negative => cases hx
      | nan => cases hx
  · obtain rfl : x = .finite q := by
      cases x with
      | finite p => exact congrArg _ (Option.some.inj hx)
      | negZero => exact absurd (Option.some.inj hx).symm hzero
      | inf negative => cases hx
      | nan => cases hx
    obtain ⟨n, scale, hshortest, hback, hn⟩ := exists_shortest hzero h
    obtain ⟨hwell, hint, hnegative, hmagnitude⟩ := writes_shown (q < 0) hn scale
    rw [hshortest]
    refine ⟨hwell, hint, ?_⟩
    have hne : (n : ℚ) * 10 ^ scale ≠ 0 :=
      mul_ne_zero (Nat.cast_ne_zero.mpr hn.ne') (zpow_ne_zero _ (by norm_num))
    unfold readsBack at hback
    rw [decide_eq_true_iff] at hback
    unfold Numeral.toFloat
    rw [hnegative, hmagnitude, if_neg hne]
    simp only [decide_eq_true_eq]
    exact hback

end Doubles

end Instro.Library
