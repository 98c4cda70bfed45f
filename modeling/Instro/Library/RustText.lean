import Mathlib.Data.List.Basic

/-!
# Rust text

The methods of `str` that take a text apart, and the parsing of unsigned decimal numbers, on lists of
characters. What is written in decimal parses back.
-/

namespace Instro.Library.RustText

/-- `str::strip_prefix` -/
def stripPrefix : List Char → List Char → Option (List Char)
  | [], text => some text
  | _ :: _, [] => none
  | p :: pre, c :: text => if p = c then stripPrefix pre text else none

/-- `str::split_once` of one character: what stands before and after the first one. -/
def splitOnce (sep : Char) : List Char → Option (List Char × List Char)
  | [] => none
  | c :: text =>
    if c = sep then some ([], text)
    else (splitOnce sep text).map fun (before, after) => (c :: before, after)

/-- What is wrong with a text that is to be a number. -/
inductive IntErrorKind
  | empty
  | invalidDigit
  | posOverflow
  deriving DecidableEq, Repr

/-- One more digit of a number below `bound`. -/
def parseDigit (bound n : ℕ) (c : Char) : Except IntErrorKind ℕ :=
  if c.isDigit then
    let n := 10 * n + (c.toNat - '0'.toNat)
    if n < bound then .ok n else .error .posOverflow
  else .error .invalidDigit

/-- `str::parse` of an unsigned type with the values below `bound`. A plus sign may stand in front. -/
def parseUnsigned (bound : ℕ) (text : List Char) : Except IntErrorKind ℕ :=
  match text with
  | [] => .error .empty
  | ['+'] => .error .invalidDigit
  | '+' :: digits => digits.foldlM (parseDigit bound) 0
  | digits => digits.foldlM (parseDigit bound) 0

/-- `to_string` of an unsigned number. -/
def decimal (n : ℕ) : List Char := Nat.toDigits 10 n

section Lemmas

variable {pre text before after digits : List Char} {sep c : Char} {bound n : ℕ}

@[simp] theorem stripPrefix_append : stripPrefix pre (pre ++ text) = some text := by
  induction pre with
  | nil => rfl
  | cons p pre ih => exact (if_pos rfl).trans ih

theorem splitOnce_append (h : sep ∉ before) :
    splitOnce sep (before ++ sep :: after) = some (before, after) := by
  induction before with
  | nil => exact if_pos rfl
  | cons c before ih =>
    rw [List.mem_cons, not_or] at h
    rw [List.cons_append, splitOnce, if_neg (Ne.symm h.1), ih h.2]
    rfl

theorem isDigit_of_mem_decimal (h : c ∈ decimal n) : c.isDigit = true :=
  Nat.isDigit_of_mem_toDigits (by decide) (by decide) h

theorem not_mem_decimal (h : c.isDigit = false) : c ∉ decimal n := by
  intro hmem
  rw [isDigit_of_mem_decimal hmem] at h
  cases h

/-- Digits parse to the number they stand for if it is below the bound. -/
theorem foldlM_parseDigit (hdigits : ∀ c ∈ digits, c.isDigit = true)
    (hbound : Nat.ofDigitChars 10 digits n < bound) :
    digits.foldlM (parseDigit bound) n = .ok (Nat.ofDigitChars 10 digits n) := by
  induction digits generalizing n with
  | nil => rfl
  | cons c digits ih =>
    obtain ⟨hc, hrest⟩ := List.forall_mem_cons.mp hdigits
    rw [Nat.ofDigitChars_cons] at hbound ⊢
    -- the digits that follow only make the number larger
    have hstep : 10 * n + (c.toNat - '0'.toNat) < bound := by
      refine Nat.lt_of_le_of_lt ?_ hbound
      rw [Nat.ofDigitChars_eq_ofDigitChars_zero]
      exact Nat.le_add_right_of_le (Nat.le_mul_of_pos_left _ (Nat.pow_pos (by decide)))
    have hfirst : parseDigit bound n c = .ok (10 * n + (c.toNat - '0'.toNat)) := by
      unfold parseDigit
      rw [if_pos hc]
      exact if_pos hstep
    rw [List.foldlM_cons, hfirst]
    exact ih hrest hbound

/-- **Round trip.** A number below the bound parses back from its decimal digits. -/
theorem parseUnsigned_decimal (h : n < bound) : parseUnsigned bound (decimal n) = .ok n := by
  have hparsed : (decimal n).foldlM (parseDigit bound) 0 = .ok n := by
    have hvalue : Nat.ofDigitChars 10 (decimal n) 0 = n := Nat.ofDigitChars_ten_toDigits
    rw [foldlM_parseDigit (fun c hc => isDigit_of_mem_decimal hc) (hvalue.symm ▸ h), hvalue]
  have hsign : '+' ∉ decimal n := not_mem_decimal rfl
  unfold parseUnsigned
  split
  · rename_i hnil
    exact absurd hnil Nat.toDigits_ne_nil
  · rename_i hplus
    exact absurd (hplus ▸ List.mem_cons_self) hsign
  · rename_i hplus
    exact absurd (hplus ▸ List.mem_cons_self) hsign
  · exact hparsed

end Lemmas

end Instro.Library.RustText
