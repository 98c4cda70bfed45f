import Instro.Library.PyText
import Mathlib.Data.Int.Log

/-!
# Numbers as Python writes and reads them

`repr` gives a float the shortest digits that read back as the float, of these the ones nearest to it;
`f"{x:.3f}"` gives it so many digits after the point. Reading takes a numeral from the front of a text:
a whole number, a fraction and an exponent.
-/

namespace Instro.Library

/-- `str` of an integer. -/
def intText : ℤ → Text
  | .ofNat n => PyText.ofNat n
  | .negSucc n => '-' :: PyText.ofNat (n + 1)

/-- The sign as it is written. -/
def signText (negative : Bool) : Text := if negative then ['-'] else []

/-- A natural number with zeros before it, up to `width` digits. -/
def padded (width n : ℕ) : Text :=
  List.replicate (width - (PyText.ofNat n).length) '0' ++ PyText.ofNat n

/-- `f"{x:.{digits}f}"`, with one digit after the point or more. -/
def PyFloat.fixed (digits : ℕ) (x : PyFloat) : Text :=
  match x.value? with
  | some q =>
    let scaled := (roundHalfEven (|q| * 10 ^ digits)).toNat
    signText x.isNegative ++ PyText.ofNat (scaled / 10 ^ digits) ++ '.' ::
      padded digits (scaled % 10 ^ digits)
  | none =>
    match x with
    | .inf negative => signText negative ++ "inf".toList
    | _ => "nan".toList

/-! ## Numerals -/

/-- The parts of a number as it is written: digits, digits after a point, digits after an `e`. -/
structure Numeral where
  negative : Bool
  whole : Text
  fraction : Option Text
  exponent : Option (Bool × Text)
  deriving DecidableEq

namespace Numeral

variable (n : Numeral)

/-- The exponent is written with its sign. -/
def exponentText : Option (Bool × Text) → Text
  | none => []
  | some (true, digits) => 'e' :: '-' :: digits
  | some (false, digits) => 'e' :: '+' :: digits

def fractionText : Option Text → Text
  | none => []
  | some digits => '.' :: digits

def text : Text :=
  signText n.negative ++ (n.whole ++ (fractionText n.fraction ++ exponentText n.exponent))

/-- The number that digits stand for. -/
def number (digits : Text) : ℕ := Nat.ofDigitChars 10 digits 0

/-- The power of ten of the last digit. -/
def scale : ℤ :=
  (match n.exponent with
  | none => 0
  | some (negative, digits) => if negative then -(number digits : ℤ) else number digits) -
    (n.fraction.getD []).length

/-- The magnitude of the number. -/
def magnitude : ℚ := number (n.whole ++ n.fraction.getD []) * 10 ^ n.scale

/-- `float` of the text -/
def toFloat (fl : Rounding) : PyFloat :=
  if n.magnitude = 0 then .zero n.negative else fl (if n.negative then -n.magnitude else n.magnitude)

/-- A numeral without a point or an exponent is an integer. -/
def isInt : Bool := n.fraction.isNone && n.exponent.isNone

/-- `int` of the text -/
def toInt : ℤ := if n.negative then -(number n.whole : ℤ) else number n.whole

/-! ### Reading -/

/-- A zero, or digits of which the first is none. -/
def scanWhole : Text → Option (Text × Text)
  | [] => none
  | c :: rest =>
    if c = '0' then some ([c], rest)
    else if PyText.isDigit c then
      some (c :: rest.takeWhile PyText.isDigit, rest.dropWhile PyText.isDigit)
    else none

def scanFraction : Text → Option Text × Text
  | '.' :: rest =>
    if rest.takeWhile PyText.isDigit = [] then (none, '.' :: rest)
    else (some (rest.takeWhile PyText.isDigit), rest.dropWhile PyText.isDigit)
  | text => (none, text)

/-- The sign of an exponent, which may be left out. -/
def scanSign : Text → Bool × Text
  | '-' :: rest => (true, rest)
  | '+' :: rest => (false, rest)
  | text => (false, text)

def scanExponent : Text → Option (Bool × Text) × Text
  | [] => (none, [])
  | c :: rest =>
    let sign := scanSign rest
    if (c = 'e' ∨ c = 'E') ∧ sign.2.takeWhile PyText.isDigit ≠ [] then
      (some (sign.1, sign.2.takeWhile PyText.isDigit), sign.2.dropWhile PyText.isDigit)
    else (none, c :: rest)

def scanUnsigned (negative : Bool) (text : Text) : Option (Numeral × Text) :=
  (scanWhole text).map fun (whole, rest) =>
    let fraction := scanFraction rest
    let exponent := scanExponent fraction.2
    (⟨negative, whole, fraction.1, exponent.1⟩, exponent.2)

/-- The numeral at the front of a text, and what stands after it. -/
def scan (text : Text) : Option (Numeral × Text) :=
  if text.head? = some '-' then scanUnsigned true text.tail else scanUnsigned false text

end Numeral

/-! ## `repr` -/

section Repr

variable (fl : Rounding)

/-- The two numbers of this scale next to `q ≥ 0`, the nearer one first. -/
def neighbours (q : ℚ) (scale : ℤ) : List ℕ :=
  let nearest := roundHalfEven (q / 10 ^ scale)
  let lower := ⌊q / 10 ^ scale⌋
  [nearest.toNat, (if nearest = lower then lower + 1 else lower).toNat]

/-- The float reads back from these digits with this scale. -/
def readsBack (q : ℚ) (digits : ℕ) (scale : ℤ) : Bool :=
  fl (if q < 0 then -(digits * 10 ^ scale) else digits * 10 ^ scale) = .finite q

/-- The digits and the scale with so many digits after the first, if there are such that read back. -/
def withDigits (q : ℚ) (more : ℕ) : Option (ℕ × ℤ) :=
  let scale := Int.log 10 |q| - more
  ((neighbours |q| scale).find? fun digits => readsBack fl q digits scale).map fun digits =>
    (digits, scale)

/-- The fewest digits that read back. No double has as many digits as are tried. -/
def shortest (q : ℚ) : Option (ℕ × ℤ) := (List.range 1500).findSome? (withDigits fl q)

/-- Digits with the point after `point` of them. -/
def positional (negative : Bool) (digits : Text) (point : ℤ) : Numeral :=
  if point ≤ 0 then
    ⟨negative, ['0'], some (List.replicate (-point).toNat '0' ++ digits), none⟩
  else if digits.length ≤ point then
    ⟨negative, digits ++ List.replicate (point.toNat - digits.length) '0', some ['0'], none⟩
  else ⟨negative, digits.take point.toNat, some (digits.drop point.toNat), none⟩

/-- The digits after the point, if there are any. -/
def afterPoint (digits : Text) : Option Text := if digits = [] then none else some digits

/-- Digits with the point after the first and an exponent. -/
def scientific (negative : Bool) (digits : Text) (exponent : ℤ) : Numeral where
  negative := negative
  whole := digits.take 1
  fraction := afterPoint digits.tail
  exponent := some (exponent < 0, padded 2 exponent.natAbs)

/-- The digits of a number times a power of ten, without zeros at the end. -/
def shown (negative : Bool) (n : ℕ) (scale : ℤ) : Numeral :=
  let digits := PyText.ofNat n
  let point := digits.length + scale
  let digits := digits.rdropWhile (· = '0')
  if point ≤ -4 ∨ 16 < point then scientific negative digits (point - 1)
  else positional negative digits point

/-- The numeral of a finite float with the value `q`. -/
def numeral (x : PyFloat) (q : ℚ) : Numeral :=
  if q = 0 then ⟨x.isNegative, ['0'], some ['0'], none⟩
  else
    match shortest fl q with
    | some (n, scale) => shown (q < 0) n scale
    | none => shown (q < 0) 0 0

def PyFloat.repr (x : PyFloat) : Text :=
  match x.value? with
  | some q => (numeral fl x q).text
  | none =>
    match x with
    | .inf negative => signText negative ++ "inf".toList
    | _ => "nan".toList

end Repr

end Instro.Library
