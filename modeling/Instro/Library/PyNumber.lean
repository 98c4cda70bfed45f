import Mathlib.Algebra.Order.Floor.Defs
import Mathlib.Data.Rat.Floor
import Mathlib.Order.WithBot
import Mathlib.Tactic.FieldSimp
import Mathlib.Tactic.Linarith
import Mathlib.Tactic.Ring

/-!
# Python numbers

`float` with its signed zero, infinities and NaN, `int` without bound, and the operators between
them. A finite float is the rational it stands for. Every operation that rounds takes the rounding
as its first argument: the nearest double, or `exact` for arithmetic without rounding.
-/

namespace Instro.Library

inductive PyFloat
  | finite (q : ℚ)
  | negZero
  | inf (negative : Bool)
  | nan
  deriving DecidableEq

/-- The built-in exceptions. -/
inductive PyException
  | typeError
  | valueError
  | keyError
  | indexError
  | overflowError
  | zeroDivisionError
  | runtimeError
  | structError
  | notImplementedError
  deriving DecidableEq, Repr

/-- What becomes of the exact result of an operation. Integers of up to 53 bits are not rounded. -/
structure Rounding where
  round : ℚ → PyFloat
  round_int : ∀ n : ℤ, |n| ≤ 2 ^ 53 → round n = .finite n

instance : CoeFun Rounding fun _ => ℚ → PyFloat := ⟨Rounding.round⟩

/-- Arithmetic without rounding. -/
def exact : Rounding := ⟨PyFloat.finite, fun _ _ => rfl⟩

/-! ## Rounding to integers -/

/-- `round`: to the nearest integer, ties to the even one. -/
def roundHalfEven (q : ℚ) : ℤ :=
  if q - ⌊q⌋ < 1 / 2 then ⌊q⌋
  else if 1 / 2 < q - ⌊q⌋ then ⌊q⌋ + 1
  else if ⌊q⌋ % 2 = 0 then ⌊q⌋ else ⌊q⌋ + 1

/-- `int`: towards zero. -/
def truncate (q : ℚ) : ℤ := if 0 ≤ q then ⌊q⌋ else ⌈q⌉

@[simp] theorem roundHalfEven_intCast (n : ℤ) : roundHalfEven n = n := by
  unfold roundHalfEven
  rw [Int.floor_intCast, sub_self, if_pos (by norm_num)]

@[simp] theorem truncate_intCast (n : ℤ) : truncate n = n := by
  unfold truncate
  rw [Int.floor_intCast, Int.ceil_intCast, ite_self]

namespace PyFloat

/-! ## Values and comparisons -/

/-- The rational a finite float stands for. -/
def value? : PyFloat → Option ℚ
  | finite q => some q
  | negZero => some 0
  | inf _ => none
  | nan => none

/-- The sign bit. -/
def isNegative : PyFloat → Bool
  | finite q => q < 0
  | negZero => true
  | inf negative => negative
  | nan => false

def isZero (x : PyFloat) : Bool := x.value? = some 0

def isFinite (x : PyFloat) : Bool := x.value?.isSome

/-- The place on the extended line; NaN has none. -/
def place : PyFloat → Option (WithBot (WithTop ℚ))
  | finite q => some ((q : WithTop ℚ) : WithBot (WithTop ℚ))
  | negZero => some (((0 : ℚ) : WithTop ℚ) : WithBot (WithTop ℚ))
  | inf true => some ⊥
  | inf false => some ((⊤ : WithTop ℚ) : WithBot (WithTop ℚ))
  | nan => none

/-! ## Arithmetic -/

def neg : PyFloat → PyFloat
  | finite q => if q = 0 then negZero else finite (-q)
  | negZero => finite 0
  | inf negative => inf !negative
  | nan => nan

def abs : PyFloat → PyFloat
  | finite q => finite |q|
  | negZero => finite 0
  | inf _ => inf false
  | nan => nan

/-- A zero of the given sign. -/
def zero (negative : Bool) : PyFloat := if negative then negZero else finite 0

def add (fl : Rounding) : PyFloat → PyFloat → PyFloat
  | nan, _ => nan
  | _, nan => nan
  | inf s, inf t => if s = t then inf s else nan
  | inf s, _ => inf s
  | _, inf t => inf t
  | negZero, negZero => negZero
  | negZero, finite q => fl q
  | finite p, negZero => fl p
  | finite p, finite q => fl (p + q)

def sub (fl : Rounding) (x y : PyFloat) : PyFloat := add fl x y.neg

def mul (fl : Rounding) (x y : PyFloat) : PyFloat :=
  match x.value?, y.value? with
  | some p, some q => if p * q = 0 then zero (x.isNegative != y.isNegative) else fl (p * q)
  | _, _ =>
    if x = nan ∨ y = nan ∨ x.isZero ∨ y.isZero then nan else inf (x.isNegative != y.isNegative)

/-- The quotient by a divisor that is not zero. -/
def quotient (fl : Rounding) (x y : PyFloat) : PyFloat :=
  match x.value?, y.value? with
  | some p, some q => if p = 0 then zero (x.isNegative != y.isNegative) else fl (p / q)
  | some _, none => if y = nan then nan else zero (x.isNegative != y.isNegative)
  | none, some _ => if x = nan then nan else inf (x.isNegative != y.isNegative)
  | none, none => nan

/-- `/` raises on a zero divisor. -/
def div (fl : Rounding) (x y : PyFloat) : Except PyException PyFloat :=
  if y.isZero then .error .zeroDivisionError else .ok (quotient fl x y)

/-! ## Conversions -/

/-- `round(x)` -/
def round : PyFloat → Except PyException ℤ
  | finite q => .ok (roundHalfEven q)
  | negZero => .ok 0
  | inf _ => .error .overflowError
  | nan => .error .valueError

/-- `int(x)` -/
def toInt : PyFloat → Except PyException ℤ
  | finite q => .ok (truncate q)
  | negZero => .ok 0
  | inf _ => .error .overflowError
  | nan => .error .valueError

/-- `float(n)` raises where the integer is beyond the floats. -/
def ofInt (fl : Rounding) (n : ℤ) : Except PyException PyFloat :=
  if (fl n).isFinite then .ok (fl n) else .error .overflowError

end PyFloat

/-- An `int` or a `float`. -/
inductive Number
  | int (n : ℤ)
  | float (x : PyFloat)
  deriving DecidableEq

namespace Number

def value? : Number → Option ℚ
  | int n => some n
  | float x => x.value?

def isFinite (x : Number) : Bool := x.value?.isSome

def isFloat : Number → Bool
  | int _ => false
  | float _ => true

def place : Number → Option (WithBot (WithTop ℚ))
  | int n => some (((n : ℚ) : WithTop ℚ) : WithBot (WithTop ℚ))
  | float x => x.place

/-- `x < y`, false when either is NaN. -/
def lt (x y : Number) : Bool :=
  match x.place, y.place with
  | some a, some b => a < b
  | _, _ => false

/-- `x == y`, false when either is NaN. -/
def eq (x y : Number) : Bool :=
  match x.place, y.place with
  | some a, some b => a = b
  | _, _ => false

/-- `x <= y`, false when either is NaN. -/
def le (x y : Number) : Bool :=
  match x.place, y.place with
  | some a, some b => a ≤ b
  | _, _ => false

def toInt : Number → Except PyException ℤ
  | int n => .ok n
  | float x => x.toInt

def round : Number → Except PyException ℤ
  | int n => .ok n
  | float x => x.round

def toFloat (fl : Rounding) : Number → Except PyException PyFloat
  | int n => PyFloat.ofInt fl n
  | float x => .ok x

/-- The truth value of a number. -/
def truthy (x : Number) : Bool := x.value? ≠ some 0

/-- NaN, of which no comparison holds. -/
def isNan (x : Number) : Bool := x.place = none

end Number

/-- A `bool`, an `int` or a `float`. -/
inductive PyValue
  | bool (b : Bool)
  | num (x : Number)
  deriving DecidableEq

namespace PyValue

/-- The number a value is in comparisons and arithmetic. -/
def number : PyValue → Number
  | bool b => .int b.toNat
  | num x => x

def isBool : PyValue → Bool
  | bool _ => true
  | num _ => false

end PyValue

/-! ## Comparisons as statements -/

theorem PyFloat.eq_of_value {x : PyFloat} {p : ℚ} (h : x.value? = some p) :
    x = .finite p ∨ x = .negZero ∧ p = 0 := by
  cases x with
  | finite r => exact .inl (congrArg PyFloat.finite (Option.some.inj h))
  | negZero => exact .inr ⟨rfl, (Option.some.inj h).symm⟩
  | inf s => cases h
  | nan => cases h

namespace Number

variable {x y : Number}

/-- The two negative comparisons of a bound hold the value to it, unless one is NaN. -/
theorem le_iff_not_lt : x.le y = true ↔ y.lt x = false ∧ x.isNan = false ∧ y.isNan = false := by
  unfold le lt isNan
  cases hx : x.place <;> cases hy : y.place <;> simp

theorem place_of_value {q : ℚ} (h : x.value? = some q) :
    x.place = some (((q : ℚ) : WithTop ℚ) : WithBot (WithTop ℚ)) := by
  cases x with
  | int n =>
    obtain rfl := Option.some.inj h
    rfl
  | float x =>
    rcases PyFloat.eq_of_value h with rfl | ⟨rfl, rfl⟩ <;> rfl

theorem lt_of_values {p q : ℚ} (hx : x.value? = some p) (hy : y.value? = some q) :
    x.lt y = decide (p < q) := by
  unfold lt
  rw [place_of_value hx, place_of_value hy]
  simp

theorem eq_of_values {p q : ℚ} (hx : x.value? = some p) (hy : y.value? = some q) :
    x.eq y = decide (p = q) := by
  unfold eq
  rw [place_of_value hx, place_of_value hy]
  simp

end Number

/-! ## Comparisons of floats -/

namespace PyFloat

def lt (x y : PyFloat) : Bool := (Number.float x).lt (.float y)

def le (x y : PyFloat) : Bool := (Number.float x).le (.float y)

def eq (x y : PyFloat) : Bool := (Number.float x).eq (.float y)

section Order

variable {x y z : PyFloat} {p q : ℚ}

theorem place_of_value (h : x.value? = some p) :
    x.place = some (((p : ℚ) : WithTop ℚ) : WithBot (WithTop ℚ)) :=
  Number.place_of_value (x := .float x) h

theorem le_iff_place :
    x.le y = true ↔ ∃ a b, x.place = some a ∧ y.place = some b ∧ a ≤ b := by
  show (match x.place, y.place with
    | some a, some b => decide (a ≤ b)
    | _, _ => false) = true ↔ _
  cases x.place <;> cases y.place <;> simp

theorem le_trans (hxy : x.le y = true) (hyz : y.le z = true) : x.le z = true := by
  obtain ⟨a, b, ha, hb, hab⟩ := le_iff_place.mp hxy
  obtain ⟨b', c, hb', hc, hbc⟩ := le_iff_place.mp hyz
  obtain rfl := Option.some.inj (hb.symm.trans hb')
  exact le_iff_place.mpr ⟨a, c, ha, hc, hab.trans hbc⟩

/-- What is above something is a number. -/
theorem le_self_of_le (h : x.le y = true) : y.le y = true := by
  obtain ⟨-, b, -, hb, -⟩ := le_iff_place.mp h
  exact le_iff_place.mpr ⟨b, b, hb, hb, le_rfl⟩

/-- Of two numbers one is at most the other. -/
theorem le_of_not_lt (hx : x.le x = true) (hy : y.le y = true) (h : y.lt x = false) :
    x.le y = true :=
  Number.le_iff_not_lt.mpr
    ⟨h, (Number.le_iff_not_lt.mp hx).2.1, (Number.le_iff_not_lt.mp hy).2.1⟩

theorem le_of_values (hx : x.value? = some p) (hy : y.value? = some q) :
    x.le y = decide (p ≤ q) := by
  show (match x.place, y.place with
    | some a, some b => decide (a ≤ b)
    | _, _ => false) = _
  rw [place_of_value hx, place_of_value hy]
  simp

theorem lt_of_values (hx : x.value? = some p) (hy : y.value? = some q) :
    x.lt y = decide (p < q) :=
  Number.lt_of_values hx hy

theorem eq_of_values (hx : x.value? = some p) (hy : y.value? = some q) :
    x.eq y = decide (p = q) :=
  Number.eq_of_values hx hy

/-- Infinity is beyond every finite float. -/
theorem not_inf_le (h : x.value? = some p) : (inf false).le x = false := by
  refine Bool.eq_false_iff.mpr fun hle => ?_
  obtain ⟨a, b, ha, hb, hab⟩ := le_iff_place.mp hle
  obtain rfl := Option.some.inj ha
  obtain rfl := Option.some.inj (hb.symm.trans (place_of_value h))
  exact absurd (WithBot.coe_le_coe.mp hab) (by simp)

/-- What lies between finite floats is finite. -/
theorem value_of_between (hx : x.value? = some p) (hz : z.value? = some q) (hxy : x.le y = true)
    (hyz : y.le z = true) : ∃ r, y.value? = some r := by
  obtain ⟨a, b, ha, hb, hab⟩ := le_iff_place.mp hxy
  obtain ⟨b', c, hb', hc, hbc⟩ := le_iff_place.mp hyz
  obtain rfl := Option.some.inj (hb.symm.trans hb')
  obtain rfl := Option.some.inj (ha.symm.trans (place_of_value hx))
  obtain rfl := Option.some.inj (hc.symm.trans (place_of_value hz))
  cases y with
  | finite r => exact ⟨r, rfl⟩
  | negZero => exact ⟨0, rfl⟩
  | inf negative =>
    cases negative with
    | true =>
      obtain rfl := Option.some.inj hb
      simp at hab
    | false =>
      obtain rfl := Option.some.inj hb
      exact absurd (WithBot.coe_le_coe.mp hbc) (by simp)
  | nan => cases hb

end Order

end PyFloat

/-! ## Exact arithmetic -/

namespace PyFloat

variable {x y : PyFloat} {p q : ℚ}

@[simp] theorem value?_zero (negative : Bool) : (zero negative).value? = some 0 := by
  cases negative <;> rfl

theorem value?_neg (h : x.value? = some p) : x.neg.value? = some (-p) := by
  rcases eq_of_value h with rfl | ⟨rfl, rfl⟩
  · show (if p = 0 then negZero else finite (-p)).value? = _
    split_ifs with h0
    · rw [h0, neg_zero]
      rfl
    · rfl
  · rw [neg_zero]
    rfl

theorem value?_add (hx : x.value? = some p) (hy : y.value? = some q) :
    (add exact x y).value? = some (p + q) := by
  rcases eq_of_value hx with rfl | ⟨rfl, rfl⟩ <;> rcases eq_of_value hy with rfl | ⟨rfl, rfl⟩
  · rfl
  · rw [add_zero]
    rfl
  · rw [zero_add]
    rfl
  · rw [add_zero]
    rfl

theorem value?_sub (hx : x.value? = some p) (hy : y.value? = some q) :
    (sub exact x y).value? = some (p - q) := by
  rw [sub_eq_add_neg]
  exact value?_add hx (value?_neg hy)

theorem value?_mul (hx : x.value? = some p) (hy : y.value? = some q) :
    (mul exact x y).value? = some (p * q) := by
  unfold mul
  rw [hx, hy]
  show (if p * q = 0 then _ else _ : PyFloat).value? = _
  split_ifs with h
  · rw [value?_zero, h]
  · rfl

theorem isZero_of_value (h : x.value? = some p) : x.isZero = decide (p = 0) := by
  unfold isZero
  rw [h]
  simp

theorem value?_quotient (hx : x.value? = some p) (hy : y.value? = some q) :
    (quotient exact x y).value? = some (p / q) := by
  unfold quotient
  rw [hx, hy]
  show (if p = 0 then _ else _ : PyFloat).value? = _
  split_ifs with h
  · rw [value?_zero, h, zero_div]
  · rfl

theorem value?_div (hx : x.value? = some p) (hy : y.value? = some q) (hq : q ≠ 0) :
    ∃ z, div exact x y = .ok z ∧ z.value? = some (p / q) := by
  unfold div
  rw [if_neg (by simp [isZero_of_value hy, hq])]
  exact ⟨_, rfl, value?_quotient hx hy⟩

/-- A finite difference from a finite float is one of finite floats. -/
theorem value_of_sub {r : ℚ} (hy : y.value? = some q) (h : (sub exact x y).value? = some r) :
    ∃ p, x.value? = some p ∧ r = p - q := by
  cases hx : x.value? with
  | some p =>
    rw [value?_sub hx hy] at h
    exact ⟨p, rfl, (Option.some.inj h).symm⟩
  | none =>
    unfold sub at h
    rcases eq_of_value (value?_neg hy) with hneg | ⟨hneg, -⟩ <;> rw [hneg] at h <;>
      cases x <;> cases hx <;> cases h

/-- A finite quotient by a finite float is one of finite floats. -/
theorem value_of_div {z : PyFloat} {r : ℚ} (hy : y.value? = some q) (hq : q ≠ 0)
    (h : div exact x y = .ok z) (hz : z.value? = some r) :
    ∃ p, x.value? = some p ∧ r = p / q := by
  cases hx : x.value? with
  | some p =>
    obtain ⟨z', hz', hval⟩ := value?_div hx hy hq
    obtain rfl := Except.ok.inj (hz'.symm.trans h)
    exact ⟨p, rfl, (Option.some.inj (hval.symm.trans hz)).symm⟩
  | none =>
    unfold div at h
    rw [if_neg (by simp [isZero_of_value hy, hq])] at h
    obtain rfl := Except.ok.inj h
    unfold quotient at hz
    rw [hx, hy] at hz
    cases x <;> cases hx <;> cases hz

theorem value?_abs (h : x.value? = some p) : x.abs.value? = some |p| := by
  rcases eq_of_value h with rfl | ⟨rfl, rfl⟩
  · rfl
  · rw [abs_zero]
    rfl

theorem round_of_value (h : x.value? = some p) : x.round = .ok (roundHalfEven p) := by
  rcases eq_of_value h with rfl | ⟨rfl, rfl⟩
  · rfl
  · exact congrArg Except.ok (roundHalfEven_intCast 0).symm

theorem toInt_of_value (h : x.value? = some p) : x.toInt = .ok (truncate p) := by
  rcases eq_of_value h with rfl | ⟨rfl, rfl⟩
  · rfl
  · exact congrArg Except.ok (truncate_intCast 0).symm

/-- Only a finite float has an integer part. -/
theorem value_of_toInt {n : ℤ} (h : x.toInt = .ok n) : ∃ q, x.value? = some q ∧ n = truncate q := by
  cases hx : x.value? with
  | some q =>
    rw [toInt_of_value hx] at h
    exact ⟨q, rfl, (Except.ok.inj h).symm⟩
  | none => cases x <;> cases hx <;> cases h

theorem value_of_round {n : ℤ} (h : x.round = .ok n) :
    ∃ q, x.value? = some q ∧ n = roundHalfEven q := by
  cases hx : x.value? with
  | some q =>
    rw [round_of_value hx] at h
    exact ⟨q, rfl, (Except.ok.inj h).symm⟩
  | none => cases x <;> cases hx <;> cases h

end PyFloat

end Instro.Library
