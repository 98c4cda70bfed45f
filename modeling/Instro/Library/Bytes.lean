import Mathlib.Data.List.Basic
import Mathlib.Algebra.Order.Ring.Int
import Mathlib.Tactic.Positivity
import Mathlib.Tactic.Ring
import Mathlib.Tactic.Zify

/-!
# Big-endian bytes

Words as lists of bytes, most significant first, and two's complement integers in them.
-/

namespace Instro.Library

/-- The low `k` bytes of `n`, most significant first. -/
def toBytes : Nat → Nat → List UInt8
  | 0, _ => []
  | k + 1, n => UInt8.ofNat (n / 256 ^ k) :: toBytes k n

/-- The number whose bytes these are. -/
def ofBytes : List UInt8 → Nat
  | [] => 0
  | b :: bs => b.toNat * 256 ^ bs.length + ofBytes bs

@[simp] theorem length_toBytes (k n : Nat) : (toBytes k n).length = k := by
  induction k with
  | zero => rfl
  | succ k ih => exact congrArg (· + 1) ih

theorem ofBytes_toBytes (k n : Nat) : ofBytes (toBytes k n) = n % 256 ^ k := by
  induction k with
  | zero => exact (Nat.mod_one n).symm
  | succ k ih =>
    have hbyte : (UInt8.ofNat (n / 256 ^ k)).toNat = n / 256 ^ k % 256 := UInt8.toNat_ofNat'
    rw [toBytes, ofBytes, hbyte, ih, length_toBytes, Nat.mod_pow_succ]
    ring

theorem ofBytes_lt (bs : List UInt8) : ofBytes bs < 256 ^ bs.length := by
  induction bs with
  | nil => exact Nat.one_pos
  | cons b bs ih =>
    have hb : b.toNat + 1 ≤ 256 := b.toNat_lt
    calc b.toNat * 256 ^ bs.length + ofBytes bs
        < b.toNat * 256 ^ bs.length + 256 ^ bs.length := Nat.add_lt_add_left ih _
      _ = (b.toNat + 1) * 256 ^ bs.length := by ring
      _ ≤ 256 * 256 ^ bs.length := Nat.mul_le_mul_right _ hb
      _ = 256 ^ (b :: bs).length := by rw [List.length_cons]; ring

/-- Bytes of the same number, as many, are the same. -/
theorem ofBytes_inj {bs cs : List UInt8} (hlength : bs.length = cs.length)
    (h : ofBytes bs = ofBytes cs) : bs = cs := by
  induction bs generalizing cs with
  | nil => exact (List.length_eq_zero_iff.mp hlength.symm).symm
  | cons b bs ih =>
    cases cs with
    | nil => cases hlength
    | cons c cs =>
      have hlength : bs.length = cs.length := Nat.succ.inj hlength
      have hb := ofBytes_lt bs
      have hc := ofBytes_lt cs
      unfold ofBytes at h
      rw [hlength] at h hb
      have hdiv : b.toNat = c.toNat := by
        have h := congrArg (· / 256 ^ cs.length) h
        rwa [Nat.mul_comm, Nat.mul_comm c.toNat, Nat.mul_add_div (by positivity),
          Nat.mul_add_div (by positivity), Nat.div_eq_of_lt hb, Nat.div_eq_of_lt hc] at h
      have hmod : ofBytes bs = ofBytes cs := by
        rw [hdiv] at h
        exact Nat.add_left_cancel h
      rw [UInt8.toNat_inj.mp hdiv, ih hlength hmod]

/-- The bytes of the number of some bytes are those. -/
theorem toBytes_ofBytes (bs : List UInt8) : toBytes bs.length (ofBytes bs) = bs := by
  apply ofBytes_inj (length_toBytes _ _)
  rw [ofBytes_toBytes, Nat.mod_eq_of_lt (ofBytes_lt bs)]

/-! ## Integers -/

/-- The integers a word of `k` bytes holds, signed or not. -/
def IntFits (k : Nat) (signed : Bool) (n : ℤ) : Prop :=
  if signed then -(256 ^ k / 2) ≤ n ∧ n < 256 ^ k / 2 else 0 ≤ n ∧ n < 256 ^ k

instance (k : Nat) (signed : Bool) (n : ℤ) : Decidable (IntFits k signed n) := by
  unfold IntFits
  infer_instance

/-- Two's complement. -/
def intToBytes (k : Nat) (n : ℤ) : List UInt8 :=
  toBytes k (n % 256 ^ k).toNat

/-- The integer a word holds. -/
def intOfBytes (signed : Bool) (bs : List UInt8) : ℤ :=
  if signed ∧ 256 ^ bs.length / 2 ≤ ofBytes bs then (ofBytes bs : ℤ) - 256 ^ bs.length
  else ofBytes bs

@[simp] theorem length_intToBytes (k : Nat) (n : ℤ) : (intToBytes k n).length = k :=
  length_toBytes _ _

theorem ofBytes_intToBytes (k : Nat) (n : ℤ) : (ofBytes (intToBytes k n) : ℤ) = n % 256 ^ k := by
  have hpos : (0 : ℤ) < 256 ^ k := by positivity
  have hnonneg : 0 ≤ n % 256 ^ k := Int.emod_nonneg _ hpos.ne'
  have hlt : (n % 256 ^ k).toNat < 256 ^ k := by
    have := Int.emod_lt_of_pos n hpos
    zify
    rw [Int.toNat_of_nonneg hnonneg]
    exact this
  rw [intToBytes, ofBytes_toBytes, Nat.mod_eq_of_lt hlt, Int.toNat_of_nonneg hnonneg]

/-- A word gives back the integer that was put in it. -/
theorem intOfBytes_intToBytes {k : Nat} {signed : Bool} {n : ℤ} (h : IntFits k signed n) :
    intOfBytes signed (intToBytes k n) = n := by
  have hcast : ((256 ^ k / 2 : Nat) : ℤ) = 256 ^ k / 2 := by push_cast; rfl
  have hword := ofBytes_intToBytes k n
  have hlt := ofBytes_lt (intToBytes k n)
  unfold intOfBytes
  rw [length_intToBytes] at hlt ⊢
  unfold IntFits at h
  generalize ofBytes (intToBytes k n) = w at hword hlt ⊢
  generalize hM : (256 ^ k : Nat) = M at hlt hcast ⊢
  have hM' : (256 ^ k : ℤ) = M := by rw [← hM]; push_cast; rfl
  rw [hM'] at h hword ⊢
  cases signed with
  | false =>
    rw [if_neg (by simp), hword]
    exact Int.emod_eq_of_lt h.1 h.2
  | true =>
    obtain ⟨hlo, hhi⟩ := (if_pos rfl).mp h
    by_cases hneg : n < 0
    · have hmod : n % M = n + M := by
        rw [← Int.add_emod_right]
        exact Int.emod_eq_of_lt (by omega) (by omega)
      rw [if_pos ⟨rfl, by omega⟩]
      omega
    · have hmod : n % M = n := Int.emod_eq_of_lt (by omega) (by omega)
      rw [if_neg (by rintro ⟨-, h⟩; omega)]
      omega

/-- A word holds an integer that fits it. -/
theorem intFits_intOfBytes {k : Nat} (hk : 0 < k) (signed : Bool) {bs : List UInt8}
    (hlength : bs.length = k) : IntFits k signed (intOfBytes signed bs) := by
  have heven : 256 ^ k = 2 * (256 ^ k / 2) := by
    obtain ⟨k, rfl⟩ := Nat.exists_eq_succ_of_ne_zero hk.ne'
    rw [Nat.pow_succ]
    omega
  have hlt := ofBytes_lt bs
  unfold IntFits intOfBytes
  rw [hlength] at hlt ⊢
  have hM : (256 ^ k : ℤ) = ((256 ^ k : Nat) : ℤ) := by push_cast; rfl
  have hhalf : (256 ^ k : ℤ) / 2 = ((256 ^ k / 2 : Nat) : ℤ) := by push_cast; rfl
  rw [hhalf, hM]
  cases signed with
  | false =>
    rw [if_neg (by simp), if_neg (by simp)]
    omega
  | true =>
    rw [if_pos rfl]
    split_ifs with hneg
    · omega
    · have hsmall : ofBytes bs < 256 ^ k / 2 := not_le.mp fun h => hneg ⟨rfl, h⟩
      omega

/-- The word that holds the integer of a word is that word. -/
theorem intToBytes_intOfBytes (signed : Bool) (bs : List UInt8) :
    intToBytes bs.length (intOfBytes signed bs) = bs := by
  have hlt := ofBytes_lt bs
  have hword : intOfBytes signed bs % 256 ^ bs.length = ofBytes bs := by
    have hM : (256 ^ bs.length : ℤ) = ((256 ^ bs.length : Nat) : ℤ) := by push_cast; rfl
    unfold intOfBytes
    rw [hM]
    split_ifs with hneg
    · rw [Int.sub_emod_right]
      exact Int.emod_eq_of_lt (by omega) (by omega)
    · exact Int.emod_eq_of_lt (by omega) (by omega)
  unfold intToBytes
  rw [hword, Int.toNat_natCast, toBytes_ofBytes]

end Instro.Library
