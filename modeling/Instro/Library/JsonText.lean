import Instro.Library.PyText
import Mathlib.Data.List.Chain

/-!
# Strings in JSON

`json` writes a string in ASCII. A code point beyond the first plane is written as a surrogate pair,
and a pair of escapes that are surrogates is read as one code point.
-/

namespace Instro.Library

/-- A code point of `str`. The surrogates are code points. -/
abbrev CodePoint := Fin 0x110000

def isHigh (u : CodePoint) : Bool := 0xd800 ≤ u.val && u.val < 0xdc00

def isLow (u : CodePoint) : Bool := 0xdc00 ≤ u.val && u.val < 0xe000

/-- No two code points in a row are the halves of one. -/
def Joined (points : List CodePoint) : Prop :=
  points.IsChain fun u v => ¬(isHigh u = true ∧ isLow v = true)

instance (points : List CodePoint) : Decidable (Joined points) :=
  inferInstanceAs (Decidable (points.IsChain _))

/-- A `str` whose surrogates stand alone. -/
structure PyString where
  points : List CodePoint
  joined : Joined points
  deriving DecidableEq

/-- The code point of a character. -/
def codePoint (c : Char) : CodePoint :=
  ⟨c.toNat, c.valid.elim (fun h => Nat.lt_trans h (by decide)) fun h => h.2⟩

theorem isHigh_codePoint (c : Char) : isHigh (codePoint c) = false := by
  have hvalid : c.toNat < 0xd800 ∨ 0xdfff < c.toNat ∧ c.toNat < 0x110000 := c.valid
  show (decide (0xd800 ≤ c.toNat) && decide (c.toNat < 0xdc00)) = false
  rw [Bool.and_eq_false_iff, decide_eq_false_iff_not, decide_eq_false_iff_not]
  omega

/-- A text is a string without surrogates. -/
def PyString.ofText (text : Text) : PyString where
  points := text.map codePoint
  joined := by
    apply List.Pairwise.isChain
    rw [List.pairwise_map]
    refine List.pairwise_of_forall fun c d hpair => ?_
    rw [isHigh_codePoint] at hpair
    exact Bool.false_ne_true hpair.1

/-! ## Surrogate pairs -/

/-- A code point as one unit of 16 bits or two. -/
def units (c : CodePoint) : List CodePoint :=
  if c.val < 0x10000 then [c]
  else [⟨0xd800 + (c.val - 0x10000) / 0x400, by omega⟩, ⟨0xdc00 + (c.val - 0x10000) % 0x400, by omega⟩]

/-- The code point that two units are the halves of. -/
def join (u v : CodePoint) : CodePoint :=
  ⟨0x10000 + (u.val - 0xd800) % 0x400 * 0x400 + (v.val - 0xdc00) % 0x400, by omega⟩

/-- Every two units that are a pair become one code point. -/
def joinUnits : List CodePoint → List CodePoint
  | [] => []
  | [u] => [u]
  | u :: v :: rest =>
    if isHigh u ∧ isLow v then join u v :: joinUnits rest else u :: joinUnits (v :: rest)

section Units

variable {u v : CodePoint} {us : List CodePoint}

theorem isHigh_iff : isHigh u = true ↔ 0xd800 ≤ u.val ∧ u.val < 0xdc00 := by
  unfold isHigh
  rw [Bool.and_eq_true, decide_eq_true_iff, decide_eq_true_iff]

theorem isLow_iff : isLow u = true ↔ 0xdc00 ≤ u.val ∧ u.val < 0xe000 := by
  unfold isLow
  rw [Bool.and_eq_true, decide_eq_true_iff, decide_eq_true_iff]

theorem units_lt {c : CodePoint} (hu : u ∈ units c) : u.val < 0x10000 := by
  have hc := c.isLt
  unfold units at hu
  split_ifs at hu with hsmall
  · obtain rfl := List.mem_singleton.mp hu
    exact hsmall
  · rcases List.mem_pair.mp hu with rfl | rfl
    · show 0xd800 + (c.val - 0x10000) / 0x400 < 0x10000
      omega
    · show 0xdc00 + (c.val - 0x10000) % 0x400 < 0x10000
      omega

/-- A code point that is joined is no half of another. -/
theorem join_alone (u v : CodePoint) : isHigh (join u v) = false ∧ isLow (join u v) = false := by
  rw [← Bool.not_eq_true, ← Bool.not_eq_true, isHigh_iff, isLow_iff]
  have hval : (join u v).val =
      0x10000 + (u.val - 0xd800) % 0x400 * 0x400 + (v.val - 0xdc00) % 0x400 := rfl
  omega

theorem joinUnits_cons_of_not (us : List CodePoint)
    (h : ∀ v, us.head? = some v → ¬(isHigh u = true ∧ isLow v = true)) :
    joinUnits (u :: us) = u :: joinUnits us := by
  cases us with
  | nil => rfl
  | cons v us => exact if_neg (h v rfl)

theorem joinUnits_pair (c : CodePoint) (hc : ¬c.val < 0x10000) (us : List CodePoint) :
    joinUnits (units c ++ us) = c :: joinUnits us := by
  have hlt := c.isLt
  unfold units
  rw [if_neg hc]
  have hhigh : isHigh ⟨0xd800 + (c.val - 0x10000) / 0x400, by omega⟩ = true :=
    isHigh_iff.mpr ⟨Nat.le_add_right _ _, by dsimp only; omega⟩
  have hlow : isLow ⟨0xdc00 + (c.val - 0x10000) % 0x400, by omega⟩ = true :=
    isLow_iff.mpr ⟨Nat.le_add_right _ _, by dsimp only; omega⟩
  refine (if_pos ⟨hhigh, hlow⟩).trans (congrArg (· :: joinUnits us) (Fin.ext ?_))
  show 0x10000 + (0xd800 + (c.val - 0x10000) / 0x400 - 0xd800) % 0x400 * 0x400 +
    (0xdc00 + (c.val - 0x10000) % 0x400 - 0xdc00) % 0x400 = c.val
  omega

/-- The first unit of a string is its first code point, or the first half of it. -/
theorem head_units {points : List CodePoint} (h : (points.flatMap units).head? = some v) :
    points.head? = some v ∨ isLow v = false := by
  cases points with
  | nil => cases h
  | cons c points =>
    have hlt := c.isLt
    rw [List.flatMap_cons] at h
    unfold units at h
    split_ifs at h with hsmall
    · exact .inl h
    · right
      obtain rfl := Option.some.inj h
      rw [← Bool.not_eq_true, isLow_iff]
      dsimp only
      omega

/-- **The units of a string join to the string.** -/
theorem joinUnits_units {points : List CodePoint} (h : Joined points) :
    joinUnits (points.flatMap units) = points := by
  induction points with
  | nil => rfl
  | cons c points ih =>
    have hrest : Joined points := h.tail
    rw [List.flatMap_cons]
    by_cases hsmall : c.val < 0x10000
    · have hunits : units c = [c] := if_pos hsmall
      rw [hunits, List.singleton_append, joinUnits_cons_of_not, ih hrest]
      intro v hv
      rcases head_units hv with hhead | hlow
      · cases points with
        | nil => cases hhead
        | cons d points =>
          obtain rfl := Option.some.inj hhead
          exact (List.isChain_cons_cons.mp h).1
      · rw [hlow]
        exact fun hpair => Bool.false_ne_true hpair.2
    · rw [joinUnits_pair c hsmall, ih hrest]

/-- The first code point is the first unit, or no half of a pair. -/
theorem head_joinUnits (h : (joinUnits (u :: us)).head? = some v) : v = u ∨ isLow v = false := by
  cases us with
  | nil => exact .inl (Option.some.inj h).symm
  | cons w us =>
    unfold joinUnits at h
    split_ifs at h with hpair
    · obtain rfl := Option.some.inj h
      exact .inr (join_alone u w).2
    · exact .inl (Option.some.inj h).symm

theorem joined_cons (h : ∀ v, us.head? = some v → ¬(isHigh u = true ∧ isLow v = true))
    (hus : Joined us) : Joined (u :: us) := by
  cases us with
  | nil => exact List.isChain_singleton u
  | cons v us => exact List.isChain_cons_cons.mpr ⟨h v rfl, hus⟩

theorem joined_joinUnits (us : List CodePoint) : Joined (joinUnits us) := by
  induction us using joinUnits.induct with
  | case1 => exact List.isChain_nil
  | case2 u => exact List.isChain_singleton u
  | case3 u v rest hpair ih =>
    unfold joinUnits
    rw [if_pos hpair]
    refine joined_cons (fun w _ hw => ?_) ih
    rw [(join_alone u v).1] at hw
    exact Bool.false_ne_true hw.1
  | case4 u v rest hpair ih =>
    unfold joinUnits
    rw [if_neg hpair]
    refine joined_cons (fun w hw hw' => ?_) ih
    rcases head_joinUnits hw with rfl | hlow
    · exact hpair hw'
    · rw [hlow] at hw'
      exact Bool.false_ne_true hw'.2

end Units

/-! ## Escapes -/

/-- `0123456789abcdef` -/
def hexDigit (n : ℕ) : Char := Nat.digitChar (n % 16)

def hexText (n : ℕ) : Text :=
  [hexDigit (n / 0x1000), hexDigit (n / 0x100), hexDigit (n / 0x10), hexDigit n]

/-- A unit as it stands in a string of `json`. -/
def escapeUnit (u : CodePoint) : Text :=
  if u = 0x5c then ['\\', '\\']
  else if u = 0x22 then ['\\', '"']
  else if u = 0x08 then ['\\', 'b']
  else if u = 0x0c then ['\\', 'f']
  else if u = 0x0a then ['\\', 'n']
  else if u = 0x0d then ['\\', 'r']
  else if u = 0x09 then ['\\', 't']
  else if 0x20 ≤ u.val ∧ u.val ≤ 0x7e then [Char.ofNat u]
  else '\\' :: 'u' :: hexText u

/-- `json.dumps` of a string -/
def PyString.jsonText (s : PyString) : Text :=
  '"' :: ((s.points.flatMap units).flatMap escapeUnit ++ ['"'])

/-! ## Reading -/

def hexValue (c : Char) : Option ℕ :=
  if '0' ≤ c ∧ c ≤ '9' then some (c.toNat - 0x30)
  else if 'a' ≤ c ∧ c ≤ 'f' then some (c.toNat - 0x61 + 10)
  else if 'A' ≤ c ∧ c ≤ 'F' then some (c.toNat - 0x41 + 10)
  else none

/-- The unit of four hexadecimal digits, and what stands after them. -/
def scanHex : Text → Option (CodePoint × Text)
  | a :: b :: c :: d :: rest => do
    let a ← hexValue a
    let b ← hexValue b
    let c ← hexValue c
    let d ← hexValue d
    some (Fin.ofNat _ (a * 0x1000 + b * 0x100 + c * 0x10 + d), rest)
  | _ => none

/-- What a letter after a backslash stands for. -/
def unescape (c : Char) : Option CodePoint :=
  if c = '"' then some 0x22
  else if c = '\\' then some 0x5c
  else if c = '/' then some 0x2f
  else if c = 'b' then some 0x08
  else if c = 'f' then some 0x0c
  else if c = 'n' then some 0x0a
  else if c = 'r' then some 0x0d
  else if c = 't' then some 0x09
  else none

/-- One unit of a string, and what stands after it. Control characters are refused. -/
def scanUnit : Text → Option (CodePoint × Text)
  | [] => none
  | c :: rest =>
    if c = '\\' then
      match rest with
      | [] => none
      | e :: rest => if e = 'u' then scanHex rest else (unescape e).map (·, rest)
    else if c.toNat < 0x20 then none
    else some (codePoint c, rest)

/-- The units up to the closing quote, at most so many. -/
def scanUnits : ℕ → Text → Option (List CodePoint × Text)
  | 0, _ => none
  | limit + 1, text =>
    if text.head? = some '"' then some ([], text.tail)
    else
      (scanUnit text).bind fun (u, rest) =>
        (scanUnits limit rest).map fun (us, rest) => (u :: us, rest)

/-- The string after its opening quote, and what stands after it. Every unit takes a character. -/
def scanString (text : Text) : Option (PyString × Text) :=
  (scanUnits text.length text).map fun (us, rest) => (⟨joinUnits us, joined_joinUnits us⟩, rest)

section Scan

variable {u : CodePoint} {us : List CodePoint} {rest : Text}

theorem hexValue_hexDigit (n : ℕ) : hexValue (hexDigit n) = some (n % 16) := by
  have hall : ∀ m < 16, hexValue (Nat.digitChar m) = some m := by decide
  exact hall (n % 16) (Nat.mod_lt _ (by decide))

theorem scanHex_hexText (hu : u.val < 0x10000) : scanHex (hexText u ++ rest) = some (u, rest) := by
  show ((hexValue _).bind fun a => (hexValue _).bind fun b => (hexValue _).bind fun c =>
    (hexValue _).bind fun d => _) = _
  rw [hexValue_hexDigit, hexValue_hexDigit, hexValue_hexDigit, hexValue_hexDigit]
  refine congrArg (fun u => some (u, rest)) (Fin.ext ?_)
  show (u.val / 0x1000 % 16 * 0x1000 + u.val / 0x100 % 16 * 0x100 + u.val / 0x10 % 16 * 0x10 +
    u.val % 16) % 0x110000 = u.val
  omega

theorem backslash_head (text : Text) : ('\\' :: text).head? ≠ some '"' :=
  fun h => absurd (Option.some.inj h) (by decide)

/-- The printable characters of ASCII stand for themselves. -/
theorem scanUnit_plain (hplain : 0x20 ≤ u.val ∧ u.val ≤ 0x7e) (hbackslash : u ≠ 0x5c)
    (hquote : u ≠ 0x22) : scanUnit (Char.ofNat u :: rest) = some (u, rest) ∧
      (Char.ofNat u :: rest).head? ≠ some '"' := by
  have hval : (Char.ofNat u).toNat = u.val := by
    have hall : ∀ n < 0x80, (Char.ofNat n).toNat = n := by decide
    exact hall u.val (by omega)
  have hne : ∀ c : Char, codePoint c ≠ u → Char.ofNat u ≠ c := by
    rintro c hc rfl
    exact hc (Fin.ext hval)
  constructor
  · show (if Char.ofNat u = '\\' then _ else if (Char.ofNat u).toNat < 0x20 then _ else _) = _
    rw [if_neg (hne '\\' (Ne.symm hbackslash)), hval, if_neg (by omega)]
    exact congrArg (fun u => some (u, rest)) (Fin.ext hval)
  · exact fun h => hne '"' (Ne.symm hquote) (Option.some.inj h)

/-- What is written for a unit reads back as the unit. -/
theorem scanUnit_escapeUnit (hu : u.val < 0x10000) (rest : Text) :
    scanUnit (escapeUnit u ++ rest) = some (u, rest) ∧ (escapeUnit u ++ rest).head? ≠ some '"' := by
  unfold escapeUnit
  split_ifs with hbackslash hquote hb hf hn hr ht hplain
  · subst hbackslash
    exact ⟨rfl, backslash_head _⟩
  · subst hquote
    exact ⟨rfl, backslash_head _⟩
  · subst hb
    exact ⟨rfl, backslash_head _⟩
  · subst hf
    exact ⟨rfl, backslash_head _⟩
  · subst hn
    exact ⟨rfl, backslash_head _⟩
  · subst hr
    exact ⟨rfl, backslash_head _⟩
  · subst ht
    exact ⟨rfl, backslash_head _⟩
  · exact scanUnit_plain hplain hbackslash hquote
  · exact ⟨scanHex_hexText hu, backslash_head _⟩

theorem escapeUnit_ne_nil (u : CodePoint) : escapeUnit u ≠ [] := by
  unfold escapeUnit
  split_ifs <;> exact List.cons_ne_nil _ _

theorem scanUnits_escapeUnit (hus : ∀ u ∈ us, u.val < 0x10000) {limit : ℕ}
    (hlimit : us.length < limit) :
    scanUnits limit (us.flatMap escapeUnit ++ '"' :: rest) = some (us, rest) := by
  induction us generalizing limit with
  | nil =>
    obtain ⟨limit, rfl⟩ := Nat.exists_eq_succ_of_ne_zero hlimit.ne'
    rfl
  | cons u us ih =>
    obtain ⟨hu, hus⟩ := List.forall_mem_cons.mp hus
    obtain ⟨limit, rfl⟩ := Nat.exists_eq_succ_of_ne_zero (Nat.ne_zero_of_lt hlimit)
    obtain ⟨hscan, hhead⟩ := scanUnit_escapeUnit hu (us.flatMap escapeUnit ++ '"' :: rest)
    have hrest := ih hus (Nat.lt_of_succ_lt_succ hlimit)
    rw [List.flatMap_cons, List.append_assoc]
    unfold scanUnits
    rw [if_neg hhead, hscan, Option.bind_some]
    dsimp only
    rw [hrest, Option.map_some]

/-- The escapes of units are no fewer characters than the units. -/
theorem length_le_escapes (us : List CodePoint) : us.length ≤ (us.flatMap escapeUnit).length := by
  induction us with
  | nil => exact le_rfl
  | cons u us ih =>
    have hpos := List.length_pos_of_ne_nil (escapeUnit_ne_nil u)
    rw [List.flatMap_cons, List.length_append, List.length_cons]
    omega

/-- **A string that is written reads back.** -/
theorem scanString_jsonText (s : PyString) (rest : Text) :
    scanString ((s.jsonText ++ rest).tail) = some (s, rest) := by
  have hsplit : (s.jsonText ++ rest).tail =
      (s.points.flatMap units).flatMap escapeUnit ++ '"' :: rest := by
    show (s.points.flatMap units).flatMap escapeUnit ++ ['"'] ++ rest = _
    rw [List.append_assoc]
    rfl
  have hus : ∀ u ∈ s.points.flatMap units, u.val < 0x10000 := by
    intro u hu
    obtain ⟨c, -, hc⟩ := List.mem_flatMap.mp hu
    exact units_lt hc
  have hlimit : (s.points.flatMap units).length <
      ((s.points.flatMap units).flatMap escapeUnit ++ '"' :: rest).length := by
    have hle := length_le_escapes (s.points.flatMap units)
    rw [List.length_append, List.length_cons]
    omega
  unfold scanString
  rw [hsplit, scanUnits_escapeUnit hus hlimit, Option.map_some]
  refine congrArg (fun s => some (s, rest)) ?_
  obtain ⟨points, hjoined⟩ := s
  dsimp only
  congr 1
  exact joinUnits_units hjoined

end Scan

end Instro.Library
