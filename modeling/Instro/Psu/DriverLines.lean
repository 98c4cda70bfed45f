import Instro.Psu.SimulatedDriver

/-!
# The lines of the driver

A command of the driver has the keyword of a subsystem with the number of the channel, a path of
other keywords, and a parameter or a question mark. The server finds the handler of the keywords, and
runs it for this channel.
-/

namespace Instro.Psu.Simulated

open Instro.Library


/-- A word in capital letters. -/
def Capitals (word : Text) : Prop := word ≠ [] ∧ ∀ c ∈ word, c.isUpper = true

instance : DecidablePred Capitals := fun word =>
  have := @List.decidableBAll Char (fun c => c.isUpper = true) inferInstance word
  inferInstanceAs (Decidable (_ ∧ _))

/-- A parameter as the driver writes it. -/
def Token (token : Text) : Prop :=
  token ≠ [] ∧ ∀ c ∈ token, c.toNat < 0x80 ∧ PyText.isSpace c = false ∧ c ≠ ','

section Lines

variable {py : PyText} {fl : Rounding} {word token : Text} {path : List Text} {channel : ℤ}
  {c : Char} {handler : Handler}

theorem isUpper_bounds (h : c.isUpper = true) : 65 ≤ c.toNat ∧ c.toNat ≤ 90 := by
  unfold Char.isUpper at h
  simp only [decide_eq_true_eq, ge_iff_le, UInt32.le_iff_toNat_le] at h
  have hA : 'A'.val.toNat = 65 := rfl
  have hZ : 'Z'.val.toNat = 90 := rfl
  show 65 ≤ c.val.toNat ∧ c.val.toNat ≤ 90
  omega

theorem not_isDigit_of_isUpper (h : c.isUpper = true) : PyText.isDigit c = false := by
  by_contra hdigit
  have hmark := toNat_of_isMark (.inl ((Bool.not_eq_false _).mp hdigit))
  have hbounds := isUpper_bounds h
  omega

theorem toUpper_of_isUpper (h : c.isUpper = true) : c.toUpper = c := by
  have hbounds := isUpper_bounds h
  unfold Char.toUpper
  split
  · next hlower =>
    simp only [UInt32.le_iff_toNat_le] at hlower
    have ha : 'a'.val.toNat = 97 := rfl
    have hval : c.val.toNat = c.toNat := rfl
    omega
  · rfl

theorem Capitals.upper (hpy : py.Documented fl) (h : Capitals word) : py.upper word = word := by
  have hascii : ∀ c ∈ word, c.toNat < 0x80 := by
    intro c hc
    have hbounds := isUpper_bounds (h.2 c hc)
    omega
  rw [hpy.upper_eq_map hascii]
  exact (List.map_congr_left fun c hc => toUpper_of_isUpper (h.2 c hc)).trans (List.map_id word)

theorem Capitals.suffix (h : Capitals word) : PyText.suffix word = [] :=
  @PyText.suffix_append_of_not_digit [] word h.1 fun c hc => not_isDigit_of_isUpper (h.2 c hc)

theorem Capitals.base (h : Capitals word) : PyText.base word = word := base_of_suffix h.suffix

theorem Capitals.not_mem (h : Capitals word) (hc : c.toNat < 65) : c ∉ word := by
  intro hmem
  have hbounds := isUpper_bounds (h.2 c hmem)
  omega

/-- A channel number that the header can hold. -/
structure Addressed (channel : ℤ) : Prop where
  nonneg : 0 ≤ channel
  short : (intText channel).length ≤ 4300

theorem intText_of_nonneg (h : 0 ≤ channel) : intText channel = PyText.ofNat channel.toNat := by
  obtain ⟨n, rfl⟩ := Int.eq_ofNat_of_zero_le h
  rfl

theorem decimal_ofNat (n : ℕ) : PyText.decimal (PyText.ofNat n) = n := by
  have hnumber := number_ofNat n
  have hfold : ∀ digits : Text, PyText.decimal digits = Numeral.number digits := by
    intro digits
    unfold PyText.decimal Numeral.number Nat.ofDigitChars
    rw [Nat.ofDigits_eq_foldr, List.foldr_map, List.foldr_reverse]
    simp only [Nat.cast_id, Nat.add_comm]
  rw [hfold, hnumber]

/-- The parts of the header of a command for a channel. -/
def partsFor (word : Text) (channel : ℤ) (path : List Text) : List Text :=
  (word ++ intText channel) :: path

/-- The header of a command for a channel. -/
def headerFor (word : Text) (channel : ℤ) (path : List Text) : Text :=
  ':' :: PyText.join ':' (partsFor word channel path)

theorem digits_intText (h : 0 ≤ channel) : Numeral.Digits (intText channel) := by
  rw [intText_of_nonneg h]
  exact ⟨ofNat_ne_nil _, fun c hc => isDigit_ofNat hc⟩

section Header

variable (hword : Capitals word) (hpath : ∀ part ∈ path, Capitals part)
  (hchannel : Addressed channel)

include hword hpath hchannel

/-- Only letters, digits and colons stand in a header. -/
theorem mem_headerFor (hc : c ∈ headerFor word channel path) :
    c = ':' ∨ c.isUpper = true ∨ PyText.isDigit c = true := by
  rcases List.mem_cons.mp hc with hc | hc
  · exact .inl hc
  rcases PyText.mem_join hc with hc | ⟨part, hpart, hc⟩
  · exact .inl hc
  rcases List.mem_cons.mp hpart with rfl | hpart
  · rcases List.mem_append.mp hc with hc | hc
    · exact .inr (.inl (hword.2 c hc))
    · exact .inr (.inr ((digits_intText hchannel.nonneg).2 c hc))
  · exact .inr (.inl ((hpath part hpart).2 c hc))

theorem partsOf_headerFor : partsOf (headerFor word channel path) = partsFor word channel path := by
  refine partsOf_cons ?_ (List.cons_ne_nil _ _)
  intro part hpart
  rcases List.mem_cons.mp hpart with rfl | hpart
  · intro hc
    rcases List.mem_append.mp hc with hc | hc
    · exact hword.not_mem (by decide) hc
    · exact absurd ((digits_intText hchannel.nonneg).2 ':' hc) (by decide)
  · exact (hpath part hpart).not_mem (by decide)

theorem keyOf_headerFor (hpy : py.Documented fl) :
    keyOf py (headerFor word channel path) = PyText.join ':' (word :: path) := by
  have hdigits := (digits_intText hchannel.nonneg).2
  unfold keyOf
  rw [partsOf_headerFor hword hpath hchannel, partsFor, List.map_cons,
    PyText.base_append hword.suffix hdigits, hword.upper hpy]
  congr 2
  refine (List.map_congr_left fun part hpart => ?_).trans (List.map_id path)
  rw [(hpath part hpart).base, (hpath part hpart).upper hpy, id]

theorem channelOf_headerFor : (channelOf (partsOf (headerFor word channel path)) : ℤ) = channel := by
  have hdigits := digits_intText hchannel.nonneg
  have hnone : (path.map PyText.suffix).filter (· ≠ []) = [] := by
    rw [List.filter_eq_nil_iff, List.forall_mem_map]
    intro part hpart
    simp [(hpath part hpart).suffix]
  rw [partsOf_headerFor hword hpath hchannel, partsFor]
  unfold channelOf
  rw [List.map_cons, PyText.suffix_append hword.suffix hdigits.2,
    List.filter_cons_of_pos (by simp [hdigits.1]), hnone, List.getLast?_singleton]
  show ((PyText.decimal (intText channel) : ℕ) : ℤ) = channel
  rw [intText_of_nonneg hchannel.nonneg, decimal_ofNat, Int.toNat_of_nonneg hchannel.nonneg]

theorem not_tooLong_headerFor : ¬ TooLong (headerFor word channel path) := by
  rintro ⟨part, hpart, hlong⟩
  rw [partsOf_headerFor hword hpath hchannel] at hpart
  have hdigits := (digits_intText hchannel.nonneg).2
  rcases List.mem_cons.mp hpart with rfl | hpart
  · rw [PyText.suffix_append hword.suffix hdigits] at hlong
    exact absurd hchannel.short (by omega)
  · rw [(hpath part hpart).suffix] at hlong
    exact absurd hlong (by simp)

end Header

/-- A header of the driver with its parameter is a line that its handler runs. -/
theorem route_write (hpy : py.Documented fl) (hword : Capitals word)
    (hpath : ∀ part ∈ path, Capitals part) (hchannel : Addressed channel) (htoken : Token token)
    (hkey : (commandTable.toOption.bind (·.lookup (PyText.join ':' (word :: path)))) = some handler) :
    ∃ c : ℕ, (c : ℤ) = channel ∧
      route py (headerFor word channel path ++ ' ' :: token) = .ok (.run handler c [token]) := by
  obtain ⟨table, htable⟩ := commandTable_ok
  rw [htable] at hkey
  have hmem := @mem_headerFor word path channel
  have hspace : ∀ c ∈ headerFor word channel path, decide (c ≠ ' ') = true := by
    intro c hc
    rw [decide_eq_true_iff]
    rintro rfl
    rcases hmem hword hpath hchannel hc with h | h | h <;> exact absurd h (by decide)
  have hline : PyText.partition ' ' (headerFor word channel path ++ ' ' :: token) =
      (headerFor word channel path, token) := by
    unfold PyText.partition
    rw [List.takeWhile_append_of_pos hspace, List.dropWhile_append_of_pos hspace]
    simp
  have hmark : (headerFor word channel path).getLast? ≠ some '?' := by
    intro h
    rcases hmem hword hpath hchannel (List.mem_of_getLast? h) with h | h | h <;>
      exact absurd h (by decide)
  have hstrip : PyText.strip token = token := strip_eq_self fun c hc => (htoken.2 c hc).2.1
  have hpositional : positional token = [token] := by
    have hsplit : token.splitOn ',' = [token] := by
      have hjoin := @PyText.splitOn_join ',' [token]
        (List.forall_mem_singleton.mpr fun hc => (htoken.2 _ hc).2.2 rfl) (List.cons_ne_nil _ _)
      rwa [PyText.join, List.intercalate_singleton] at hjoin
    unfold positional
    rw [if_neg htoken.1, hsplit, List.map_singleton, hstrip, List.filter_singleton]
    simp [htoken.1]
  refine ⟨_, channelOf_headerFor hword hpath hchannel, ?_⟩
  rw [route_write_of_short hpy.toCaseMapping htable hline hmark
    (not_tooLong_headerFor hword hpath hchannel), keyOf_headerFor hword hpath hchannel hpy, hstrip,
    hpositional]
  have hfound : table.lookup (PyText.join ':' (word :: path)) = some handler := hkey
  rw [hfound]

/-- A header of the driver with a question mark is a query that its handler runs. -/
theorem route_query (hpy : py.Documented fl) (hword : Capitals word)
    (hpath : ∀ part ∈ path, Capitals part) (hchannel : Addressed channel)
    (hkey : (commandTable.toOption.bind (·.lookup (PyText.join ':' (word :: path) ++ ['?']))) =
      some handler) :
    ∃ c : ℕ, (c : ℤ) = channel ∧
      route py (headerFor word channel path ++ ['?']) = .ok (.run handler c []) := by
  obtain ⟨table, htable⟩ := commandTable_ok
  rw [htable] at hkey
  have hspace : ∀ c ∈ headerFor word channel path ++ ['?'], decide (c ≠ ' ') = true := by
    intro c hc
    rw [decide_eq_true_iff]
    rintro rfl
    rcases List.mem_append.mp hc with hc | hc
    · rcases mem_headerFor hword hpath hchannel hc with h | h | h <;> exact absurd h (by decide)
    · exact absurd (List.mem_singleton.mp hc) (by decide)
  have hline : PyText.partition ' ' (headerFor word channel path ++ ['?']) =
      (headerFor word channel path ++ ['?'], []) := by
    unfold PyText.partition
    rw [List.takeWhile_eq_self_iff.mpr hspace, List.dropWhile_eq_nil_iff.mpr hspace]
    rfl
  refine ⟨_, channelOf_headerFor hword hpath hchannel, ?_⟩
  rw [route_query_of_short hpy.toCaseMapping htable hline
    (not_tooLong_headerFor hword hpath hchannel), keyOf_headerFor hword hpath hchannel hpy]
  have hfound : table.lookup (PyText.join ':' (word :: path) ++ ['?']) = some handler := hkey
  rw [hfound]
  rfl

theorem route_errorQuery (hpy : py.Documented fl) :
    route py ":SYST:ERR?".toList = .ok (.run .getError 1 []) := by
  obtain ⟨table, htable⟩ := commandTable_ok
  have hkey : commandTable.toOption.bind (·.lookup "SYST:ERR?".toList) = some .getError := by
    decide +kernel
  rw [htable] at hkey
  have hkeyOf : keyOf py ":SYST:ERR".toList = "SYST:ERR".toList := by
    show PyText.join ':' [py.upper "SYST".toList, py.upper "ERR".toList] = _
    rw [Capitals.upper hpy (by decide), Capitals.upper hpy (by decide)]
    rfl
  have hfound : table.lookup ("SYST:ERR".toList ++ ['?']) = some .getError := hkey
  have hline : PyText.partition ' ' ":SYST:ERR?".toList = (":SYST:ERR".toList ++ ['?'], []) := rfl
  rw [route_query_of_short hpy.toCaseMapping htable hline (by unfold TooLong; decide), hkeyOf, hfound]
  rfl

end Lines

end Instro.Psu.Simulated
