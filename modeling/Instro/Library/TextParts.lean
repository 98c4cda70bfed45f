import Instro.Library.PyText
import Mathlib.Data.Nat.Digits.Defs

/-!
# Parts of a text

A text of parts with a separator between them, the digits that a part ends with, and what uppercase
leaves of both.
-/

namespace Instro.Library.PyText

variable {sep c : Char} {text word digits : Text} {parts : List Text}

/-! ## Separators -/

theorem not_mem_of_mem_splitOn {part : Text} (h : part ∈ text.splitOn sep) : sep ∉ part := by
  induction text generalizing part with
  | nil =>
    obtain rfl := List.mem_singleton.mp h
    exact List.not_mem_nil
  | cons c text ih =>
    rw [List.splitOn_cons_eq_if_modifyHead] at h
    split_ifs at h with hc
    · rcases List.mem_cons.mp h with rfl | h
      · exact List.not_mem_nil
      · exact ih h
    · cases hsplit : text.splitOn sep with
      | nil => exact absurd hsplit (List.splitOn_ne_nil sep text)
      | cons head rest =>
        rw [hsplit] at h ih
        rcases List.mem_cons.mp h with rfl | h
        · have hne : sep ≠ c := fun heq => hc (by simp [heq])
          simp [hne, ih List.mem_cons_self]
        · exact ih (List.mem_cons_of_mem head h)

theorem join_splitOn (sep : Char) (text : Text) : join sep (text.splitOn sep) = text :=
  List.intercalate_splitOn sep

theorem splitOn_join (h : ∀ part ∈ parts, sep ∉ part) (hne : parts ≠ []) :
    (join sep parts).splitOn sep = parts :=
  List.splitOn_intercalate sep h hne

/-- Parts without the separator are told from the text they make. -/
theorem join_inj {parts' : List Text} (h : ∀ part ∈ parts, sep ∉ part)
    (h' : ∀ part ∈ parts', sep ∉ part) (hne : parts ≠ []) (hne' : parts' ≠ [])
    (heq : join sep parts = join sep parts') : parts = parts' := by
  rw [← splitOn_join h hne, heq, splitOn_join h' hne']

theorem mem_join (h : c ∈ join sep parts) : c = sep ∨ ∃ part ∈ parts, c ∈ part := by
  unfold join at h
  induction parts with
  | nil => cases h
  | cons head parts ih =>
    by_cases hparts : parts = []
    · subst hparts
      rw [List.intercalate_singleton] at h
      exact .inr ⟨head, List.mem_cons_self, h⟩
    · rw [List.intercalate_cons_of_ne_nil hparts] at h
      simp only [List.mem_append, List.mem_singleton] at h
      rcases h with (h | h) | h
      · exact .inr ⟨head, List.mem_cons_self, h⟩
      · exact .inl h
      · refine (ih h).imp_right ?_
        rintro ⟨part, hpart, hmem⟩
        exact ⟨part, List.mem_cons_of_mem head hpart, hmem⟩

/-- What is appended to the text is appended to the last part. -/
theorem join_concat_append (parts : List Text) (part tail : Text) :
    join sep (parts ++ [part]) ++ tail = join sep (parts ++ [part ++ tail]) := by
  induction parts with
  | nil => simp [join]
  | cons head parts ih =>
    unfold join at ih ⊢
    rw [List.cons_append, List.cons_append, List.intercalate_cons_of_ne_nil (by simp),
      List.intercalate_cons_of_ne_nil (by simp), List.append_assoc, ih]

theorem removePrefix_cons (c d : Char) (text : Text) :
    removePrefix c (d :: text) = if d = c then text else d :: text := rfl

/-! ## Digits at the end -/

/-- The digits that a text ends with. -/
def suffix (text : Text) : Text := text.rtakeWhile isDigit

/-- The text in front of them. -/
def base (text : Text) : Text := text.rdropWhile isDigit

theorem base_append_suffix (text : Text) : base text ++ suffix text = text :=
  List.rdropWhile_append_rtakeWhile

theorem isDigit_of_mem_suffix (h : c ∈ suffix text) : isDigit c = true :=
  List.mem_rtakeWhile_imp h

/-- The text and the digits after it, if it ends with none. -/
theorem base_append (hword : suffix word = []) (hdigits : ∀ c ∈ digits, isDigit c = true) :
    base (word ++ digits) = word := by
  induction digits using List.reverseRecOn with
  | nil =>
    have hself := base_append_suffix word
    rw [hword, List.append_nil] at hself
    rw [List.append_nil, hself]
  | append_singleton digits c ih =>
    unfold base
    rw [← List.append_assoc, List.rdropWhile_concat_pos isDigit _ c (hdigits c (by simp))]
    exact ih fun d hd => hdigits d (List.mem_append_left [c] hd)

theorem suffix_append (hword : suffix word = []) (hdigits : ∀ c ∈ digits, isDigit c = true) :
    suffix (word ++ digits) = digits := by
  have h := base_append_suffix (word ++ digits)
  rw [base_append hword hdigits] at h
  exact List.append_cancel_left h

/-- A text that ends with something else ends with no digits. -/
theorem suffix_append_of_not_digit (hne : word ≠ []) (h : ∀ c ∈ word, isDigit c = false) :
    suffix (text ++ word) = [] := by
  apply (List.rtakeWhile_eq_nil_iff (p := isDigit)).mpr
  intro happend
  rw [List.getLast_append_of_ne_nil happend hne, h _ (List.getLast_mem hne)]
  exact Bool.false_ne_true

/-- The number that digits spell. -/
def decimal (digits : Text) : ℕ :=
  Nat.ofDigits 10 (digits.reverse.map fun c => c.toNat - '0'.toNat)

theorem toInt_of_le (h : digits.length ≤ 4300) : toInt digits = .ok (decimal digits) := by
  unfold toInt decimal
  rw [if_neg (by omega), Nat.ofDigits_eq_foldr, List.foldr_map, List.foldr_reverse]
  simp only [Nat.cast_id, Nat.add_comm]

theorem toInt_of_lt (h : 4300 < digits.length) : toInt digits = .error .valueError := by
  unfold toInt
  rw [if_pos h]

/-! ## Uppercase -/

/-- The characters that stand for themselves in a command. -/
def IsMark (c : Char) : Prop := isDigit c = true ∨ c = ':' ∨ c = '?'

instance : DecidablePred IsMark := fun _ => inferInstanceAs (Decidable (_ ∨ _))

/-- What the Unicode tables say of uppercase: no character disappears, and a mark is the uppercase
of itself alone. -/
structure CaseMapping (py : PyText) : Prop where
  upper_ne_nil : ∀ c, py.upperChar c ≠ []
  upper_mark : ∀ c, IsMark c → py.upperChar c = [c]
  eq_of_mark_mem : ∀ c d, IsMark d → d ∈ py.upperChar c → c = d

section Upper

variable {py : PyText}

theorem upper_append (py : PyText) (text text' : Text) :
    py.upper (text ++ text') = py.upper text ++ py.upper text' :=
  List.flatMap_append

theorem upper_of_marks (hpy : py.CaseMapping) (h : ∀ c ∈ text, IsMark c) : py.upper text = text := by
  induction text with
  | nil => rfl
  | cons c text ih =>
    show py.upperChar c ++ py.upper text = c :: text
    rw [hpy.upper_mark c (h c List.mem_cons_self), ih fun d hd => h d (List.mem_cons_of_mem c hd)]
    rfl

theorem mem_upper_iff (hpy : py.CaseMapping) (hc : IsMark c) : c ∈ py.upper text ↔ c ∈ text := by
  unfold upper
  rw [List.mem_flatMap]
  constructor
  · rintro ⟨d, hd, hmem⟩
    rwa [← hpy.eq_of_mark_mem d c hc hmem]
  · intro h
    exact ⟨c, h, by simp [hpy.upper_mark c hc]⟩

/-- A text ends with as many digits as its uppercase. -/
theorem suffix_upper_base (hpy : py.CaseMapping) (text : Text) :
    suffix (py.upper (base text)) = [] := by
  rcases List.eq_nil_or_concat' (base text) with hbase | ⟨word, c, hbase⟩
  · rw [hbase]
    rfl
  · have hc : isDigit c = false := by
      have hbase' : text.rdropWhile isDigit = word ++ [c] := hbase
      have hlast := List.rdropWhile_last_not isDigit text (by simp [hbase'])
      simpa [hbase'] using hlast
    have htail : py.upper [c] = py.upperChar c := List.append_nil _
    rw [hbase, upper_append, htail]
    apply suffix_append_of_not_digit (hpy.upper_ne_nil c)
    intro d hd
    by_contra hdigit
    rw [Bool.not_eq_false] at hdigit
    rw [hpy.eq_of_mark_mem c d (.inl hdigit) hd, hdigit] at hc
    cases hc

/-- A mark at the end of the uppercase is one at the end of the text. -/
theorem eq_append_of_upper_eq_append (hpy : py.CaseMapping) (hc : IsMark c)
    (h : py.upper text = word ++ [c]) : ∃ front, text = front ++ [c] ∧ py.upper front = word := by
  rcases List.eq_nil_or_concat' text with rfl | ⟨front, d, rfl⟩
  · simp [upper] at h
  · have htail : py.upper [d] = py.upperChar d := List.append_nil _
    rw [upper_append, htail] at h
    have hmem : c ∈ py.upperChar d := by
      have hlast := congrArg List.getLast? h
      rw [List.getLast?_concat, List.getLast?_append_of_ne_nil _ (hpy.upper_ne_nil d)] at hlast
      exact List.mem_of_getLast? hlast
    obtain rfl := hpy.eq_of_mark_mem d c hc hmem
    rw [hpy.upper_mark d hc] at h
    exact ⟨front, rfl, List.append_cancel_right h⟩

theorem base_upper (hpy : py.CaseMapping) (text : Text) :
    base (py.upper text) = py.upper (base text) := by
  conv_lhs => rw [← base_append_suffix text, upper_append,
    upper_of_marks hpy fun c hc => .inl (isDigit_of_mem_suffix hc)]
  exact base_append (suffix_upper_base hpy text) fun c hc => isDigit_of_mem_suffix hc

theorem suffix_upper (hpy : py.CaseMapping) (text : Text) :
    suffix (py.upper text) = suffix text := by
  conv_lhs => rw [← base_append_suffix text, upper_append,
    upper_of_marks hpy fun c hc => .inl (isDigit_of_mem_suffix hc)]
  exact suffix_append (suffix_upper_base hpy text) fun c hc => isDigit_of_mem_suffix hc

/-- The digits of a text are what its uppercase has after the rest. -/
theorem drop_upper_base (hpy : py.CaseMapping) (text : Text) :
    (py.upper text).drop (py.upper (base text)).length = suffix text := by
  have h := base_append_suffix (py.upper text)
  rw [base_upper hpy, suffix_upper hpy] at h
  rw [← h, List.drop_left]

end Upper

end Instro.Library.PyText
