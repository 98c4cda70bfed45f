import Instro.Psu.Headers
import Instro.Psu.Protection

/-!
# Dispatch

Which handler a command line reaches, against the grammar of the commands. A header is written in
parts with colons between them, each a keyword and digits. Uppercase, the digits and the question
mark are taken off at different points, and a question mark in front of the digits passes for the
last character of the keyword.
-/

namespace Instro.Psu

open Instro.Library

/-! ## The grammar -/

section Grammar

variable (py : PyText)

/-- A keyword in its short or its long form, whatever the case, and digits after it. -/
def Spells (keyword part : Text) : Prop :=
  ∃ word digits, part = word ++ digits ∧ (∀ c ∈ digits, PyText.isDigit c = true) ∧
    IsForm keyword (py.upper word)

/-- The header is a path of the command, after a colon or none. -/
def SCPICommand.Matches (cmd : SCPICommand) (header : Text) (parts : List Text) : Prop :=
  ∃ keywords, cmd.Layout keywords ∧ List.Forall₂ (Spells py) keywords parts ∧
    (header = PyText.join ':' parts ∨ header = ':' :: PyText.join ':' parts)

/-- The last digits of a header count, and 1 where it has none. -/
def channelOf (parts : List Text) : ℕ :=
  match ((parts.map PyText.suffix).filter (· ≠ [])).getLast? with
  | some digits => PyText.decimal digits
  | none => 1

/-- A handler that writes, with the parameters of the line. -/
def Writes (line : Text) (handler : Handler) (channel : ℕ) (args : List Text) : Prop :=
  ∃ cmd ∈ scpiCommands, cmd.write = some handler ∧
    ∃ parts, cmd.Matches py (PyText.partition ' ' line).1 parts ∧ channel = channelOf parts ∧
      args = positional (PyText.strip (PyText.partition ' ' line).2)

/-- A handler that answers: the header ends in a question mark, and there are no parameters. -/
def Queries (line : Text) (handler : Handler) (channel : ℕ) (args : List Text) : Prop :=
  ∃ cmd ∈ scpiCommands, cmd.query = some handler ∧
    ∃ header, (PyText.partition ' ' line).1 = header ++ ['?'] ∧
      ∃ parts, cmd.Matches py header parts ∧ channel = channelOf parts ∧ args = [] ∧
        positional (PyText.strip (PyText.partition ' ' line).2) = []

end Grammar

/-! ## What dispatch decides -/

/-- A command is refused with an error, or run. -/
inductive Route
  | refuse (err : SCPIError)
  | run (handler : Handler) (channel : ℕ) (args : List Text)

/-- What `_dispatch` decides before a handler runs. -/
def route (py : PyText) (cmd : Text) : Except PyException Route := do
  let table ← commandTable
  let (headerRaw, rest) := PyText.partition ' ' cmd
  let rest := PyText.strip rest
  let isQuery : Bool := headerRaw.getLast? = some '?'
  let headerRaw := if isQuery then headerRaw.dropLast else headerRaw
  let (canonical, channel) ← normalizeHeader py headerRaw
  let key := if isQuery then canonical ++ ['?'] else canonical
  match table.lookup key with
  | none => return .refuse .undefinedHeader
  | some handler =>
    let args := positional rest
    if isQuery ∧ args ≠ [] then return .refuse .parameterNotAllowed
    else return .run handler channel args

/-- What comes of it. -/
def Route.execute (fl : Rounding) (py : PyText) (gauss : PyFloat → PyFloat → PyFloat)
    (psu : SimulatedPSU) : Route → Outcome
  | .refuse err => .ok (none, psu.pushError err)
  | .run handler channel args => catchValueError psu (handler.run fl py gauss psu channel args)

section Route

variable {fl : Rounding} {py : PyText} {gauss : PyFloat → PyFloat → PyFloat} {psu : SimulatedPSU}

/-- Dispatch is the decision, and then what comes of it. -/
theorem dispatch_eq_route (line : Text) :
    dispatch fl py gauss psu line = (do
      let r ← route py line
      r.execute fl py gauss psu) := by
  unfold dispatch route
  rw [bind_assoc]
  apply bind_congr
  intro table
  dsimp only
  rw [bind_assoc]
  apply bind_congr
  rintro ⟨canonical, channel⟩
  dsimp only
  generalize List.lookup _ table = found
  cases found with
  | none => rfl
  | some handler =>
    dsimp only
    split_ifs <;> rfl

end Route

/-! ## Headers -/

section Headers

variable {py : PyText} {header : Text} {parts : List Text}

/-- The parts of a header. -/
def partsOf (header : Text) : List Text := (PyText.removePrefix ':' header).splitOn ':'

/-- A part ends in more digits than `int` reads. -/
def TooLong (header : Text) : Prop :=
  ∃ part ∈ partsOf header, 4300 < (PyText.suffix part).length

/-- The step of `_normalize_header`. -/
def normalizePart (py : PyText) (acc : List Text × ℕ) (raw : Text) :
    Except PyException (List Text × ℕ) := do
  let upper := py.upper raw
  let base := upper.rdropWhile PyText.isDigit
  let suffix := upper.drop base.length
  let channel ← if suffix ≠ [] then PyText.toInt suffix else pure acc.2
  return (acc.1 ++ [base], channel)

theorem normalizePart_of_le (hpy : py.CaseMapping) (acc : List Text × ℕ) {raw : Text}
    (h : (PyText.suffix raw).length ≤ 4300) :
    normalizePart py acc raw = .ok (acc.1 ++ [py.upper (PyText.base raw)],
      if PyText.suffix raw ≠ [] then PyText.decimal (PyText.suffix raw) else acc.2) := by
  unfold normalizePart
  dsimp only
  rw [show (py.upper raw).rdropWhile PyText.isDigit = py.upper (PyText.base raw) from
    PyText.base_upper hpy raw, PyText.drop_upper_base hpy]
  split_ifs with hsuffix
  · rw [PyText.toInt_of_le h]
    rfl
  · rfl

theorem normalizePart_of_lt (hpy : py.CaseMapping) (acc : List Text × ℕ) {raw : Text}
    (h : 4300 < (PyText.suffix raw).length) : normalizePart py acc raw = .error .valueError := by
  unfold normalizePart
  dsimp only
  rw [show (py.upper raw).rdropWhile PyText.isDigit = py.upper (PyText.base raw) from
    PyText.base_upper hpy raw, PyText.drop_upper_base hpy, if_pos (List.length_pos_iff.mp (by omega)),
    PyText.toInt_of_lt h]
  rfl

/-- The last digits are those that the parts are gone through for. -/
theorem channelOf_concat (parts : List Text) (part : Text) :
    channelOf (parts ++ [part]) =
      if PyText.suffix part ≠ [] then PyText.decimal (PyText.suffix part) else channelOf parts := by
  unfold channelOf
  rw [List.map_append, List.filter_append]
  by_cases hpart : PyText.suffix part = []
  · simp [hpart]
  · simp [hpart]

theorem foldlM_normalizePart (hpy : py.CaseMapping)
    (h : ∀ part ∈ parts, (PyText.suffix part).length ≤ 4300) :
    parts.foldlM (normalizePart py) ([], 1) =
      .ok (parts.map fun part => py.upper (PyText.base part), channelOf parts) := by
  induction parts using List.reverseRecOn with
  | nil => rfl
  | append_singleton parts part ih =>
    rw [List.foldlM_append, ih fun p hp => h p (List.mem_append_left _ hp)]
    show (normalizePart py _ part >>= fun acc => [].foldlM (normalizePart py) acc) = _
    rw [normalizePart_of_le hpy _ (h part (by simp)), channelOf_concat, List.map_append]
    rfl

theorem foldlM_normalizePart_of_lt (hpy : py.CaseMapping)
    (h : ∃ part ∈ parts, 4300 < (PyText.suffix part).length) (acc : List Text × ℕ) :
    parts.foldlM (normalizePart py) acc = .error .valueError := by
  induction parts generalizing acc with
  | nil =>
    obtain ⟨part, hpart, -⟩ := h
    exact absurd hpart List.not_mem_nil
  | cons part parts ih =>
    rw [List.foldlM_cons]
    by_cases hpart : (PyText.suffix part).length ≤ 4300
    · rw [normalizePart_of_le hpy acc hpart]
      apply ih
      obtain ⟨p, hp, hlong⟩ := h
      rcases List.mem_cons.mp hp with rfl | hp
      · omega
      · exact ⟨p, hp, hlong⟩
    · rw [normalizePart_of_lt hpy acc (by omega)]
      rfl

/-- What `_normalize_header` makes of a header: the keywords in uppercase, and the channel. -/
theorem normalizeHeader_of_short (hpy : py.CaseMapping) (h : ¬ TooLong header) :
    normalizeHeader py header =
      .ok (PyText.join ':' ((partsOf header).map fun part => py.upper (PyText.base part)),
        channelOf (partsOf header)) := by
  have hfold := foldlM_normalizePart hpy fun part hpart =>
    not_lt.mp fun hlong => h ⟨part, hpart, hlong⟩
  show ((partsOf header).foldlM (normalizePart py) ([], 1) >>= _) = _
  rw [hfold]
  rfl

theorem normalizeHeader_of_tooLong (hpy : py.CaseMapping) (h : TooLong header) :
    normalizeHeader py header = .error .valueError := by
  show ((partsOf header).foldlM (normalizePart py) ([], 1) >>= _) = _
  rw [foldlM_normalizePart_of_lt hpy h]
  rfl

end Headers

/-! ## Headers against the grammar -/

section Matching

variable {py : PyText} {cmd : SCPICommand} {header part keyword : Text}
  {keywords parts path : List Text} {c : Char}

theorem header_of_partsOf (header : Text) :
    header = PyText.join ':' (partsOf header) ∨ header = ':' :: PyText.join ':' (partsOf header) := by
  unfold partsOf
  rw [PyText.join_splitOn]
  cases header with
  | nil => exact .inl rfl
  | cons c text =>
    rw [PyText.removePrefix_cons]
    split_ifs with hc
    · rw [hc]
      exact .inr rfl
    · exact .inl rfl

theorem partsOf_join (h : ∀ part ∈ parts, part ≠ [] ∧ ':' ∉ part) (hne : parts ≠ []) :
    partsOf (PyText.join ':' parts) = parts := by
  have hsplit := PyText.splitOn_join (fun part hpart => (h part hpart).2) hne
  unfold partsOf
  cases hjoin : PyText.join ':' parts with
  | nil => rwa [hjoin] at hsplit
  | cons c text =>
    rw [PyText.removePrefix_cons, if_neg, ← hjoin, hsplit]
    rintro rfl
    rw [hjoin, List.splitOn_cons_eq_if_modifyHead, if_pos (by simp)] at hsplit
    exact (h [] (by simp [← hsplit])).1 rfl

theorem partsOf_cons (h : ∀ part ∈ parts, ':' ∉ part) (hne : parts ≠ []) :
    partsOf (':' :: PyText.join ':' parts) = parts := by
  unfold partsOf
  rw [PyText.removePrefix_cons, if_pos rfl, PyText.splitOn_join h hne]

/-- A text has no digits if its uppercase is a word without marks. -/
theorem plain_word (hpy : py.CaseMapping) {word : Text} (hplain : PlainWord (py.upper word)) :
    word ≠ [] ∧ ∀ c ∈ word, PyText.isDigit c = false := by
  constructor
  · rintro rfl
    exact hplain.1 rfl
  · intro c hc
    by_contra hdigit
    have hmark : PyText.IsMark c := .inl ((Bool.not_eq_false _).mp hdigit)
    exact hplain.2 c ((PyText.mem_upper_iff hpy hmark).mpr hc) hmark

theorem suffix_append_word (hpy : py.CaseMapping) {word : Text}
    (hplain : PlainWord (py.upper word)) (text : Text) : PyText.suffix (text ++ word) = [] :=
  PyText.suffix_append_of_not_digit (plain_word hpy hplain).1 (plain_word hpy hplain).2

theorem suffix_word (hpy : py.CaseMapping) {word : Text} (hplain : PlainWord (py.upper word)) :
    PyText.suffix word = [] :=
  suffix_append_word hpy hplain []

/-- A part spells a keyword if the text in front of its digits does. -/
theorem spells_iff (hpy : py.CaseMapping) (hplain : ∀ form, IsForm keyword form → PlainWord form) :
    Spells py keyword part ↔ IsForm keyword (py.upper (PyText.base part)) := by
  constructor
  · rintro ⟨word, digits, rfl, hdigits, hform⟩
    rwa [PyText.base_append (suffix_word hpy (hplain _ hform)) hdigits]
  · intro hform
    exact ⟨PyText.base part, PyText.suffix part, (PyText.base_append_suffix part).symm,
      fun c hc => PyText.isDigit_of_mem_suffix hc, hform⟩

theorem forall₂_spells_iff (hpy : py.CaseMapping)
    (hplain : ∀ keyword ∈ keywords, ∀ form, IsForm keyword form → PlainWord form) :
    List.Forall₂ (Spells py) keywords parts ↔
      SCPICommand.Spelling keywords (parts.map fun part => py.upper (PyText.base part)) := by
  unfold SCPICommand.Spelling
  rw [List.forall₂_map_right_iff]
  induction keywords generalizing parts with
  | nil => simp
  | cons keyword keywords ih =>
    rw [List.forall_mem_cons] at hplain
    cases parts with
    | nil => simp
    | cons part parts =>
      rw [List.forall₂_cons, List.forall₂_cons, spells_iff hpy hplain.1, ih hplain.2]

/-- Only digits are marks in a part that spells a keyword. -/
theorem mark_not_mem (hpy : py.CaseMapping) (hplain : PlainWord (py.upper (PyText.base part)))
    (hc : PyText.IsMark c) (hdigit : PyText.isDigit c = false) : c ∉ part := by
  intro h
  rw [← PyText.base_append_suffix part] at h
  rcases List.mem_append.mp h with h | h
  · exact hplain.2 c ((PyText.mem_upper_iff hpy hc).mpr h) hc
  · rw [PyText.isDigit_of_mem_suffix h] at hdigit
    cases hdigit

theorem part_ne_nil (hplain : PlainWord (py.upper (PyText.base part))) : part ≠ [] := by
  rintro rfl
  exact hplain.1 rfl

/-- A header matches a command if its own parts do, whatever the case and without their digits. -/
theorem matches_iff (hpy : py.CaseMapping) (hcmd : cmd ∈ scpiCommands) :
    cmd.Matches py header parts ↔ parts = partsOf header ∧
      ∃ keywords, cmd.Layout keywords ∧
        SCPICommand.Spelling keywords (parts.map fun part => py.upper (PyText.base part)) := by
  constructor
  · rintro ⟨keywords, hlayout, hspells, hheader⟩
    have hkeywords := forms_plain hcmd hlayout
    have hspelling := (forall₂_spells_iff hpy hkeywords).mp hspells
    obtain ⟨hne, hplain⟩ := spelling_plain hcmd hlayout hspelling
    rw [List.forall_mem_map] at hplain
    have hne : parts ≠ [] := fun h => hne (by rw [h]; rfl)
    have hcolon : ∀ part ∈ parts, ':' ∉ part := fun part hpart =>
      mark_not_mem hpy (hplain part hpart) (.inr (.inl rfl)) rfl
    refine ⟨?_, keywords, hlayout, hspelling⟩
    rcases hheader with rfl | rfl
    · exact (partsOf_join (fun part hpart =>
        ⟨part_ne_nil (hplain part hpart), hcolon part hpart⟩) hne).symm
    · exact (partsOf_cons hcolon hne).symm
  · rintro ⟨rfl, keywords, hlayout, hspelling⟩
    have hkeywords := forms_plain hcmd hlayout
    exact ⟨keywords, hlayout, (forall₂_spells_iff hpy hkeywords).mpr hspelling,
      header_of_partsOf header⟩

/-- The key that a header is looked up by, without the question mark. -/
def keyOf (py : PyText) (header : Text) : Text :=
  PyText.join ':' ((partsOf header).map fun part => py.upper (PyText.base part))

theorem partsOf_ne_nil (header : Text) : partsOf header ≠ [] := List.splitOn_ne_nil _ _

theorem upper_base_colon (hpy : py.CaseMapping) (header : Text) :
    ∀ word ∈ (partsOf header).map fun part => py.upper (PyText.base part), ':' ∉ word := by
  rw [List.forall_mem_map]
  intro part hpart h
  apply PyText.not_mem_of_mem_splitOn hpart
  rw [← PyText.base_append_suffix part]
  exact List.mem_append_left _ ((PyText.mem_upper_iff hpy (.inr (.inl rfl))).mp h)

/-- A header with the key of a spelling matches the command. -/
theorem keyOf_eq_join_iff (hpy : py.CaseMapping) (hcmd : cmd ∈ scpiCommands) :
    (∃ keywords, cmd.Layout keywords ∧ ∃ path, SCPICommand.Spelling keywords path ∧
      keyOf py header = PyText.join ':' path) ↔ cmd.Matches py header (partsOf header) := by
  rw [matches_iff hpy hcmd]
  constructor
  · rintro ⟨keywords, hlayout, path, hpath, hkey⟩
    obtain ⟨hne, hplain⟩ := spelling_plain hcmd hlayout hpath
    refine ⟨rfl, keywords, hlayout, ?_⟩
    rwa [PyText.join_inj (upper_base_colon hpy header)
      (fun form hform h => (hplain form hform).2 ':' h (.inr (.inl rfl)))
      (by simpa using partsOf_ne_nil header) hne hkey]
  · rintro ⟨-, keywords, hlayout, hspelling⟩
    exact ⟨keywords, hlayout, _, hspelling, rfl⟩

/-- The header of a query with its digits after the question mark. -/
def SCPICommand.MatchesMisplaced (cmd : SCPICommand) (py : PyText) (header : Text) : Prop :=
  ∃ core digits parts, header = core ++ '?' :: digits ∧ digits ≠ [] ∧
    (∀ c ∈ digits, PyText.isDigit c = true) ∧ PyText.suffix core = [] ∧ cmd.Matches py core parts

theorem suffix_eq_nil_of_append {front word : Text} (hne : word ≠ [])
    (h : PyText.suffix (front ++ word) = []) : PyText.suffix word = [] := by
  rw [PyText.suffix, List.rtakeWhile_eq_nil_iff] at h ⊢
  intro hword
  have hlast := h (by simp [hne])
  rwa [List.getLast_append_of_ne_nil _ hne] at hlast

theorem base_of_suffix {word : Text} (h : PyText.suffix word = []) : PyText.base word = word := by
  have hself := PyText.base_append_suffix word
  rwa [h, List.append_nil] at hself

/-- The last part ends a text. -/
theorem join_concat (front : List Text) (last : Text) :
    PyText.join ':' (front ++ [last]) = PyText.join ':' (front ++ [[]]) ++ last := by
  rw [PyText.join_concat_append, List.nil_append]

/-- A header with the key of a query and no question mark behind it. -/
theorem misplaced_of_keyOf (hpy : py.CaseMapping) (hcmd : cmd ∈ scpiCommands)
    (hmark : header.getLast? ≠ some '?') (hlayout : cmd.Layout keywords)
    (hpath : SCPICommand.Spelling keywords path)
    (hkey : keyOf py header = PyText.join ':' path ++ ['?']) : cmd.MatchesMisplaced py header := by
  obtain ⟨hne, hplain⟩ := spelling_plain hcmd hlayout hpath
  have hkeywords := forms_plain hcmd hlayout
  obtain ⟨pathFront, form, rfl⟩ := (List.eq_nil_or_concat' path).resolve_left hne
  have hcolon : ∀ word ∈ pathFront ++ [form ++ ['?']], ':' ∉ word := by
    intro word hword h
    rcases List.mem_append.mp hword with hword | hword
    · exact (hplain word (List.mem_append_left _ hword)).2 ':' h (.inr (.inl rfl))
    · obtain rfl := List.mem_singleton.mp hword
      have hform : ':' ∈ form := by simpa using h
      exact (hplain form (by simp)).2 ':' hform (.inr (.inl rfl))
  rw [PyText.join_concat_append] at hkey
  have hwords := PyText.join_inj (upper_base_colon hpy header) hcolon
    (by simpa using partsOf_ne_nil header) (by simp) hkey
  obtain ⟨front, tail, hparts, rfl, htail⟩ := List.map_eq_append_iff.mp hwords
  obtain ⟨last, rfl, hlast⟩ := List.map_eq_singleton_iff.mp htail
  -- the question mark stands between the word and the digits of the last part
  obtain ⟨word, hbase, rfl⟩ := PyText.eq_append_of_upper_eq_append hpy (.inr (.inr rfl)) hlast
  have hword := hplain (py.upper word) (by simp)
  have hpart : last = word ++ '?' :: PyText.suffix last := by
    conv_lhs => rw [← PyText.base_append_suffix last, hbase]
    simp
  have hspells : List.Forall₂ (Spells py) keywords (front ++ [word]) := by
    apply (forall₂_spells_iff hpy hkeywords).mpr
    rwa [List.map_append, List.map_singleton, base_of_suffix (suffix_word hpy hword)]
  have hjoin : PyText.join ':' (partsOf header) =
      PyText.join ':' (front ++ [word]) ++ '?' :: PyText.suffix last := by
    rw [PyText.join_concat_append, ← hpart, hparts]
  have hdigits : ∀ c ∈ PyText.suffix last, PyText.isDigit c = true :=
    fun c hc => PyText.isDigit_of_mem_suffix hc
  have hne : ∀ {core}, header = core ++ '?' :: PyText.suffix last → PyText.suffix last ≠ [] := by
    intro core hheader hnil
    rw [hnil] at hheader
    exact hmark (by rw [hheader, List.getLast?_concat])
  rcases header_of_partsOf header with h | h
  · have hheader := h.trans hjoin
    refine ⟨_, _, _, hheader, hne hheader, hdigits, ?_, keywords, hlayout, hspells, .inl rfl⟩
    rw [join_concat]
    exact suffix_append_word hpy hword _
  · have hheader : header = (':' :: PyText.join ':' (front ++ [word])) ++ '?' :: _ :=
      h.trans (congrArg (':' :: ·) hjoin)
    refine ⟨_, _, _, hheader, hne hheader, hdigits, ?_, keywords, hlayout, hspells, .inr rfl⟩
    rw [join_concat]
    exact suffix_append_word hpy hword (':' :: _)

/-- The parts of a header with its digits after the question mark. -/
theorem partsOf_misplaced (hpy : py.CaseMapping) {core digits last : Text} {front : List Text}
    (hparts : partsOf core = front ++ [last])
    (hplain : ∀ part ∈ partsOf core, PlainWord (py.upper (PyText.base part)))
    (hdigits : ∀ c ∈ digits, PyText.isDigit c = true) :
    partsOf (core ++ '?' :: digits) = front ++ [last ++ '?' :: digits] := by
  rw [hparts] at hplain
  have hpart : ∀ part ∈ front ++ [last ++ '?' :: digits], part ≠ [] ∧ ':' ∉ part := by
    intro part hpart
    rcases List.mem_append.mp hpart with hpart | hpart
    · have hp := hplain part (List.mem_append_left _ hpart)
      exact ⟨part_ne_nil hp, mark_not_mem hpy hp (.inr (.inl rfl)) rfl⟩
    · obtain rfl := List.mem_singleton.mp hpart
      refine ⟨by simp, fun h => ?_⟩
      rcases List.mem_append.mp h with h | h
      · exact mark_not_mem hpy (hplain last (by simp)) (.inr (.inl rfl)) rfl h
      · rcases List.mem_cons.mp h with h | h
        · exact absurd h (by decide)
        · exact absurd (hdigits ':' h) (by decide)
  rcases header_of_partsOf core with h | h
  · rw [h, hparts, PyText.join_concat_append]
    exact partsOf_join hpart (by simp)
  · rw [h, hparts, List.cons_append, PyText.join_concat_append]
    exact partsOf_cons (fun part hmem => (hpart part hmem).2) (by simp)

/-- The keys of queries are reached by headers with the digits after the question mark. -/
theorem keyOf_eq_query_iff (hpy : py.CaseMapping) (hcmd : cmd ∈ scpiCommands)
    (hmark : header.getLast? ≠ some '?') :
    (∃ keywords, cmd.Layout keywords ∧ ∃ path, SCPICommand.Spelling keywords path ∧
      keyOf py header = PyText.join ':' path ++ ['?']) ↔ cmd.MatchesMisplaced py header := by
  constructor
  · rintro ⟨keywords, hlayout, path, hpath, hkey⟩
    exact misplaced_of_keyOf hpy hcmd hmark hlayout hpath hkey
  · rintro ⟨core, digits, parts, rfl, -, hdigits, hsuffix, hmatches⟩
    obtain ⟨rfl, keywords, hlayout, hspelling⟩ := (matches_iff hpy hcmd).mp hmatches
    obtain ⟨-, hplain⟩ := spelling_plain hcmd hlayout hspelling
    rw [List.forall_mem_map] at hplain
    obtain ⟨front, last, hparts⟩ :=
      (List.eq_nil_or_concat' (partsOf core)).resolve_left (partsOf_ne_nil core)
    have hlast := part_ne_nil (hplain last (by simp [hparts]))
    have hlastSuffix : PyText.suffix last = [] := by
      rcases header_of_partsOf core with h | h <;> rw [h, hparts, join_concat] at hsuffix
      · exact suffix_eq_nil_of_append hlast hsuffix
      · exact @suffix_eq_nil_of_append (':' :: _) last hlast hsuffix
    have hbase : PyText.base (last ++ '?' :: digits) = last ++ ['?'] := by
      rw [← List.singleton_append, ← List.append_assoc]
      apply PyText.base_append _ hdigits
      exact PyText.suffix_append_of_not_digit (by simp) (by simp [PyText.isDigit])
    have hupper : py.upper ['?'] = ['?'] :=
      PyText.upper_of_marks hpy (by simp [PyText.IsMark])
    refine ⟨keywords, hlayout, _, hspelling, ?_⟩
    unfold keyOf
    rw [partsOf_misplaced hpy hparts hplain hdigits, hparts, List.map_append, List.map_append,
      List.map_singleton, List.map_singleton, PyText.join_concat_append, hbase,
      base_of_suffix hlastSuffix, PyText.upper_append, hupper]

end Matching

/-! ## Decisions -/

section Decisions

variable {py : PyText} {line header rest : Text} {table : List (Text × Handler)}

/-- The header without a question mark at its end. -/
def bareHeader (headerRaw : Text) : Text :=
  if headerRaw.getLast? = some '?' then headerRaw.dropLast else headerRaw

/-- The decision on a header with a question mark at its end. -/
theorem route_query (hline : PyText.partition ' ' line = (header ++ ['?'], rest)) :
    route py line = (do
      let table ← commandTable
      let (canonical, channel) ← normalizeHeader py header
      match table.lookup (canonical ++ ['?']) with
      | none => return .refuse .undefinedHeader
      | some handler =>
        if positional (PyText.strip rest) ≠ [] then return .refuse .parameterNotAllowed
        else return .run handler channel (positional (PyText.strip rest))) := by
  unfold route
  rw [hline]
  simp only [List.getLast?_concat, List.dropLast_concat, decide_true, if_true, true_and]

/-- The decision on a header without one. -/
theorem route_write (hline : PyText.partition ' ' line = (header, rest))
    (hmark : header.getLast? ≠ some '?') :
    route py line = (do
      let table ← commandTable
      let (canonical, channel) ← normalizeHeader py header
      match table.lookup canonical with
      | none => return .refuse .undefinedHeader
      | some handler => return .run handler channel (positional (PyText.strip rest))) := by
  unfold route
  rw [hline]
  simp only [hmark, decide_false, Bool.false_eq_true, if_false, false_and]

/-- The keys with a question mark are those of queries. -/
theorem query_entry_iff (hpy : py.CaseMapping) {handler : Handler} :
    (∃ cmd ∈ scpiCommands, cmd.Entry (keyOf py header ++ ['?']) handler) ↔
      ∃ cmd ∈ scpiCommands, cmd.query = some handler ∧ cmd.Matches py header (partsOf header) := by
  refine exists_congr fun cmd => and_congr_right fun hcmd => ?_
  rw [← keyOf_eq_join_iff hpy hcmd]
  constructor
  · rintro ⟨keywords, hlayout, path, hpath, ⟨-, hkey⟩ | ⟨hquery, hkey⟩⟩
    · exact absurd (by simp [← hkey])
        (question_not_mem_join (spelling_plain hcmd hlayout hpath).2)
    · exact ⟨hquery, keywords, hlayout, path, hpath, List.append_cancel_right hkey⟩
  · rintro ⟨hquery, keywords, hlayout, path, hpath, hkey⟩
    exact ⟨keywords, hlayout, path, hpath, .inr ⟨hquery, by rw [hkey]⟩⟩

/-- The others are those of writes, or of queries with the question mark in the wrong place. -/
theorem write_entry_iff (hpy : py.CaseMapping) {handler : Handler}
    (hmark : header.getLast? ≠ some '?') :
    (∃ cmd ∈ scpiCommands, cmd.Entry (keyOf py header) handler) ↔
      ∃ cmd ∈ scpiCommands, cmd.write = some handler ∧ cmd.Matches py header (partsOf header) ∨
        cmd.query = some handler ∧ cmd.MatchesMisplaced py header := by
  refine exists_congr fun cmd => and_congr_right fun hcmd => ?_
  rw [← keyOf_eq_join_iff hpy hcmd, ← keyOf_eq_query_iff hpy hcmd hmark]
  constructor
  · rintro ⟨keywords, hlayout, path, hpath, ⟨hwrite, hkey⟩ | ⟨hquery, hkey⟩⟩
    · exact .inl ⟨hwrite, keywords, hlayout, path, hpath, hkey⟩
    · exact .inr ⟨hquery, keywords, hlayout, path, hpath, hkey⟩
  · rintro (⟨hwrite, keywords, hlayout, path, hpath, hkey⟩ |
      ⟨hquery, keywords, hlayout, path, hpath, hkey⟩)
    · exact ⟨keywords, hlayout, path, hpath, .inl ⟨hwrite, hkey⟩⟩
    · exact ⟨keywords, hlayout, path, hpath, .inr ⟨hquery, hkey⟩⟩

/-- A header that matches has no question mark. -/
theorem question_not_mem (hpy : py.CaseMapping) {cmd : SCPICommand} {parts : List Text}
    (hcmd : cmd ∈ scpiCommands) (hmatches : cmd.Matches py header parts) : '?' ∉ header := by
  obtain ⟨rfl, keywords, hlayout, hspelling⟩ := (matches_iff hpy hcmd).mp hmatches
  obtain ⟨-, hplain⟩ := spelling_plain hcmd hlayout hspelling
  rw [List.forall_mem_map] at hplain
  have hjoin : '?' ∉ PyText.join ':' (partsOf header) := by
    intro h
    rcases PyText.mem_join h with h | ⟨part, hpart, h⟩
    · exact absurd h (by decide)
    · exact mark_not_mem hpy (hplain part hpart) (.inr (.inr rfl)) rfl h
  intro h
  rcases header_of_partsOf header with heq | heq <;> rw [heq] at h
  · exact hjoin h
  · exact (List.mem_cons.mp h).elim (by decide) hjoin

section Read

variable {handler : Handler} {channel : ℕ} {args : List Text}

theorem route_query_of_short (hpy : py.CaseMapping) (htable : commandTable = .ok table)
    (hline : PyText.partition ' ' line = (header ++ ['?'], rest)) (hshort : ¬ TooLong header) :
    route py line =
      match table.lookup (keyOf py header ++ ['?']) with
      | none => .ok (.refuse .undefinedHeader)
      | some handler =>
        if positional (PyText.strip rest) ≠ [] then .ok (.refuse .parameterNotAllowed)
        else .ok (.run handler (channelOf (partsOf header)) (positional (PyText.strip rest))) := by
  rw [route_query hline, htable, normalizeHeader_of_short hpy hshort]
  rfl

theorem route_write_of_short (hpy : py.CaseMapping) (htable : commandTable = .ok table)
    (hline : PyText.partition ' ' line = (header, rest)) (hmark : header.getLast? ≠ some '?')
    (hshort : ¬ TooLong header) :
    route py line =
      match table.lookup (keyOf py header) with
      | none => .ok (.refuse .undefinedHeader)
      | some handler =>
        .ok (.run handler (channelOf (partsOf header)) (positional (PyText.strip rest))) := by
  rw [route_write hline hmark, htable, normalizeHeader_of_short hpy hshort]
  rfl

/-- With a question mark at its end a header runs the queries of the grammar. -/
theorem route_query_iff (hpy : py.CaseMapping)
    (hline : PyText.partition ' ' line = (header ++ ['?'], rest)) (hshort : ¬ TooLong header) :
    route py line = .ok (.run handler channel args) ↔ Queries py line handler channel args := by
  obtain ⟨table, htable⟩ := commandTable_ok
  have hqueries : Queries py line handler channel args ↔
      table.lookup (keyOf py header ++ ['?']) = some handler ∧
        channel = channelOf (partsOf header) ∧ args = [] ∧
          positional (PyText.strip rest) = [] := by
    rw [lookup_commandTable htable, query_entry_iff hpy]
    unfold Queries
    rw [hline]
    constructor
    · rintro ⟨cmd, hcmd, hquery, header', hheader, parts, hmatches, hchannel, hargs, hrest⟩
      obtain rfl := List.append_cancel_right hheader
      obtain rfl := ((matches_iff hpy hcmd).mp hmatches).1
      exact ⟨⟨cmd, hcmd, hquery, hmatches⟩, hchannel, hargs, hrest⟩
    · rintro ⟨⟨cmd, hcmd, hquery, hmatches⟩, hchannel, hargs, hrest⟩
      exact ⟨cmd, hcmd, hquery, header, rfl, _, hmatches, hchannel, hargs, hrest⟩
  rw [hqueries, route_query_of_short hpy htable hline hshort]
  cases table.lookup (keyOf py header ++ ['?']) with
  | none => simp
  | some found =>
    dsimp only
    split_ifs with hrest
    · simp [hrest]
    · rw [not_not] at hrest
      simp [hrest, eq_comm]

/-- A header that ends in digits after a question mark, in the place of a query. -/
def Misplaced (py : PyText) (line : Text) : Prop :=
  ∃ cmd ∈ scpiCommands, cmd.query ≠ none ∧
    cmd.MatchesMisplaced py (PyText.partition ' ' line).1

/-- Without one it runs the writes of the grammar, and queries with the question mark in the wrong
place. -/
theorem route_write_iff (hpy : py.CaseMapping)
    (hline : PyText.partition ' ' line = (header, rest)) (hmark : header.getLast? ≠ some '?')
    (hshort : ¬ TooLong header) :
    route py line = .ok (.run handler channel args) ↔
      Writes py line handler channel args ∨
        (∃ cmd ∈ scpiCommands, cmd.query = some handler ∧ cmd.MatchesMisplaced py header) ∧
          channel = channelOf (partsOf header) ∧ args = positional (PyText.strip rest) := by
  obtain ⟨table, htable⟩ := commandTable_ok
  have hwrites : Writes py line handler channel args ↔
      (∃ cmd ∈ scpiCommands, cmd.write = some handler ∧ cmd.Matches py header (partsOf header)) ∧
        channel = channelOf (partsOf header) ∧ args = positional (PyText.strip rest) := by
    unfold Writes
    rw [hline]
    constructor
    · rintro ⟨cmd, hcmd, hwrite, parts, hmatches, hchannel, hargs⟩
      obtain rfl := ((matches_iff hpy hcmd).mp hmatches).1
      exact ⟨⟨cmd, hcmd, hwrite, hmatches⟩, hchannel, hargs⟩
    · rintro ⟨⟨cmd, hcmd, hwrite, hmatches⟩, hchannel, hargs⟩
      exact ⟨cmd, hcmd, hwrite, _, hmatches, hchannel, hargs⟩
  have hlookup : table.lookup (keyOf py header) = some handler ↔ _ := lookup_commandTable htable
  rw [write_entry_iff hpy hmark] at hlookup
  rw [hwrites, ← or_and_right, ← exists_or]
  simp only [← and_or_left]
  rw [← hlookup, route_write_of_short hpy htable hline hmark hshort]
  cases table.lookup (keyOf py header) with
  | none => simp
  | some found => simp [eq_comm]

/-- A header that is read is decided on. -/
theorem route_total (hpy : py.CaseMapping)
    (hshort : ¬ TooLong (bareHeader (PyText.partition ' ' line).1)) :
    ∃ r, route py line = .ok r := by
  obtain ⟨table, htable⟩ := commandTable_ok
  obtain ⟨headerRaw, rest, hline⟩ : ∃ headerRaw rest, PyText.partition ' ' line = (headerRaw, rest) :=
    ⟨_, _, rfl⟩
  rw [hline] at hshort
  unfold bareHeader at hshort
  by_cases hmark : headerRaw.getLast? = some '?'
  · obtain ⟨header, rfl⟩ := List.getLast?_eq_some_iff.mp hmark
    rw [if_pos hmark, List.dropLast_concat] at hshort
    rw [route_query_of_short hpy htable hline hshort]
    split
    · exact ⟨_, rfl⟩
    · split_ifs
      · exact ⟨_, rfl⟩
      · exact ⟨_, rfl⟩
  · rw [if_neg hmark] at hshort
    rw [route_write_of_short hpy htable hline hmark hshort]
    split
    · exact ⟨_, rfl⟩
    · exact ⟨_, rfl⟩

theorem route_of_tooLong (hpy : py.CaseMapping)
    (hlong : TooLong (bareHeader (PyText.partition ' ' line).1)) :
    route py line = .error .valueError := by
  obtain ⟨table, htable⟩ := commandTable_ok
  obtain ⟨headerRaw, rest, hline⟩ : ∃ headerRaw rest, PyText.partition ' ' line = (headerRaw, rest) :=
    ⟨_, _, rfl⟩
  rw [hline] at hlong
  unfold bareHeader at hlong
  by_cases hmark : headerRaw.getLast? = some '?'
  · obtain ⟨header, rfl⟩ := List.getLast?_eq_some_iff.mp hmark
    rw [if_pos hmark, List.dropLast_concat] at hlong
    rw [route_query hline, htable, normalizeHeader_of_tooLong hpy hlong]
    rfl
  · rw [if_neg hmark] at hlong
    rw [route_write hline hmark, htable, normalizeHeader_of_tooLong hpy hlong]
    rfl

end Read

end Decisions

/-! ## Exceptions of the handlers -/

section Exceptions

variable {fl : Rounding} {py : PyText} {gauss : PyFloat → PyFloat → PyFloat} {psu : SimulatedPSU}
  {channel : ℤ} {args : List Text} {e : PyException}

theorem edit_error {change : SimulatedPSUChannel → Except Refusal SimulatedPSUChannel}
    (hchange : ∀ ch e, change ch = .error (.raised e) → e = .valueError)
    (h : psu.edit fl channel change = .error e) : e = .valueError := by
  unfold SimulatedPSU.edit at h
  split at h
  · cases h
  · next ch hfind =>
    split at h
    · cases h
    · cases h
    · next e' hraised =>
      obtain rfl := Except.error.inj h
      exact hchange ch e' hraised

theorem requireArgs_not_raised : requireArgs args ≠ .error (.raised e) := by
  cases args with
  | nil => nofun
  | cons token rest => nofun

theorem toFloat_error {token : Text} (h : py.toFloat token = .error e) : e = .valueError := by
  unfold PyText.toFloat at h
  split at h
  · cases h
  · exact (Except.error.inj h).symm

theorem parseRangedValue_raised {token : Text} {minimum maximum : PyFloat}
    (h : parseRangedValue py token minimum maximum = .error (.raised e)) : e = .valueError := by
  unfold parseRangedValue at h
  dsimp only at h
  split_ifs at h
  rcases bind_eq_error.mp h with h | ⟨value, -, h⟩
  · cases hfloat : py.toFloat token with
    | ok value =>
      rw [hfloat] at h
      cases h
    | error e' =>
      rw [hfloat] at h
      cases h
      exact toFloat_error hfloat
  · rcases bind_eq_error.mp h with h | ⟨_, -, h⟩
    · cases (ensure_eq_error.mp h).2
    · cases h

/-- A number that cannot be read is a `ValueError`. -/
theorem number_raised {minimum maximum : PyFloat} {beyond : PyFloat → Bool} {err : SCPIError}
    {set : PyFloat → SimulatedPSUChannel}
    (h : (do
      let token ← requireArgs args
      let value ← parseRangedValue py token minimum maximum
      ensure (¬ beyond value) (.queued err)
      return set value) = .error (.raised e)) : e = .valueError := by
  rcases bind_eq_error.mp h with h | ⟨token, -, h⟩
  · exact absurd h requireArgs_not_raised
  rcases bind_eq_error.mp h with h | ⟨value, -, h⟩
  · exact parseRangedValue_raised h
  rcases bind_eq_error.mp h with h | ⟨_, -, h⟩
  · cases (ensure_eq_error.mp h).2
  · cases h

/-- A state that cannot be read is refused. -/
theorem state_not_raised {parse : Text → Except Refusal Bool} {set : Bool → SimulatedPSUChannel}
    (hparse : ∀ token, parse token ≠ .error (.raised e)) :
    (do
      let token ← requireArgs args
      let enable ← parse token
      return set enable) ≠ .error (.raised e) := by
  intro h
  rcases bind_eq_error.mp h with h | ⟨token, -, h⟩
  · exact requireArgs_not_raised h
  rcases bind_eq_error.mp h with h | ⟨enable, -, h⟩
  · exact hparse token h
  · cases h

theorem parseBool_not_raised (token : Text) : parseBool py token ≠ .error (.raised e) := by
  unfold parseBool
  dsimp only
  split_ifs <;> nofun

theorem parseRemoteSenseState_not_raised (token : Text) :
    parseRemoteSenseState py token ≠ .error (.raised e) := by
  unfold parseRemoteSenseState
  dsimp only
  split_ifs <;> nofun

theorem handler_error (handler : Handler)
    (h : handler.run fl py gauss psu channel args = .error e) : e = .valueError := by
  have hsilent : ∀ {result : Except PyException SimulatedPSU}, silent result = .error e →
      result = .error e := by
    intro result h
    cases result with
    | error e' => exact congrArg Except.error (Except.error.inj h)
    | ok psu' => cases h
  cases handler with
  | getId | reset | clearStatus | getError | queryOutput | queryProtectionTripped
  | measureVoltage | measureCurrent | queryVoltage | queryCurrent | queryOcpLevel | queryOcpState
  | queryOvpLevel | queryOvpState | queryRemoteSense => cases h
  | setVoltage | setCurrent | setOcpLevel | setOvpLevel =>
    exact edit_error (fun ch e hraised => number_raised hraised) (hsilent h)
  | clearProtectionLatch =>
    exact edit_error (fun ch e hraised => by cases hraised) (hsilent h)
  | setOutput | setOcpState | setOvpState =>
    exact edit_error (fun ch e hraised =>
      absurd hraised (state_not_raised parseBool_not_raised)) (hsilent h)
  | setRemoteSense =>
    exact edit_error (fun ch e hraised =>
      absurd hraised (state_not_raised parseRemoteSenseState_not_raised)) (hsilent h)

/-- What a decision leads to is a result. -/
theorem execute_total (r : Route) : ∃ result, r.execute fl py gauss psu = .ok result := by
  cases r with
  | refuse err => exact ⟨_, rfl⟩
  | run handler channel args =>
    show ∃ result, catchValueError psu _ = .ok result
    cases h : handler.run fl py gauss psu channel args with
    | ok result => exact ⟨result, rfl⟩
    | error e =>
      obtain rfl := handler_error handler h
      exact ⟨_, rfl⟩

end Exceptions

/-! ## Lines -/

section Lines

variable (py : PyText) (text : Text)

/-- The handler that a line runs. A blank line runs none. -/
def Runs (handler : Handler) (channel : ℕ) (args : List Text) : Prop :=
  PyText.strip text ≠ [] ∧ route py (PyText.strip text) = .ok (.run handler channel args)

/-- A line is dispatched by the grammar: it runs what the grammar has it run, is refused with one
error where that is nothing, and lets no exception escape. -/
structure Conforms : Prop where
  writes : ∀ cmd ∈ scpiCommands, ∀ handler, cmd.write = some handler → ∀ channel args,
    Runs py text handler channel args ↔ Writes py (PyText.strip text) handler channel args
  queries : ∀ cmd ∈ scpiCommands, ∀ handler, cmd.query = some handler → ∀ channel args,
    Runs py text handler channel args ↔ Queries py (PyText.strip text) handler channel args
  executes : ∀ handler channel args, Runs py text handler channel args → ∀ fl gauss psu,
    processScpiCommand fl py gauss psu text =
      catchValueError psu (handler.run fl py gauss psu channel args)
  refuses : (∀ handler channel args, ¬ Writes py (PyText.strip text) handler channel args ∧
    ¬ Queries py (PyText.strip text) handler channel args) → ∀ fl gauss psu,
      ∃ err, processScpiCommand fl py gauss psu text = .ok (none, psu.pushError err)
  total : ∀ fl gauss psu, ∃ result, processScpiCommand fl py gauss psu text = .ok result

variable {py} {text}

theorem process_of_route {fl : Rounding} {gauss : PyFloat → PyFloat → PyFloat}
    {psu : SimulatedPSU} (htext : PyText.strip text ≠ []) :
    processScpiCommand fl py gauss psu text = (do
      let r ← route py (PyText.strip text)
      r.execute fl py gauss psu) := by
  unfold processScpiCommand
  dsimp only
  rw [if_neg htext, dispatch_eq_route]

/-- The handlers that write are not those that answer. -/
theorem write_ne_query : ∀ cmd ∈ scpiCommands, ∀ cmd' ∈ scpiCommands, cmd.write = cmd'.query →
    cmd.write = none := by
  decide +kernel

/-- What is run, where the digits are read and the question mark stands at the end. -/
theorem runs_iff (hpy : py.CaseMapping) (htext : PyText.strip text ≠ [])
    (hshort : ¬ TooLong (bareHeader (PyText.partition ' ' (PyText.strip text)).1))
    (hplaced : ¬ Misplaced py (PyText.strip text)) {handler : Handler} {channel : ℕ}
    {args : List Text} :
    Runs py text handler channel args ↔ Writes py (PyText.strip text) handler channel args ∨
      Queries py (PyText.strip text) handler channel args := by
  unfold Runs
  rw [and_iff_right htext]
  obtain ⟨headerRaw, rest, hline⟩ :
      ∃ headerRaw rest, PyText.partition ' ' (PyText.strip text) = (headerRaw, rest) := ⟨_, _, rfl⟩
  unfold Misplaced at hplaced
  rw [hline] at hshort hplaced
  unfold bareHeader at hshort
  by_cases hmark : headerRaw.getLast? = some '?'
  · obtain ⟨header, rfl⟩ := List.getLast?_eq_some_iff.mp hmark
    rw [if_pos hmark, List.dropLast_concat] at hshort
    rw [route_query_iff hpy hline hshort, or_iff_right]
    rintro ⟨cmd, hcmd, -, parts, hmatches, -⟩
    rw [hline] at hmatches
    exact question_not_mem hpy hcmd hmatches (by simp)
  · rw [if_neg hmark] at hshort
    rw [route_write_iff hpy hline hmark hshort]
    apply or_congr_right
    apply iff_of_false
    · rintro ⟨⟨cmd, hcmd, hquery, hmisplaced⟩, -⟩
      exact hplaced ⟨cmd, hcmd, by simp [hquery], hmisplaced⟩
    · rintro ⟨cmd, -, -, header, hheader, -⟩
      rw [hline] at hheader
      exact hmark (by rw [show headerRaw = header ++ ['?'] from hheader, List.getLast?_concat])

theorem conforms_of_placed (hpy : py.CaseMapping) (htext : PyText.strip text ≠ [])
    (hshort : ¬ TooLong (bareHeader (PyText.partition ' ' (PyText.strip text)).1))
    (hplaced : ¬ Misplaced py (PyText.strip text)) : Conforms py text := by
  have hruns := @runs_iff _ _ hpy htext hshort hplaced
  constructor
  · intro cmd hcmd handler hwrite channel args
    rw [hruns, or_iff_left]
    rintro ⟨cmd', hcmd', hquery, -⟩
    have hnone := write_ne_query cmd hcmd cmd' hcmd' (hwrite.trans hquery.symm)
    rw [hwrite] at hnone
    cases hnone
  · intro cmd hcmd handler hquery channel args
    rw [hruns, or_iff_right]
    rintro ⟨cmd', hcmd', hwrite, -⟩
    have hnone := write_ne_query cmd' hcmd' cmd hcmd (hwrite.trans hquery.symm)
    rw [hwrite] at hnone
    cases hnone
  · rintro handler channel args ⟨-, hroute⟩ fl gauss psu
    rw [process_of_route htext, hroute]
    rfl
  · intro hnone fl gauss psu
    obtain ⟨r, hroute⟩ := route_total hpy hshort
    cases r with
    | refuse err =>
      refine ⟨err, ?_⟩
      rw [process_of_route htext, hroute]
      rfl
    | run handler channel args =>
      obtain ⟨hwrites, hqueries⟩ := hnone handler channel args
      exact ((hruns.mp ⟨htext, hroute⟩).elim hwrites hqueries).elim
  · intro fl gauss psu
    obtain ⟨r, hroute⟩ := route_total hpy hshort
    rw [process_of_route htext, hroute]
    exact execute_total r

/-- A line with too many digits raises. -/
theorem process_of_tooLong (hpy : py.CaseMapping) {fl : Rounding}
    {gauss : PyFloat → PyFloat → PyFloat} {psu : SimulatedPSU} (htext : PyText.strip text ≠ [])
    (hlong : TooLong (bareHeader (PyText.partition ' ' (PyText.strip text)).1)) :
    processScpiCommand fl py gauss psu text = .error .valueError := by
  rw [process_of_route htext, route_of_tooLong hpy hlong]
  rfl

/-- A query with its question mark in the wrong place runs. -/
theorem runs_of_misplaced (hpy : py.CaseMapping) (htext : PyText.strip text ≠ [])
    (hshort : ¬ TooLong (bareHeader (PyText.partition ' ' (PyText.strip text)).1))
    (hmisplaced : Misplaced py (PyText.strip text)) :
    ∃ cmd ∈ scpiCommands, ∃ handler, cmd.query = some handler ∧ ∃ channel args,
      Runs py text handler channel args ∧
        ¬ Queries py (PyText.strip text) handler channel args := by
  obtain ⟨cmd, hcmd, hquery, hmatches⟩ := hmisplaced
  obtain ⟨handler, hquery⟩ := Option.ne_none_iff_exists'.mp hquery
  have hmark : (PyText.partition ' ' (PyText.strip text)).1.getLast? ≠ some '?' := by
    obtain ⟨core, digits, parts, hheader, hne, hdigits, -⟩ := hmatches
    rw [hheader, List.getLast?_append_of_ne_nil _ (by simp), List.getLast?_cons_of_ne_nil hne]
    intro hlast
    exact absurd (hdigits '?' (List.mem_of_getLast? hlast)) (by decide)
  unfold bareHeader at hshort
  rw [if_neg hmark] at hshort
  have hroute := (route_write_iff hpy rfl hmark hshort).mpr
    (.inr ⟨⟨cmd, hcmd, hquery, hmatches⟩, rfl, rfl⟩)
  refine ⟨cmd, hcmd, handler, hquery, _, _, ⟨htext, hroute⟩, ?_⟩
  rintro ⟨cmd', -, -, header, hheader, -⟩
  exact hmark (by rw [hheader, List.getLast?_concat])

/-- **Dispatch and the grammar.** A blank line is passed over. Any other line is dispatched by the
grammar, unless digits stand after a question mark or are more than `int` reads. -/
theorem dispatch_by_grammar (hpy : py.CaseMapping) (text : Text) :
    (PyText.strip text = [] → ∀ fl gauss psu,
      processScpiCommand fl py gauss psu text = .ok (none, psu)) ∧
    (PyText.strip text ≠ [] → (Conforms py text ↔
      ¬ TooLong (bareHeader (PyText.partition ' ' (PyText.strip text)).1) ∧
        ¬ Misplaced py (PyText.strip text))) := by
  constructor
  · intro hblank fl gauss psu
    unfold processScpiCommand
    dsimp only
    rw [if_pos hblank]
  · intro htext
    constructor
    · intro h
      have hshort : ¬ TooLong (bareHeader (PyText.partition ' ' (PyText.strip text)).1) := by
        intro hlong
        obtain ⟨result, hresult⟩ := h.total exact (fun mean _ => mean) ⟨[], []⟩
        rw [process_of_tooLong hpy htext hlong] at hresult
        cases hresult
      refine ⟨hshort, fun hmisplaced => ?_⟩
      obtain ⟨cmd, hcmd, handler, hquery, channel, args, hruns, hnot⟩ :=
        runs_of_misplaced hpy htext hshort hmisplaced
      exact hnot ((h.queries cmd hcmd handler hquery channel args).mp hruns)
    · rintro ⟨hshort, hplaced⟩
      exact conforms_of_placed hpy htext hshort hplaced

end Lines

/-! ## Lines that are dispatched otherwise -/

theorem toNat_of_isMark {c : Char} (h : PyText.IsMark c) : 48 ≤ c.toNat ∧ c.toNat ≤ 63 := by
  rcases h with h | rfl | rfl
  · unfold PyText.isDigit Char.isDigit at h
    simp only [Bool.and_eq_true, decide_eq_true_eq, ge_iff_le, UInt32.le_iff_toNat_le] at h
    have hnine : '9'.val.toNat = 57 := rfl
    have hzero : '0'.val.toNat = 48 := rfl
    show 48 ≤ c.val.toNat ∧ c.val.toNat ≤ 63
    omega
  · decide
  · decide

/-- The uppercase of a letter is a letter. -/
theorem toUpper_letter (c : Char) : c.toUpper = c ∨ 64 < c.toNat ∧ 64 < c.toUpper.toNat := by
  unfold Char.toUpper
  split
  · next h =>
    right
    simp only [UInt32.le_iff_toNat_le] at h
    have ha : 'a'.val.toNat = 97 := rfl
    have hz : 'z'.val.toNat = 122 := rfl
    have hshift : ('A'.val - 'a'.val).toNat = 2 ^ 32 - 32 := rfl
    show 64 < c.val.toNat ∧ 64 < (c.val + ('A'.val - 'a'.val)).toNat
    rw [UInt32.toNat_add, hshift]
    omega
  · exact .inl rfl

theorem asciiText_caseMapping : asciiText.CaseMapping where
  upper_ne_nil _ := List.cons_ne_nil _ _
  upper_mark c hc := by
    have hmark := toNat_of_isMark hc
    rcases toUpper_letter c with h | h
    · exact congrArg (fun d => [d]) h
    · omega
  eq_of_mark_mem c d hd hmem := by
    obtain rfl := List.mem_singleton.mp hmem
    have hmark := toNat_of_isMark hd
    rcases toUpper_letter c with h | h
    · exact h.symm
    · omega

/-- The command that sets a voltage and asks for it. -/
def voltageCommand : SCPICommand :=
  ⟨"[SOURce:]VOLTage[:LEVel][:IMMediate][:AMPLitude]", some .setVoltage, some .queryVoltage⟩

theorem voltageCommand_layout {keywords : List Text}
    (h : keywords = ["VOLTage".toList] ∨ keywords = ["SOURce".toList, "VOLTage".toList]) :
    voltageCommand.Layout keywords := by
  refine ⟨⟨some "SOURce".toList, ["VOLTage".toList],
    ["LEVel".toList, "IMMediate".toList, "AMPLitude".toList]⟩, ?_, ?_⟩
  · unfold SCPICommand.WrittenAs
    decide +kernel
  · rcases h with rfl | rfl
    · exact ⟨[], [], .inl rfl, List.nil_prefix, rfl⟩
    · exact ⟨["SOURce".toList], [], .inr rfl, List.nil_prefix, rfl⟩

theorem isForm_volt : IsForm "VOLTage".toList "VOLT".toList :=
  .inl ((shortForm_iff (by decide)).mpr (by decide))

theorem spells_volt {digits : Text} (h : digits.all PyText.isDigit = true) :
    Spells asciiText "VOLTage".toList ("volt".toList ++ digits) :=
  ⟨"volt".toList, digits, rfl, List.all_eq_true.mp h, isForm_volt⟩

/-- The voltage of channel 2 is set, by a path in lower case with the short form of the last
keyword. -/
theorem dispatch_by_grammar_set :
    Conforms asciiText "source:volt2 5".toList ∧
      Runs asciiText "source:volt2 5".toList .setVoltage 2 ["5".toList] := by
  have hshort : ¬TooLong
      (bareHeader (PyText.partition ' ' (PyText.strip "source:volt2 5".toList)).1) := by
    unfold TooLong
    decide
  have hplaced : ¬Misplaced asciiText (PyText.strip "source:volt2 5".toList) := by
    rintro ⟨cmd, -, -, core, digits, parts, hheader, -⟩
    have hmark : '?' ∉ (PyText.partition ' ' (PyText.strip "source:volt2 5".toList)).1 := by decide
    exact hmark (by rw [hheader]; simp)
  have hconforms := ((dispatch_by_grammar asciiText_caseMapping "source:volt2 5".toList).2
    (by decide)).mpr ⟨hshort, hplaced⟩
  have hcommand : voltageCommand ∈ scpiCommands := by simp [voltageCommand, scpiCommands]
  refine ⟨hconforms, (hconforms.writes voltageCommand hcommand .setVoltage rfl 2 _).mpr ?_⟩
  refine ⟨voltageCommand, hcommand, rfl, ["source".toList, "volt2".toList], ?_, by decide,
    by decide⟩
  refine ⟨_, voltageCommand_layout (.inr rfl), List.Forall₂.cons ?_
    (List.Forall₂.cons (spells_volt (by decide : "2".toList.all PyText.isDigit = true))
      List.Forall₂.nil), .inl rfl⟩
  exact ⟨"source".toList, [], rfl, nofun, .inr rfl⟩

/-- Nothing matches a blank header. -/
theorem not_matches_nil {py : PyText} (hpy : py.CaseMapping) {cmd : SCPICommand}
    (hcmd : cmd ∈ scpiCommands) {parts : List Text} : ¬ cmd.Matches py [] parts := by
  intro h
  obtain ⟨rfl, keywords, hlayout, hspelling⟩ := (matches_iff hpy hcmd).mp h
  have hplain := (spelling_plain hcmd hlayout hspelling).2 [] (by simp [partsOf, PyText.removePrefix,
    PyText.base, PyText.upper])
  exact hplain.1 rfl

/-- The query of a voltage with its question mark in front of the channel. -/
theorem misplaced_volt : Misplaced asciiText "VOLT?1".toList := by
  refine ⟨voltageCommand, by simp [voltageCommand, scpiCommands], nofun, "VOLT".toList, "1".toList,
    ["VOLT".toList], rfl, by decide, List.all_eq_true.mp (by decide), by decide, ["VOLTage".toList],
    voltageCommand_layout (.inl rfl), List.Forall₂.cons ?_ List.Forall₂.nil, .inl rfl⟩
  exact ⟨"VOLT".toList, [], rfl, nofun, isForm_volt⟩

/-- A line whose suffix has too many digits. -/
def longSuffix : Text := "VOLT".toList ++ List.replicate 4301 '1'

theorem tooLong_longSuffix :
    TooLong (bareHeader (PyText.partition ' ' (PyText.strip longSuffix)).1) := by
  unfold TooLong
  decide +kernel

/-- A blank line queues no error, the digits of a query may stand behind the question mark, and a
suffix with too many digits raises. -/
theorem lines_outside_grammar :
    (∀ fl gauss psu, processScpiCommand fl asciiText gauss psu " ".toList = .ok (none, psu)) ∧
      ¬ Conforms asciiText " ".toList ∧ ¬ Conforms asciiText "VOLT?1".toList ∧
      ¬ Conforms asciiText longSuffix := by
  refine ⟨fun fl gauss psu => rfl, fun h => ?_, fun h => ?_, fun h => ?_⟩
  · have hnone : ∀ handler channel args,
        ¬ Writes asciiText (PyText.strip " ".toList) handler channel args ∧
          ¬ Queries asciiText (PyText.strip " ".toList) handler channel args := by
      intro handler channel args
      constructor
      · rintro ⟨cmd, hcmd, -, parts, hmatches, -⟩
        exact not_matches_nil asciiText_caseMapping hcmd hmatches
      · rintro ⟨cmd, hcmd, -, header, hheader, -⟩
        exact absurd hheader.symm (by simp [PyText.strip, PyText.partition, PyText.isSpace])
    obtain ⟨err, herr⟩ := h.refuses hnone exact (fun mean _ => mean) ⟨[], []⟩
    cases herr
  · obtain ⟨cmd, hcmd, handler, hquery, channel, args, hruns, hnot⟩ :=
      @runs_of_misplaced asciiText "VOLT?1".toList asciiText_caseMapping (by decide)
        (by unfold TooLong; decide) misplaced_volt
    exact hnot ((h.queries cmd hcmd handler hquery channel args).mp hruns)
  · obtain ⟨result, hresult⟩ := h.total exact (fun mean _ => mean) ⟨[], []⟩
    rw [process_of_tooLong asciiText_caseMapping (by decide +kernel) tooLong_longSuffix] at hresult
    cases hresult

end Instro.Psu
