import Instro.Library.PyText

/-!
# Comma-separated values

`csv.writer` and `csv.reader` of the dialect `excel`. Fields are quoted where they must be, a quote in a
quoted field is doubled, and rows end with a carriage return and a line feed.
-/

namespace Instro.Library.Csv

abbrev Row := List Text

/-! ## Writing -/

/-- The characters for which a field is quoted. -/
def special (c : Char) : Bool := c ∈ [',', '"', '\r', '\n']

def doubled (c : Char) : Text := if c = '"' then ['"', '"'] else [c]

def fieldText (field : Text) : Text :=
  if field.any special then '"' :: (field.flatMap doubled ++ ['"']) else field

/-- `writerow`. An empty field that is alone in its row is quoted. -/
def rowText (row : Row) : Text :=
  if row = [[]] then ['"', '"', '\r', '\n']
  else [','].intercalate (row.map fieldText) ++ ['\r', '\n']

def text (rows : List Row) : Text := rows.flatMap rowText

@[simp] theorem text_nil : text [] = [] := rfl

theorem text_append (rows rows' : List Row) : text (rows ++ rows') = text rows ++ text rows' :=
  List.flatMap_append

theorem text_singleton (row : Row) : text [row] = rowText row := List.flatMap_singleton _ _

/-! ## Reading -/

inductive Mode
  | startRecord
  | startField
  | inField
  | inQuotedField
  | quoteInQuotedField
  /-- A carriage return has ended the row; a line feed after it belongs to it. -/
  | afterReturn
  deriving DecidableEq

structure Reader where
  mode : Mode := .startRecord
  field : Text := []
  fields : Row := []
  rows : List Row := []

namespace Reader

variable (r : Reader)

def add (mode : Mode) (c : Char) : Reader := { r with mode, field := r.field ++ [c] }

def saveField : Reader := { r with mode := .startField, field := [], fields := r.fields ++ [r.field] }

/-- The row is complete, at its first newline character. -/
def endRow (c : Char) (row : Row) : Reader where
  mode := if c = '\r' then .afterReturn else .startRecord
  rows := r.rows ++ [row]

def inField (c : Char) : Reader :=
  if c = '\n' ∨ c = '\r' then r.endRow c (r.fields ++ [r.field])
  else if c = ',' then r.saveField
  else r.add .inField c

def startField (c : Char) : Reader :=
  if c = '"' then { r with mode := .inQuotedField } else r.inField c

/-- A row without a character has no field. -/
def startRecord (c : Char) : Reader :=
  if c = '\n' ∨ c = '\r' then r.endRow c [] else r.startField c

def step (c : Char) : Reader :=
  match r.mode with
  | .startRecord => r.startRecord c
  | .startField => r.startField c
  | .inField => r.inField c
  | .inQuotedField => if c = '"' then { r with mode := .quoteInQuotedField } else r.add .inQuotedField c
  | .quoteInQuotedField => if c = '"' then r.add .inQuotedField c else r.inField c
  | .afterReturn => if c = '\n' then { r with mode := .startRecord } else r.startRecord c

/-- The rows at the end of the text. A row that no newline has ended is a row. -/
def finish : List Row :=
  if r.mode = .startRecord ∨ r.mode = .afterReturn then r.rows
  else r.rows ++ [r.fields ++ [r.field]]

end Reader

def read (text : Text) : List Row := (text.foldl Reader.step {}).finish

/-! ## What is written reads back -/

section RoundTrip

variable {field : Text} {fields : Row} {rows : List Row} {c : Char}

/-- The reader at the start of a field. -/
def atField (fields : Row) (rows : List Row) : Reader := ⟨.startField, [], fields, rows⟩

/-- The reader at the end of a field. -/
def atEnd (field : Text) (fields : Row) (rows : List Row) (c : Char) : Reader :=
  (⟨.inField, field, fields, rows⟩ : Reader).inField c

/-- Characters that are not special go into the field. -/
theorem foldl_plain (hplain : field.any special = false) (before : Text) :
    field.foldl Reader.step ⟨.inField, before, fields, rows⟩ =
      ⟨.inField, before ++ field, fields, rows⟩ := by
  induction field generalizing before with
  | nil => rw [List.append_nil]; rfl
  | cons c field ih =>
    rw [List.any_cons, Bool.or_eq_false_iff] at hplain
    obtain ⟨hc, hplain⟩ := hplain
    have hnone : c ∉ [',', '"', '\r', '\n'] := by simpa [special] using hc
    simp only [List.mem_cons, List.not_mem_nil, or_false, not_or] at hnone
    obtain ⟨hcomma, -, hreturn, hfeed⟩ := hnone
    have hstep : Reader.step ⟨.inField, before, fields, rows⟩ c =
        ⟨.inField, before ++ [c], fields, rows⟩ := by
      show Reader.inField _ c = _
      unfold Reader.inField
      rw [if_neg (by simp [hreturn, hfeed]), if_neg hcomma]
      rfl
    rw [List.foldl_cons, hstep, ih hplain, List.append_assoc]
    rfl

/-- In quotes every character goes into the field, a doubled quote once. -/
theorem foldl_doubled (field before : Text) :
    (field.flatMap doubled).foldl Reader.step ⟨.inQuotedField, before, fields, rows⟩ =
      ⟨.inQuotedField, before ++ field, fields, rows⟩ := by
  induction field generalizing before with
  | nil => rw [List.append_nil]; rfl
  | cons c field ih =>
    have hstep : (doubled c).foldl Reader.step ⟨.inQuotedField, before, fields, rows⟩ =
        ⟨.inQuotedField, before ++ [c], fields, rows⟩ := by
      unfold doubled
      split_ifs with hc
      · subst hc
        rfl
      · exact if_neg hc
    rw [List.flatMap_cons, List.foldl_append, hstep, ih, List.append_assoc]
    rfl

/-- Of a field that is not quoted, and not empty, the first character is none that ends it. -/
theorem startField_plain (hplain : special c = false) :
    (atField fields rows).step c = ⟨.inField, [c], fields, rows⟩ := by
  have hnone : c ∉ [',', '"', '\r', '\n'] := by simpa [special] using hplain
  simp only [List.mem_cons, List.not_mem_nil, or_false, not_or] at hnone
  obtain ⟨hcomma, hquote, hreturn, hfeed⟩ := hnone
  show Reader.startField _ c = _
  unfold Reader.startField
  rw [if_neg hquote]
  unfold Reader.inField
  rw [if_neg (by simp [hreturn, hfeed]), if_neg hcomma]
  rfl

/-- The text of a field, and the character that ends it. -/
theorem foldl_field (field : Text) (hc : c = ',' ∨ c = '\r') :
    (fieldText field ++ [c]).foldl Reader.step (atField fields rows) = atEnd field fields rows c := by
  have hquote : c ≠ '"' := by
    rcases hc with rfl | rfl
    · decide
    · decide
  rw [List.foldl_append]
  show ((fieldText field).foldl Reader.step (atField fields rows)).step c = _
  unfold fieldText
  split_ifs with hspecial
  · have hopen : (atField fields rows).step '"' = ⟨.inQuotedField, [], fields, rows⟩ := rfl
    rw [List.foldl_cons, hopen, List.foldl_append, foldl_doubled, List.nil_append]
    exact if_neg hquote
  · rw [Bool.not_eq_true] at hspecial
    cases field with
    | nil => exact if_neg hquote
    | cons d field =>
      rw [List.any_cons, Bool.or_eq_false_iff] at hspecial
      rw [List.foldl_cons, startField_plain hspecial.1, foldl_plain hspecial.2]
      rfl

/-- The text of a row from its first field on. -/
theorem foldl_fields (field : Text) (row fields : Row) :
    ([','].intercalate ((field :: row).map fieldText) ++ ['\r', '\n']).foldl Reader.step
        (atField fields rows) =
      { rows := rows ++ [fields ++ field :: row] } := by
  induction row generalizing field fields with
  | nil =>
    have hline : [','].intercalate ([field].map fieldText) ++ ['\r', '\n'] =
        fieldText field ++ ['\r'] ++ ['\n'] := by
      rw [List.map_singleton, List.intercalate_singleton, List.append_assoc]
      rfl
    rw [hline, List.foldl_append, foldl_field field (.inr rfl)]
    rfl
  | cons next row ih =>
    have hline : [','].intercalate ((field :: next :: row).map fieldText) ++ ['\r', '\n'] =
        fieldText field ++ [','] ++
          ([','].intercalate ((next :: row).map fieldText) ++ ['\r', '\n']) := by
      rw [List.map_cons, List.map_cons, List.intercalate_cons_cons, List.append_assoc,
        List.append_assoc]
    have hsave : atEnd field fields rows ',' = atField (fields ++ [field]) rows := rfl
    rw [hline, List.foldl_append, foldl_field field (.inl rfl), hsave, ih, List.append_assoc]
    rfl

/-- What is written for a field begins with no newline. -/
theorem head_fieldText (h : (fieldText field).head? = some c) : c ≠ '\n' ∧ c ≠ '\r' := by
  unfold fieldText at h
  split_ifs at h with hspecial
  · obtain rfl := Option.some.inj h
    exact ⟨by decide, by decide⟩
  · cases field with
    | nil => cases h
    | cons d field =>
      obtain rfl := Option.some.inj h
      rw [Bool.not_eq_true, List.any_cons, Bool.or_eq_false_iff] at hspecial
      constructor
      · rintro rfl
        exact Bool.false_ne_true (hspecial.1.symm.trans (by decide))
      · rintro rfl
        exact Bool.false_ne_true (hspecial.1.symm.trans (by decide))

/-- Where a row has a character, its first one begins its first field. -/
theorem foldl_startRecord {line : Text} (hline : line ≠ [])
    (hhead : ∀ c, line.head? = some c → c ≠ '\n' ∧ c ≠ '\r') :
    line.foldl Reader.step { rows } = line.foldl Reader.step (atField [] rows) := by
  cases line with
  | nil => exact absurd rfl hline
  | cons c line =>
    obtain ⟨hfeed, hreturn⟩ := hhead c rfl
    have hstep : Reader.step { rows } c = (atField [] rows).step c := by
      show Reader.startRecord _ c = Reader.startField _ c
      unfold Reader.startRecord Reader.startField Reader.inField
      have hnewline : ¬(c = '\n' ∨ c = '\r') := not_or.mpr ⟨hfeed, hreturn⟩
      rw [if_neg hnewline, if_neg hnewline, if_neg hnewline]
      rfl
    rw [List.foldl_cons, hstep, List.foldl_cons]

/-- The text of a row that is not quoted as a whole begins with no newline. -/
theorem head_row (field : Text) (row : Row) (hempty : field :: row ≠ [[]])
    (h : ([','].intercalate ((field :: row).map fieldText) ++ ['\r', '\n']).head? = some c) :
    c ≠ '\n' ∧ c ≠ '\r' := by
  rw [List.map_cons] at h
  cases hfield : fieldText field with
  | cons d more =>
    have hbegins : (fieldText field).head? = some c := by
      rw [hfield] at h ⊢
      cases row with
      | nil =>
        rw [List.map_nil, List.intercalate_singleton] at h
        exact h
      | cons next row =>
        rw [List.map_cons, List.intercalate_cons_cons] at h
        exact h
    exact head_fieldText hbegins
  | nil =>
    have hnil : field = [] := by
      unfold fieldText at hfield
      split_ifs at hfield
      exact hfield
    cases row with
    | nil => exact absurd (by rw [hnil]) hempty
    | cons next row =>
      rw [hfield, List.map_cons, List.intercalate_cons_cons] at h
      obtain rfl := Option.some.inj h
      exact ⟨by decide, by decide⟩

/-- The text of a row adds the row. -/
theorem foldl_rowText (row : Row) :
    (rowText row).foldl Reader.step { rows } = { rows := rows ++ [row] } := by
  unfold rowText
  split_ifs with hempty
  · subst hempty
    rfl
  · cases row with
    | nil => rfl
    | cons field row =>
      rw [foldl_startRecord (by simp) (fun c hc => head_row field row hempty hc), foldl_fields,
        List.nil_append]

/-- **The rows that are written read back.** -/
theorem read_text (rows : List Row) : read (text rows) = rows := by
  have hfold : ∀ before, (text rows).foldl Reader.step { rows := before } =
      { rows := before ++ rows } := by
    induction rows with
    | nil => intro before; rw [List.append_nil]; rfl
    | cons row rows ih =>
      intro before
      rw [← List.singleton_append, text_append, text_singleton, List.foldl_append, foldl_rowText, ih,
        List.append_assoc]
  unfold read
  rw [hfold []]
  rfl

end RoundTrip

end Instro.Library.Csv
