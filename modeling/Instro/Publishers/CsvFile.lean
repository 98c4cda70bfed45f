import Instro.Library.Csv
import Instro.Library.Dict
import Instro.Library.Double
import Instro.Library.FloatText
import Instro.Library.JsonText

/-!
# The CSV writer

A `CsvFileWriter` opens its file anew for every record, to append to it where it exists. It writes the
header row before its own first record: the flag for this belongs to the writer, not to the file.
-/

namespace Instro.Publishers.Files

open Instro.Library

/-! ## Records -/

/-- The values of a channel. -/
inductive Value
  | float (x : PyFloat)
  | int (n : ℤ)
  | bool (b : Bool)
  | str (text : Text)
  | none

/-- The field that `csv.writer` makes of a value. -/
def Value.text : Value → Text
  | float x => x.repr double
  | int n => intText n
  | bool true => "True".toList
  | bool false => "False".toList
  | str text => text
  | none => []

abbrev Tags := Option (Dict PyString PyString)

structure Measurement where
  channelData : Dict Text (List Value)
  timestamps : List ℤ
  tags : Tags

structure Command where
  channelData : Dict Text Value
  timestamp : ℤ
  tags : Tags

inductive Data
  | measurement (data : Measurement)
  | command (data : Command)

/-- `json.dumps(data.tags) if data.tags else ""` -/
def tagsText : Tags → Text
  | none => []
  | some tags =>
    if tags.entries = [] then []
    else
      '{' :: ([',', ' '].intercalate
        (tags.entries.map fun (key, value) => key.jsonText ++ [':', ' '] ++ value.jsonText) ++ ['}'])

def headers : Csv.Row :=
  ["timestamp".toList, "channel".toList, "value".toList, "tags".toList]

/-- The row of one value. -/
def row (timestamp : ℤ) (channelName : Text) (value : Value) (tags : Tags) : Csv.Row :=
  [intText timestamp, channelName, value.text, tagsText tags]

/-! ## The writer -/

/-- `timestamps[i] if i < len(timestamps) else timestamps[-1]` -/
def timestampAt (timestamps : List ℤ) (i : ℕ) : Except PyException ℤ :=
  if h : i < timestamps.length then .ok timestamps[i]
  else
    match timestamps.getLast? with
    | some timestamp => .ok timestamp
    | none => .error .indexError

/-- The rows of a record as they are computed one by one, or what is raised in place of one. -/
def Data.computed : Data → List (Except PyException Csv.Row)
  | measurement data =>
    data.channelData.entries.flatMap fun (channelName, values) =>
      values.zipIdx.map fun (value, i) =>
        (timestampAt data.timestamps i).map fun timestamp => row timestamp channelName value data.tags
  | command data =>
    data.channelData.entries.map fun (channelName, value) =>
      .ok (row data.timestamp channelName value data.tags)

/-- A writer with the file at its path, if there is one. -/
structure CsvFileWriter where
  file : Option Text
  headersWritten : Bool := false

namespace CsvFileWriter

variable (s : CsvFileWriter)

def writerow (fields : Csv.Row) : CsvFileWriter :=
  { s with file := some (s.file.getD [] ++ Csv.rowText fields) }

/-- `open`: to append where the file exists, else to write. -/
def opened : CsvFileWriter := { s with file := some (s.file.getD []) }

def writeHeaders : CsvFileWriter :=
  if s.headersWritten then s else { s.writerow headers with headersWritten := true }

/-- Every row is written before the next one is computed. -/
def writeRows (s : CsvFileWriter) :
    List (Except PyException Csv.Row) → CsvFileWriter × Option PyException
  | [] => (s, none)
  | .error e :: _ => (s, some e)
  | .ok fields :: rows => (s.writerow fields).writeRows rows

/-- `write`, and what it raises. -/
def write (data : Data) : CsvFileWriter × Option PyException :=
  s.opened.writeHeaders.writeRows data.computed

end CsvFileWriter

/-- The file after a session of a new writer. -/
def session (file : Option Text) (records : List Data) : Option Text :=
  (records.foldl (fun s data => (s.write data).1) (CsvFileWriter.mk file false)).file

/-- The file after sessions one after another, on a path without a file. -/
def fileAfter (sessions : List (List Data)) : Option Text := sessions.foldl session none

/-! ## The rows of a record -/

/-- Every channel of a measurement has a value for every timestamp. -/
def Data.Aligned : Data → Prop
  | measurement data =>
    ∀ channel ∈ data.channelData.entries, channel.2.length = data.timestamps.length
  | command _ => True

/-- A row for each value, with its timestamp. -/
def Data.rows : Data → List Csv.Row
  | measurement data =>
    data.channelData.entries.flatMap fun (channelName, values) =>
      List.zipWith (fun timestamp value => row timestamp channelName value data.tags)
        data.timestamps values
  | command data =>
    data.channelData.entries.map fun (channelName, value) =>
      row data.timestamp channelName value data.tags

theorem computed_eq {data : Data} (h : data.Aligned) : data.computed = data.rows.map .ok := by
  cases data with
  | command data =>
    unfold Data.computed Data.rows
    rw [List.map_map]
    rfl
  | measurement data =>
    unfold Data.computed Data.rows
    rw [List.map_flatMap]
    apply List.flatMap_congr
    intro channel hchannel
    have hlength : channel.2.length = data.timestamps.length := h channel hchannel
    apply List.ext_getElem
    · simp [hlength]
    · intro i hi _
      have hvalue : i < channel.2.length := by simpa using hi
      have htime : i < data.timestamps.length := hlength ▸ hvalue
      have hat : timestampAt data.timestamps i = .ok data.timestamps[i] := dif_pos htime
      simp [hat, Except.map]

/-! ## Sessions -/

section Sessions

variable {data : Data} {records : List Data} {sessions : List (List Data)} {content : Text}

namespace CsvFileWriter

theorem writeRows_ok (content : Text) (flag : Bool) (rows : List Csv.Row) :
    (CsvFileWriter.mk (some content) flag).writeRows (rows.map .ok) =
      (⟨some (content ++ Csv.text rows), flag⟩, none) := by
  induction rows generalizing content with
  | nil =>
    rw [Csv.text_nil, List.append_nil]
    rfl
  | cons fields rows ih =>
    show (CsvFileWriter.mk (some (content ++ Csv.rowText fields)) flag).writeRows _ = _
    rw [ih, ← List.singleton_append, Csv.text_append, Csv.text_singleton, List.append_assoc]

/-- The first record of a writer brings the header row. -/
theorem write_first (file : Option Text) (h : data.Aligned) :
    (CsvFileWriter.mk file false).write data =
      (⟨some (file.getD [] ++ Csv.text (headers :: data.rows)), true⟩, none) := by
  show (CsvFileWriter.mk (some (file.getD [] ++ Csv.rowText headers)) true).writeRows _ = _
  rw [computed_eq h, writeRows_ok, ← List.singleton_append (l := data.rows), Csv.text_append,
    Csv.text_singleton, List.append_assoc]

theorem write_next (content : Text) (h : data.Aligned) :
    (CsvFileWriter.mk (some content) true).write data =
      (⟨some (content ++ Csv.text data.rows), true⟩, none) := by
  show (CsvFileWriter.mk (some content) true).writeRows _ = _
  rw [computed_eq h, writeRows_ok]

end CsvFileWriter

theorem foldl_write (content : Text) (h : ∀ data ∈ records, data.Aligned) :
    records.foldl (fun s data => (s.write data).1) (CsvFileWriter.mk (some content) true) =
      ⟨some (content ++ Csv.text (records.flatMap Data.rows)), true⟩ := by
  induction records generalizing content with
  | nil =>
    rw [List.flatMap_nil, Csv.text_nil, List.append_nil]
    rfl
  | cons data records ih =>
    obtain ⟨hdata, hrecords⟩ := List.forall_mem_cons.mp h
    rw [List.foldl_cons, CsvFileWriter.write_next content hdata, ih _ hrecords, List.flatMap_cons,
      Csv.text_append, List.append_assoc]

/-- The rows that a session writes. -/
def sessionRows (records : List Data) : List Csv.Row :=
  if records = [] then [] else headers :: records.flatMap Data.rows

/-- What a session adds to the file. -/
theorem session_getD (file : Option Text) (h : ∀ data ∈ records, data.Aligned) :
    (session file records).getD [] = file.getD [] ++ Csv.text (sessionRows records) := by
  cases records with
  | nil => exact (List.append_nil _).symm
  | cons data records =>
    obtain ⟨hdata, hrecords⟩ := List.forall_mem_cons.mp h
    unfold session
    rw [List.foldl_cons, CsvFileWriter.write_first file hdata, foldl_write _ hrecords]
    unfold sessionRows
    rw [if_neg (List.cons_ne_nil _ _), List.flatMap_cons, ← List.cons_append, Csv.text_append,
      ← List.append_assoc]
    rfl

/-- A session that writes leaves a file. -/
theorem session_isSome (file : Option Text) (h : ∀ data ∈ records, data.Aligned)
    (hsome : file.isSome = true ∨ records ≠ []) : (session file records).isSome = true := by
  cases records with
  | nil => exact hsome.resolve_right fun hne => hne rfl
  | cons data records =>
    obtain ⟨hdata, hrecords⟩ := List.forall_mem_cons.mp h
    unfold session
    rw [List.foldl_cons, CsvFileWriter.write_first file hdata, foldl_write _ hrecords]
    rfl

theorem foldl_session (file : Option Text) (h : ∀ records ∈ sessions, ∀ data ∈ records, data.Aligned) :
    (sessions.foldl session file).getD [] =
      file.getD [] ++ Csv.text (sessions.flatMap sessionRows) := by
  induction sessions generalizing file with
  | nil => exact (List.append_nil _).symm
  | cons records sessions ih =>
    obtain ⟨hrecords, hsessions⟩ := List.forall_mem_cons.mp h
    rw [List.foldl_cons, ih _ hsessions, session_getD file hrecords, List.flatMap_cons,
      Csv.text_append, List.append_assoc]

theorem foldl_session_isSome (file : Option Text)
    (h : ∀ records ∈ sessions, ∀ data ∈ records, data.Aligned)
    (hsome : file.isSome = true ∨ sessions.flatten ≠ []) :
    (sessions.foldl session file).isSome = true := by
  induction sessions generalizing file with
  | nil => exact hsome.resolve_right fun hne => hne rfl
  | cons records sessions ih =>
    obtain ⟨hrecords, hsessions⟩ := List.forall_mem_cons.mp h
    apply ih _ hsessions
    by_cases hnil : records = []
    · subst hnil
      exact hsome
    · exact .inl (session_isSome file hrecords (.inr hnil))

/-! ## The header row -/

/-- A session that writes adds one row to those of its records. -/
theorem length_sessionRows (sessions : List (List Data)) :
    (sessions.flatMap sessionRows).length =
      sessions.countP (· ≠ []) + (sessions.flatten.flatMap Data.rows).length := by
  induction sessions with
  | nil => rfl
  | cons records sessions ih =>
    rw [List.flatMap_cons, List.length_append, ih, List.countP_cons, List.flatten_cons,
      List.flatMap_append, List.length_append]
    unfold sessionRows
    by_cases hnil : records = []
    · simp [hnil]
    · have hone : decide (records ≠ []) = true := decide_eq_true hnil
      rw [if_neg hnil, if_pos hone, List.length_cons]
      omega

/-- With one session that writes, its rows are the header row and those of its records. -/
theorem sessionRows_of_single (h : sessions.countP (· ≠ []) = 1) :
    sessions.flatMap sessionRows = headers :: sessions.flatten.flatMap Data.rows := by
  induction sessions with
  | nil => cases h
  | cons records sessions ih =>
    rw [List.countP_cons] at h
    rw [List.flatMap_cons, List.flatten_cons]
    by_cases hnil : records = []
    · subst hnil
      exact ih h
    · have hone : decide (records ≠ []) = true := decide_eq_true hnil
      rw [if_pos hone] at h
      -- no session after it writes
      have hempty : ∀ later ∈ sessions, later = [] := by
        have hzero : sessions.countP (· ≠ []) = 0 := by omega
        intro later hlater
        simpa using List.countP_eq_zero.mp hzero later hlater
      have hflatten : sessions.flatten = [] := List.flatten_eq_nil_iff.mpr hempty
      have hrows : sessions.flatMap sessionRows = [] := by
        rw [List.flatMap_eq_nil_iff]
        exact fun later hlater => if_pos (hempty later hlater)
      rw [hflatten, hrows, List.append_nil, List.append_nil]
      exact if_neg hnil

/-- What the file holds after sessions of which one writes or more. -/
theorem read_fileAfter (haligned : ∀ records ∈ sessions, ∀ data ∈ records, data.Aligned)
    (hwrites : sessions.flatten ≠ []) :
    (fileAfter sessions).map Csv.read = some (sessions.flatMap sessionRows) := by
  obtain ⟨content, hcontent⟩ := Option.isSome_iff_exists.mp
    (foldl_session_isSome none haligned (.inr hwrites))
  have htext := foldl_session none haligned
  rw [hcontent] at htext
  unfold fileAfter
  rw [hcontent, Option.map_some]
  exact congrArg some ((congrArg Csv.read htext).trans (Csv.read_text _))

end Sessions

/-- **The file has its layout exactly if one session writes.** A header row as the first row, then a
row for each value of each record in their order, and no other row. -/
theorem csv_layout_iff (sessions : List (List Data))
    (haligned : ∀ records ∈ sessions, ∀ data ∈ records, data.Aligned)
    (hwrites : sessions.flatten ≠ []) :
    (fileAfter sessions).map Csv.read = some (headers :: sessions.flatten.flatMap Data.rows) ↔
      sessions.countP (· ≠ []) = 1 := by
  rw [read_fileAfter haligned hwrites, Option.some_inj]
  constructor
  · intro heq
    have hlength := length_sessionRows sessions
    rw [heq, List.length_cons] at hlength
    omega
  · exact sessionRows_of_single

/-- One command with the value `value` of channel `psu.mode`. -/
def modeCommand (timestamp : ℤ) (value : Text) : Data :=
  .command ⟨.singleton "psu.mode".toList (.str value), timestamp, none⟩

theorem aligned_modeCommand (timestamp : ℤ) (value : Text) : (modeCommand timestamp value).Aligned :=
  trivial

theorem csv_layout_iff_single :
    (fileAfter [[modeCommand 1 "CV".toList, modeCommand 2 "CC".toList], []]).map Csv.read =
      some (headers :: [modeCommand 1 "CV".toList, modeCommand 2 "CC".toList].flatMap Data.rows) :=
  (csv_layout_iff [[modeCommand 1 "CV".toList, modeCommand 2 "CC".toList], []]
    (by simp [aligned_modeCommand]) (List.cons_ne_nil _ _)).mpr rfl

/-- A second session writes the header row again. -/
theorem header_repeated :
    (fileAfter [[modeCommand 1 "CV".toList], [modeCommand 2 "CC".toList]]).map Csv.read ≠
      some (headers :: [modeCommand 1 "CV".toList, modeCommand 2 "CC".toList].flatMap Data.rows) := by
  intro h
  have haligned : ∀ records ∈ [[modeCommand 1 "CV".toList], [modeCommand 2 "CC".toList]],
      ∀ data ∈ records, data.Aligned := by simp [aligned_modeCommand]
  have hread := read_fileAfter haligned (List.cons_ne_nil _ _)
  have hlength : 4 = 3 := congrArg List.length (Option.some.inj (hread.symm.trans h))
  cases hlength

end Instro.Publishers.Files
