import Instro.Library.JsonReading

/-!
# The JSON writer

`JsonFileWriter.write` reads the array in its file, opens the file for writing, which empties it, and
dumps the array with the new record into it. A dump that raises on the way leaves what it has written.
-/

namespace Instro.Publishers.Files

open Instro.Library

/-! ## Records -/

/-- Any object of Python. No dictionary has a key twice. -/
structure PyObject where
  value : Json.Value
  keysDistinct : value.Every Json.Value.KeysDistinct

inductive Record
  | measurement (channelData timestamps tags : PyObject)
  | command (channelData timestamp tags : PyObject)

/-- The name of an attribute. -/
def key (name : String) : PyString := .ofText name.toList

/-- `data.__dict__` -/
def Record.dict : Record → Json.Value
  | measurement channelData timestamps tags =>
    .obj [(key "channel_data", channelData.value), (key "timestamps", timestamps.value),
      (key "tags", tags.value)]
  | command channelData timestamp tags =>
    .obj [(key "channel_data", channelData.value), (key "timestamp", timestamp.value),
      (key "tags", tags.value)]

/-! ## The writer -/

/-- What `write` finds in the file. A file that is missing, empty or no JSON counts as an empty array. -/
def existingData (file : Option Text) : Except Json.LoadError Json.Value :=
  match file with
  | none => .ok (.arr [])
  | some text =>
    if PyText.strip text = [] then .ok (.arr [])
    else
      match Json.loads (PyText.strip text) with
      | .ok v => .ok v
      | .error .decodeError => .ok (.arr [])
      | .error .valueError => .error .valueError

def appended (existing : Json.Value) (data : Record) : Json.Value :=
  match existing with
  | .arr items => .arr (items ++ [data.dict])
  | v => .arr [v, data.dict]

/-- The file after `write`, and whether it has raised. -/
structure Written where
  file : Option Text
  raised : Bool

def write (file : Option Text) (data : Record) : Written :=
  match existingData file with
  | .error _ => ⟨file, true⟩
  | .ok existing =>
    let output := Json.dump (appended existing data)
    ⟨some output.text, output.raised⟩

/-- `_ensure_file_exists` -/
def ensureFileExists (file : Option Text) : Text := file.getD ['[', ']']

/-- The file, and the records whose `write` has returned. -/
structure Publishing where
  file : Option Text
  kept : List Record

def Publishing.call (s : Publishing) (data : Record) : Publishing where
  file := (write s.file data).file
  kept := if (write s.file data).raised then s.kept else s.kept ++ [data]

/-- A new writer on the file, and calls of `write` one after another. -/
def run (file : Option Text) (calls : List Record) : Publishing :=
  calls.foldl Publishing.call ⟨some (ensureFileExists file), []⟩

/-! ## What the file holds -/

/-- There is no file, or its content is an array of JSON, with whitespace around it or without. -/
def HoldsArray (file : Option Text) (items : List Json.Value) : Prop :=
  match file with
  | none => items = []
  | some text => Json.loads (PyText.strip text) = .ok (.arr items)

/-- After every call the file is the array with the records whose `write` has returned, and a `write` that
raises leaves the file as it was. -/
def Intact (file : Option Text) (initial : List Json.Value) (calls : List Record) : Prop :=
  ∀ before data, before ++ [data] <+: calls →
    (∃ content, (run file (before ++ [data])).file = some content ∧ Json.loads content =
      .ok (.arr (initial ++ (run file (before ++ [data])).kept.map Record.dict))) ∧
    ((write (run file before).file data).raised = true →
      (run file (before ++ [data])).file = (run file before).file)

section Calls

variable {file : Option Text} {initial items : List Json.Value} {data : Record}
  {before calls : List Record}

theorem run_append (before : List Record) (data : Record) :
    run file (before ++ [data]) = (run file before).call data := by
  unfold run
  rw [List.foldl_append]
  rfl

theorem keysDistinct_dict (data : Record) : data.dict.Every Json.Value.KeysDistinct := by
  cases data with
  | measurement channelData timestamps tags =>
    have hkeys : [key "channel_data", key "timestamps", key "tags"].Nodup := by decide
    refine .intro hkeys ?_
    simp [Record.dict, Json.Value.parts, channelData.keysDistinct, timestamps.keysDistinct,
      tags.keysDistinct]
  | command channelData timestamp tags =>
    have hkeys : [key "channel_data", key "timestamp", key "tags"].Nodup := by decide
    refine .intro hkeys ?_
    simp [Record.dict, Json.Value.parts, channelData.keysDistinct, timestamp.keysDistinct,
      tags.keysDistinct]

/-- The file holds an array that can be dumped again. -/
structure Reads (file : Option Text) (items : List Json.Value) : Prop where
  existing : existingData file = .ok (.arr items)
  loaded : ∀ v ∈ items, v.Loaded

theorem write_of_reads (h : Reads file items) (data : Record) :
    write file data =
      ⟨some (Json.dump (.arr (items ++ [data.dict]))).text,
        (Json.dump (.arr (items ++ [data.dict]))).raised⟩ := by
  unfold write
  rw [h.existing]
  rfl

theorem keysDistinct_appended (h : Reads file items) (data : Record) :
    (Json.Value.arr (items ++ [data.dict])).Every Json.Value.KeysDistinct := by
  rw [Json.every_arr trivial, List.forall_mem_append]
  refine ⟨fun v hv => (h.loaded v hv).mono fun _ hw => hw.2, fun v hv => ?_⟩
  obtain rfl := List.mem_singleton.mp hv
  exact keysDistinct_dict data

theorem raised_appended (h : Reads file items) (data : Record) :
    (Json.dump (.arr (items ++ [data.dict]))).raised = false ↔ data.dict.Serialisable := by
  unfold Json.dump
  rw [Json.raised_dumpValue, Json.Value.Serialisable, Json.every_arr trivial, List.forall_mem_append,
    List.forall_mem_singleton]
  exact and_iff_right fun v hv => (h.loaded v hv).mono fun _ hw => hw.1

theorem strip_brackets (middle : Text) :
    PyText.strip ('[' :: (middle ++ [']'])) = '[' :: (middle ++ [']']) := by
  unfold PyText.strip
  rw [List.dropWhile_cons_of_neg (by decide), ← List.cons_append, List.rdropWhile_concat_neg _ _ _ (by decide)]

/-- A record that can be written. -/
theorem reads_write (h : Reads file items) (hdata : data.dict.Serialisable) :
    (write file data).raised = false ∧ (∃ content, (write file data).file = some content ∧
      Json.loads content = .ok (.arr (items ++ [data.dict]))) ∧
      Reads (write file data).file (items ++ [data.dict]) := by
  have hraised := (raised_appended h data).mpr hdata
  have hloads := Json.loads_dump (keysDistinct_appended h data)
  rw [hraised, if_neg Bool.false_ne_true] at hloads
  rw [write_of_reads h data]
  refine ⟨hraised, ⟨_, rfl, hloads⟩, ?_, fun v hv => ?_⟩
  · have hstrip : PyText.strip (Json.dump (.arr (items ++ [data.dict]))).text =
        (Json.dump (.arr (items ++ [data.dict]))).text := by
      obtain ⟨middle, hmiddle⟩ := Json.exists_text_arr (by simp) hraised
      unfold Json.dump
      rw [hmiddle]
      exact strip_brackets middle
    have hne : (Json.dump (.arr (items ++ [data.dict]))).text ≠ [] := by
      intro hnil
      rw [hnil] at hloads
      cases hloads
    unfold existingData
    dsimp only
    rw [hstrip, if_neg hne, hloads]
  · rcases List.mem_append.mp hv with hv | hv
    · exact h.loaded v hv
    · obtain rfl := List.mem_singleton.mp hv
      exact hdata.and (keysDistinct_dict data)

/-- A record that cannot be written: what was in the file is lost. -/
theorem loads_write_failed (h : Reads file items) (hdata : ¬data.dict.Serialisable) :
    ∃ content, (write file data).file = some content ∧ Json.loads content = .error .decodeError := by
  have hraised := mt (raised_appended h data).mp hdata
  rw [Bool.not_eq_false] at hraised
  have hloads := Json.loads_dump (keysDistinct_appended h data)
  rw [hraised, if_pos rfl] at hloads
  rw [write_of_reads h data]
  exact ⟨_, rfl, hloads⟩

/-- The file of a new writer. -/
theorem reads_start (h : HoldsArray file initial) : Reads (some (ensureFileExists file)) initial := by
  cases file with
  | none =>
    obtain rfl : initial = [] := h
    exact ⟨rfl, fun _ h => absurd h List.not_mem_nil⟩
  | some text =>
    have hloads : Json.loads (PyText.strip text) = .ok (.arr initial) := h
    have hne : PyText.strip text ≠ [] := by
      intro hnil
      rw [hnil] at hloads
      cases hloads
    refine ⟨?_, (Json.every_arr ⟨trivial, trivial⟩).mp (Json.loaded_of_loads hloads)⟩
    unfold existingData ensureFileExists
    dsimp only [Option.getD]
    rw [if_neg hne, hloads]

/-- While every record can be written, all are kept. -/
theorem run_serialisable (hfile : HoldsArray file initial) (h : ∀ data ∈ calls, data.dict.Serialisable) :
    (run file calls).kept = calls ∧ Reads (run file calls).file (initial ++ calls.map Record.dict) := by
  induction calls using List.reverseRecOn with
  | nil =>
    rw [List.map_nil, List.append_nil]
    exact ⟨rfl, reads_start hfile⟩
  | append_singleton calls data ih =>
    obtain ⟨hcalls, hdata⟩ := List.forall_mem_append.mp h
    obtain ⟨hkept, hreads⟩ := ih hcalls
    obtain ⟨hraised, -, hnext⟩ := reads_write hreads (hdata data List.mem_cons_self)
    rw [run_append, List.map_append, ← List.append_assoc]
    refine ⟨?_, hnext⟩
    unfold Publishing.call
    rw [hraised, hkept]
    rfl

theorem Intact.mono (h : Intact file initial calls) (hbefore : before <+: calls) :
    Intact file initial before :=
  fun earlier data hearlier => h earlier data (hearlier.trans hbefore)

end Calls

/-- **No record is lost exactly if every record can be written.** -/
theorem records_kept_iff (file : Option Text) (initial : List Json.Value)
    (hfile : HoldsArray file initial) (calls : List Record) :
    Intact file initial calls ↔ ∀ data ∈ calls, data.dict.Serialisable := by
  constructor
  · intro hintact
    induction calls using List.reverseRecOn with
    | nil => exact nofun
    | append_singleton calls data ih =>
      have hcalls := ih (hintact.mono (List.prefix_append _ _))
      refine List.forall_mem_append.mpr ⟨hcalls, List.forall_mem_singleton.mpr ?_⟩
      obtain ⟨⟨content, hcontent, hloads⟩, -⟩ := hintact calls data (List.prefix_refl _)
      by_contra hdata
      obtain ⟨lost, hlost, hnone⟩ := loads_write_failed (run_serialisable hfile hcalls).2 hdata
      rw [run_append] at hcontent
      obtain rfl := Option.some.inj (hcontent.symm.trans hlost)
      cases hloads.symm.trans hnone
  · intro h before data hbefore
    have hall : ∀ earlier ∈ before ++ [data], earlier.dict.Serialisable :=
      fun earlier hearlier => h earlier (hbefore.subset hearlier)
    obtain ⟨hearlier, hdata⟩ := List.forall_mem_append.mp hall
    obtain ⟨hkept, hreads⟩ := run_serialisable hfile hearlier
    obtain ⟨hraised, ⟨content, hcontent, hloads⟩, -⟩ :=
      reads_write hreads (hdata data List.mem_cons_self)
    refine ⟨⟨content, ?_, ?_⟩, fun htrue => ?_⟩
    · rw [run_append]
      exact hcontent
    · rw [(run_serialisable hfile hall).1, List.map_append, ← List.append_assoc]
      exact hloads
    · rw [hraised] at htrue
      cases htrue

/-! ## A record that cannot be written -/

def PyObject.leaf (v : Json.Value) (h : v.KeysDistinct) (hparts : v.parts = []) : PyObject :=
  ⟨v, .intro h (by rw [hparts]; exact nofun)⟩

/-- `{name: value}` -/
def PyObject.entry (name : String) (object : PyObject) : PyObject :=
  ⟨.obj [(key name, object.value)], .intro (List.nodup_singleton _)
    (List.forall_mem_singleton.mpr object.keysDistinct)⟩

/-- `Command({"psu.mode": value}, timestamp=1)` -/
def modeRecord (value : PyObject) : Record :=
  .command (.entry "psu.mode" value) (.leaf (.int 1) trivial rfl) (.leaf .null trivial rfl)

theorem serialisable_modeRecord : (modeRecord (.leaf (.int 7) trivial rfl)).dict.Serialisable :=
  (Json.raised_dumpValue _ 0).mp rfl

/-- Two records behind what the file holds already. -/
theorem records_kept_iff_behind :
    Intact (some "[1]".toList) [.int 1] [modeRecord (.leaf (.int 7) trivial rfl),
      modeRecord (.leaf (.int 8) trivial rfl)] := by
  have hfile : HoldsArray (some "[1]".toList) [.int 1] := rfl
  refine (records_kept_iff _ _ hfile _).mpr (List.forall_mem_cons.mpr ⟨serialisable_modeRecord, ?_⟩)
  exact List.forall_mem_singleton.mpr ((Json.raised_dumpValue _ 0).mp rfl)

/-- A record with an object that `json` does not know leaves no JSON in the file. -/
theorem record_destroys_file : ¬Intact none [] [modeRecord (.leaf (.int 7) trivial rfl),
    modeRecord (.leaf .other trivial rfl)] := by
  intro hintact
  have hfirst : ∀ data ∈ [modeRecord (.leaf (.int 7) trivial rfl)], data.dict.Serialisable :=
    List.forall_mem_singleton.mpr serialisable_modeRecord
  have hfails : ¬(modeRecord (.leaf .other trivial rfl)).dict.Serialisable := by
    rw [← Json.raised_dumpValue _ 0, Bool.not_eq_false]
    rfl
  obtain ⟨⟨content, hcontent, hloads⟩, -⟩ := hintact [_] _ (List.prefix_refl _)
  have hfresh : HoldsArray none [] := rfl
  obtain ⟨lost, hlost, hnone⟩ := loads_write_failed (run_serialisable hfresh hfirst).2 hfails
  rw [run_append] at hcontent
  obtain rfl := Option.some.inj (hcontent.symm.trans hlost)
  cases hloads.symm.trans hnone

end Instro.Publishers.Files
