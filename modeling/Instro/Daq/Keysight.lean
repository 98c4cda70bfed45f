import Instro.Daq.Measurement
import Instro.Library.DateTime
import Instro.Library.Stride
import Mathlib.Data.List.Sort

/-!
# The Keysight 34980A driver

Analog channels are put into the scan list of the instrument one by one, and registered under their
aliases. The instrument answers with its channels in ascending order, a reading and a timestamp of
six fields for each; the driver deals the answer out to its own channels in the same order.
-/

namespace Instro.Daq.Keysight

open Instro.Library

/-- `int` of a text, from the Unicode tables as well. -/
structure PyNumerals extends PyText where
  int : Text → Option ℤ

/-- `int(text)` -/
def PyNumerals.toInt (py : PyNumerals) (text : Text) : Except PyException ℤ :=
  match py.int text with
  | some n => .ok n
  | none => .error .valueError

/-- Plain decimal digits and nothing else. -/
def plainNumerals : PyNumerals :=
  let digits := fun text : Text =>
    if text ≠ [] ∧ text.all PyText.isDigit then (PyText.toInt text).toOption else none
  { upperChar c := [c.toUpper]
    float text := (digits text).map fun n => .finite n
    int text := (digits text).map fun n => (n : ℤ) }

/-! ## The answer -/

section Answer

variable (fl : Rounding) (py : PyNumerals)

/-- `keysight_str_to_ns` -/
def keysightStrToNs (tsStr : Text) : Except PyException ℤ := do
  let parts := tsStr.splitOn ','
  match parts with
  | [year, month, day, hour, minute, second] => do
    let year ← py.toInt year
    let month ← py.toInt month
    let day ← py.toInt day
    let hour ← py.toInt hour
    let minute ← py.toInt minute
    let second ← py.toFloat second
    let wholeSeconds ← second.toInt
    let whole ← PyFloat.ofInt fl wholeSeconds
    let microseconds ← ((second.sub fl whole).mul fl (.finite 1000000)).toInt
    let dt : DateTime := ⟨year, month, day, hour, minute, wholeSeconds, microseconds⟩
    -- the fields are C integers
    ensure (∀ n ∈ [year, month, day, hour, minute, wholeSeconds, microseconds],
      -2 ^ 31 ≤ n ∧ n < 2 ^ 31) .overflowError
    ensure dt.Valid .valueError
    ((dt.timestamp fl).mul fl (.finite 1000000000)).toInt
  | _ => .error .valueError

/-- `[list(islice(tokens, i, i + size)) for i in range(0, len(tokens), size)]` -/
def chunksOf (size : ℕ) (tokens : List Text) : List (List Text) :=
  (List.range ((tokens.length + (size - 1)) / size)).map fun i =>
    (tokens.drop (size * i)).take size

/-- `parse_datastring` -/
def parseDatastring (data : Text) : Except PyException (List PyFloat × List ℤ) := do
  let chunks := chunksOf 7 (data.splitOn ',')
  let readings ← chunks.mapM fun chunk =>
    match chunk with
    | [] => .error .indexError
    | reading :: _ => py.toFloat reading
  let timestamps ← chunks.mapM fun chunk => keysightStrToNs fl py (PyText.join ',' chunk.tail)
  return (readings, timestamps)

/-- `get_scanlist`: the channels by number, those of one number in the order they stand in. -/
def getScanlist (channels : List AnalogChannel) : Except PyException (List AnalogChannel) := do
  let numbered ← channels.mapM fun channel => do
    let number ← py.toInt channel.physicalChannel
    return (number, channel)
  return (numbered.insertionSort fun a b => a.1 ≤ b.1).map Prod.snd

/-- `_read_to_measurements` -/
def readToMeasurements (data : Text) (channelList : Dict String AnalogChannel) (daqName : String)
    (defaultTags kwargs : Dict String String) : Except PyException (List Measurement) := do
  let numChannels := channelList.entries.length
  let (readings, timestamps) ← parseDatastring fl py data
  let scanList ← getScanlist py channelList.values
  return scanList.mapIdx fun i channel =>
    { channelData :=
        .singleton (channelName daqName channel.channelAlias) (stride numChannels i readings)
      timestamps := stride numChannels i timestamps
      tags := some (mergeTags defaultTags kwargs) }

end Answer

section Numbered

variable {py : PyNumerals} {channels list : List AnalogChannel}

theorem toInt_eq_ok_iff {text : Text} {n : ℤ} : py.toInt text = .ok n ↔ py.int text = some n := by
  unfold PyNumerals.toInt
  cases py.int text with
  | none => exact ⟨nofun, nofun⟩
  | some k =>
    show Except.ok k = Except.ok n ↔ some k = some n
    rw [Except.ok.injEq, Option.some.injEq]

/-- The scan list is the channels in the order of their numbers. -/
theorem numbered_of_getScanlist (h : getScanlist py channels = .ok list) :
    ∃ numbered : List (ℤ × AnalogChannel), numbered.map Prod.snd = channels ∧
      (∀ x ∈ numbered, py.int x.2.physicalChannel = some x.1) ∧
        list = (numbered.insertionSort fun a b => a.1 ≤ b.1).map Prod.snd := by
  obtain ⟨numbered, hnumbered, hlist⟩ := bind_eq_ok.mp h
  have hforall : List.Forall₂ (fun channel x => x.2 = channel ∧
      py.int x.2.physicalChannel = some x.1) channels numbered := by
    refine (forall₂_of_mapM_eq_ok hnumbered).imp fun channel x hstep => ?_
    obtain ⟨number, hnumber, hstep⟩ := bind_eq_ok.mp hstep
    obtain rfl := Except.ok.inj hstep
    exact ⟨rfl, toInt_eq_ok_iff.mp hnumber⟩
  refine ⟨numbered, ?_, ?_, (Except.ok.inj hlist).symm⟩
  · clear hnumbered hlist h
    induction hforall with
    | nil => rfl
    | cons hfirst _ ih => rw [List.map_cons, hfirst.1, ih]
  · intro x hx
    obtain ⟨i, hi, rfl⟩ := List.getElem_of_mem hx
    exact ((List.forall₂_iff_get.mp hforall).2 i (by rw [hforall.length_eq]; exact hi) hi).2

theorem perm_of_getScanlist (h : getScanlist py channels = .ok list) : list.Perm channels := by
  obtain ⟨numbered, rfl, -, rfl⟩ := numbered_of_getScanlist h
  exact (List.perm_insertionSort _ numbered).map Prod.snd

end Numbered

/-! ## Configuration -/

/-- The scan list of the instrument. -/
structure ScanList where
  channels : List ℤ
  ascending : channels.Pairwise (· < ·)

/-- The channels of the driver, and the scan list. -/
structure State where
  aiChannels : Dict String AnalogChannel
  scanList : ScanList

/-- A channel of the instrument is named by its number. -/
structure InstrumentChannel (py : PyNumerals) where
  channel : AnalogChannel
  number : ℤ
  named : py.int channel.physicalChannel = some number

theorem pairwise_lt_orderedInsert {n : ℤ} {list : List ℤ} (h : list.Pairwise (· < ·))
    (hn : n ∉ list) : (list.orderedInsert (· ≤ ·) n).Pairwise (· < ·) := by
  have hle : (list.orderedInsert (· ≤ ·) n).Pairwise (· ≤ ·) :=
    (h.imp le_of_lt).orderedInsert n list
  have hnodup : (list.orderedInsert (· ≤ ·) n).Nodup :=
    (List.perm_orderedInsert _ n list).nodup_iff.mpr (List.nodup_cons.mpr ⟨hn, h.imp ne_of_lt⟩)
  exact hle.imp₂ (fun _ _ hle hne => lt_of_le_of_ne hle hne) hnodup

/-- `ROUTe:SCAN:ADD`: a channel that is there already is not added. -/
def ScanList.add (list : ScanList) (number : ℤ) : ScanList :=
  if h : number ∈ list.channels then list
  else
    { channels := list.channels.orderedInsert (· ≤ ·) number
      ascending := pairwise_lt_orderedInsert list.ascending h }

theorem ScanList.mem_add {list : ScanList} {number n : ℤ} :
    n ∈ (list.add number).channels ↔ n = number ∨ n ∈ list.channels := by
  unfold ScanList.add
  split_ifs with h
  · constructor
    · exact .inr
    · rintro (rfl | hn)
      · exact h
      · exact hn
  · exact List.mem_orderedInsert _

/-- `configure_ai_channel`. The instrument may report an error once the channel is in its list. -/
def configureAiChannel (s : State) {py : PyNumerals} (call : InstrumentChannel py)
    (reportsError : Bool) : State × Except PyException Unit :=
  let s := { s with scanList := s.scanList.add call.number }
  if reportsError then (s, .error .runtimeError)
  else
    ({ s with aiChannels := s.aiChannels.set call.channel.channelAlias call.channel }, .ok ())

/-- After `open`, which resets the instrument. -/
def initial : State := ⟨∅, ⟨[], List.Pairwise.nil⟩⟩

/-- A call of `configure_ai_channel`, and whether the instrument reports an error. -/
structure ConfigureCall (py : PyNumerals) extends InstrumentChannel py where
  reportsError : Bool

/-- The state after some calls. -/
def configured {py : PyNumerals} (calls : List (ConfigureCall py)) : State :=
  calls.foldl (fun s call => (configureAiChannel s call.toInstrumentChannel call.reportsError).1)
    initial

/-- Every channel is registered under its alias, and is in the scan list. -/
structure State.Consistent (py : PyNumerals) (s : State) : Prop where
  keyed : ∀ entry ∈ s.aiChannels.entries, entry.2.channelAlias = entry.1
  listed : ∀ entry ∈ s.aiChannels.entries,
    ∃ number ∈ s.scanList.channels, py.int entry.2.physicalChannel = some number

section Configured

variable {py : PyNumerals}

/-- **Step lemma.** A call keeps the channels of the driver in the scan list. -/
theorem consistent_configureAiChannel {s : State} (hs : s.Consistent py)
    (call : InstrumentChannel py) (reportsError : Bool) :
    (configureAiChannel s call reportsError).1.Consistent py := by
  have hadded : ∀ entry ∈ s.aiChannels.entries, ∃ number ∈ (s.scanList.add call.number).channels,
      py.int entry.2.physicalChannel = some number := by
    intro entry hentry
    obtain ⟨number, hlisted, hnumber⟩ := hs.listed entry hentry
    exact ⟨number, ScanList.mem_add.mpr (.inr hlisted), hnumber⟩
  unfold configureAiChannel
  dsimp only
  split_ifs with herror
  · exact ⟨hs.keyed, hadded⟩
  · refine ⟨?_, ?_⟩
    · rintro ⟨a, channel⟩ hentry
      rcases (mem_setEntry s.aiChannels.nodup).mp hentry with ⟨rfl, rfl⟩ | ⟨-, hold⟩
      · rfl
      · exact hs.keyed _ hold
    · rintro ⟨a, channel⟩ hentry
      rcases (mem_setEntry s.aiChannels.nodup).mp hentry with ⟨rfl, rfl⟩ | ⟨-, hold⟩
      · exact ⟨call.number, ScanList.mem_add.mpr (.inl rfl), call.named⟩
      · exact hadded _ hold

/-- **Run lemma.** So do any calls from the start. -/
theorem consistent_configured (calls : List (ConfigureCall py)) :
    (configured calls).Consistent py := by
  induction calls using List.reverseRecOn with
  | nil => exact ⟨fun _ h => absurd h List.not_mem_nil, fun _ h => absurd h List.not_mem_nil⟩
  | append_singleton calls call ih =>
    unfold configured at ih ⊢
    rw [List.foldl_append, List.foldl_cons, List.foldl_nil]
    exact consistent_configureAiChannel ih _ _

end Configured

end Instro.Daq.Keysight
