import Instro.Daq.Scaling
import Instro.Library.TextParts

/-!
# Attribution

The instrument answers with one sample for each distinct channel it scans, in ascending order. The
driver counts its aliases, and deals the answer out to them in the order of their channels. The two
agree where the aliases and the scanned channels correspond.
-/

namespace Instro.Daq.Keysight

open Instro.Library

/-! ## What the instrument sends -/

section Samples

variable (fl : Rounding) (py : PyNumerals)

/-- A reading and the six fields of its timestamp, as the driver reads them. -/
structure Sample where
  reading : Text
  stamp : List Text
  value : PyFloat
  ns : ℤ
  plain : ∀ token ∈ reading :: stamp, ',' ∉ token
  six : stamp.length = 6
  reads : py.toFloat reading = .ok value
  stamped : keysightStrToNs fl py (PyText.join ',' stamp) = .ok ns

variable {fl py}

def Sample.tokens (sample : Sample fl py) : List Text := sample.reading :: sample.stamp

def wire (samples : List (Sample fl py)) : Text :=
  PyText.join ',' (samples.flatMap Sample.tokens)

/-- Some scans of the channels in a scan list. -/
def answer (scanned : ScanList) (scans : List (ℤ → Sample fl py)) : List (Sample fl py) :=
  scans.flatMap fun scan => scanned.channels.map scan

end Samples

/-- The numbers of the configured channels. -/
def numbers (py : PyNumerals) (channelList : Dict String AnalogChannel) : List ℤ :=
  channelList.values.filterMap fun channel => py.int channel.physicalChannel

/-- `READ?` scans the channels it names, `DATA:REM?` returns what has been scanned by the list. -/
inductive ReadMode
  | read
  | fetch

theorem ascending_nil : List.Pairwise (· < ·) ([] : List ℤ) := List.Pairwise.nil

/-- The channels that the instrument scans. -/
def ReadMode.scanned (mode : ReadMode) (py : PyNumerals) (s : State) : ScanList :=
  match mode with
  | .read => (numbers py s.aiChannels).foldl ScanList.add ⟨[], ascending_nil⟩
  | .fetch => s.scanList

/-! ## What the driver should publish -/

section Published

variable (fl : Rounding) (py : PyNumerals) (channelList : Dict String AnalogChannel)
  (scanned : ScanList) (name : String) (defaultTags kwargs : Dict String String)

/-- The measurement of a channel has the samples of its physical channel, one of each scan. -/
def HasOwn (scans : List (ℤ → Sample fl py)) (m : Measurement) (channel : AnalogChannel) : Prop :=
  ∃ number, py.int channel.physicalChannel = some number ∧
    m.channelData =
      .singleton (channelName name channel.channelAlias) (scans.map fun scan => (scan number).value) ∧
    m.timestamps = scans.map fun scan => (scan number).ns

/-- Whatever the instrument sends, every sample is published under the aliases of its physical
channel and under no other. -/
def Attributed : Prop :=
  ∀ scans : List (ℤ → Sample fl py), scans ≠ [] → scanned.channels ≠ [] →
    ∃ ms, readToMeasurements fl py (wire (answer scanned scans)) channelList name defaultTags
        kwargs = .ok ms ∧
      (∀ m ∈ ms, ∃ channel ∈ channelList.values, HasOwn fl py name scans m channel) ∧
      ∀ channel ∈ channelList.values, ∃ m ∈ ms, HasOwn fl py name scans m channel

/-- No two aliases have one number, and every scanned channel has an alias. -/
def Corresponds : Prop :=
  (numbers py channelList).Nodup ∧
    (channelList.entries = [] ∨ ∀ number ∈ scanned.channels, number ∈ numbers py channelList)

end Published

/-! ## Parsing -/

section Parsing

variable {fl : Rounding} {py : PyNumerals}

theorem chunksOf_flatten {size : ℕ} (hsize : 0 < size) {rows : List (List Text)}
    (h : ∀ row ∈ rows, row.length = size) : chunksOf size rows.flatten = rows := by
  have hlength : rows.flatten.length = size * rows.length := by
    induction rows with
    | nil => rfl
    | cons row rows ih =>
      rw [List.flatten_cons, List.length_append, h row List.mem_cons_self,
        ih fun row' hrow' => h row' (List.mem_cons_of_mem row hrow'), List.length_cons, Nat.mul_add]
      omega
  unfold chunksOf
  rw [hlength, Nat.mul_add_div hsize, Nat.div_eq_of_lt (by omega), Nat.add_zero]
  clear hlength
  induction rows with
  | nil => rfl
  | cons row rows ih =>
    have hrow := h row List.mem_cons_self
    rw [List.length_cons, List.range_succ_eq_map, List.map_cons, List.map_map, List.flatten_cons]
    congr 1
    · rw [Nat.mul_zero, List.drop_zero, ← hrow, List.take_left]
    · refine Eq.trans ?_ (ih fun row' hrow' => h row' (List.mem_cons_of_mem row hrow'))
      apply List.map_congr_left
      intro i _
      show ((row ++ rows.flatten).drop (size * (i + 1))).take size = _
      rw [List.drop_append, hrow, List.drop_eq_nil_of_le (by rw [hrow, Nat.mul_add]; omega),
        List.nil_append, Nat.mul_add, Nat.mul_one, Nat.add_sub_cancel]

/-- The driver reads what the instrument sends. -/
theorem parseDatastring_wire {samples : List (Sample fl py)} (hne : samples ≠ []) :
    parseDatastring fl py (wire samples) =
      .ok (samples.map Sample.value, samples.map Sample.ns) := by
  have hsplit : (wire samples).splitOn ',' = (samples.map Sample.tokens).flatten := by
    unfold wire
    rw [PyText.splitOn_join, List.flatMap_def]
    · intro token htoken
      obtain ⟨sample, -, htoken⟩ := List.mem_flatMap.mp htoken
      exact sample.plain token htoken
    · intro hnil
      obtain ⟨sample, hsample⟩ := List.exists_mem_of_ne_nil samples hne
      exact List.cons_ne_nil _ _ (List.flatMap_eq_nil_iff.mp hnil sample hsample)
  have hchunks : chunksOf 7 ((wire samples).splitOn ',') = samples.map Sample.tokens := by
    rw [hsplit]
    apply chunksOf_flatten (by decide)
    intro row hrow
    obtain ⟨sample, -, rfl⟩ := List.mem_map.mp hrow
    exact congrArg (· + 1) sample.six
  unfold parseDatastring
  rw [hchunks]
  dsimp only
  rw [List.mapM_map, List.mapM_map]
  have hreadings := @mapM_eq_ok_map _ _ _ samples _ Sample.value fun sample _ => sample.reads
  have hstamps := @mapM_eq_ok_map _ _ _ samples _ Sample.ns fun sample _ => sample.stamped
  show (samples.mapM (fun sample => py.toFloat sample.reading) >>= _) = _
  rw [hreadings]
  show (samples.mapM (fun sample => keysightStrToNs fl py (PyText.join ',' sample.stamp)) >>= _) = _
  rw [hstamps]
  rfl

end Parsing

/-! ## Dealing out -/

section Dealing

variable {fl : Rounding} {py : PyNumerals} {channelList : Dict String AnalogChannel}
  {scanned : ScanList} {name : String} {defaultTags kwargs : Dict String String}

/-- The channels of the driver in the order of the answer, each with its number. -/
structure Ordered (py : PyNumerals) (channelList : Dict String AnalogChannel)
    (sorted : List (ℤ × AnalogChannel)) : Prop where
  scanlist : getScanlist py channelList.values = .ok (sorted.map Prod.snd)
  perm : (sorted.map Prod.snd).Perm channelList.values
  numbered : ∀ x ∈ sorted, py.int x.2.physicalChannel = some x.1
  ascending : (sorted.map Prod.fst).Pairwise (· ≤ ·)

theorem exists_ordered
    (h : ∀ channel ∈ channelList.values, ∃ number, py.int channel.physicalChannel = some number) :
    ∃ sorted, Ordered py channelList sorted := by
  obtain ⟨list, hlist⟩ : ∃ list, getScanlist py channelList.values = .ok list := by
    obtain ⟨numbered, hnumbered⟩ := @exists_mapM_eq_ok _ _ _ channelList.values
      (fun channel => do let number ← py.toInt channel.physicalChannel; return (number, channel))
      fun channel hchannel => by
        obtain ⟨number, hnumber⟩ := h channel hchannel
        exact ⟨(number, channel), by rw [toInt_eq_ok_iff.mpr hnumber]; rfl⟩
    unfold getScanlist
    rw [hnumbered]
    exact ⟨_, rfl⟩
  obtain ⟨numbered, hvalues, hint, rfl⟩ := numbered_of_getScanlist hlist
  have hsorted := List.perm_insertionSort (fun a b : ℤ × AnalogChannel => a.1 ≤ b.1) numbered
  refine ⟨_, hlist, hvalues ▸ hsorted.map Prod.snd, fun x hx => hint x (hsorted.mem_iff.mp hx), ?_⟩
  apply List.pairwise_map.mpr
  apply List.pairwise_insertionSort

theorem Ordered.perm_numbers {sorted : List (ℤ × AnalogChannel)}
    (h : Ordered py channelList sorted) : (sorted.map Prod.fst).Perm (numbers py channelList) := by
  have hmap : sorted.map Prod.fst =
      (sorted.map Prod.snd).filterMap fun channel => py.int channel.physicalChannel := by
    rw [List.filterMap_map, ← List.filterMap_eq_map]
    exact List.filterMap_congr fun x hx => (h.numbered x hx).symm
  rw [hmap]
  exact h.perm.filterMap _

/-- The measurement of the channel at a place of the order. -/
def measurementAt (samples : List (Sample fl py)) (channelList : Dict String AnalogChannel)
    (name : String) (tags : Dict String String) (i : ℕ) (channel : AnalogChannel) : Measurement :=
  { channelData := .singleton (channelName name channel.channelAlias)
      (stride channelList.entries.length i (samples.map Sample.value))
    timestamps := stride channelList.entries.length i (samples.map Sample.ns)
    tags := some tags }

theorem read_wire {samples : List (Sample fl py)} (hne : samples ≠ [])
    {sorted : List (ℤ × AnalogChannel)} (h : Ordered py channelList sorted) :
    readToMeasurements fl py (wire samples) channelList name defaultTags kwargs =
      .ok ((sorted.map Prod.snd).mapIdx
        (measurementAt samples channelList name (mergeTags defaultTags kwargs))) := by
  unfold readToMeasurements
  rw [parseDatastring_wire hne, h.scanlist]
  rfl

theorem answer_ne_nil {scans : List (ℤ → Sample fl py)} (hscans : scans ≠ [])
    (hscanned : scanned.channels ≠ []) : answer scanned scans ≠ [] := by
  obtain ⟨scan, hscan⟩ := List.exists_mem_of_ne_nil scans hscans
  obtain ⟨number, hnumber⟩ := List.exists_mem_of_ne_nil _ hscanned
  exact List.ne_nil_of_mem (List.mem_flatMap.mpr ⟨scan, hscan, List.mem_map_of_mem hnumber⟩)

/-- One of `n` strides through scans of `n` channels has the samples of one channel. -/
theorem stride_answer {β : Type} (f : Sample fl py → β) (scans : List (ℤ → Sample fl py)) {i : ℕ}
    (hi : i < scanned.channels.length) :
    stride scanned.channels.length i ((answer scanned scans).map f) =
      scans.map fun scan => f (scan scanned.channels[i]) := by
  have hrows : (answer scanned scans).map f =
      (scans.map fun scan => scanned.channels.map fun number => f (scan number)).flatten := by
    unfold answer
    rw [List.map_flatMap, List.flatMap_def]
    simp only [List.map_map]
    rfl
  have hforall := @stride_flatten _ _ _ hi
    (scans.map fun scan => scanned.channels.map fun number => f (scan number)) fun row hrow => by
      obtain ⟨scan, -, rfl⟩ := List.mem_map.mp hrow
      exact List.length_map _
  rw [← hrows, List.forall₂_map_left_iff] at hforall
  generalize stride _ i _ = column at hforall ⊢
  clear hrows
  induction hforall with
  | nil => rfl
  | cons hfirst _ ih =>
    rw [List.getElem?_map, List.getElem?_eq_getElem hi] at hfirst
    rw [List.map_cons, ← ih, ← Option.some.inj hfirst]

/-- Where aliases and scanned channels correspond, the order of the driver is the order of the
answer. -/
theorem Ordered.eq_scanned {sorted : List (ℤ × AnalogChannel)}
    (h : Ordered py channelList sorted) (hnodup : (numbers py channelList).Nodup)
    (hscanned : ∀ number ∈ scanned.channels, number ∈ numbers py channelList)
    (hnumbers : ∀ number ∈ numbers py channelList, number ∈ scanned.channels) :
    sorted.map Prod.fst = scanned.channels := by
  have hscannednodup : scanned.channels.Nodup := scanned.ascending.imp ne_of_lt
  have hperm : (sorted.map Prod.fst).Perm scanned.channels := by
    refine h.perm_numbers.trans ((List.perm_ext_iff_of_nodup hnodup hscannednodup).mpr fun number => ?_)
    exact ⟨hnumbers number, hscanned number⟩
  exact hperm.eq_of_pairwise' h.ascending (scanned.ascending.imp le_of_lt)

theorem Ordered.length_eq {sorted : List (ℤ × AnalogChannel)} (h : Ordered py channelList sorted) :
    sorted.length = channelList.entries.length := by
  have hlength := h.perm.length_eq
  rw [List.length_map] at hlength
  rw [hlength]
  exact List.length_map _

theorem attributed_of_corresponds
    (hnumbered : ∀ channel ∈ channelList.values,
      ∃ number, py.int channel.physicalChannel = some number)
    (hnumbers : ∀ number ∈ numbers py channelList, number ∈ scanned.channels)
    (h : Corresponds py channelList scanned) :
    Attributed fl py channelList scanned name defaultTags kwargs := by
  intro scans hscans hscannedne
  obtain ⟨sorted, hsorted⟩ := exists_ordered hnumbered
  refine ⟨_, read_wire (answer_ne_nil hscans hscannedne) hsorted, ?_⟩
  -- the measurement at each place is the one of the channel there
  have hplace : ∀ i (hi : i < (sorted.map Prod.snd).length),
      HasOwn fl py name scans (measurementAt (answer scanned scans) channelList name
        (mergeTags defaultTags kwargs) i (sorted.map Prod.snd)[i]) (sorted.map Prod.snd)[i] := by
    intro i hi
    rw [List.length_map] at hi
    have hne : channelList.entries ≠ [] := by
      intro hnil
      rw [hsorted.length_eq, hnil] at hi
      cases hi
    have heq := hsorted.eq_scanned h.1 (h.2.resolve_left hne) hnumbers
    have hlength : scanned.channels.length = channelList.entries.length := by
      rw [← heq, List.length_map, hsorted.length_eq]
    have hiscanned : i < scanned.channels.length := by rw [hlength, ← hsorted.length_eq]; exact hi
    have hnumber : scanned.channels[i] = sorted[i].1 := by
      simp only [← heq, List.getElem_map]
    refine ⟨scanned.channels[i], ?_, ?_, ?_⟩
    · rw [hnumber, List.getElem_map]
      exact hsorted.numbered _ (List.getElem_mem hi)
    · unfold measurementAt
      rw [← hlength, stride_answer _ scans hiscanned]
    · show stride channelList.entries.length i _ = _
      rw [← hlength, stride_answer _ scans hiscanned]
  constructor
  · intro m hm
    obtain ⟨i, hi, rfl⟩ := List.mem_mapIdx.mp hm
    exact ⟨_, hsorted.perm.mem_iff.mp (List.getElem_mem hi), hplace i hi⟩
  · intro channel hchannel
    obtain ⟨i, hi, rfl⟩ := List.getElem_of_mem (hsorted.perm.mem_iff.mpr hchannel)
    exact ⟨_, List.mem_mapIdx.mpr ⟨i, hi, rfl⟩, hplace i hi⟩

/-- An alias names one channel. -/
theorem eq_of_alias (hkeyed : ∀ entry ∈ channelList.entries, entry.2.channelAlias = entry.1)
    {c c' : AnalogChannel} (hc : c ∈ channelList.values) (hc' : c' ∈ channelList.values)
    (h : c.channelAlias = c'.channelAlias) : c = c' := by
  obtain ⟨⟨a, _⟩, hentry, rfl⟩ := List.mem_map.mp hc
  obtain ⟨⟨a', _⟩, hentry', rfl⟩ := List.mem_map.mp hc'
  obtain rfl : a = a' := (hkeyed _ hentry).symm.trans (h.trans (hkeyed _ hentry'))
  exact Option.some.inj
    ((Dict.get?_eq_some_iff.mpr hentry).symm.trans (Dict.get?_eq_some_iff.mpr hentry'))

/-- With one scan, the channel at each place of the order has the sample at that place. -/
theorem Attributed.at_place
    (h : Attributed fl py channelList scanned name defaultTags kwargs)
    (hkeyed : ∀ entry ∈ channelList.entries, entry.2.channelAlias = entry.1)
    (hscannedne : scanned.channels ≠ []) {sorted : List (ℤ × AnalogChannel)}
    (hsorted : Ordered py channelList sorted) (scan : ℤ → Sample fl py) {i : ℕ}
    (hi : i < sorted.length) :
    stride channelList.entries.length i ((scanned.channels.map scan).map Sample.value) =
      [(scan sorted[i].1).value] := by
  obtain ⟨ms, hread, hall, -⟩ := h [scan] (List.cons_ne_nil _ _) hscannedne
  rw [read_wire (answer_ne_nil (List.cons_ne_nil _ _) hscannedne) hsorted] at hread
  obtain rfl := Except.ok.inj hread
  have hi' : i < (sorted.map Prod.snd).length := by rw [List.length_map]; exact hi
  obtain ⟨channel, hchannel, number, hnumber, hdata, -⟩ :=
    hall _ (List.mem_mapIdx.mpr ⟨i, hi', rfl⟩)
  obtain ⟨hname, hvalues⟩ := Prod.mk.inj (List.singleton_inj.mp (congrArg Dict.entries hdata))
  have hown : sorted[i].2 ∈ channelList.values :=
    hsorted.perm.mem_iff.mp (List.mem_map_of_mem (List.getElem_mem hi))
  have hchannel' : sorted[i].2 = channel := by
    apply eq_of_alias hkeyed hown hchannel
    rw [← channelName_inj hname, List.getElem_map]
  have hnumber' : sorted[i].1 = number := by
    apply Option.some.inj
    rw [← hnumber, ← hchannel', hsorted.numbered _ (List.getElem_mem hi)]
  have hanswer : answer scanned [scan] = scanned.channels.map scan := List.append_nil _
  rw [hanswer] at hvalues
  rw [hnumber']
  exact hvalues

section AtPlace

variable {sorted : List (ℤ × AnalogChannel)} (hpos : 0 < channelList.entries.length)
  (hsorted : Ordered py channelList sorted)
  (hplace : ∀ (scan : ℤ → Sample fl py) (i : ℕ) (hi : i < sorted.length),
    stride channelList.entries.length i ((scanned.channels.map scan).map Sample.value) =
      [(scan sorted[i].1).value])

include hpos hsorted hplace

/-- With a sample at the first place and one at the last, there are as many scanned channels as
aliases. -/
theorem length_of_at_place (x : Sample fl py) :
    scanned.channels.length = channelList.entries.length := by
  have hcount : ∀ i, i < channelList.entries.length →
      (scanned.channels.length + (channelList.entries.length - 1 - i)) /
        channelList.entries.length = 1 := by
    intro i hi
    have hstride := congrArg List.length
      (hplace (fun _ => x) i (by rw [hsorted.length_eq]; exact hi))
    rw [length_stride hpos hi, List.length_map, List.length_map] at hstride
    exact hstride
  have hlast := hcount (channelList.entries.length - 1) (by omega)
  have hzero := hcount 0 hpos
  rw [Nat.div_eq_iff hpos] at hlast hzero
  omega

/-- A scan that tells one channel from all others shows that the channel stands at its place. -/
theorem order_of_at_place {x y : Sample fl py} (hxy : x.value ≠ y.value) :
    sorted.map Prod.fst = scanned.channels := by
  apply List.ext_getElem
  · rw [List.length_map, hsorted.length_eq, length_of_at_place hpos hsorted hplace x]
  · intro i hi hiscanned
    rw [List.length_map] at hi
    rw [List.getElem_map]
    by_contra hne
    have hstride := hplace (fun number => if number = sorted[i].1 then x else y) i hi
    have hget := congrArg (·[0]?) hstride
    rw [getElem?_stride hpos, Nat.zero_mul, Nat.add_zero, List.getElem?_map, List.getElem?_map,
      List.getElem?_eq_getElem hiscanned, List.getElem?_cons_zero, if_pos rfl] at hget
    have hvalue : (if scanned.channels[i] = sorted[i].1 then x else y).value = x.value :=
      Option.some.inj hget
    rw [if_neg (Ne.symm hne)] at hvalue
    exact hxy hvalue.symm

end AtPlace

/-- The samples land where they belong only if aliases and scanned channels correspond. -/
theorem corresponds_of_attributed
    (hnumbered : ∀ channel ∈ channelList.values,
      ∃ number, py.int channel.physicalChannel = some number)
    (hkeyed : ∀ entry ∈ channelList.entries, entry.2.channelAlias = entry.1)
    (hnumbers : ∀ number ∈ numbers py channelList, number ∈ scanned.channels)
    {x y : Sample fl py} (hxy : x.value ≠ y.value)
    (h : Attributed fl py channelList scanned name defaultTags kwargs) :
    Corresponds py channelList scanned := by
  obtain ⟨sorted, hsorted⟩ := exists_ordered hnumbered
  by_cases hempty : channelList.entries = []
  · refine ⟨?_, .inl hempty⟩
    have hvalues : channelList.values = [] := by
      show channelList.entries.map Prod.snd = []
      rw [hempty]
      rfl
    unfold numbers
    rw [hvalues]
    exact List.nodup_nil
  have hpos : 0 < channelList.entries.length := List.length_pos_iff.mpr hempty
  have hfirst : 0 < sorted.length := by rw [hsorted.length_eq]; exact hpos
  have hscannedne : scanned.channels ≠ [] := by
    apply List.ne_nil_of_mem (hnumbers sorted[0].1 _)
    exact hsorted.perm_numbers.mem_iff.mp (List.mem_map_of_mem (List.getElem_mem hfirst))
  have heq := order_of_at_place hpos hsorted
    (fun scan i hi => h.at_place hkeyed hscannedne hsorted scan (i := i) hi) hxy
  have hperm := hsorted.perm_numbers
  rw [heq] at hperm
  exact ⟨hperm.nodup_iff.mp (scanned.ascending.imp ne_of_lt),
    .inr fun number hnumber => hperm.mem_iff.mp hnumber⟩

end Dealing

/-! ## After any configuration -/

section Configured

variable {fl : Rounding} {py : PyNumerals}

theorem mem_foldl_add {ns : List ℤ} {list : ScanList} {n : ℤ} :
    n ∈ (ns.foldl ScanList.add list).channels ↔ n ∈ list.channels ∨ n ∈ ns := by
  induction ns generalizing list with
  | nil => simp
  | cons k ns ih =>
    rw [List.foldl_cons, ih, ScanList.mem_add, List.mem_cons]
    tauto

/-- Both ways of reading scan the channels of all aliases. -/
theorem mem_scanned (mode : ReadMode) {s : State} (hs : s.Consistent py) {n : ℤ}
    (hn : n ∈ numbers py s.aiChannels) : n ∈ (mode.scanned py s).channels := by
  cases mode with
  | read => exact mem_foldl_add.mpr (.inr hn)
  | fetch =>
    obtain ⟨channel, hchannel, hint⟩ := List.mem_filterMap.mp hn
    obtain ⟨entry, hentry, rfl⟩ := List.mem_map.mp hchannel
    obtain ⟨number, hlisted, hnumber⟩ := hs.listed entry hentry
    obtain rfl := Option.some.inj (hint.symm.trans hnumber)
    exact hlisted

/-- **Attribution.** After any configuration calls, every sample that is read is published under
the aliases of its physical channel and under no other exactly if no two aliases have one physical
channel and the instrument scans no channel without an alias. -/
theorem attribution_of_configured {x y : Sample fl py} (hxy : x.value ≠ y.value)
    (calls : List (ConfigureCall py)) (mode : ReadMode) (name : String)
    (defaultTags kwargs : Dict String String) :
    Attributed fl py (configured calls).aiChannels (mode.scanned py (configured calls)) name
        defaultTags kwargs ↔
      Corresponds py (configured calls).aiChannels (mode.scanned py (configured calls)) := by
  have hs := consistent_configured calls
  have hnumbered : ∀ channel ∈ (configured calls).aiChannels.values,
      ∃ number, py.int channel.physicalChannel = some number := by
    intro channel hchannel
    obtain ⟨entry, hentry, rfl⟩ := List.mem_map.mp hchannel
    obtain ⟨number, -, hnumber⟩ := hs.listed entry hentry
    exact ⟨number, hnumber⟩
  have hnumbers := fun n hn => mem_scanned mode hs (n := n) hn
  exact ⟨corresponds_of_attributed hnumbered hs.keyed hnumbers hxy,
    attributed_of_corresponds hnumbered hnumbers⟩

end Configured

/-! ## Channels that are configured -/

/-- A reading of one digit, at the start of the epoch. -/
def digitSample (reading : Text) (value : PyFloat) (plain : ',' ∉ reading)
    (reads : plainNumerals.toFloat reading = .ok value) : Sample exact plainNumerals where
  reading := reading
  stamp := ["1970".toList, "1".toList, "1".toList, "0".toList, "0".toList, "0".toList]
  value := value
  ns := 0
  plain := List.forall_mem_cons.mpr ⟨plain, by decide⟩
  six := rfl
  reads := reads
  stamped := by decide +kernel

def five : Sample exact plainNumerals := digitSample "5".toList (.finite 5) (by decide) (by decide)

def seven : Sample exact plainNumerals :=
  digitSample "7".toList (.finite 7) (by decide) (by decide)

/-- Channels 1002 and 1001, each with an alias of its own. -/
def ownChannels : List (ConfigureCall plainNumerals) :=
  [⟨⟨⟨"1002".toList, "c", none⟩, 1002, by decide⟩, false⟩,
    ⟨⟨⟨"1001".toList, "a", none⟩, 1001, by decide⟩, false⟩]

theorem attribution_of_configured_own :
    Attributed exact plainNumerals (configured ownChannels).aiChannels
      (ReadMode.fetch.scanned plainNumerals (configured ownChannels)) "daq" ∅ ∅ :=
  (@attribution_of_configured exact plainNumerals five seven (by decide) ownChannels .fetch "daq"
    ∅ ∅).mpr ⟨by decide, .inr (by decide)⟩

/-- Aliases `a` and `b` of channel 1001, and `c` of channel 1002. -/
def sharedChannel : List (ConfigureCall plainNumerals) :=
  [⟨⟨⟨"1001".toList, "a", none⟩, 1001, by decide⟩, false⟩,
    ⟨⟨⟨"1001".toList, "b", none⟩, 1001, by decide⟩, false⟩,
    ⟨⟨⟨"1002".toList, "c", none⟩, 1002, by decide⟩, false⟩]


/-- Five volts on channel 1001 and seven on channel 1002: `b` gets the seven, and `c` nothing. -/
theorem read_sharedChannel (mode : ReadMode) :
    readToMeasurements exact plainNumerals
        (wire (answer (mode.scanned plainNumerals (configured sharedChannel))
          [fun number => if number = 1001 then five else seven]))
        (configured sharedChannel).aiChannels "daq" ∅ ∅ =
      .ok [⟨.singleton "daq.a" [.finite 5], [0], some ∅⟩,
        ⟨.singleton "daq.b" [.finite 7], [0], some ∅⟩, ⟨.singleton "daq.c" [], [], some ∅⟩] := by
  cases mode with
  | read => decide +kernel
  | fetch => decide +kernel

theorem not_attributed_sharedChannel (mode : ReadMode) :
    ¬ Attributed exact plainNumerals (configured sharedChannel).aiChannels
      (mode.scanned plainNumerals (configured sharedChannel)) "daq" ∅ ∅ := by
  intro h
  obtain ⟨ms, hms, -, hall⟩ := h [fun number => if number = 1001 then five else seven]
    (List.cons_ne_nil _ _) (by cases mode <;> decide)
  rw [read_sharedChannel mode] at hms
  obtain rfl := Except.ok.inj hms
  have hlast : ("c", ⟨"1002".toList, "c", none⟩) ∈ (configured sharedChannel).aiChannels.entries :=
    Dict.get?_eq_some_iff.mp (Dict.get?_set_self _ _ _)
  obtain ⟨m, hm, number, hnumber, hdata, -⟩ := hall _ (List.mem_map.mpr ⟨_, hlast, rfl⟩)
  obtain rfl : 1002 = number := Option.some.inj hnumber
  simp only [List.mem_cons, List.not_mem_nil, or_false] at hm
  rcases hm with rfl | rfl | rfl <;> exact absurd hdata (by decide)

/-- The sample of channel 1002 is not published under its alias, however it is read. -/
theorem shared_channel_shifts :
    ¬ Attributed exact plainNumerals (configured sharedChannel).aiChannels
        (ReadMode.read.scanned plainNumerals (configured sharedChannel)) "daq" ∅ ∅ ∧
      ¬ Attributed exact plainNumerals (configured sharedChannel).aiChannels
        (ReadMode.fetch.scanned plainNumerals (configured sharedChannel)) "daq" ∅ ∅ :=
  ⟨not_attributed_sharedChannel .read, not_attributed_sharedChannel .fetch⟩

end Instro.Daq.Keysight
