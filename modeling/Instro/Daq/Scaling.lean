import Instro.Daq.Keysight

/-!
# Scaling

`_scale_analog_measurement` looks up every scaled channel in every measurement. That fits drivers
that put all channels into one measurement; the Keysight driver has one measurement for each channel.
-/

namespace Instro.Daq

open Instro.Library

/-! ## The loop -/

section Loop

variable (name : String)

/-- The body of the loop over the channels. -/
def scaleChannel (measurement : Measurement) (entry : String × AnalogChannel) :
    Except PyException Measurement :=
  match entry.2.scaler with
  | none => .ok measurement
  | some scaler => do
    let chMeas ← measurement.getChannel (channelName name entry.1)
    let data ← chMeas.channelData.getItem (channelName name entry.1) .keyError
    let scaledValues ← data.mapM scaler
    return { measurement with
      channelData := measurement.channelData.set (channelName name entry.1) scaledValues }

/-- `_scale_analog_measurement` -/
def scaleAnalogMeasurement (aiChannels : Dict String AnalogChannel)
    (measurements : List Measurement) : Except PyException (List Measurement) :=
  measurements.mapM fun measurement => aiChannels.entries.foldlM (scaleChannel name) measurement

/-! ## What it is for -/

/-- A channel with a scaler. -/
def Scaled (entries : List (String × AnalogChannel)) (channelAlias : String) (scaler : Scaler) :
    Prop :=
  ∃ channel, (channelAlias, channel) ∈ entries ∧ channel.scaler = some scaler

/-- A measurement whose channels have been scaled once, and otherwise nothing. -/
structure ScaledFrom (entries : List (String × AnalogChannel)) (m m' : Measurement) : Prop where
  timestamps : m'.timestamps = m.timestamps
  tags : m'.tags = m.tags
  keys : m'.channelData.keys = m.channelData.keys
  scaled : ∀ a scaler, Scaled entries a scaler → ∀ data,
    m.channelData.get? (channelName name a) = some data →
      ∃ data', m'.channelData.get? (channelName name a) = some data' ∧
        List.Forall₂ (fun x y => scaler x = .ok y) data data'
  others : ∀ key, (∀ a scaler, Scaled entries a scaler → key ≠ channelName name a) →
    m'.channelData.get? key = m.channelData.get? key

/-- The samples of every measurement are scaled, and nothing is raised. -/
def Scales (aiChannels : Dict String AnalogChannel) (ms : List Measurement) : Prop :=
  ∃ ms', scaleAnalogMeasurement name aiChannels ms = .ok ms' ∧
    List.Forall₂ (ScaledFrom name aiChannels.entries) ms ms'

/-- Every measurement has every scaled channel. -/
def HoldsScaled (aiChannels : Dict String AnalogChannel) (ms : List Measurement) : Prop :=
  ∀ m ∈ ms, ∀ a scaler, Scaled aiChannels.entries a scaler →
    channelName name a ∈ m.channelData.keys

/-- No scaler raises on a sample of its channel. -/
def Accepts (entries : List (String × AnalogChannel)) (m : Measurement) : Prop :=
  ∀ a scaler, Scaled entries a scaler → ∀ data,
    m.channelData.get? (channelName name a) = some data → ∀ x ∈ data, ∃ y, scaler x = .ok y

end Loop

section Steps

variable {name : String} {m m' : Measurement} {entry : String × AnalogChannel}
  {entries : List (String × AnalogChannel)}

theorem scaleChannel_of_none (h : entry.2.scaler = none) :
    scaleChannel name m entry = .ok m := by
  unfold scaleChannel
  rw [h]

/-- A scaled channel is found, its samples are scaled and put back. -/
theorem scaleChannel_eq_ok_iff {scaler : Scaler} (h : entry.2.scaler = some scaler) :
    scaleChannel name m entry = .ok m' ↔
      ∃ data data', m.channelData.get? (channelName name entry.1) = some data ∧
        data.mapM scaler = .ok data' ∧
          m' = { m with channelData := m.channelData.set (channelName name entry.1) data' } := by
  unfold scaleChannel Measurement.getChannel
  rw [h]
  dsimp only
  cases hget : m.channelData.get? (channelName name entry.1) with
  | none => exact ⟨nofun, nofun⟩
  | some data =>
    have hitem : (Dict.singleton (channelName name entry.1) data).getItem
        (channelName name entry.1) PyException.keyError = .ok data := by
      simp [Dict.getItem, Dict.get?, Dict.singleton]
    show (Dict.getItem _ _ _ >>= _) = _ ↔ _
    rw [hitem]
    show (data.mapM scaler >>= _) = _ ↔ _
    rw [bind_eq_ok]
    constructor
    · rintro ⟨data', hdata', hm⟩
      exact ⟨data, data', rfl, hdata', (Except.ok.inj hm).symm⟩
    · rintro ⟨_, data', hdata, hdata', rfl⟩
      obtain rfl := Option.some.inj hdata
      exact ⟨data', hdata', rfl⟩

theorem scaled_cons_of_none (h : entry.2.scaler = none) {a : String} {scaler : Scaler} :
    Scaled (entry :: entries) a scaler ↔ Scaled entries a scaler := by
  constructor
  · rintro ⟨channel, hmem, hscaler⟩
    rcases List.mem_cons.mp hmem with rfl | hmem
    · rw [h] at hscaler
      cases hscaler
    · exact ⟨channel, hmem, hscaler⟩
  · rintro ⟨channel, hmem, hscaler⟩
    exact ⟨channel, List.mem_cons_of_mem _ hmem, hscaler⟩

theorem Scaled.cons {a : String} {scaler : Scaler} (h : Scaled entries a scaler) :
    Scaled (entry :: entries) a scaler := by
  obtain ⟨channel, hmem, hscaler⟩ := h
  exact ⟨channel, List.mem_cons_of_mem _ hmem, hscaler⟩

/-- A scaled channel is the first one or one of the rest. -/
theorem Scaled.of_cons {a : String} {scaler : Scaler} (h : Scaled (entry :: entries) a scaler) :
    a = entry.1 ∧ entry.2.scaler = some scaler ∨ Scaled entries a scaler := by
  obtain ⟨channel, hmem, hscaler⟩ := h
  rcases List.mem_cons.mp hmem with rfl | hmem
  · exact .inl ⟨rfl, hscaler⟩
  · exact .inr ⟨channel, hmem, hscaler⟩

/-- The names of the other channels are other names. -/
theorem Scaled.name_ne (hnodup : ((entry :: entries).map Prod.fst).Nodup) {a : String}
    {scaler : Scaler} (h : Scaled entries a scaler) :
    channelName name a ≠ channelName name entry.1 := by
  obtain ⟨channel, hmem, -⟩ := h
  intro heq
  obtain rfl := channelName_inj heq
  exact (List.nodup_cons.mp hnodup).1 (List.mem_map.mpr ⟨_, hmem, rfl⟩)

theorem ScaledFrom.cons_of_none (h : ScaledFrom name entries m m') (hnone : entry.2.scaler = none) :
    ScaledFrom name (entry :: entries) m m' where
  timestamps := h.timestamps
  tags := h.tags
  keys := h.keys
  scaled a scaler hs := h.scaled a scaler ((scaled_cons_of_none hnone).mp hs)
  others key hkey := h.others key fun a scaler hs => hkey a scaler hs.cons

section First

variable {scaler : Scaler} {data data' : List PyFloat}
  (hnodup : ((entry :: entries).map Prod.fst).Nodup) (hscaler : entry.2.scaler = some scaler)
  (hdata : m.channelData.get? (channelName name entry.1) = some data)

include hnodup

/-- The other channels are as they were. -/
theorem get?_set_first (data' : List PyFloat) {a : String} {scaler : Scaler}
    (hs : Scaled entries a scaler) :
    (m.channelData.set (channelName name entry.1) data').get? (channelName name a) =
      m.channelData.get? (channelName name a) :=
  Dict.get?_set_ne (hs.name_ne hnodup)

include hscaler hdata

/-- The first channel has been scaled, and then the rest. -/
theorem ScaledFrom.cons_of_some
    (h : ScaledFrom name entries
      { m with channelData := m.channelData.set (channelName name entry.1) data' } m')
    (hdata' : data.mapM scaler = .ok data') : ScaledFrom name (entry :: entries) m m' where
  timestamps := h.timestamps
  tags := h.tags
  keys := by
    rw [h.keys, Dict.keys_set, if_pos (Dict.mem_keys_iff.mpr ⟨data, hdata⟩)]
  scaled a s hs old hold := by
    rcases hs.of_cons with ⟨rfl, hfirst⟩ | hs
    · obtain rfl := Option.some.inj (hdata.symm.trans hold)
      obtain rfl := Option.some.inj (hscaler.symm.trans hfirst)
      refine ⟨data', ?_, forall₂_of_mapM_eq_ok hdata'⟩
      rw [h.others _ fun a s hs heq => hs.name_ne hnodup heq.symm]
      exact Dict.get?_set_self _ _ _
    · exact h.scaled a s hs old ((get?_set_first hnodup data' hs).trans hold)
  others key hkey := by
    rw [h.others key fun a s hs => hkey a s hs.cons]
    exact Dict.get?_set_ne (hkey entry.1 scaler ⟨entry.2, List.mem_cons_self, hscaler⟩)

theorem Accepts.cons_of_some
    (h : Accepts name entries
      { m with channelData := m.channelData.set (channelName name entry.1) data' })
    (hdata' : data.mapM scaler = .ok data') : Accepts name (entry :: entries) m := by
  intro a s hs old hold
  rcases hs.of_cons with ⟨rfl, hfirst⟩ | hs
  · obtain rfl := Option.some.inj (hdata.symm.trans hold)
    obtain rfl := Option.some.inj (hscaler.symm.trans hfirst)
    exact step_of_mapM_eq_ok hdata'
  · exact h a s hs old ((get?_set_first hnodup data' hs).trans hold)

end First

/-- **Run lemma.** Where the loop over the channels goes through, every scaled channel was found,
its scaler took its samples, and they have been scaled once. -/
theorem scaledFrom_of_foldlM (hnodup : (entries.map Prod.fst).Nodup)
    (h : entries.foldlM (scaleChannel name) m = .ok m') :
    ScaledFrom name entries m m' ∧
      (∀ a scaler, Scaled entries a scaler → channelName name a ∈ m.channelData.keys) ∧
      Accepts name entries m := by
  induction entries generalizing m with
  | nil =>
    obtain rfl := Except.ok.inj h
    have hnone : ∀ {a scaler}, ¬ Scaled [] a scaler := fun ⟨_, hmem, _⟩ => List.not_mem_nil hmem
    exact ⟨⟨rfl, rfl, rfl, fun a s hs => absurd hs hnone, fun _ _ => rfl⟩,
      fun a s hs => absurd hs hnone, fun a s hs => absurd hs hnone⟩
  | cons entry entries ih =>
    rw [List.foldlM_cons] at h
    obtain ⟨m₁, hstep, h⟩ := bind_eq_ok.mp h
    obtain ⟨hrest, hfound, haccepts⟩ := ih (List.nodup_cons.mp hnodup).2 h
    cases hscaler : entry.2.scaler with
    | none =>
      rw [scaleChannel_of_none hscaler] at hstep
      obtain rfl := Except.ok.inj hstep
      have hcons := fun a s => @scaled_cons_of_none entry entries hscaler a s
      exact ⟨hrest.cons_of_none hscaler, fun a s hs => hfound a s ((hcons a s).mp hs),
        fun a s hs => haccepts a s ((hcons a s).mp hs)⟩
    | some scaler =>
      obtain ⟨data, data', hdata, hdata', rfl⟩ := (scaleChannel_eq_ok_iff hscaler).mp hstep
      refine ⟨hrest.cons_of_some hnodup hscaler hdata hdata', ?_,
        haccepts.cons_of_some hnodup hscaler hdata hdata'⟩
      intro a s hs
      rcases hs.of_cons with ⟨rfl, -⟩ | hs
      · exact Dict.mem_keys_iff.mpr ⟨data, hdata⟩
      · obtain ⟨old, hold⟩ := Dict.mem_keys_iff.mp (hfound a s hs)
        exact Dict.mem_keys_iff.mpr ⟨old, (get?_set_first hnodup data' hs).symm.trans hold⟩

/-- Where every scaled channel is found and its scaler takes its samples, the loop goes through. -/
theorem foldlM_of_accepts (hnodup : (entries.map Prod.fst).Nodup)
    (hfound : ∀ a scaler, Scaled entries a scaler → channelName name a ∈ m.channelData.keys)
    (haccepts : Accepts name entries m) :
    ∃ m', entries.foldlM (scaleChannel name) m = .ok m' := by
  induction entries generalizing m with
  | nil => exact ⟨m, rfl⟩
  | cons entry entries ih =>
    have htail := (List.nodup_cons.mp hnodup).2
    rw [List.foldlM_cons]
    cases hscaler : entry.2.scaler with
    | none =>
      rw [scaleChannel_of_none hscaler]
      exact ih htail (fun a s hs => hfound a s hs.cons) fun a s hs => haccepts a s hs.cons
    | some scaler =>
      have hself : Scaled (entry :: entries) entry.1 scaler :=
        ⟨entry.2, List.mem_cons_self, hscaler⟩
      obtain ⟨data, hdata⟩ := Dict.mem_keys_iff.mp (hfound entry.1 scaler hself)
      obtain ⟨data', hdata'⟩ := exists_mapM_eq_ok (haccepts entry.1 scaler hself data hdata)
      rw [(scaleChannel_eq_ok_iff hscaler).mpr ⟨data, data', hdata, hdata', rfl⟩]
      apply ih htail
      · intro a s hs
        exact Dict.mem_keys_set.mpr (.inr (hfound a s hs.cons))
      · intro a s hs old hold
        exact haccepts a s hs.cons old ((get?_set_first hnodup data' hs).symm.trans hold)

end Steps

/-! ## All measurements -/

section All

variable {name : String} {aiChannels : Dict String AnalogChannel} {ms : List Measurement}

/-- The samples are scaled exactly if every measurement has every scaled channel and no scaler
raises. -/
theorem scales_iff_holds :
    Scales name aiChannels ms ↔ HoldsScaled name aiChannels ms ∧
      ∀ m ∈ ms, Accepts name aiChannels.entries m := by
  constructor
  · rintro ⟨ms', hms', -⟩
    have hstep := step_of_mapM_eq_ok hms'
    constructor
    · intro m hm
      obtain ⟨m', hm'⟩ := hstep m hm
      exact (scaledFrom_of_foldlM aiChannels.nodup hm').2.1
    · intro m hm
      obtain ⟨m', hm'⟩ := hstep m hm
      exact (scaledFrom_of_foldlM aiChannels.nodup hm').2.2
  · rintro ⟨hholds, haccepts⟩
    obtain ⟨ms', hms'⟩ := exists_mapM_eq_ok fun m hm =>
      foldlM_of_accepts aiChannels.nodup (hholds m hm) (haccepts m hm)
    refine ⟨ms', hms', (forall₂_of_mapM_eq_ok hms').imp fun m m' hm' => ?_⟩
    exact (scaledFrom_of_foldlM aiChannels.nodup hm').1

/-- `channel_data` of the LabJack and MCC drivers: the samples dealt out to the channels. -/
def dealt (name : String) (aiChannels : Dict String AnalogChannel) (data : List PyFloat) :
    Dict String (List PyFloat) :=
  .ofList (aiChannels.keys.mapIdx fun i channel =>
    (channelName name channel, stride aiChannels.entries.length i data))

/-- `channel_data` of the NI driver: the lists of samples zipped with the channels. -/
def zipped (name : String) (aiChannels : Dict String AnalogChannel) (data : List (List PyFloat)) :
    Dict String (List PyFloat) :=
  .ofList ((aiChannels.keys.map (channelName name)).zip data)

/-- One measurement of all channels has them. -/
theorem holdsScaled_singleton {m : Measurement}
    (h : ∀ a ∈ aiChannels.keys, channelName name a ∈ m.channelData.keys) :
    HoldsScaled name aiChannels [m] := by
  rintro m' hm' a scaler ⟨channel, hmem, -⟩
  obtain rfl := List.mem_singleton.mp hm'
  exact h a (List.mem_map.mpr ⟨_, hmem, rfl⟩)

theorem mem_keys_dealt {data : List PyFloat} {a : String} (ha : a ∈ aiChannels.keys) :
    channelName name a ∈ (dealt name aiChannels data).keys := by
  apply Dict.mem_keys_ofList.mpr
  obtain ⟨i, hi, rfl⟩ := List.getElem_of_mem ha
  exact List.mem_map.mpr ⟨_, List.mem_mapIdx.mpr ⟨i, hi, rfl⟩, rfl⟩

theorem mem_keys_zipped {data : List (List PyFloat)}
    (hlength : data.length = aiChannels.entries.length) {a : String} (ha : a ∈ aiChannels.keys) :
    channelName name a ∈ (zipped name aiChannels data).keys := by
  apply Dict.mem_keys_ofList.mpr
  rw [List.map_fst_zip]
  · exact List.mem_map_of_mem ha
  · rw [hlength, List.length_map]
    exact (List.length_map _).le

end All

/-! ## Measurements of one channel each -/

namespace Keysight

section PerChannel

variable {fl : Rounding} {py : PyNumerals} {data : Text} {name : String}
  {defaultTags kwargs : Dict String String} {ms : List Measurement}
  {calls : List (ConfigureCall py)}

/-- A measurement of the driver has one channel, and every channel has one. -/
theorem measurement_of_read {channelList : Dict String AnalogChannel}
    (h : readToMeasurements fl py data channelList name defaultTags kwargs = .ok ms) :
    (∀ m ∈ ms, ∃ channel ∈ channelList.values,
      m.channelData.keys = [channelName name channel.channelAlias]) ∧
    ∀ channel ∈ channelList.values, ∃ m ∈ ms,
      m.channelData.keys = [channelName name channel.channelAlias] := by
  obtain ⟨⟨readings, timestamps⟩, -, h⟩ := bind_eq_ok.mp h
  obtain ⟨scanList, hscan, h⟩ := bind_eq_ok.mp h
  obtain rfl := Except.ok.inj h
  have hperm := perm_of_getScanlist hscan
  constructor
  · intro m hm
    obtain ⟨i, hi, rfl⟩ := List.mem_mapIdx.mp hm
    exact ⟨scanList[i], hperm.mem_iff.mp (List.getElem_mem hi), rfl⟩
  · intro channel hchannel
    obtain ⟨i, hi, rfl⟩ := List.getElem_of_mem (hperm.mem_iff.mpr hchannel)
    exact ⟨_, List.mem_mapIdx.mpr ⟨i, hi, rfl⟩, rfl⟩

/-- Measurements of one channel each have every scaled channel only if there is one channel, or
none is scaled. -/
theorem holdsScaled_read_iff
    (h : readToMeasurements fl py data (configured calls).aiChannels name defaultTags kwargs =
      .ok ms) :
    HoldsScaled name (configured calls).aiChannels ms ↔
      (configured calls).aiChannels.entries.length ≤ 1 ∨
        ∀ a scaler, ¬ Scaled (configured calls).aiChannels.entries a scaler := by
  obtain ⟨hown, hall⟩ := measurement_of_read h
  generalize hchannels : (configured calls).aiChannels = aiChannels at *
  have hkeyed : ∀ entry ∈ aiChannels.entries, entry.2.channelAlias = entry.1 := by
    intro entry hentry
    rw [← hchannels] at hentry
    exact (consistent_configured calls).keyed entry hentry
  constructor
  · intro hholds
    by_contra hneither
    push Not at hneither
    obtain ⟨htwo, a, scaler, channel, hmem, hscaler⟩ := hneither
    -- some other channel has a measurement, which does not have the scaled one
    obtain ⟨other, hother, hne⟩ := Dict.exists_key_ne htwo a
    obtain ⟨m, hm, hmkeys⟩ := hall other.2 (List.mem_map.mpr ⟨_, hother, rfl⟩)
    have hin := hholds m hm a scaler ⟨channel, hmem, hscaler⟩
    rw [hmkeys, List.mem_singleton, hkeyed other hother] at hin
    exact hne (channelName_inj hin).symm
  · rintro (hone | hnone)
    · rintro m hm a scaler ⟨channel, hmem, hscaler⟩
      obtain ⟨own, hownmem, hmkeys⟩ := hown m hm
      obtain ⟨entry, hentry, rfl⟩ := List.mem_map.mp hownmem
      rw [hmkeys, Dict.eq_of_length_le_one hone hentry hmem, hkeyed _ hmem]
      exact List.mem_singleton_self _
    · intro m hm a scaler hscaled
      exact absurd hscaled (hnone a scaler)

end PerChannel

/-- **Scaling.** The samples are scaled exactly if every measurement has every scaled channel and no
scaler raises. The one measurement of the LabJack, MCC and NI drivers has every channel; those of
the Keysight driver have the scaled ones only if there is one channel, or none is scaled. -/
theorem scaling_by_packaging (name : String) (aiChannels : Dict String AnalogChannel)
    (timestamps : List ℤ) (tags : Option (Dict String String)) :
    (∀ ms, Scales name aiChannels ms ↔ HoldsScaled name aiChannels ms ∧
      ∀ m ∈ ms, Accepts name aiChannels.entries m) ∧
    (∀ data, HoldsScaled name aiChannels [⟨dealt name aiChannels data, timestamps, tags⟩]) ∧
    (∀ data, data.length = aiChannels.entries.length →
      HoldsScaled name aiChannels [⟨zipped name aiChannels data, timestamps, tags⟩]) ∧
    ∀ fl py data defaultTags kwargs ms, ∀ calls : List (ConfigureCall py),
      readToMeasurements fl py data (configured calls).aiChannels name defaultTags kwargs = .ok ms →
        (HoldsScaled name (configured calls).aiChannels ms ↔
          (configured calls).aiChannels.entries.length ≤ 1 ∨
            ∀ a scaler, ¬ Scaled (configured calls).aiChannels.entries a scaler) := by
  refine ⟨fun ms => scales_iff_holds, fun data => ?_, fun data hlength => ?_, ?_⟩
  · exact holdsScaled_singleton fun a ha => mem_keys_dealt ha
  · exact holdsScaled_singleton fun a ha => mem_keys_zipped hlength ha
  · exact fun fl py data defaultTags kwargs ms calls h => holdsScaled_read_iff h

/-- Channel 1001 with a gain of two, and channel 1002 as it is. -/
def scaledAndPlain : List (ConfigureCall plainNumerals) :=
  [⟨⟨⟨"1001".toList, "a", some (linearScaler exact (.finite 2) (.finite 0))⟩, 1001, by decide⟩,
      false⟩,
    ⟨⟨⟨"1002".toList, "b", none⟩, 1002, by decide⟩, false⟩]

/-- A scan of the two channels. -/
def scanOfTwo : Text := "5,1970,1,1,0,0,1,7,1970,1,1,0,0,2".toList

/-- The measurements of the scan. -/
def measurementsOfTwo : List Measurement :=
  [⟨.singleton "daq.a" [.finite 5], [1000000000], some ∅⟩,
    ⟨.singleton "daq.b" [.finite 7], [2000000000], some ∅⟩]

theorem read_scanOfTwo : readToMeasurements exact plainNumerals scanOfTwo
    (configured scaledAndPlain).aiChannels "daq" ∅ ∅ = .ok measurementsOfTwo := by
  decide +kernel

/-- Two channels, one of them scaled. -/
theorem scaling_by_packaging_two :
    HoldsScaled "daq" (configured scaledAndPlain).aiChannels measurementsOfTwo ↔
      (configured scaledAndPlain).aiChannels.entries.length ≤ 1 ∨
        ∀ a scaler, ¬ Scaled (configured scaledAndPlain).aiChannels.entries a scaler :=
  (scaling_by_packaging "daq" ∅ [] none).2.2.2 exact plainNumerals scanOfTwo ∅ ∅ measurementsOfTwo
    scaledAndPlain read_scanOfTwo

/-- The scaled channel is looked up in the measurement of the other one. -/
theorem other_measurement_key_error :
    readToMeasurements exact plainNumerals scanOfTwo (configured scaledAndPlain).aiChannels "daq" ∅ ∅ =
        .ok measurementsOfTwo ∧
      scaleAnalogMeasurement "daq" (configured scaledAndPlain).aiChannels measurementsOfTwo =
        .error .keyError ∧
      ¬ Scales "daq" (configured scaledAndPlain).aiChannels measurementsOfTwo := by
  have herror : scaleAnalogMeasurement "daq" (configured scaledAndPlain).aiChannels
      measurementsOfTwo = .error .keyError := by
    decide +kernel
  refine ⟨read_scanOfTwo, herror, ?_⟩
  rintro ⟨ms', hms', -⟩
  rw [herror] at hms'
  cases hms'

end Keysight

end Instro.Daq
