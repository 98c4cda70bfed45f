import Instro.Library.Ramp
import Instro.Scope.Waveform

/-!
# The timebase of a waveform

The drivers take origin, interval and reference to whole nanoseconds one by one, and go on from
there. What is cut off the interval adds up along the record, and the reference, which is an
index, is taken for a time.
-/

namespace Instro.Scope

open Instro.Library
open Instro.Daq.Keysight (PyNumerals)

/-- Seconds in nanoseconds. -/
def ns (q : ℚ) : ℚ := q * 1000000000

/-- What `int` cuts off. -/
def residue (q : ℚ) : ℚ := q - truncate q

/-- Where the samples lie, in seconds. The reference is the index of the origin. -/
structure Timebase where
  interval : ℚ
  origin : ℚ
  reference : ℚ

namespace Timebase

variable (t : Timebase)

/-- The time of a sample in nanoseconds. -/
def time (i : ℕ) : ℚ := ns (t.origin + (i - t.reference) * t.interval)

/-- The time in whole nanoseconds as the drivers compute it. -/
def sampled (i : ℕ) : ℤ :=
  (i - truncate (ns t.reference)) * truncate (ns t.interval) + truncate (ns t.origin)

/-- By how much the first sample is off. -/
def offset : ℚ :=
  residue (ns t.origin) +
    (truncate (ns t.reference) * truncate (ns t.interval) - t.reference * ns t.interval)

/-- What the first sample is off, and what the interval loses from sample to sample, stay below a
nanosecond over `n` samples. -/
def Fits (n : ℕ) : Prop :=
  n = 0 ∨ (-1 < t.offset ∧ t.offset + (n - 1) * residue (ns t.interval) < 1)

instance (n : ℕ) : Decidable (t.Fits n) := inferInstanceAs (Decidable (_ ∨ _))

end Timebase

/-- A waveform with a time for each voltage. The times are less than a nanosecond off, and samples of two
nanoseconds or more apart have increasing times. -/
def OnTimebase (t : Timebase) (result : Except FetchError WaveformData) : Prop :=
  ∃ waveform, result = .ok waveform ∧ waveform.times.length = waveform.voltages.length ∧
    (∀ i (time : ℤ), waveform.times[i]? = some time → |(time : ℚ) - t.time i| < 1) ∧
      ∀ i j (time time' : ℤ), waveform.times[i]? = some time → waveform.times[j]? = some time' →
        2 ≤ t.time j - t.time i → time < time'

/-! ## The replies -/

/-- A float is read, and it stands for the rational. -/
def Gives (result : Except FetchError PyFloat) (q : ℚ) : Prop :=
  ∃ x, result = .ok x ∧ x.value? = some q

/-- The preamble of the timebase, and as many points as are announced. -/
structure Tektronix.Answers (py : PyNumerals) (visa : Visa) (t : Timebase) (n : ℕ) : Prop where
  writes : ∀ command, visa.write command = .ok ()
  errors : visa.checkErrors = .ok ()
  nrPt : Gives (queryFloat py visa "WFMOutpre:NR_Pt?".toList) n
  xIncr : Gives (queryFloat py visa "WFMOutpre:XINcr?".toList) t.interval
  xZero : Gives (queryFloat py visa "WFMOutpre:XZEro?".toList) t.origin
  reference : t.reference = 0
  yMult : ∃ x, queryFloat py visa "WFMOutpre:YMUlt?".toList = .ok x
  yOff : ∃ x, queryFloat py visa "WFMOutpre:YOFf?".toList = .ok x
  yZero : ∃ x, queryFloat py visa "WFMOutpre:YZEro?".toList = .ok x
  curve : ∃ points, visa.queryBinaryValues "CURVe?".toList = .ok points ∧ points.length = n

structure Keysight.Answers (py : PyNumerals) (visa : Visa) (t : Timebase) (n : ℕ) : Prop where
  writes : ∀ command, visa.write command = .ok ()
  errors : visa.checkErrors = .ok ()
  preamble : ∃ reply, visa.query ":WAVeform:PREamble?".toList = .ok reply ∧
    (part (reply.splitOn ',') 2 >>= fun text => raiseAs .python (py.toInt text)) = .ok (n : ℤ) ∧
    Gives (part (reply.splitOn ',') 4 >>= readFloat py) t.interval ∧
    Gives (part (reply.splitOn ',') 5 >>= readFloat py) t.origin ∧
    Gives (part (reply.splitOn ',') 6 >>= readFloat py) t.reference ∧
    (∃ x, (part (reply.splitOn ',') 7 >>= readFloat py) = .ok x) ∧
    (∃ x, (part (reply.splitOn ',') 8 >>= readFloat py) = .ok x) ∧
    ∃ x, (part (reply.splitOn ',') 9 >>= readFloat py) = .ok x
  data : ∃ points, visa.queryBinaryValues ":WAVeform:DATA?".toList = .ok points ∧ points.length = n

/-- The trigger stands in the middle of the screen, seven divisions from its left. -/
structure Siglent.Answers (py : PyNumerals) (visa : Visa) (channel : ℤ) (t : Timebase) (n : ℕ) :
    Prop where
  writes : ∀ command, visa.write command = .ok ()
  errors : visa.checkErrors = .ok ()
  vdiv : ∃ x, queryFloat py visa ('C' :: intText channel ++ ":VDIV?".toList) = .ok x
  offset : ∃ x, queryFloat py visa ('C' :: intText channel ++ ":OFST?".toList) = .ok x
  origin : ∃ perDivision delay, Gives (queryFloat py visa "TDIV?".toList) perDivision ∧
    Gives (queryFloat py visa "TRDL?".toList) delay ∧ t.origin = delay - 7 * perDivision
  interval : ∃ rate, Gives (visa.query "SARA?".toList >>= parseSampleRate exact py) rate ∧
    t.interval = 1 / rate
  reference : t.reference = 0
  codes : ∃ codes, visa.queryBinaryValues ('C' :: intText channel ++ ":WF? DAT2".toList) = .ok codes ∧
    codes.length = n

/-! ## The times -/

section Times

variable {t : Timebase} {n : ℕ}

theorem residue_nonneg {q : ℚ} (h : 0 ≤ q) : 0 ≤ residue q := by
  unfold residue truncate
  rw [if_pos h]
  exact sub_nonneg.mpr (Int.floor_le q)

theorem neg_one_lt_residue (q : ℚ) : -1 < residue q := by
  unfold residue truncate
  split_ifs
  · linarith [Int.floor_le q]
  · linarith [Int.ceil_lt_add_one q]

/-- Without a reference, what is cut off the origin is all that the first sample is off. -/
theorem Timebase.fits_iff_of_reference (h : t.reference = 0) :
    t.Fits n ↔ n = 0 ∨ residue (ns t.origin) + (n - 1) * residue (ns t.interval) < 1 := by
  have hoffset : t.offset = residue (ns t.origin) := by
    have hzero : truncate (ns 0) = 0 := by rw [ns, zero_mul, ← Int.cast_zero, truncate_intCast]
    rw [offset, h, hzero]
    simp
  unfold Fits
  rw [hoffset, and_iff_right (neg_one_lt_residue _)]

/-- Without a reference the times begin at the origin. -/
theorem Timebase.sampled_of_reference (h : t.reference = 0) :
    t.sampled = fun i : ℕ => truncate (ns t.origin) + i * truncate (ns t.interval) := by
  funext i
  have hzero : truncate (ns 0) = 0 := by rw [ns, zero_mul, ← Int.cast_zero, truncate_intCast]
  rw [Timebase.sampled, h, hzero, sub_zero, add_comm]

/-- The error of a sample grows by what the interval loses. -/
theorem Timebase.time_sub_sampled (t : Timebase) (i : ℕ) :
    t.time i - t.sampled i = t.offset + i * residue (ns t.interval) := by
  unfold time sampled offset residue ns
  push_cast
  ring

/-- A waveform of `n` samples at the times of the drivers. -/
def Ramped (t : Timebase) (n : ℕ) (result : Except FetchError WaveformData) : Prop :=
  ∃ voltages, voltages.length = n ∧ result = .ok ⟨(List.range n).map t.sampled, voltages⟩

theorem onTimebase_iff_fits (hinterval : 0 < t.interval) {result : Except FetchError WaveformData}
    (h : Ramped t n result) : OnTimebase t result ↔ t.Fits n := by
  obtain ⟨voltages, hlength, rfl⟩ := h
  have hstep : 0 ≤ residue (ns t.interval) :=
    residue_nonneg (mul_nonneg hinterval.le (by norm_num))
  have hget : ∀ {i time}, ((List.range n).map t.sampled)[i]? = some time ↔
      i < n ∧ t.sampled i = time := by
    intro i time
    rw [List.getElem?_map, Option.map_eq_some_iff]
    constructor
    · rintro ⟨j, hj, rfl⟩
      obtain ⟨hi, rfl⟩ := List.getElem?_eq_some_iff.mp hj
      rw [List.getElem_range]
      exact ⟨by simpa using hi, rfl⟩
    · rintro ⟨hi, rfl⟩
      exact ⟨i, List.getElem?_range hi, rfl⟩
  have herror : ∀ i, |(t.sampled i : ℚ) - t.time i| = |t.offset + i * residue (ns t.interval)| := by
    intro i
    rw [abs_sub_comm, t.time_sub_sampled]
  unfold Timebase.Fits
  rw [← Ramp.forall_abs_lt_iff hstep]
  constructor
  · rintro ⟨waveform, hwaveform, -, hbound, -⟩ i hi
    obtain rfl := Except.ok.inj hwaveform
    rw [← herror]
    exact hbound i _ (hget.mpr ⟨hi, rfl⟩)
  · intro hbound
    have hnear : ∀ i (time : ℤ), ((List.range n).map t.sampled)[i]? = some time →
        |(time : ℚ) - t.time i| < 1 := by
      intro i time htime
      obtain ⟨hi, rfl⟩ := hget.mp htime
      rw [herror]
      exact hbound i hi
    refine ⟨_, rfl, by simp [hlength], hnear, fun i j time time' htime htime' happart => ?_⟩
    have hlt : (time : ℚ) < time' :=
      Ramp.lt_of_near (hnear i time htime) (hnear j time' htime') (by linarith)
    exact_mod_cast hlt

end Times

/-! ## The drivers -/

section Drivers

variable {py : PyNumerals} {visa : Visa} {t : Timebase} {n : ℕ} {x : PyFloat} {q : ℚ}

theorem wholePart_of_value (h : x.value? = some q) : wholePart x = .ok (truncate q) := by
  unfold wholePart
  rw [PyFloat.toInt_of_value h]
  rfl

theorem toNs_of_value (h : x.value? = some q) : toNs exact x = .ok (truncate (ns q)) :=
  wholePart_of_value (PyFloat.value?_mul h rfl)

theorem Tektronix.ramped (h : Tektronix.Answers py visa t n) (channel : ℤ) :
    Ramped t n (Tektronix.fetchWaveform exact py visa channel) := by
  obtain ⟨nrPt, hnrPt, hn⟩ := h.nrPt
  obtain ⟨xIncr, hxIncr, hinterval⟩ := h.xIncr
  obtain ⟨xZero, hxZero, horigin⟩ := h.xZero
  obtain ⟨yMult, hyMult⟩ := h.yMult
  obtain ⟨yOff, hyOff⟩ := h.yOff
  obtain ⟨yZero, hyZero⟩ := h.yZero
  obtain ⟨points, hpoints, hlength⟩ := h.curve
  have hcount : wholePart nrPt = .ok (n : ℤ) := by
    rw [wholePart_of_value hn, ← Int.cast_natCast, truncate_intCast]
  unfold Ramped
  rw [Timebase.sampled_of_reference h.reference]
  refine ⟨points.map fun pt : ℤ => (((exact pt).sub exact yOff).mul exact yMult).add exact yZero,
    (List.length_map _).trans hlength, ?_⟩
  refine bind_eq_ok.mpr ⟨_, h.writes _, bind_eq_ok.mpr ⟨_, h.writes _, bind_eq_ok.mpr ⟨_, h.writes _,
    bind_eq_ok.mpr ⟨_, h.writes _, bind_eq_ok.mpr ⟨_, h.errors, ?_⟩⟩⟩⟩⟩
  refine bind_eq_ok.mpr ⟨_, hnrPt, bind_eq_ok.mpr ⟨_, hcount, bind_eq_ok.mpr ⟨_, h.writes _, ?_⟩⟩⟩
  refine bind_eq_ok.mpr ⟨_, hxIncr, bind_eq_ok.mpr ⟨_, hxZero, ?_⟩⟩
  refine bind_eq_ok.mpr ⟨_, hyMult, bind_eq_ok.mpr ⟨_, hyOff, bind_eq_ok.mpr ⟨_, hyZero, ?_⟩⟩⟩
  refine bind_eq_ok.mpr ⟨_, toNs_of_value hinterval, bind_eq_ok.mpr ⟨_, toNs_of_value horigin, ?_⟩⟩
  exact bind_eq_ok.mpr ⟨_, hpoints, rfl⟩

theorem Keysight.ramped (h : Keysight.Answers py visa t n) (channel : ℤ) :
    Ramped t n (Keysight.fetchWaveform exact py visa channel) := by
  obtain ⟨reply, hreply, hcount, ⟨xIncr, hxIncr, hinterval⟩, ⟨xOrigin, hxOrigin, horigin⟩,
    ⟨xRef, hxRef, hreference⟩, ⟨yIncr, hyIncr⟩, ⟨yOrigin, hyOrigin⟩, ⟨yRef, hyRef⟩⟩ := h.preamble
  obtain ⟨points, hpoints, hlength⟩ := h.data
  unfold Ramped
  refine ⟨points.map fun pt : ℤ => (((exact pt).sub exact yRef).mul exact yIncr).add exact yOrigin,
    (List.length_map _).trans hlength, ?_⟩
  refine bind_eq_ok.mpr ⟨_, h.writes _, bind_eq_ok.mpr ⟨_, h.writes _, bind_eq_ok.mpr ⟨_, h.writes _,
    bind_eq_ok.mpr ⟨_, h.writes _, bind_eq_ok.mpr ⟨_, h.writes _, bind_eq_ok.mpr ⟨_, h.errors, ?_⟩⟩⟩⟩⟩⟩
  refine bind_eq_ok.mpr ⟨_, hreply, bind_eq_ok.mpr ⟨_, hcount, ?_⟩⟩
  refine bind_eq_ok.mpr ⟨_, hxIncr, bind_eq_ok.mpr ⟨_, hxOrigin, bind_eq_ok.mpr ⟨_, hxRef, ?_⟩⟩⟩
  refine bind_eq_ok.mpr ⟨_, hyIncr, bind_eq_ok.mpr ⟨_, hyOrigin, bind_eq_ok.mpr ⟨_, hyRef, ?_⟩⟩⟩
  refine bind_eq_ok.mpr ⟨_, toNs_of_value hinterval, bind_eq_ok.mpr ⟨_, toNs_of_value hreference,
    bind_eq_ok.mpr ⟨_, toNs_of_value horigin, ?_⟩⟩⟩
  exact bind_eq_ok.mpr ⟨_, hpoints, rfl⟩

theorem Siglent.ramped {channel : ℤ} (hinterval : 0 < t.interval)
    (h : Siglent.Answers py visa channel t n) :
    Ramped t n (Siglent.fetchWaveform exact py visa channel) := by
  obtain ⟨vdiv, hvdiv⟩ := h.vdiv
  obtain ⟨offset, hoffset⟩ := h.offset
  obtain ⟨perDivision, delay, ⟨timebase, htimebase, hperDivision⟩, ⟨triggerDelay, htriggerDelay, hdelay⟩,
    horigin⟩ := h.origin
  obtain ⟨rate, ⟨sampleRate, hsampleRate, hrate⟩, hperiod⟩ := h.interval
  obtain ⟨codes, hcodes, hlength⟩ := h.codes
  have hne : rate ≠ 0 := by
    rintro rfl
    rw [hperiod, div_zero] at hinterval
    exact lt_irrefl _ hinterval
  obtain ⟨period, hdiv, hvalue⟩ := PyFloat.value?_div (x := .finite 1) rfl hrate hne
  rw [← hperiod] at hvalue
  have hhalf := PyFloat.value?_quotient (PyFloat.value?_mul hperDivision
    (y := .finite Siglent.horizontalDivisions) rfl) (y := .finite 2) rfl
  have hstart := PyFloat.value?_sub hdelay hhalf
  have hfirst : delay - perDivision * Siglent.horizontalDivisions / 2 = t.origin := by
    rw [horigin, Siglent.horizontalDivisions]
    ring
  rw [hfirst] at hstart
  unfold Ramped
  rw [Timebase.sampled_of_reference h.reference, ← hlength]
  refine ⟨codes.map fun code : ℤ => (((exact code).mul exact vdiv).quotient exact
    Siglent.codesPerDiv).sub exact offset, List.length_map _, ?_⟩
  refine bind_eq_ok.mpr ⟨_, h.writes _, bind_eq_ok.mpr ⟨_, h.errors, ?_⟩⟩
  refine bind_eq_ok.mpr ⟨_, hvdiv, bind_eq_ok.mpr ⟨_, hoffset, bind_eq_ok.mpr ⟨_, htimebase,
    bind_eq_ok.mpr ⟨_, htriggerDelay, bind_eq_ok.mpr ⟨_, hsampleRate, ?_⟩⟩⟩⟩⟩
  refine bind_eq_ok.mpr ⟨_, hcodes, bind_eq_ok.mpr ⟨_, toNs_of_value hstart, ?_⟩⟩
  refine bind_eq_ok.mpr ⟨_, raiseAs_eq_ok.mpr hdiv, bind_eq_ok.mpr ⟨_, toNs_of_value hvalue, rfl⟩⟩

end Drivers

/-- Each driver puts the samples on the timebase of the preamble exactly where what is off at the first
sample and what the interval loses fit into a nanosecond. -/
theorem waveform_timebase_iff (py : PyNumerals) (channel : ℤ) {t : Timebase} (hinterval : 0 < t.interval)
    (n : ℕ) :
    (∀ visa, Tektronix.Answers py visa t n →
      (OnTimebase t (Tektronix.fetchWaveform exact py visa channel) ↔ t.Fits n)) ∧
    (∀ visa, Keysight.Answers py visa t n →
      (OnTimebase t (Keysight.fetchWaveform exact py visa channel) ↔ t.Fits n)) ∧
    ∀ visa, Siglent.Answers py visa channel t n →
      (OnTimebase t (Siglent.fetchWaveform exact py visa channel) ↔ t.Fits n) :=
  ⟨fun _ h => onTimebase_iff_fits hinterval (Tektronix.ramped h channel),
    fun _ h => onTimebase_iff_fits hinterval (Keysight.ramped h channel),
    fun _ h => onTimebase_iff_fits hinterval (Siglent.ramped hinterval h)⟩

/-! ## Replies of instruments -/

/-- ASCII letters, and numbers as they are written in JSON. -/
def plainNumbers : PyNumerals where
  upperChar c := [c.toUpper]
  float text :=
    match Numeral.scan text with
    | some (n, []) => some (n.toFloat exact)
    | _ => none
  int text :=
    match Numeral.scan text with
    | some (n, []) => if n.isInt then some n.toInt else none
    | _ => none

/-- An instrument with these replies and points. -/
def replying (replies : List (String × String)) (points : List ℤ) : Visa where
  write _ := .ok ()
  query command :=
    match replies.lookup (String.ofList command) with
    | some reply => .ok reply.toList
    | none => .error (.visa "VI_ERROR_TMO")
  queryBinaryValues _ := .ok points
  checkErrors := .ok ()

def tektronix (interval origin : String) (points : List ℤ) : Visa :=
  replying [("WFMOutpre:NR_Pt?", toString points.length), ("WFMOutpre:XINcr?", interval),
    ("WFMOutpre:XZEro?", origin), ("WFMOutpre:YMUlt?", "1"), ("WFMOutpre:YOFf?", "0"),
    ("WFMOutpre:YZEro?", "0")] points

def keysight (preamble : String) (points : List ℤ) : Visa :=
  replying [(":WAVeform:PREamble?", preamble)] points

def siglent (points : List ℤ) : Visa :=
  replying [("C1:VDIV?", "1"), ("C1:OFST?", "0"), ("TDIV?", "1E-9"), ("TRDL?", "0"),
    ("SARA?", "1.00GSa/s")] points

/-- A reply stands for the rational. -/
def Stands (reply : String) (q : ℚ) : Prop := readFloat plainNumbers reply.toList = .ok (.finite q)

instance (reply : String) (q : ℚ) : Decidable (Stands reply q) := by
  unfold Stands
  infer_instance

theorem Stands.gives {reply : String} {q : ℚ} (h : Stands reply q) :
    Gives (readFloat plainNumbers reply.toList) q :=
  ⟨.finite q, h, rfl⟩

theorem tektronix_answers {interval origin : String} {points : List ℤ} {t : Timebase}
    (hcount : Stands (toString points.length) points.length) (hinterval : Stands interval t.interval)
    (horigin : Stands origin t.origin) (hreference : t.reference = 0) :
    Tektronix.Answers plainNumbers (tektronix interval origin points) t points.length :=
  have hzero : Stands "0" 0 := by decide +kernel
  have hone : Stands "1" 1 := by decide +kernel
  { writes := fun _ => rfl
    errors := rfl
    nrPt := hcount.gives
    xIncr := hinterval.gives
    xZero := horigin.gives
    reference := hreference
    yMult := ⟨_, hone⟩
    yOff := ⟨_, hzero⟩
    yZero := ⟨_, hzero⟩
    curve := ⟨_, rfl, rfl⟩ }

/-- Samples at every nanosecond, and the first of them seven before the trigger. -/
def wholeTimebase : Timebase := ⟨1 / 10 ^ 9, -7 / 10 ^ 9, 0⟩

theorem waveform_timebase_whole :
    OnTimebase wholeTimebase
      (Tektronix.fetchWaveform exact plainNumbers (tektronix "1E-9" "-7E-9" [1, 2, 3]) 1) ∧
    OnTimebase wholeTimebase
      (Keysight.fetchWaveform exact plainNumbers
        (keysight "1,0,3,1,1E-9,-7E-9,0,1,0,0" [1, 2, 3]) 1) ∧
    OnTimebase wholeTimebase
      (Siglent.fetchWaveform exact plainNumbers (siglent [1, 2, 3]) 1) := by
  have hfits : wholeTimebase.Fits 3 := by decide +kernel
  obtain ⟨htektronix, hkeysight, hsiglent⟩ := waveform_timebase_iff plainNumbers 1
    (show 0 < wholeTimebase.interval by decide +kernel) 3
  refine ⟨(htektronix _ ?_).mpr hfits, (hkeysight _ ?_).mpr hfits, (hsiglent _ ?_).mpr hfits⟩
  · exact tektronix_answers (by decide +kernel) (by decide +kernel) (by decide +kernel) rfl
  · refine ⟨fun _ => rfl, rfl, ⟨_, rfl, by decide +kernel, ⟨.finite (1 / 10 ^ 9), by decide +kernel, rfl⟩,
      ⟨.finite (-7 / 10 ^ 9), by decide +kernel, rfl⟩, ⟨.finite 0, by decide +kernel, rfl⟩, ?_⟩,
      ⟨_, rfl, rfl⟩⟩
    exact ⟨⟨.finite 1, by decide +kernel⟩, ⟨.finite 0, by decide +kernel⟩,
      ⟨.finite 0, by decide +kernel⟩⟩
  · refine ⟨fun _ => rfl, rfl, ⟨.finite 1, by decide +kernel⟩, ⟨.finite 0, by decide +kernel⟩, ?_, ?_, rfl,
      ⟨_, rfl, rfl⟩⟩
    · exact ⟨1 / 10 ^ 9, 0, ⟨.finite (1 / 10 ^ 9), by decide +kernel, rfl⟩,
        ⟨.finite 0, by decide +kernel, rfl⟩, by decide +kernel⟩
    · exact ⟨10 ^ 9, ⟨.finite (10 ^ 9), by decide +kernel, rfl⟩, by decide +kernel⟩

/-- Two and a half samples to the nanosecond. -/
def fineTimebase : Timebase := ⟨4 / 10 ^ 10, 0, 0⟩

/-- Four samples in more than a nanosecond have one time. -/
theorem fine_interval_lost :
    Tektronix.Answers plainNumbers (tektronix "4E-10" "0" [1, 2, 3, 4]) fineTimebase 4 ∧
    (Tektronix.fetchWaveform exact plainNumbers (tektronix "4E-10" "0" [1, 2, 3, 4]) 1).map
      WaveformData.times = .ok [0, 0, 0, 0] ∧
    ¬ OnTimebase fineTimebase
      (Tektronix.fetchWaveform exact plainNumbers (tektronix "4E-10" "0" [1, 2, 3, 4]) 1) := by
  have htimes : (Tektronix.fetchWaveform exact plainNumbers (tektronix "4E-10" "0" [1, 2, 3, 4]) 1).map
      WaveformData.times = .ok [0, 0, 0, 0] := by decide +kernel
  refine ⟨tektronix_answers (by decide +kernel) (by decide +kernel) (by decide +kernel) rfl, htimes, ?_⟩
  rintro ⟨waveform, hwaveform, -, hbound, -⟩
  rw [hwaveform] at htimes
  have hlast := hbound 3 0 (by rw [Except.ok.inj htimes]; rfl)
  exact absurd hlast (by decide +kernel)

/-- A reference of one sample moves the times of a Keysight by a second. -/
example : (Keysight.fetchWaveform exact plainNumbers (keysight "1,0,2,1,1E-9,0,1,1,0,0" [1, 2]) 1).map
    WaveformData.times = .ok [-1000000000, -999999999] := by decide +kernel

end Instro.Scope
