import Instro.Psu.DriverTalk

/-!
# The driver and the bench

A call of the driver does to the simulator behind the server what the bench does. While no one else edits the
power supply the queue of errors is empty between calls, so an error that is raised is one of the call's own.
-/

namespace Instro.Psu

open Instro.Library
open Instro.Psu.Bk914x (Method Value)
open Instro.Psu.Simulated

/-! ## Parameters -/

section Parameters

variable {py : PyText} {fl : Rounding} {x : PyFloat} {c : Char}

theorem isDigit_padded {width n : ℕ} (h : c ∈ padded width n) : PyText.isDigit c = true :=
  (digits_padded width n).2 c h

/-- The characters of a number to so many places. -/
theorem mem_fixed {digits : ℕ} (h : c ∈ x.fixed digits) :
    PyText.isDigit c = true ∨ c ∈ ['-', '.', 'i', 'n', 'f', 'a'] := by
  have hsign : ∀ negative, c ∈ signText negative → c ∈ ['-', '.', 'i', 'n', 'f', 'a'] := by
    intro negative hc
    cases negative with
    | true => exact List.mem_cons.mpr (.inl (List.mem_singleton.mp hc))
    | false => exact absurd hc List.not_mem_nil
  unfold PyFloat.fixed at h
  cases hx : x.value? with
  | some q =>
    rw [hx] at h
    simp only [List.mem_append, List.mem_cons] at h
    rcases h with (h | h) | rfl | h
    · exact .inr (hsign _ h)
    · exact .inl (isDigit_ofNat h)
    · exact .inr (by decide)
    · exact .inl (isDigit_padded h)
  | none =>
    right
    rw [hx] at h
    have hnames : ∀ c ∈ "inf".toList ++ "nan".toList, c ∈ ['-', '.', 'i', 'n', 'f', 'a'] :=
      List.all_iff_forall_prop.mp (by decide)
    have hinf : ∀ negative, c ∈ signText negative ++ "inf".toList →
        c ∈ ['-', '.', 'i', 'n', 'f', 'a'] := by
      intro negative hc
      rcases List.mem_append.mp hc with hc | hc
      · exact hsign negative hc
      · exact hnames c (List.mem_append_left _ hc)
    cases x with
    | finite q => cases hx
    | negZero => cases hx
    | inf negative => exact hinf negative h
    | nan => exact hnames c (List.mem_append_right _ h)

theorem fixed_ne_nil {digits : ℕ} : x.fixed digits ≠ [] := by
  unfold PyFloat.fixed
  cases hx : x.value? with
  | some q => simp
  | none =>
    cases x with
    | finite q => cases hx
    | negZero => cases hx
    | inf negative => simp
    | nan => simp

theorem token_fixed (digits : ℕ) : Token (x.fixed digits) := by
  have hmarks : ∀ c ∈ ['-', '.', 'i', 'n', 'f', 'a'],
      c.toNat < 0x80 ∧ PyText.isSpace c = false ∧ c ≠ ',' := List.all_iff_forall_prop.mp (by decide)
  refine ⟨fixed_ne_nil, fun c hc => ?_⟩
  rcases mem_fixed hc with hc | hc
  · have hbounds := toNat_of_isMark (.inl hc)
    refine ⟨toNat_lt_of_isDigit hc, ?_, ?_⟩
    · unfold PyText.isSpace
      simp only [List.mem_cons, List.not_mem_nil, or_false, decide_eq_false_iff_not]
      omega
    · rintro rfl
      exact absurd hc (by decide)
  · exact hmarks c hc

/-- The names that stand for a bound. -/
def boundNames : List Text :=
  ["MAX".toList, "MAXIMUM".toList, "MIN".toList, "MINIMUM".toList, "DEF".toList, "DEFAULT".toList]

theorem point_not_mem_boundNames : ∀ name ∈ boundNames, '.' ∉ name := by decide

theorem upper_ne_boundNames : ∀ name ∈ boundNames,
    ∀ text ∈ ["inf".toList, "-inf".toList, "nan".toList], text.map Char.toUpper ≠ name := by decide

/-- A number is not one of them. -/
theorem upper_fixed_ne (hpy : py.Documented fl) {digits : ℕ} {name : Text}
    (hname : name ∈ boundNames) : py.upper (x.fixed digits) ≠ name := by
  rw [hpy.upper_eq_map fun c hc => ((token_fixed digits).2 c hc).1]
  unfold PyFloat.fixed
  cases hx : x.value? with
  | some q =>
    intro h
    apply point_not_mem_boundNames name hname
    rw [← h]
    exact List.mem_map.mpr ⟨'.', by simp, rfl⟩
  | none =>
    cases x with
    | finite q => cases hx
    | negZero => cases hx
    | inf negative =>
      cases negative with
      | true => exact upper_ne_boundNames name hname "-inf".toList (by decide)
      | false => exact upper_ne_boundNames name hname "inf".toList (by decide)
    | nan => exact upper_ne_boundNames name hname "nan".toList (by decide)

theorem parseRangedValue_fixed (hpy : py.Documented fl) (minimum maximum : PyFloat) :
    parseRangedValue py (x.fixed 3) minimum maximum = (do
      ensure (minimum.le (x.toPlaces fl 3) ∧ (x.toPlaces fl 3).le maximum) (.queued .dataOutOfRange)
      return x.toPlaces fl 3) := by
  have hfloat : py.toFloat (x.fixed 3) = .ok (x.toPlaces fl 3) := by
    unfold PyText.toFloat
    rw [float_fixed hpy]
  have hmax : ¬ py.upper (x.fixed 3) ∈ ["MAX".toList, "MAXIMUM".toList] := by
    simp only [List.mem_cons, List.not_mem_nil, or_false, not_or]
    exact ⟨upper_fixed_ne hpy (by decide), upper_fixed_ne hpy (by decide)⟩
  have hmin : ¬ py.upper (x.fixed 3) ∈
      ["MIN".toList, "MINIMUM".toList, "DEF".toList, "DEFAULT".toList] := by
    simp only [List.mem_cons, List.not_mem_nil, or_false, not_or]
    exact ⟨upper_fixed_ne hpy (by decide), upper_fixed_ne hpy (by decide),
      upper_fixed_ne hpy (by decide), upper_fixed_ne hpy (by decide)⟩
  unfold parseRangedValue
  dsimp only
  rw [if_neg hmax, if_neg hmin, hfloat]
  rfl

theorem parseBool_onOff (hpy : py.Documented fl) (enable : Bool) :
    parseBool py (onOff enable) = .ok enable := by
  unfold parseBool
  cases enable with
  | true =>
    rw [show py.upper (onOff true) = "ON".toList from Capitals.upper hpy (by decide)]
    rfl
  | false =>
    rw [show py.upper (onOff false) = "OFF".toList from Capitals.upper hpy (by decide)]
    rfl

theorem parseRemoteSenseState_word (hpy : py.Documented fl) (enable : Bool) :
    parseRemoteSenseState py (if enable then "REM".toList else "LOC".toList) = .ok enable := by
  unfold parseRemoteSenseState
  cases enable with
  | true =>
    rw [if_pos rfl, Capitals.upper hpy (by decide)]
    rfl
  | false =>
    rw [if_neg Bool.false_ne_true, Capitals.upper hpy (by decide)]
    rfl

end Parameters

/-! ## Settings -/

section Settings

variable {py : PyText} {fl : Rounding}

/-- A handler changes a setting, or queues the error it is refused with. -/
def Handler.Makes (handler : Handler) (fl : Rounding) (py : PyText) (token : Text)
    (setting : Setting) : Prop :=
  ∀ gauss psu channel, handler.run fl py gauss psu channel [token] =
    silent (psu.edit fl channel fun ch => (setting.apply ch).mapError .queued)

/-- A number within its bounds, on the right side of another setting. -/
theorem number_apply (hpy : py.Documented fl) (x minimum maximum : PyFloat) (beyond : PyFloat → Bool)
    (err : SCPIError) (set : PyFloat → SimulatedPSUChannel) :
    (do
      let token ← requireArgs [x.fixed 3]
      let value ← parseRangedValue py token minimum maximum
      ensure (¬ beyond value) (.queued err)
      return set value) = Except.mapError Refusal.queued (do
        ensure (minimum.le (x.toPlaces fl 3) ∧ (x.toPlaces fl 3).le maximum) .dataOutOfRange
        ensure (¬ beyond (x.toPlaces fl 3)) err
        return set (x.toPlaces fl 3)) := by
  show (parseRangedValue py (x.fixed 3) minimum maximum >>= _) = _
  rw [parseRangedValue_fixed hpy]
  by_cases hrange : minimum.le (x.toPlaces fl 3) = true ∧ (x.toPlaces fl 3).le maximum = true
  · rw [ensure_pos hrange, ensure_pos hrange]
    by_cases hbeyond : ¬ beyond (x.toPlaces fl 3) = true
    · show (ensure _ _ >>= _) = Except.mapError _ (ensure _ _ >>= _)
      rw [ensure_pos hbeyond, ensure_pos hbeyond]
      rfl
    · show (ensure _ _ >>= _) = Except.mapError _ (ensure _ _ >>= _)
      rw [ensure_neg hbeyond, ensure_neg hbeyond]
      rfl
  · rw [ensure_neg hrange, ensure_neg hrange]
    rfl

variable (hpy : py.Documented fl)

include hpy

theorem makes_voltage (x : PyFloat) :
    Handler.setVoltage.Makes fl py (x.fixed 3) (.voltage (x.toPlaces fl 3)) := fun _ psu _ =>
  congrArg (fun change => silent (psu.edit fl _ change)) (funext fun _ => number_apply hpy x _ _ _ _ _)

theorem makes_currentLimit (x : PyFloat) :
    Handler.setCurrent.Makes fl py (x.fixed 3) (.currentLimit (x.toPlaces fl 3)) := fun _ psu _ =>
  congrArg (fun change => silent (psu.edit fl _ change)) (funext fun _ => number_apply hpy x _ _ _ _ _)

theorem makes_ovpLevel (x : PyFloat) :
    Handler.setOvpLevel.Makes fl py (x.fixed 3) (.ovpLevel (x.toPlaces fl 3)) := fun _ psu _ =>
  congrArg (fun change => silent (psu.edit fl _ change)) (funext fun ch =>
    number_apply hpy x _ _ (fun level => level.lt ch.voltageSetpoint) _ _)

theorem makes_ocpLevel (x : PyFloat) :
    Handler.setOcpLevel.Makes fl py (x.fixed 3) (.ocpLevel (x.toPlaces fl 3)) := fun _ psu _ =>
  congrArg (fun change => silent (psu.edit fl _ change)) (funext fun ch =>
    number_apply hpy x _ _ (fun level => level.lt ch.currentLimit) _ _)

theorem makes_output (enable : Bool) :
    Handler.setOutput.Makes fl py (onOff enable) (.output enable) := by
  intro gauss psu channel
  refine congrArg (fun change => silent (psu.edit fl channel change)) (funext fun ch => ?_)
  show (parseBool py (onOff enable) >>= _) = _
  rw [parseBool_onOff hpy]
  rfl

theorem makes_ovpState (enable : Bool) :
    Handler.setOvpState.Makes fl py (onOff enable) (.ovpState enable) := by
  intro gauss psu channel
  refine congrArg (fun change => silent (psu.edit fl channel change)) (funext fun ch => ?_)
  show (parseBool py (onOff enable) >>= _) = _
  rw [parseBool_onOff hpy]
  rfl

theorem makes_ocpState (enable : Bool) :
    Handler.setOcpState.Makes fl py (onOff enable) (.ocpState enable) := by
  intro gauss psu channel
  refine congrArg (fun change => silent (psu.edit fl channel change)) (funext fun ch => ?_)
  show (parseBool py (onOff enable) >>= _) = _
  rw [parseBool_onOff hpy]
  rfl

theorem makes_remoteSense (enable : Bool) :
    Handler.setRemoteSense.Makes fl py (if enable then "REM".toList else "LOC".toList)
      (.remoteSense enable) := by
  intro gauss psu channel
  refine congrArg (fun change => silent (psu.edit fl channel change)) (funext fun ch => ?_)
  show (parseRemoteSenseState py _ >>= _) = _
  rw [parseRemoteSenseState_word hpy]
  rfl

end Settings

/-! ## Changes of one channel -/

section Changes

variable {fl : Rounding} {channels : List SimulatedPSUChannel} {channel : ℤ}
  {ch ch' : SimulatedPSUChannel} {bench : Bench} {setting : Setting}

/-- A protection that trips is the one error of `_update_channel`. -/
theorem oneError_update (fl : Rounding) (ch : SimulatedPSUChannel) : OneError (ch.update fl).2 := by
  unfold SimulatedPSUChannel.update
  dsimp only
  split_ifs
  · exact oneError_nil
  · exact oneError_singleton (by decide)
  · exact oneError_singleton (by decide)
  · exact oneError_nil

/-- A setting is refused for a reason. -/
theorem apply_ne_noError {err : SCPIError} (h : setting.apply ch = .error err) : err ≠ .noError := by
  have hnumber : ∀ {c d : Prop} [Decidable c] [Decidable d] {e : SCPIError}
      {result : SimulatedPSUChannel}, e ≠ .noError →
      (do ensure c SCPIError.dataOutOfRange; ensure d e; return result) = .error err →
        err ≠ .noError := by
    intro c d _ _ e result he h
    rcases bind_eq_error.mp h with h | ⟨_, -, h⟩
    · rw [← (ensure_eq_error.mp h).2]
      decide
    · rcases bind_eq_error.mp h with h | ⟨_, -, h⟩
      · rwa [← (ensure_eq_error.mp h).2]
      · cases h
  cases setting with
  | voltage v => exact hnumber (by decide) h
  | currentLimit i => exact hnumber (by decide) h
  | output enable => cases h
  | ovpLevel v => exact hnumber (by decide) h
  | ovpState enable => cases h
  | ocpLevel i => exact hnumber (by decide) h
  | ocpState enable => cases h
  | remoteSense enable => cases h

/-- The channel with its number is the one that is replaced. -/
theorem replaceF_same {old : SimulatedPSUChannel} (h : old.channelId = channel)
    (channels : List SimulatedPSUChannel) (ch : SimulatedPSUChannel) :
    ((old :: channels).replaceF fun old => if old.channelId = channel then some ch else none) =
      ch :: channels :=
  List.replaceF_cons_of_some _ (if_pos h)

theorem replaceF_other {old : SimulatedPSUChannel} (h : old.channelId ≠ channel)
    (channels : List SimulatedPSUChannel) (ch : SimulatedPSUChannel) :
    ((old :: channels).replaceF fun old => if old.channelId = channel then some ch else none) =
      old :: channels.replaceF fun old => if old.channelId = channel then some ch else none :=
  List.replaceF_cons_of_none _ (if_neg h)

/-- `_update` after a change of one channel changes this channel, the others being settled. -/
theorem update_setChannel (hsettled : ∀ ch ∈ channels, ch.Settled fl)
    (hfind : channels.find? (fun ch => ch.channelId = channel) = some ch) :
    ((SimulatedPSU.mk channels []).setChannel channel ch').update fl =
      ⟨channels.replaceF fun old => if old.channelId = channel then some (ch'.updated fl) else none,
        (ch'.update fl).2⟩ := by
  unfold SimulatedPSU.setChannel SimulatedPSU.update
  dsimp only
  rw [List.nil_append]
  induction channels with
  | nil => cases hfind
  | cons old channels ih =>
    obtain ⟨hold, hrest⟩ := List.forall_mem_cons.mp hsettled
    by_cases hid : old.channelId = channel
    · have hkept : channels.map (·.updated fl) = channels := map_updated_of_settled hrest
      have hquiet : (channels.flatMap fun ch => (ch.update fl).2) = [] := by
        rw [List.flatMap_eq_nil_iff]
        intro ch hch
        rw [hrest ch hch]
      rw [replaceF_same hid, replaceF_same hid, List.map_cons, List.flatMap_cons, hkept, hquiet,
        List.append_nil]
    · rw [List.find?_cons_of_neg (by simpa using hid)] at hfind
      obtain ⟨hchannels, herrors⟩ := SimulatedPSU.mk.inj (ih hrest hfind)
      have hsame : old.updated fl = old := congrArg Prod.fst hold
      have hnone : (old.update fl).2 = [] := congrArg Prod.snd hold
      rw [replaceF_other hid, replaceF_other hid, List.map_cons, List.flatMap_cons, hchannels,
        herrors, hsame, hnone, List.nil_append]

/-- A handler that changes a setting does what the bench does. -/
theorem edit_eq_set (hsettled : ∀ ch ∈ bench.channels, ch.Settled fl) (channel : ℤ)
    (setting : Setting) :
    ∃ errs, OneError errs ∧
      (SimulatedPSU.mk bench.channels []).edit fl channel
          (fun ch => (setting.apply ch).mapError .queued) =
        .ok ⟨(bench.set fl channel setting).2.channels, errs⟩ ∧
      (bench.set fl channel setting).1 = Bench.outcome .none errs ∧
      (bench.set fl channel setting).2.commands = bench.commands + 2 := by
  unfold SimulatedPSU.edit Bench.set
  have hchannel : (SimulatedPSU.mk bench.channels []).channel channel = bench.channel channel := rfl
  rw [hchannel]
  cases hfind : bench.channel channel with
  | none => exact ⟨[.headerSuffixOutOfRange], oneError_singleton (by decide), rfl, rfl, rfl⟩
  | some ch =>
    dsimp only
    cases happly : setting.apply ch with
    | error err => exact ⟨[err], oneError_singleton (apply_ne_noError happly), rfl, rfl, rfl⟩
    | ok ch' =>
      exact ⟨(ch'.update fl).2, oneError_update fl ch',
        congrArg Except.ok (update_setChannel hsettled hfind), rfl, rfl⟩

end Changes

/-! ## The bench of a power supply -/

/-- A channel as `_update` leaves it, with levels that are doubles. -/
structure SimulatedPSUChannel.Quiet (ch : SimulatedPSUChannel) : Prop where
  settled : ch.Settled double
  ovpLevel : FloatFormat.binary64.IsFloat ch.overvoltageProtectionLevel
  ocpLevel : FloatFormat.binary64.IsFloat ch.overcurrentProtectionLevel

/-- The driver and the server are in step, and the power supply has the channels of the bench. -/
structure Represents (link : Link) (bench : Bench) : Prop where
  link_at : link.At ⟨bench.channels, []⟩ bench.commands
  quiet : ∀ ch ∈ bench.channels, ch.Quiet

/-- The levels of a setting are doubles. -/
def Setting.IsFloat : Setting → Prop
  | ovpLevel v => FloatFormat.binary64.IsFloat v
  | ocpLevel i => FloatFormat.binary64.IsFloat i
  | _ => True

section Quiet

variable {bench : Bench} {channel : ℤ} {ch ch' : SimulatedPSUChannel} {setting : Setting} {link : Link}

/-- A number that a setting takes. -/
theorem number_taken {c d : Prop} [Decidable c] [Decidable d] {e e' : SCPIError}
    {result : SimulatedPSUChannel}
    (h : (do ensure c e; ensure d e'; return result) = Except.ok ch') : result = ch' := by
  obtain ⟨-, h⟩ := ensure_bind_eq_ok.mp h
  obtain ⟨-, h⟩ := ensure_bind_eq_ok.mp h
  exact Except.ok.inj h

theorem SimulatedPSUChannel.Quiet.apply (h : ch.Quiet) (hfloat : setting.IsFloat)
    (happly : setting.apply ch = .ok ch') : (ch'.updated double).Quiet := by
  have hlevels : FloatFormat.binary64.IsFloat ch'.overvoltageProtectionLevel ∧
      FloatFormat.binary64.IsFloat ch'.overcurrentProtectionLevel := by
    cases setting with
    | voltage v =>
      obtain rfl := number_taken happly
      exact ⟨h.ovpLevel, h.ocpLevel⟩
    | currentLimit i =>
      obtain rfl := number_taken happly
      exact ⟨h.ovpLevel, h.ocpLevel⟩
    | output enable =>
      obtain rfl := Except.ok.inj happly
      cases enable with
      | true => exact ⟨h.ovpLevel, h.ocpLevel⟩
      | false => exact ⟨h.ovpLevel, h.ocpLevel⟩
    | ovpLevel v =>
      obtain rfl := number_taken happly
      exact ⟨hfloat, h.ocpLevel⟩
    | ovpState enable =>
      obtain rfl := Except.ok.inj happly
      exact ⟨h.ovpLevel, h.ocpLevel⟩
    | ocpLevel i =>
      obtain rfl := number_taken happly
      exact ⟨h.ovpLevel, hfloat⟩
    | ocpState enable =>
      obtain rfl := Except.ok.inj happly
      exact ⟨h.ovpLevel, h.ocpLevel⟩
    | remoteSense enable =>
      obtain rfl := Except.ok.inj happly
      exact ⟨h.ovpLevel, h.ocpLevel⟩
  refine ⟨SimulatedPSUChannel.settled_updated double ch', ?_, ?_⟩
  · obtain ⟨_, _, _, _, _, _, _, _, hupdated⟩ := SimulatedPSUChannel.updated_frame double ch'
    rw [hupdated]
    exact hlevels.1
  · obtain ⟨_, _, _, _, _, _, _, _, hupdated⟩ := SimulatedPSUChannel.updated_frame double ch'
    rw [hupdated]
    exact hlevels.2

/-- Every channel stays quiet. -/
theorem quiet_set (h : ∀ ch ∈ bench.channels, ch.Quiet) (hfloat : setting.IsFloat) :
    ∀ ch ∈ (bench.set double channel setting).2.channels, ch.Quiet := by
  unfold Bench.set
  cases hfind : bench.channel channel with
  | none => exact h
  | some ch =>
    dsimp only
    cases happly : setting.apply ch with
    | error err => exact h
    | ok ch' =>
      intro other hother
      rcases mem_replaceF hother with hother | ⟨old, -, hset⟩
      · exact h other hother
      · split_ifs at hset
        obtain rfl := Option.some.inj hset
        exact (h ch (List.mem_of_find?_eq_some hfind)).apply hfloat happly

end Quiet

/-! ## Calls -/

/-- What the driver does is what the bench does, and what it says to the server are commands. -/
def Performs (x : Talk Value) (link : Link) (done : Except Raised Value × Bench) : Prop :=
  ∃ link' shown, x link = ⟨link', shown, done.1⟩ ∧ Represents link' done.2 ∧
    ∀ command ∈ shown, Plain command

section Calls

variable {py : PyText} {gauss : ℕ → PyFloat → PyFloat → PyFloat} {link : Link} {bench : Bench}
  {channel : ℤ} {word token : Text} {path : List Text} {handler : Handler} {setting : Setting}
  {reading : Reading}

theorem plain_commands {command : Text} (h : Plain command) :
    ∀ shown ∈ [command, ":SYST:ERR?".toList], Plain shown :=
  List.forall_mem_cons.mpr ⟨h, List.forall_mem_singleton.mpr plain_errorQuery⟩

/-- A method that sets something. -/
theorem performs_set (hpy : py.Documented double) (h : Represents link bench)
    (hword : Capitals word) (hpath : ∀ part ∈ path, Capitals part) (hchannel : Addressed channel)
    (htoken : Token token)
    (hkey : (commandTable.toOption.bind (·.lookup (PyText.join ':' (word :: path)))) = some handler)
    (hmakes : handler.Makes double py token setting) (hfloat : setting.IsFloat) :
    Performs ((fun _ => Value.none) <$>
        writeChecked double py gauss (headerFor word channel path ++ ' ' :: token)) link
      (bench.set double channel setting) := by
  have hplain := plain_write hword hpath hchannel htoken
  obtain ⟨c, hc, hroute⟩ := Simulated.route_write hpy hword hpath hchannel htoken hkey
  obtain ⟨errs, hone, hedit, hresult, hcommands⟩ :=
    edit_eq_set (fun ch hch => (h.quiet ch hch).settled) channel setting
  have hprocess : processScpiCommand double py (gauss bench.commands) ⟨bench.channels, []⟩
      (headerFor word channel path ++ ' ' :: token) =
        .ok (none, ⟨(bench.set double channel setting).2.channels, errs⟩) := by
    rw [process_plain hplain hroute]
    show catchValueError _ (handler.run _ _ _ _ c _) = _
    rw [hc, hmakes, hedit]
    rfl
  obtain ⟨link', hwrite, hat⟩ := writeChecked_spec hpy h.link_at hplain hone hprocess
  refine ⟨link', _, ?_, ⟨?_, quiet_set h.quiet hfloat⟩, plain_commands hplain⟩
  · rw [Procedure.map_apply, hwrite, hresult]
    cases errs with
    | nil => rfl
    | cons err errs => rfl
  · rw [hcommands]
    exact hat

/-- A handler reads something of the channel, and changes nothing. -/
def Handler.Answers (handler : Handler)
    (shown : (PyFloat → PyFloat → PyFloat) → SimulatedPSUChannel → Response) (missing : Response) : Prop :=
  ∀ py gauss psu channel, (∀ ch ∈ psu.channels, ch.Settled double) →
    handler.run double py gauss psu channel [] = answered (psu.query channel missing (shown gauss))

/-- A query of the driver reads what the bench holds. -/
theorem query_read {shown : (PyFloat → PyFloat → PyFloat) → SimulatedPSUChannel → Response}
    {missing : Response} (hpy : py.Documented double) (h : Represents link bench)
    (hword : Capitals word) (hpath : ∀ part ∈ path, Capitals part) (hchannel : Addressed channel)
    (hkey : (commandTable.toOption.bind (·.lookup (PyText.join ':' (word :: path) ++ ['?']))) =
      some handler)
    (hanswers : handler.Answers shown missing) (hmissing : Legible double missing)
    (hlegible : ∀ ch ∈ bench.channels, Legible double (shown (gauss bench.commands) ch)) :
    ∃ link' commands, queryChecked double py gauss (headerFor word channel path ++ ['?']) link =
        ⟨link', commands, match bench.channel channel with
          | none => .error (Bench.report .headerSuffixOutOfRange)
          | some ch => .ok ((shown (gauss bench.commands) ch).shown double)⟩ ∧
      Represents link' bench.sent ∧ ∀ command ∈ commands, Plain command := by
  have hplain := plain_query hword hpath hchannel
  obtain ⟨c, hc, hroute⟩ := Simulated.route_query hpy hword hpath hchannel hkey
  have hprocess : processScpiCommand double py (gauss bench.commands) ⟨bench.channels, []⟩
      (headerFor word channel path ++ ['?']) =
        answered ((SimulatedPSU.mk bench.channels []).query channel missing
          (shown (gauss bench.commands))) := by
    rw [process_plain hplain hroute]
    show catchValueError _ (handler.run _ _ _ _ c _) = _
    rw [hc, hanswers _ _ _ _ fun ch hch => (h.quiet ch hch).settled]
    rfl
  have hfound : (SimulatedPSU.mk bench.channels []).channel channel = bench.channel channel := rfl
  unfold SimulatedPSU.query at hprocess
  rw [hfound] at hprocess
  cases hfind : bench.channel channel with
  | none =>
    rw [hfind] at hprocess
    obtain ⟨link', hquery, hat⟩ := queryChecked_spec hpy h.link_at hplain hmissing
      (oneError_singleton (by decide)) hprocess
    exact ⟨link', _, hquery, ⟨hat, h.quiet⟩, plain_commands hplain⟩
  | some ch =>
    rw [hfind] at hprocess
    obtain ⟨link', hquery, hat⟩ := queryChecked_spec hpy h.link_at hplain
      (hlegible ch (List.mem_of_find?_eq_some hfind)) oneError_nil hprocess
    exact ⟨link', _, hquery, ⟨hat, h.quiet⟩, plain_commands hplain⟩

/-- A method that makes something of the text of a query. -/
theorem performs_read {shown : (PyFloat → PyFloat → PyFloat) → SimulatedPSUChannel → Response}
    {missing : Response} {x : Talk Value} {finish : Text → Except Raised Value}
    (hpy : py.Documented double) (h : Represents link bench) (hword : Capitals word)
    (hpath : ∀ part ∈ path, Capitals part) (hchannel : Addressed channel)
    (hkey : (commandTable.toOption.bind (·.lookup (PyText.join ':' (word :: path) ++ ['?']))) =
      some handler)
    (hanswers : handler.Answers shown missing) (hmissing : Legible double missing)
    (hlegible : ∀ ch ∈ bench.channels, Legible double (shown (gauss bench.commands) ch))
    (hx : x link = (queryChecked double py gauss (headerFor word channel path ++ ['?']) >>=
      fun text => Procedure.lift (finish text)) link)
    (hfinish : ∀ ch ∈ bench.channels, finish ((shown (gauss bench.commands) ch).shown double) =
      .ok (reading.of double (gauss bench.commands) ch)) :
    Performs x link (bench.read double gauss channel reading) := by
  obtain ⟨link', commands, hquery, hrepresents, hplain⟩ :=
    query_read hpy h hword hpath hchannel hkey hanswers hmissing hlegible
  unfold Bench.read
  cases hfind : bench.channel channel with
  | none =>
    rw [hfind] at hquery
    have herror := congrArg Done.result hquery
    refine ⟨link', commands, ?_, hrepresents, hplain⟩
    rw [hx, Procedure.bind_of_error herror, hquery]
  | some ch =>
    rw [hfind] at hquery
    have hok := congrArg Done.result hquery
    refine ⟨link', commands ++ [], ?_, hrepresents, by rwa [List.append_nil]⟩
    rw [hx, Procedure.bind_of_ok hok, hquery]
    exact congrArg (Done.mk _ _) (hfinish ch (List.mem_of_find?_eq_some hfind))

/-- A method that reads a number. -/
theorem performs_float {read : (PyFloat → PyFloat → PyFloat) → SimulatedPSUChannel → PyFloat}
    (hpy : py.Documented double) (h : Represents link bench)
    (hword : Capitals word) (hpath : ∀ part ∈ path, Capitals part) (hchannel : Addressed channel)
    (hkey : (commandTable.toOption.bind (·.lookup (PyText.join ':' (word :: path) ++ ['?']))) =
      some handler)
    (hanswers : handler.Answers (fun gauss ch => .float (read gauss ch)) (.float (.finite 0)))
    (hfloat : ∀ ch ∈ bench.channels, FloatFormat.binary64.IsFloat (read (gauss bench.commands) ch))
    (hreading : ∀ ch, .float (read (gauss bench.commands) ch) =
      reading.of double (gauss bench.commands) ch) :
    Performs (Value.float <$>
        queryCheckedFloat double py gauss (headerFor word channel path ++ ['?'])) link
      (bench.read double gauss channel reading) := by
  refine @performs_read py gauss link bench channel word path handler reading _ _ _
    (fun text => ((py.toFloat text).mapError .python).map .float) hpy h hword hpath hchannel hkey
    hanswers (ascii_repr (FloatFormat.isFloat_zero FloatFormat.binary64_proper))
    (fun ch hch => ascii_repr (hfloat ch hch)) ?_ fun ch hch => ?_
  · rw [Procedure.map_apply]
    unfold queryCheckedFloat
    cases hquery : (queryChecked double py gauss (headerFor word channel path ++ ['?']) link).result with
    | ok text =>
      rw [Procedure.bind_of_ok hquery, Procedure.bind_of_ok hquery]
      rfl
    | error e =>
      rw [Procedure.bind_of_error hquery, Procedure.bind_of_error hquery]
      rfl
  · have hread : py.toFloat ((read (gauss bench.commands) ch).repr double) =
        .ok (read (gauss bench.commands) ch) := by
      unfold PyText.toFloat
      rw [float_repr hpy (hfloat ch hch)]
    show Except.map _ (Except.mapError _ (py.toFloat ((read (gauss bench.commands) ch).repr double))) = _
    rw [hread, ← hreading ch]
    rfl

/-- A method that reads a flag. -/
theorem performs_flag {shown : SimulatedPSUChannel → Response} {missing : Response}
    {decode : Text → Bool}
    (hpy : py.Documented double) (h : Represents link bench)
    (hword : Capitals word) (hpath : ∀ part ∈ path, Capitals part) (hchannel : Addressed channel)
    (hkey : (commandTable.toOption.bind (·.lookup (PyText.join ':' (word :: path) ++ ['?']))) =
      some handler)
    (hanswers : handler.Answers (fun _ => shown) missing) (hmissing : Legible double missing)
    (hlegible : ∀ ch, Legible double (shown ch))
    (hreading : ∀ ch, .bool (decode ((shown ch).shown double)) =
      reading.of double (gauss bench.commands) ch) :
    Performs (Value.bool <$> (do
        let resp ← queryChecked double py gauss (headerFor word channel path ++ ['?'])
        return decode resp)) link (bench.read double gauss channel reading) := by
  refine @performs_read py gauss link bench channel word path handler reading _ _ _
    (fun text => .ok (.bool (decode text))) hpy h hword hpath hchannel hkey hanswers hmissing
    (fun ch _ => hlegible ch) ?_ fun ch _ => congrArg Except.ok (hreading ch)
  rw [Procedure.map_apply]
  cases hquery : (queryChecked double py gauss (headerFor word channel path ++ ['?']) link).result with
  | ok text =>
    rw [Procedure.bind_of_ok hquery, Procedure.bind_of_ok hquery]
    rfl
  | error e =>
    rw [Procedure.bind_of_error hquery, Procedure.bind_of_error hquery]
    rfl

end Calls

end Instro.Psu
