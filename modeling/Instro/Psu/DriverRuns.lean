import Instro.Psu.DriverRefinement

/-!
# Runs of the driver

Over any calls the driver of the simulator returns and raises what the bench does, while the server comes
to what `_handle_client` makes of the bytes on the wire.
-/

namespace Instro.Psu

open Instro.Library
open Instro.Psu.Bk914x (Method Value)
open Instro.Psu.Simulated

/-! ## Methods -/

section Methods

variable {py : PyText} {gauss : ℕ → PyFloat → PyFloat → PyFloat} {link : Link} {bench : Bench}
  {channel : ℤ}

/-- What the driver writes around the number of a channel: a mark behind the path says whether it is a
command or a query. -/
structure Written where
  word : String
  tail : String
  path : List Text
  mark : Char
  handler : Handler
deriving DecidableEq

/-- The keywords as the server looks them up. -/
def Written.key (w : Written) : Text :=
  PyText.join ':' (w.word.toList :: w.path) ++ if w.mark = '?' then ['?'] else []

/-- The server has the handler for the keywords. -/
structure Written.Known (w : Written) : Prop where
  path_ne_nil : w.path ≠ []
  tail_eq : w.tail.toList = ':' :: PyText.join ':' w.path ++ [w.mark]
  word_capitals : Capitals w.word.toList
  path_capitals : ∀ part ∈ w.path, Capitals part
  lookup_key : (commandTable.toOption.bind (·.lookup w.key)) = some w.handler

instance (w : Written) : Decidable w.Known :=
  decidable_of_iff (w.path ≠ [] ∧ w.tail.toList = ':' :: PyText.join ':' w.path ++ [w.mark] ∧
      Capitals w.word.toList ∧ (∀ part ∈ w.path, Capitals part) ∧
      (commandTable.toOption.bind (·.lookup w.key)) = some w.handler)
    ⟨fun ⟨hpath, htail, hword, hparts, hkey⟩ => ⟨hpath, htail, hword, hparts, hkey⟩,
      fun h => ⟨h.path_ne_nil, h.tail_eq, h.word_capitals, h.path_capitals, h.lookup_key⟩⟩

theorem Written.Known.header_eq {w : Written} (h : w.Known) (rest : Text) :
    header w.word channel w.tail ++ rest =
      headerFor w.word.toList channel w.path ++ w.mark :: rest := by
  obtain ⟨part, parts, hpath⟩ := List.exists_cons_of_ne_nil h.path_ne_nil
  unfold header headerFor partsFor
  rw [h.tail_eq, hpath]
  simp [PyText.join, List.intercalate]

theorem Written.Known.query_eq {w : Written} (h : w.Known) (hmark : w.mark = '?') :
    header w.word channel w.tail = headerFor w.word.toList channel w.path ++ ['?'] ∧
      (commandTable.toOption.bind
        (·.lookup (PyText.join ':' (w.word.toList :: w.path) ++ ['?']))) = some w.handler := by
  have hheader := @header_eq channel w h []
  have hkey := h.lookup_key
  rw [List.append_nil, hmark] at hheader
  rw [key, if_pos hmark] at hkey
  exact ⟨hheader, hkey⟩

theorem Written.Known.command_eq {w : Written} (h : w.Known) (hmark : w.mark = ' ') (rest : Text) :
    header w.word channel w.tail ++ rest = headerFor w.word.toList channel w.path ++ ' ' :: rest ∧
      (commandTable.toOption.bind (·.lookup (PyText.join ':' (w.word.toList :: w.path)))) =
        some w.handler := by
  have hheader := @header_eq channel w h rest
  have hkey := h.lookup_key
  rw [hmark] at hheader
  rw [key, if_neg (by rw [hmark]; decide), List.append_nil] at hkey
  exact ⟨hheader, hkey⟩

/-- A method that sets something to what is written as `token`. -/
theorem method_set {method : Method} {w : Written} {token : Text} {setting : Setting}
    (hpy : py.Documented double) (h : Represents link bench) (hchannel : Addressed channel)
    (hknown : w.Known) (hmark : w.mark = ' ')
    (hrun : run double py gauss channel method =
      (fun _ => .none) <$> writeChecked double py gauss (header w.word channel w.tail ++ token))
    (hdemand : demand double method = .set setting) (htoken : Token token)
    (hmakes : w.handler.Makes double py token setting) (hfloat : setting.IsFloat) :
    Performs (run double py gauss channel method) link
      (bench.perform double gauss channel (demand double method)) := by
  obtain ⟨hheader, hkey⟩ := @Written.Known.command_eq channel w hknown hmark token
  rw [hrun, hdemand, hheader]
  exact performs_set hpy h hknown.word_capitals hknown.path_capitals hchannel htoken hkey hmakes hfloat

/-- A method that reads a number. -/
theorem method_float {method : Method} {w : Written}
    {read : (PyFloat → PyFloat → PyFloat) → SimulatedPSUChannel → PyFloat} {reading : Reading}
    (hpy : py.Documented double) (h : Represents link bench) (hchannel : Addressed channel)
    (hknown : w.Known) (hmark : w.mark = '?')
    (hrun : run double py gauss channel method =
      .float <$> queryCheckedFloat double py gauss (header w.word channel w.tail))
    (hdemand : demand double method = .read reading)
    (hanswers : w.handler.Answers (fun gauss ch => .float (read gauss ch)) (.float (.finite 0)))
    (hfloat : ∀ ch ∈ bench.channels, FloatFormat.binary64.IsFloat (read (gauss bench.commands) ch))
    (hreading : ∀ ch, .float (read (gauss bench.commands) ch) =
      reading.of double (gauss bench.commands) ch) :
    Performs (run double py gauss channel method) link
      (bench.perform double gauss channel (demand double method)) := by
  obtain ⟨hheader, hkey⟩ := @Written.Known.query_eq channel w hknown hmark
  rw [hrun, hdemand, hheader]
  exact performs_float hpy h hknown.word_capitals hknown.path_capitals hchannel hkey hanswers hfloat
    hreading

/-- A method that reads a flag. -/
theorem method_flag {method : Method} {w : Written} {shown : SimulatedPSUChannel → Response}
    {missing : Response} {decode : Text → Bool} {reading : Reading} (hpy : py.Documented double)
    (h : Represents link bench) (hchannel : Addressed channel) (hknown : w.Known)
    (hmark : w.mark = '?')
    (hrun : run double py gauss channel method = .bool <$> (do
      let resp ← queryChecked double py gauss (header w.word channel w.tail)
      return decode resp))
    (hdemand : demand double method = .read reading)
    (hanswers : w.handler.Answers (fun _ => shown) missing) (hmissing : Legible double missing)
    (hlegible : ∀ ch, Legible double (shown ch))
    (hreading : ∀ ch, .bool (decode ((shown ch).shown double)) =
      reading.of double (gauss bench.commands) ch) :
    Performs (run double py gauss channel method) link
      (bench.perform double gauss channel (demand double method)) := by
  obtain ⟨hheader, hkey⟩ := @Written.Known.query_eq channel w hknown hmark
  rw [hrun, hdemand, hheader]
  exact performs_flag hpy h hknown.word_capitals hknown.path_capitals hchannel hkey hanswers hmissing
    hlegible hreading

/-! ### Responses -/

theorem token_onOff (enable : Bool) : Token (onOff enable) := by
  cases enable with
  | true => exact ⟨by decide, List.all_iff_forall_prop.mp (by decide)⟩
  | false => exact ⟨by decide, List.all_iff_forall_prop.mp (by decide)⟩

theorem token_sense (enable : Bool) :
    Token (if enable then "REM".toList else "LOC".toList) := by
  cases enable with
  | true => exact ⟨by decide, List.all_iff_forall_prop.mp (by decide)⟩
  | false => exact ⟨by decide, List.all_iff_forall_prop.mp (by decide)⟩

theorem legible_flag (b : Bool) : Legible double (.int b.toNat) := by
  unfold Legible
  refine List.all_iff_forall_prop.mp ?_
  cases b <;> decide

theorem legible_sense (b : Bool) : Legible double (.text (if b then "REM" else "LOC")) := by
  unfold Legible
  refine List.all_iff_forall_prop.mp ?_
  cases b <;> decide

theorem flag_shown (b : Bool) :
    decide (PyText.strip ((Response.int b.toNat).shown double) = "1".toList) = b := by
  cases b <;> decide

theorem sense_shown (hpy : py.Documented double) (b : Bool) :
    decide (py.upper (PyText.strip ((Response.text (if b then "REM" else "LOC")).shown double)) =
      "REM".toList) = b := by
  cases b with
  | true =>
    have hstrip : PyText.strip ((Response.text "REM").shown double) = "REM".toList := by decide
    rw [if_pos rfl, hstrip, Capitals.upper hpy (by decide)]
    decide
  | false =>
    have hstrip : PyText.strip ((Response.text "LOC").shown double) = "LOC".toList := by decide
    rw [if_neg Bool.false_ne_true, hstrip, Capitals.upper hpy (by decide)]
    decide

/-- The noise is a double, and so is what has none. -/
theorem isFloat_addNoise {noise : PyFloat → PyFloat → PyFloat}
    (hnoise : ∀ mean deviation, FloatFormat.binary64.IsFloat (noise mean deviation)) (x percent : PyFloat) :
    FloatFormat.binary64.IsFloat (addNoise double noise x percent) := by
  unfold addNoise
  split_ifs with hfinite
  · exact hnoise _ _
  · cases x with
    | finite q => exact absurd rfl hfinite
    | negZero => trivial
    | inf negative => trivial
    | nan => trivial

/-! ### Every method -/

/-- What the driver writes. -/
def driverWrites : List Written := [
  ⟨"SOUR", ":VOLT ", ["VOLT".toList], ' ', .setVoltage⟩,
  ⟨"MEAS", ":VOLT?", ["VOLT".toList], '?', .measureVoltage⟩,
  ⟨"SOUR", ":CURR ", ["CURR".toList], ' ', .setCurrent⟩,
  ⟨"MEAS", ":CURR?", ["CURR".toList], '?', .measureCurrent⟩,
  ⟨"OUTP", ":STAT ", ["STAT".toList], ' ', .setOutput⟩,
  ⟨"OUTP", ":STAT?", ["STAT".toList], '?', .queryOutput⟩,
  ⟨"SOUR", ":VOLT:PROT ", ["VOLT".toList, "PROT".toList], ' ', .setOvpLevel⟩,
  ⟨"SOUR", ":VOLT:PROT:LEV?", ["VOLT".toList, "PROT".toList, "LEV".toList], '?', .queryOvpLevel⟩,
  ⟨"SOUR", ":VOLT:PROT:STAT ", ["VOLT".toList, "PROT".toList, "STAT".toList], ' ', .setOvpState⟩,
  ⟨"SOUR", ":VOLT:PROT:STAT?", ["VOLT".toList, "PROT".toList, "STAT".toList], '?', .queryOvpState⟩,
  ⟨"SOUR", ":CURR:PROT ", ["CURR".toList, "PROT".toList], ' ', .setOcpLevel⟩,
  ⟨"SOUR", ":CURR:PROT:LEV?", ["CURR".toList, "PROT".toList, "LEV".toList], '?', .queryOcpLevel⟩,
  ⟨"SOUR", ":CURR:PROT:STAT ", ["CURR".toList, "PROT".toList, "STAT".toList], ' ', .setOcpState⟩,
  ⟨"SOUR", ":CURR:PROT:STAT?", ["CURR".toList, "PROT".toList, "STAT".toList], '?', .queryOcpState⟩,
  ⟨"SYST", ":SENS ", ["SENS".toList], ' ', .setRemoteSense⟩,
  ⟨"SYST", ":SENS?", ["SENS".toList], '?', .queryRemoteSense⟩]

theorem known_driverWrites : ∀ w ∈ driverWrites, w.Known := by decide +kernel

theorem answers_measureVoltage :
    Handler.measureVoltage.Answers
      (fun gauss ch => .float (addNoise double gauss ch.senseVoltage (SimulatedPSU.noisePercent double)))
      (.float (.finite 0)) := by
  intro py gauss psu channel hsettled
  show answered ((psu.update double).query channel _ _) = _
  rw [update_of_settled hsettled]
  rfl

theorem answers_measureCurrent :
    Handler.measureCurrent.Answers
      (fun gauss ch => .float (addNoise double gauss ch.current (SimulatedPSU.noisePercent double)))
      (.float (.finite 0)) := by
  intro py gauss psu channel hsettled
  show answered ((psu.update double).query channel _ _) = _
  rw [update_of_settled hsettled]

/-- **Step lemma.** A method does what the bench does. -/
theorem run_performs (hpy : py.Documented double)
    (hgauss : ∀ n mean deviation, FloatFormat.binary64.IsFloat (gauss n mean deviation))
    (h : Represents link bench) (hchannel : Addressed channel) (method : Method) :
    Performs (run double py gauss channel method) link
      (bench.perform double gauss channel (demand double method)) := by
  cases method with
  | setVoltage voltage =>
    have hknown := known_driverWrites
      ⟨"SOUR", ":VOLT ", ["VOLT".toList], ' ', .setVoltage⟩ (by decide)
    exact method_set hpy h hchannel hknown rfl rfl rfl (token_fixed 3) (makes_voltage hpy voltage) trivial
  | getVoltage =>
    have hknown := known_driverWrites
      ⟨"MEAS", ":VOLT?", ["VOLT".toList], '?', .measureVoltage⟩ (by decide)
    exact method_float hpy h hchannel hknown rfl rfl rfl answers_measureVoltage
      (fun _ _ => isFloat_addNoise (hgauss _) _ _) fun _ => rfl
  | setCurrentLimit limit =>
    have hknown := known_driverWrites
      ⟨"SOUR", ":CURR ", ["CURR".toList], ' ', .setCurrent⟩ (by decide)
    exact method_set hpy h hchannel hknown rfl rfl rfl (token_fixed 3) (makes_currentLimit hpy limit) trivial
  | getCurrent =>
    have hknown := known_driverWrites
      ⟨"MEAS", ":CURR?", ["CURR".toList], '?', .measureCurrent⟩ (by decide)
    exact method_float hpy h hchannel hknown rfl rfl rfl answers_measureCurrent
      (fun _ _ => isFloat_addNoise (hgauss _) _ _) fun _ => rfl
  | outputEnable enable =>
    have hknown := known_driverWrites
      ⟨"OUTP", ":STAT ", ["STAT".toList], ' ', .setOutput⟩ (by decide)
    exact method_set hpy h hchannel hknown rfl rfl rfl (token_onOff enable) (makes_output hpy enable) trivial
  | getOutputStatus =>
    have hknown := known_driverWrites
      ⟨"OUTP", ":STAT?", ["STAT".toList], '?', .queryOutput⟩ (by decide)
    exact @method_flag py gauss link bench channel _ _ (fun ch => .int ch.outputEnabled.toNat)
      (.int 0) (fun resp => PyText.strip resp = "1".toList) _ hpy h hchannel hknown rfl rfl rfl
      (fun _ _ _ _ _ => rfl) (legible_flag false) (fun _ => legible_flag _) fun ch =>
      congrArg Value.bool (flag_shown ch.outputEnabled)
  | setOvervoltageProtectionLevel voltage =>
    have hknown := known_driverWrites
      ⟨"SOUR", ":VOLT:PROT ", ["VOLT".toList, "PROT".toList], ' ', .setOvpLevel⟩ (by decide)
    exact method_set hpy h hchannel hknown rfl rfl rfl (token_fixed 3) (makes_ovpLevel hpy voltage) (isFloat_toPlaces 3 voltage)
  | getOvervoltageProtectionLevel =>
    have hknown := known_driverWrites
      ⟨"SOUR", ":VOLT:PROT:LEV?", ["VOLT".toList, "PROT".toList, "LEV".toList], '?', .queryOvpLevel⟩ (by decide)
    exact @method_float py gauss link bench channel _ _ (fun _ ch => ch.overvoltageProtectionLevel) _ hpy h
      hchannel hknown rfl rfl rfl (fun _ _ _ _ _ => rfl) (fun ch hch => (h.quiet ch hch).ovpLevel)
      fun _ => rfl
  | setOvervoltageProtectionEnabled enabled =>
    have hknown := known_driverWrites
      ⟨"SOUR", ":VOLT:PROT:STAT ", ["VOLT".toList, "PROT".toList, "STAT".toList], ' ', .setOvpState⟩ (by decide)
    exact method_set hpy h hchannel hknown rfl rfl rfl (token_onOff enabled) (makes_ovpState hpy enabled) trivial
  | getOvervoltageProtectionEnabled =>
    have hknown := known_driverWrites
      ⟨"SOUR", ":VOLT:PROT:STAT?", ["VOLT".toList, "PROT".toList, "STAT".toList], '?', .queryOvpState⟩ (by decide)
    exact @method_flag py gauss link bench channel _ _ (fun ch => .int ch.overvoltageProtectionEnabled.toNat)
      (.int 0) (fun resp => PyText.strip resp = "1".toList) _ hpy h hchannel hknown rfl rfl rfl
      (fun _ _ _ _ _ => rfl) (legible_flag false) (fun _ => legible_flag _) fun ch =>
      congrArg Value.bool (flag_shown ch.overvoltageProtectionEnabled)
  | setOvervoltageProtectionDelay delay =>
    exact ⟨link, [], rfl, h, fun _ hmem => absurd hmem List.not_mem_nil⟩
  | getOvervoltageProtectionDelay =>
    exact ⟨link, [], rfl, h, fun _ hmem => absurd hmem List.not_mem_nil⟩
  | setOvercurrentProtectionLevel current =>
    have hknown := known_driverWrites
      ⟨"SOUR", ":CURR:PROT ", ["CURR".toList, "PROT".toList], ' ', .setOcpLevel⟩ (by decide)
    exact method_set hpy h hchannel hknown rfl rfl rfl (token_fixed 3) (makes_ocpLevel hpy current) (isFloat_toPlaces 3 current)
  | getOvercurrentProtectionLevel =>
    have hknown := known_driverWrites
      ⟨"SOUR", ":CURR:PROT:LEV?", ["CURR".toList, "PROT".toList, "LEV".toList], '?', .queryOcpLevel⟩ (by decide)
    exact @method_float py gauss link bench channel _ _ (fun _ ch => ch.overcurrentProtectionLevel) _ hpy h
      hchannel hknown rfl rfl rfl (fun _ _ _ _ _ => rfl) (fun ch hch => (h.quiet ch hch).ocpLevel)
      fun _ => rfl
  | setOvercurrentProtectionEnabled enabled =>
    have hknown := known_driverWrites
      ⟨"SOUR", ":CURR:PROT:STAT ", ["CURR".toList, "PROT".toList, "STAT".toList], ' ', .setOcpState⟩ (by decide)
    exact method_set hpy h hchannel hknown rfl rfl rfl (token_onOff enabled) (makes_ocpState hpy enabled) trivial
  | getOvercurrentProtectionEnabled =>
    have hknown := known_driverWrites
      ⟨"SOUR", ":CURR:PROT:STAT?", ["CURR".toList, "PROT".toList, "STAT".toList], '?', .queryOcpState⟩ (by decide)
    exact @method_flag py gauss link bench channel _ _ (fun ch => .int ch.overcurrentProtectionEnabled.toNat)
      (.int 0) (fun resp => PyText.strip resp = "1".toList) _ hpy h hchannel hknown rfl rfl rfl
      (fun _ _ _ _ _ => rfl) (legible_flag false) (fun _ => legible_flag _) fun ch =>
      congrArg Value.bool (flag_shown ch.overcurrentProtectionEnabled)
  | setRemoteSenseEnabled enabled =>
    have hknown := known_driverWrites
      ⟨"SYST", ":SENS ", ["SENS".toList], ' ', .setRemoteSense⟩ (by decide)
    exact method_set hpy h hchannel hknown rfl rfl rfl (token_sense enabled) (makes_remoteSense hpy enabled) trivial
  | getRemoteSenseEnabled =>
    have hknown := known_driverWrites
      ⟨"SYST", ":SENS?", ["SENS".toList], '?', .queryRemoteSense⟩ (by decide)
    exact @method_flag py gauss link bench channel _ _
      (fun ch => .text (if ch.remoteSense then "REM" else "LOC")) (.text "LOC")
      (fun resp => py.upper (PyText.strip resp) = "REM".toList) _ hpy h hchannel hknown rfl rfl rfl
      (fun _ _ _ _ _ => rfl) (legible_sense false) (fun _ => legible_sense _) fun ch =>
      congrArg Value.bool (sense_shown hpy ch.remoteSense)

end Methods

/-! ## Runs -/

namespace Simulated

/-- A new connection to a server of a power supply. -/
def connect (psu : SimulatedPSU) : Link := ⟨{ served := { psu } }, 0⟩

/-- The commands that the driver writes over calls. -/
def traffic (fl : Rounding) (py : PyText) (gauss : ℕ → PyFloat → PyFloat → PyFloat) :
    EventLoop Link (Method × ℤ) Text where
  step link call :=
    let done := run fl py gauss call.2 call.1 link
    (done.shown, some done.state)

end Simulated

section Runs

variable {py : PyText} {gauss : ℕ → PyFloat → PyFloat → PyFloat} {link : Link} {bench : Bench}
  {calls : List (Method × ℤ)}

theorem represents_connect {channels : List SimulatedPSUChannel} (h : ∀ ch ∈ channels, ch.Quiet) :
    Represents (connect ⟨channels, []⟩) ⟨channels, 0⟩ :=
  ⟨⟨rfl, rfl, rfl, rfl⟩, h⟩

/-- A channel that has just been made is quiet. -/
theorem quiet_init (channelId : ℤ) : (SimulatedPSUChannel.init channelId defaultLoad).Quiet where
  settled := (settled_stable double fun _ => True).init channelId
  ovpLevel := @FloatFormat.isFloat_intCast 60 (by norm_num)
  ocpLevel := @FloatFormat.isFloat_intCast 10 (by norm_num)

/-- **Run lemma.** The driver and the bench go through the calls alike. -/
theorem driver_follows (hpy : py.Documented double)
    (hgauss : ∀ n mean deviation, FloatFormat.binary64.IsFloat (gauss n mean deviation))
    (h : Represents link bench) (hcalls : ∀ call ∈ calls, Addressed call.2) :
    (driver double py gauss).actions link calls = (Bench.loop double gauss).actions bench calls ∧
      ∃ link' bench', (driver double py gauss).stateAfter link calls = some link' ∧
        (Bench.loop double gauss).stateAfter bench calls = some bench' ∧ Represents link' bench' ∧
        (∀ command ∈ (traffic double py gauss).actions link calls, Plain command) ∧
        link'.server = consume Connection.isEnded (handleLine double py gauss fun _ => false)
          link.server (((traffic double py gauss).actions link calls).map sentLine) := by
  induction calls generalizing link bench with
  | nil => exact ⟨rfl, link, bench, rfl, rfl, h, fun _ hmem => absurd hmem List.not_mem_nil, rfl⟩
  | cons call calls ih =>
    obtain ⟨hcall, hrest⟩ := List.forall_mem_cons.mp hcalls
    obtain ⟨next, shown, hrun, hnext, hplain⟩ := run_performs hpy hgauss h hcall call.1
    have hheard := @heard_run double py gauss call.2 call.1 link
    obtain ⟨hactions, link', bench', hlink, hbench, hrepresents, hcommands, hserver⟩ :=
      ih hnext hrest
    have hdriver : (driver double py gauss).step link call =
        ([(bench.perform double gauss call.2 (demand double call.1)).1], some next) := by
      show ([(run double py gauss call.2 call.1 link).result],
        some (run double py gauss call.2 call.1 link).state) = _
      rw [hrun]
    have htraffic : (traffic double py gauss).step link call = (shown, some next) := by
      show ((run double py gauss call.2 call.1 link).shown,
        some (run double py gauss call.2 call.1 link).state) = _
      rw [hrun]
    rw [hrun] at hheard
    refine ⟨?_, link', bench', ?_, hbench, hrepresents, ?_, ?_⟩
    · rw [EventLoop.actions_cons_some _ (congrArg Prod.snd hdriver), hactions, hdriver]
      rfl
    · rw [EventLoop.stateAfter_cons, hdriver]
      exact hlink
    · rw [EventLoop.actions_cons_some _ (congrArg Prod.snd htraffic), htraffic]
      exact List.forall_mem_append.mpr ⟨hplain, hcommands⟩
    · rw [hserver, EventLoop.actions_cons_some _ (congrArg Prod.snd htraffic), htraffic,
        List.map_append, consume_append]
      exact congrArg (fun server => consume _ _ server _) hheard

/-- **The driver and the simulator behind its server are the bench.** Over any calls the driver returns and
raises what the bench does, and the power supply has the channels of the bench. The server has come to what
`_handle_client` makes of the bytes on the wire, however they are cut. -/
theorem driver_refines_bench (hpy : py.Documented double)
    (hgauss : ∀ n mean deviation, FloatFormat.binary64.IsFloat (gauss n mean deviation))
    {channels : List SimulatedPSUChannel} (hquiet : ∀ ch ∈ channels, ch.Quiet)
    (hcalls : ∀ call ∈ calls, Addressed call.2) {received : List Recv}
    (hstream : stream received =
      bytesOf ((traffic double py gauss).actions (connect ⟨channels, []⟩) calls)) :
    (driver double py gauss).actions (connect ⟨channels, []⟩) calls =
        (Bench.loop double gauss).actions ⟨channels, 0⟩ calls ∧
      ∃ link bench, (driver double py gauss).stateAfter (connect ⟨channels, []⟩) calls = some link ∧
        (Bench.loop double gauss).stateAfter ⟨channels, 0⟩ calls = some bench ∧
        link.server.served.psu = ⟨bench.channels, []⟩ ∧
        link.server.served = handleClient double py gauss (fun _ => false) ⟨channels, []⟩ received := by
  obtain ⟨hactions, link, bench, hlink, hbench, hrepresents, hplain, hserver⟩ :=
    driver_follows hpy hgauss (represents_connect hquiet) hcalls
  refine ⟨hactions, link, bench, hlink, hbench, hrepresents.link_at.psu_eq, ?_⟩
  rw [handleClient_eq, hstream, frames_bytesOf hplain, hserver]
  rfl

/-! ### Calls on one channel -/

/-- ASCII letters, and `float` of numerals and of the names of the other values. -/
def numeralText : PyText where
  upperChar c := [c.toUpper]
  float text :=
    if text = "inf".toList then some (.inf false)
    else if text = "-inf".toList then some (.inf true)
    else if text = "nan".toList then some .nan
    else
      match Numeral.scan text with
      | some (n, []) => some (n.toFloat double)
      | _ => none

theorem numeralText_documented : numeralText.Documented double where
  toCaseMapping := ⟨asciiText_caseMapping.1, asciiText_caseMapping.2, asciiText_caseMapping.3⟩
  upper_ascii _ _ := rfl
  float_numeral n hwell := by
    have hscan := Numeral.scan_text hwell (show Numeral.Stops [] from fun _ h => nomatch h)
    rw [List.append_nil] at hscan
    have hname : ∀ name, Numeral.scan name = none → n.text ≠ name := by
      rintro name hnone rfl
      rw [hnone] at hscan
      cases hscan
    show (if _ then _ else if _ then _ else if _ then _ else _) = _
    rw [if_neg (hname _ rfl), if_neg (hname _ rfl), if_neg (hname _ rfl), hscan]
  float_inf negative := by
    cases negative with
    | true => rfl
    | false => rfl
  float_nan := rfl

/-- A measurement without noise. -/
def noiseless (_ : ℕ) (mean _ : PyFloat) : PyFloat :=
  match mean.value? with
  | some q => double q
  | none => .nan

theorem isFloat_noiseless (n : ℕ) (mean deviation : PyFloat) :
    FloatFormat.binary64.IsFloat (noiseless n mean deviation) := by
  unfold noiseless
  cases mean.value? with
  | some q => exact FloatFormat.isFloat_round FloatFormat.binary64_proper q
  | none => trivial

/-- Five volts are set, turned on, measured and protected; another channel there is none. -/
def benchCalls : List (Method × ℤ) :=
  [(.setVoltage (.finite 5), 1), (.setCurrentLimit (.finite 1), 1), (.outputEnable true, 1),
    (.getVoltage, 1), (.setOvercurrentProtectionLevel (.finite 1), 1),
    (.setOvercurrentProtectionEnabled true, 1), (.getOutputStatus, 2)]

theorem addressed_benchCalls : ∀ call ∈ benchCalls, Addressed call.2 := by
  have hshort : ∀ call ∈ benchCalls, 0 ≤ call.2 ∧ (intText call.2).length ≤ 4300 := by decide
  exact fun call hcall => ⟨(hshort call hcall).1, (hshort call hcall).2⟩

theorem quiet_ofIds (channelIds : List ℤ) :
    ∀ ch ∈ (SimulatedPSU.ofIds channelIds).channels, ch.Quiet := by
  intro ch hch
  obtain ⟨channelId, -, rfl⟩ := List.mem_map.mp hch
  exact quiet_init channelId

theorem stream_whole (bytes : List UInt8) : stream [.data bytes] = bytes := by
  unfold stream
  split_ifs with h
  · exact h.symm
  · exact List.append_nil bytes

theorem driver_refines_bench_calls :
    (driver double numeralText noiseless).actions (connect (.ofIds [1])) benchCalls =
        (Bench.loop double noiseless).actions ⟨(SimulatedPSU.ofIds [1]).channels, 0⟩ benchCalls ∧
      ∃ link bench,
        (driver double numeralText noiseless).stateAfter (connect (.ofIds [1])) benchCalls = some link ∧
        (Bench.loop double noiseless).stateAfter ⟨(SimulatedPSU.ofIds [1]).channels, 0⟩ benchCalls =
          some bench ∧
        link.server.served.psu = ⟨bench.channels, []⟩ ∧
        link.server.served = handleClient double numeralText noiseless (fun _ => false) (.ofIds [1])
          [.data (bytesOf ((traffic double numeralText noiseless).actions (connect (.ofIds [1]))
            benchCalls))] :=
  driver_refines_bench numeralText_documented isFloat_noiseless (quiet_ofIds [1]) addressed_benchCalls
    (stream_whole _)

end Runs

end Instro.Psu
