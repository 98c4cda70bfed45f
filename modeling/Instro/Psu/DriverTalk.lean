import Instro.Psu.Bench

/-!
# The conversation with the server

A command that is written is one line of the server, and the response of a query is read as it was sent.
While both parties are in step the errors of a command are those that the query after it reads. What the
server has come to is what `_handle_client` makes of the bytes, however they were cut on the way.
-/

namespace Instro.Psu.Simulated

open Instro.Library

/-! ## Lines -/

/-- A command that comes through the wire as one line. -/
structure Plain (command : Text) : Prop where
  ne_nil : command ≠ []
  ascii : ∀ c ∈ command, c.toNat < 0x80
  newline : '\n' ∉ command
  head : PyText.isSpace (command.head ne_nil) = false
  last : PyText.isSpace (command.getLast ne_nil) = false

section Plain

variable {py : PyText} {fl : Rounding} {command word token : Text} {path : List Text} {channel : ℤ}

theorem Plain.commandText (h : Plain command) : commandText (sentLine command) = command := by
  have hascii : ∀ c ∈ command ++ ['\r'], c.toNat < 0x80 :=
    List.forall_mem_append.mpr ⟨h.ascii, List.forall_mem_singleton.mpr (by decide)⟩
  unfold Psu.commandText sentLine
  rw [decode_encode_ascii hascii]
  exact strip_append_spaces h.ne_nil h.head h.last (List.forall_mem_singleton.mpr (by decide))

theorem Plain.strip (h : Plain command) : PyText.strip command = command := by
  have hstrip := strip_append_spaces h.ne_nil h.head h.last fun _ hc => absurd hc List.not_mem_nil
  rwa [List.append_nil] at hstrip

theorem Plain.newline_not_mem (h : Plain command) : newlineByte ∉ sentLine command := by
  have hascii : ∀ c ∈ command ++ ['\r'], c.toNat < 0x80 :=
    List.forall_mem_append.mpr ⟨h.ascii, List.forall_mem_singleton.mpr (by decide)⟩
  unfold sentLine
  rw [PyBytes.encode_ascii hascii]
  intro hmem
  obtain ⟨c, hc, hbyte⟩ := List.mem_map.mp hmem
  have hnat : c.toNat = '\n'.toNat := by
    rw [← UInt8.toNat_ofNat_of_lt' ((hascii c hc).trans (by decide : 0x80 < UInt8.size)), hbyte]
    rfl
  obtain rfl := Char.toNat_inj.mp hnat
  rcases List.mem_append.mp hc with hc | hc
  · exact h.newline hc
  · exact absurd hc (by decide)

/-- What stands in a header comes through the wire. -/
theorem ascii_headerFor (hword : Capitals word) (hpath : ∀ part ∈ path, Capitals part)
    (hchannel : Addressed channel) :
    ∀ c ∈ headerFor word channel path, c.toNat < 0x80 ∧ c ≠ '\n' := by
  intro c hc
  rcases mem_headerFor hword hpath hchannel hc with rfl | hc | hc
  · decide
  · have hbounds := isUpper_bounds hc
    refine ⟨by omega, ?_⟩
    rintro rfl
    exact absurd hc (by decide)
  · refine ⟨toNat_lt_of_isDigit hc, ?_⟩
    rintro rfl
    exact absurd hc (by decide)

theorem plain_write (hword : Capitals word) (hpath : ∀ part ∈ path, Capitals part)
    (hchannel : Addressed channel) (htoken : Token token) :
    Plain (headerFor word channel path ++ ' ' :: token) := by
  have hheader := ascii_headerFor hword hpath hchannel
  refine ⟨by simp, ?_, ?_, rfl, ?_⟩
  · refine List.forall_mem_append.mpr ⟨fun c hc => (hheader c hc).1, ?_⟩
    exact List.forall_mem_cons.mpr ⟨by decide, fun c hc => (htoken.2 c hc).1⟩
  · intro hmem
    rcases List.mem_append.mp hmem with hmem | hmem
    · exact (hheader _ hmem).2 rfl
    · rcases List.mem_cons.mp hmem with hmem | hmem
      · exact absurd hmem (by decide)
      · exact absurd (htoken.2 _ hmem).2.1 (by decide)
  · rw [List.getLast_append_of_ne_nil _ (List.cons_ne_nil _ _), List.getLast_cons htoken.1]
    exact (htoken.2 _ (List.getLast_mem htoken.1)).2.1

theorem plain_query (hword : Capitals word) (hpath : ∀ part ∈ path, Capitals part)
    (hchannel : Addressed channel) : Plain (headerFor word channel path ++ ['?']) := by
  have hheader := ascii_headerFor hword hpath hchannel
  refine ⟨by simp, ?_, ?_, rfl, ?_⟩
  · exact List.forall_mem_append.mpr ⟨fun c hc => (hheader c hc).1,
      List.forall_mem_singleton.mpr (by decide)⟩
  · intro hmem
    rcases List.mem_append.mp hmem with hmem | hmem
    · exact (hheader _ hmem).2 rfl
    · exact absurd hmem (by decide)
  · rw [List.getLast_append_of_ne_nil _ (List.cons_ne_nil _ _)]
    decide

end Plain

/-! ## In step -/

/-- The server runs, with this power supply and so many commands behind it, and everything that it has
sent is read. -/
structure Link.At (link : Link) (psu : SimulatedPSU) (commands : ℕ) : Prop where
  running : link.server.isEnded = false
  psu_eq : link.server.served.psu = psu
  executed : link.server.served.executed.length = commands
  read : link.read = link.server.served.sent.length

/-- A response that comes through the wire. -/
def Legible (fl : Rounding) (response : Response) : Prop := ∀ c ∈ response.shown fl, c.toNat < 0x80

section Talk

variable {fl : Rounding} {py : PyText} {gauss : ℕ → PyFloat → PyFloat → PyFloat} {link : Link}
  {psu psu' : SimulatedPSU} {commands : ℕ} {command : Text} {response : Response}

theorem write_of_running (h : link.server.isEnded = false) (command : Text) :
    write fl py gauss command link =
      ⟨{ link with
          server := handleLine fl py gauss (fun _ => false) link.server (sentLine command) },
        [command], .ok ()⟩ := by
  unfold write
  rw [Procedure.get_bind, if_neg (by simp [h])]
  rfl

/-- A command without a response. -/
theorem write_silent (h : link.At psu commands) (hplain : Plain command)
    (hprocess : processScpiCommand fl py (gauss commands) psu command = .ok (none, psu')) :
    ∃ link' : Link, write fl py gauss command link = ⟨link', [command], .ok ()⟩ ∧
      link'.At psu' (commands + 1) := by
  refine ⟨_, write_of_running h.running command, ?_⟩
  have hserver : handleLine fl py gauss (fun _ => false) link.server (sentLine command) =
      { link.server with
        served := { link.server.served with
          psu := psu', executed := link.server.served.executed ++ [command] } } := by
    unfold handleLine
    dsimp only
    rw [hplain.commandText, if_neg hplain.ne_nil, h.executed, h.psu_eq, hprocess]
  rw [hserver]
  exact ⟨h.running, rfl, by simp [h.executed], h.read⟩

/-- A response of ASCII is read as it was sent. -/
theorem read_sent {text : Text} (hascii : ∀ c ∈ text, c.toNat < 0x80)
    (hsent : link.server.served.sent[link.read]? = some (Utf8.encode (text ++ ['\n']))) :
    read link = ⟨{ link with read := link.read + 1 }, [], .ok text⟩ := by
  have hline : ∀ c ∈ text ++ ['\n'], c.toNat < 0x80 := 
    List.forall_mem_append.mpr ⟨hascii, List.forall_mem_singleton.mpr (by decide)⟩
  have hbytes : ((Utf8.encode (text ++ ['\n'])).all fun b => b.toNat < 0x80) = true := by
    rw [PyBytes.encode_ascii hline, List.all_map, List.all_eq_true]
    intro c hc
    have hbound := hline c hc
    exact decide_eq_true (by rwa [UInt8.toNat_ofNat_of_lt' (hbound.trans (by decide))])
  unfold read
  rw [Procedure.get_bind, hsent]
  dsimp only
  rw [Procedure.modify_bind, if_pos hbytes, PyBytes.latin1_encode hline, List.dropLast_concat]
  rfl

/-- A query is answered, and the answer read. -/
theorem query_answered (h : link.At psu commands) (hplain : Plain command)
    (hlegible : Legible fl response)
    (hprocess : processScpiCommand fl py (gauss commands) psu command =
      .ok (some response, psu')) :
    ∃ link' : Link, query fl py gauss command link = ⟨link', [command], .ok (response.shown fl)⟩ ∧
      link'.At psu' (commands + 1) := by
  have hserver : handleLine fl py gauss (fun _ => false) link.server (sentLine command) =
      { link.server with
        served := ⟨psu', link.server.served.executed ++ [command],
          link.server.served.sent ++ [Utf8.encode (response.shown fl ++ ['\n'])]⟩ } := by
    unfold handleLine
    dsimp only
    rw [hplain.commandText, if_neg hplain.ne_nil, h.executed, h.psu_eq, hprocess]
    rfl
  have hwrite := @write_of_running fl py gauss link h.running command
  rw [hserver] at hwrite
  have hok : (write fl py gauss command link).result = .ok () := congrArg Done.result hwrite
  have hsent : (link.server.served.sent ++ [Utf8.encode (response.shown fl ++ ['\n'])])[link.read]? =
      some (Utf8.encode (response.shown fl ++ ['\n'])) := by
    rw [h.read, List.getElem?_concat_length]
  refine ⟨⟨⟨⟨psu', link.server.served.executed ++ [command],
    link.server.served.sent ++ [Utf8.encode (response.shown fl ++ ['\n'])]⟩, link.server.ended⟩,
    link.read + 1⟩, ?_, h.running, rfl, ?_, ?_⟩
  · unfold query
    rw [Procedure.bind_of_ok hok, hwrite]
    dsimp only
    rw [read_sent hlegible hsent]
    rfl
  · rw [List.length_append, h.executed]
    rfl
  · rw [List.length_append, h.read]
    rfl

/-! ## Errors -/

/-- The errors of one command: at most one, and it is one. -/
def OneError (errs : List SCPIError) : Prop := errs.length ≤ 1 ∧ .noError ∉ errs

theorem oneError_nil : OneError [] := ⟨by decide, List.not_mem_nil⟩

theorem oneError_singleton {err : SCPIError} (h : err ≠ .noError) : OneError [err] :=
  ⟨le_rfl, fun hmem => h (List.mem_singleton.mp hmem).symm⟩

theorem ascii_errorText (err : SCPIError) : ∀ c ∈ Bench.errorText err, c.toNat < 0x80 := by
  refine List.all_iff_forall_prop.mp ?_
  cases err <;> decide +kernel

/-- Only the absence of errors has the code 0. -/
theorem errorCode_eq_zero_iff (err : SCPIError) :
    errorCode (Bench.errorText err) = ['0'] ↔ err = .noError := by
  cases err <;> decide +kernel

variable {channels : List SimulatedPSUChannel} {errs : List SCPIError}

/-- A line that is routed is processed as its route says. -/
theorem process_plain {r : Route} (hplain : Plain command) (hroute : route py command = .ok r)
    (gauss : PyFloat → PyFloat → PyFloat) (psu : SimulatedPSU) :
    processScpiCommand fl py gauss psu command = r.execute fl py gauss psu := by
  have hstrip := hplain.strip
  rw [process_of_route (by rw [hstrip]; exact hplain.ne_nil), hstrip, hroute]
  rfl

theorem plain_errorQuery : Plain ":SYST:ERR?".toList :=
  ⟨by decide, List.all_iff_forall_prop.mp (by decide), by decide, rfl, rfl⟩

/-- The query for errors reads the one there is, and raises it. -/
theorem checkErrors_spec (hpy : py.Documented fl) (h : link.At ⟨channels, errs⟩ commands)
    (hone : OneError errs) :
    ∃ link' : Link, checkErrors fl py gauss link =
        ⟨link', [":SYST:ERR?".toList], Bench.outcome () errs⟩ ∧
      link'.At ⟨channels, []⟩ (commands + 1) := by
  have hprocess : ∀ err rest, errs.headD .noError = err → errs.tail = rest →
      processScpiCommand fl py (gauss commands) ⟨channels, errs⟩ ":SYST:ERR?".toList =
        .ok (some (.text (toString err.code ++ ",\"" ++ err.message ++ "\"")), ⟨channels, rest⟩) := by
    rintro err rest rfl rfl
    rw [process_plain plain_errorQuery (route_errorQuery hpy)]
    rfl
  have hread : ∀ err, errs.headD .noError = err → errs.tail = [] → ∃ link' : Link,
      checkErrors fl py gauss link = ⟨link', [":SYST:ERR?".toList],
        if err = .noError then .ok () else .error (Bench.report err)⟩ ∧
      link'.At ⟨channels, []⟩ (commands + 1) := by
    intro err herr hrest
    obtain ⟨link', hquery, hat⟩ := query_answered h plain_errorQuery
      (show Legible fl (.text _) from ascii_errorText err) (hprocess err [] herr hrest)
    have hok : (query fl py gauss ":SYST:ERR?".toList link).result = .ok (Bench.errorText err) :=
      congrArg Done.result hquery
    refine ⟨link', ?_, hat⟩
    unfold checkErrors
    rw [Procedure.bind_of_ok hok, hquery]
    by_cases hnone : err = .noError
    · rw [if_pos hnone, if_pos ((errorCode_eq_zero_iff err).mpr hnone)]
      rfl
    · rw [if_neg hnone, if_neg fun hzero => hnone ((errorCode_eq_zero_iff err).mp hzero)]
      rfl
  obtain ⟨hlength, hmem⟩ := hone
  cases errs with
  | nil => exact hread .noError rfl rfl
  | cons err rest =>
    obtain rfl : rest = [] := List.eq_nil_of_length_eq_zero (by simpa using hlength)
    have hne : err ≠ .noError := fun herr => hmem (by simp [herr])
    have herror := hread err rfl rfl
    rwa [if_neg hne] at herror

/-- A command, and the errors of it. -/
theorem writeChecked_spec (hpy : py.Documented fl) (h : link.At psu commands)
    (hplain : Plain command) (hone : OneError errs)
    (hprocess : processScpiCommand fl py (gauss commands) psu command =
      .ok (none, ⟨channels, errs⟩)) :
    ∃ link' : Link, writeChecked fl py gauss command link =
        ⟨link', [command, ":SYST:ERR?".toList], Bench.outcome () errs⟩ ∧
      link'.At ⟨channels, []⟩ (commands + 2) := by
  obtain ⟨link', hwrite, hat⟩ := write_silent h hplain hprocess
  obtain ⟨link'', hcheck, hat'⟩ := @checkErrors_spec fl py gauss _ _ _ _ hpy hat hone
  have hok : (write fl py gauss command link).result = .ok () := congrArg Done.result hwrite
  refine ⟨link'', ?_, hat'⟩
  unfold writeChecked
  rw [Procedure.bind_of_ok hok, hwrite]
  dsimp only
  rw [hcheck]
  rfl

/-- A query, and the errors of it. -/
theorem queryChecked_spec (hpy : py.Documented fl) (h : link.At psu commands)
    (hplain : Plain command) (hlegible : Legible fl response) (hone : OneError errs)
    (hprocess : processScpiCommand fl py (gauss commands) psu command =
      .ok (some response, ⟨channels, errs⟩)) :
    ∃ link' : Link, queryChecked fl py gauss command link =
        ⟨link', [command, ":SYST:ERR?".toList], Bench.outcome (response.shown fl) errs⟩ ∧
      link'.At ⟨channels, []⟩ (commands + 2) := by
  obtain ⟨link', hquery, hat⟩ := query_answered h hplain hlegible hprocess
  obtain ⟨link'', hcheck, hat'⟩ := @checkErrors_spec fl py gauss _ _ _ _ hpy hat hone
  have hok : (query fl py gauss command link).result = .ok (response.shown fl) :=
    congrArg Done.result hquery
  refine ⟨link'', ?_, hat'⟩
  unfold queryChecked
  rw [Procedure.bind_of_ok hok, hquery]
  dsimp only
  cases errs with
  | nil =>
    have hnone : (checkErrors fl py gauss link').result = .ok () := congrArg Done.result hcheck
    rw [Procedure.bind_of_ok hnone, hcheck]
    rfl
  | cons err rest =>
    have herror : (checkErrors fl py gauss link').result = .error (Bench.report err) :=
      congrArg Done.result hcheck
    rw [Procedure.bind_of_error herror, hcheck]
    rfl

end Talk

/-! ## What the server hears -/

/-- The server has processed the commands that are shown, and no other line. -/
def Heard (fl : Rounding) (py : PyText) (gauss : ℕ → PyFloat → PyFloat → PyFloat) {α : Type}
    (x : Talk α) : Prop :=
  ∀ link, (x link).state.server =
    consume Connection.isEnded (handleLine fl py gauss fun _ => false) link.server
      ((x link).shown.map sentLine)

section Heard

variable {fl : Rounding} {py : PyText} {gauss : ℕ → PyFloat → PyFloat → PyFloat} {α β : Type}

theorem heard_lift (r : Except Raised α) : Heard fl py gauss (Procedure.lift r) := fun _ => rfl

theorem Heard.bind {x : Talk α} {f : α → Talk β} (hx : Heard fl py gauss x)
    (hf : ∀ a, Heard fl py gauss (f a)) : Heard fl py gauss (x >>= f) := by
  intro link
  cases h : (x link).result with
  | ok a =>
    rw [Procedure.bind_of_ok h, List.map_append, consume_append, ← hx link]
    exact hf a (x link).state
  | error e =>
    rw [Procedure.bind_of_error h]
    exact hx link

theorem Heard.map {x : Talk α} (hx : Heard fl py gauss x) (g : α → β) :
    Heard fl py gauss (g <$> x) := by
  intro link
  rw [Procedure.map_apply]
  exact hx link

theorem heard_write (command : Text) : Heard fl py gauss (write fl py gauss command) := by
  intro link
  cases hended : link.server.isEnded with
  | true =>
    unfold write
    rw [Procedure.get_bind, if_pos hended]
    rfl
  | false =>
    have hrunning : ¬ link.server.isEnded = true := by simp [hended]
    rw [write_of_running hended, List.map_singleton, consume_cons hrunning]
    rfl

theorem heard_read : Heard fl py gauss read := by
  intro link
  unfold read
  rw [Procedure.get_bind]
  cases link.server.served.sent[link.read]? with
  | none => rfl
  | some response =>
    dsimp only
    rw [Procedure.modify_bind]
    split_ifs
    · rfl
    · rfl

theorem heard_query (command : Text) : Heard fl py gauss (query fl py gauss command) :=
  (heard_write command).bind fun _ => heard_read

theorem heard_checkErrors : Heard fl py gauss (checkErrors fl py gauss) := by
  refine (heard_query _).bind fun err => ?_
  split_ifs
  · exact heard_lift (.ok ())
  · exact heard_lift (.error _)

theorem heard_writeChecked (command : Text) : Heard fl py gauss (writeChecked fl py gauss command) :=
  (heard_write command).bind fun _ => heard_checkErrors

theorem heard_queryChecked (command : Text) : Heard fl py gauss (queryChecked fl py gauss command) :=
  (heard_query command).bind fun value => heard_checkErrors.bind fun _ => heard_lift (.ok value)

theorem heard_queryCheckedFloat (command : Text) :
    Heard fl py gauss (queryCheckedFloat fl py gauss command) :=
  (heard_queryChecked command).bind fun _ => heard_lift _

theorem heard_flag (command : Text) (read : Text → Bool) :
    Heard fl py gauss (do
      let resp ← queryChecked fl py gauss command
      return read resp) :=
  (heard_queryChecked command).bind fun _ => heard_lift (.ok _)

/-- A method says to the server what it shows. -/
theorem heard_run (channel : ℤ) (method : Bk914x.Method) :
    Heard fl py gauss (run fl py gauss channel method) := by
  cases method with
  | setVoltage voltage => exact (heard_writeChecked _).map _
  | getVoltage => exact (heard_queryCheckedFloat _).map _
  | setCurrentLimit limit => exact (heard_writeChecked _).map _
  | getCurrent => exact (heard_queryCheckedFloat _).map _
  | outputEnable enable => exact (heard_writeChecked _).map _
  | getOutputStatus => exact (heard_flag _ _).map _
  | setOvervoltageProtectionLevel voltage => exact (heard_writeChecked _).map _
  | getOvervoltageProtectionLevel => exact (heard_queryCheckedFloat _).map _
  | setOvervoltageProtectionEnabled enabled => exact (heard_writeChecked _).map _
  | getOvervoltageProtectionEnabled => exact (heard_flag _ _).map _
  | setOvervoltageProtectionDelay delay => exact (heard_lift (.error _)).map _
  | getOvervoltageProtectionDelay => exact (heard_lift (.error _)).map _
  | setOvercurrentProtectionLevel current => exact (heard_writeChecked _).map _
  | getOvercurrentProtectionLevel => exact (heard_queryCheckedFloat _).map _
  | setOvercurrentProtectionEnabled enabled => exact (heard_writeChecked _).map _
  | getOvercurrentProtectionEnabled => exact (heard_flag _ _).map _
  | setRemoteSenseEnabled enabled => exact (heard_writeChecked _).map _
  | getRemoteSenseEnabled => exact (heard_flag _ _).map _

end Heard

/-- The bytes of commands on the wire. -/
def bytesOf (commands : List Text) : List UInt8 :=
  commands.flatMap fun command => sentLine command ++ [newlineByte]

theorem frames_bytesOf {commands : List Text} (h : ∀ command ∈ commands, Plain command) :
    frames newlineByte (bytesOf commands) = commands.map sentLine := by
  induction commands with
  | nil => rfl
  | cons command commands ih =>
    obtain ⟨hplain, hrest⟩ := List.forall_mem_cons.mp h
    unfold bytesOf at ih ⊢
    rw [List.flatMap_cons, List.append_assoc, List.singleton_append,
      frames_frame hplain.newline_not_mem, ih hrest, List.map_cons]

end Instro.Psu.Simulated
