import Instro.Dmm.Readings

/-!
# The configuration of a multimeter

Where one thread configures and the others only read, no setting is lost: the configuration is what the
assignments make of it, and the driver is at most the setting ahead that the thread has still to assign.
-/

namespace Instro.Dmm

open Instro.Library
open Instro.Daq (Measurement)
open Instro.Instrument (Labels)

/-! ## Settings -/

/-- The configuration after a setting. -/
def Setting.apply (config : Option DMMMeasurementConfig) (setting : Setting) :
    Option DMMMeasurementConfig :=
  (setting.replace config).toOption

/-- The configuration after settings, from none. -/
def configured (settings : List Setting) : Option DMMMeasurementConfig :=
  settings.foldl Setting.apply none

@[simp] theorem configured_append_singleton (settings : List Setting) (setting : Setting) :
    configured (settings ++ [setting]) = setting.apply (configured settings) := by
  unfold configured
  rw [List.foldl_append]
  rfl

/-- The driver as the configuration has it. -/
def driverFor (fl : Rounding) (config : Option DMMMeasurementConfig) : Agilent34401A where
  range := config.bind (·.range)
  resolution := (config.bind (·.digits)).bind (Agilent34401A.resMap fl)

/-- The driver takes the setting, and there is something to replace. -/
structure Setting.Fits (fl : Rounding) (setting : Setting) (config : Option DMMMeasurementConfig) :
    Prop where
  accepted : setting.Accepted fl
  replaces : config.isSome ∨ ∃ function, setting = .setMeasurementFunction function

section Settings

variable {fl : Rounding} {setting : Setting} {config : Option DMMMeasurementConfig}

/-- What the driver keeps of a setting is what the configuration has of it. -/
theorem driverFor_apply (h : setting.Fits fl config) :
    driverFor fl (setting.apply config) = setting.keep fl (driverFor fl config) := by
  obtain hsome | ⟨function, rfl⟩ := h.replaces
  · obtain ⟨config, rfl⟩ := Option.isSome_iff_exists.mp hsome
    cases setting with
    | setDigits n =>
      obtain ⟨resolution, hresolution⟩ := Option.isSome_iff_exists.mp (h.accepted n rfl)
      have hnew : driverFor fl ((Setting.setDigits n).apply (some config)) =
          ⟨config.range, Agilent34401A.resMap fl n⟩ := rfl
      rw [hnew, Setting.keep, hresolution]
      rfl
    | _ => rfl
  · cases config <;> rfl

end Settings

section Runs

variable {fl : Rounding}

/-- A driver that has kept settings that fit is as the configuration after them. -/
theorem driverFor_configured {settings : List Setting}
    (h : ∀ before setting, before ++ [setting] <+: settings → setting.Fits fl (configured before)) :
    settings.foldl (fun driver setting => setting.keep fl driver) .new =
      driverFor fl (configured settings) := by
  induction settings using List.reverseRecOn with
  | nil => rfl
  | append_singleton settings setting ih =>
    have hrest := ih fun before next hbefore => h before next (hbefore.trans (List.prefix_append _ _))
    rw [List.foldl_append, hrest, configured_append_singleton,
      driverFor_apply (h settings setting List.prefix_rfl)]
    rfl

/-- Only `set_measurement_function` changes the function. -/
theorem mem_of_function_ne {config config' : DMMMeasurementConfig} {settings : List Setting}
    (h : settings.foldl Setting.apply (some config) = some config')
    (hne : config'.function ≠ config.function) :
    .setMeasurementFunction config'.function ∈ settings := by
  induction settings generalizing config with
  | nil =>
    obtain rfl := Option.some.inj h
    exact absurd rfl hne
  | cons setting settings ih =>
    rw [List.foldl_cons] at h
    by_cases hset : setting = .setMeasurementFunction config'.function
    · exact hset ▸ List.mem_cons_self
    · refine List.mem_cons_of_mem _ ?_
      cases setting with
      | setMeasurementFunction function => exact ih h fun heq => hset (congrArg _ heq.symm)
      | _ => exact ih h hne

end Runs

/-! ## One thread configures -/

variable {ι : Type}

/-- The setting of the call in which a thread is. -/
def Method.setting? : Method → Option Setting
  | .configure setting => some setting
  | .read => none

theorem Method.eq_configure_of_setting {method : Method} {setting : Setting}
    (h : method.setting? = some setting) : method = .configure setting := by
  cases method with
  | read => cases h
  | configure other => exact congrArg _ (Option.some.inj h)

def Stage.setting? : Stage → Option Setting
  | .waiting call | .entered call | .querying call _ | .checking call _ | .leaving call _
  | .left call _ _ => call.method.setting?
  | .assigning setting _ _ _ => some setting
  | .idle | .publishing _ => none

/-- The setting that the driver has accepted and the thread has still to assign. -/
def Stage.pending : Stage → Option Setting
  | .leaving call _ | .left call _ _ => call.method.setting?
  | .assigning setting _ _ _ => some setting
  | _ => none

/-- The settings that have been assigned. -/
def assignedSettings (log : List (ι × Seen)) : List Setting := (assignedOf log).map Prod.fst

@[simp] theorem assignedSettings_append (log seen : List (ι × Seen)) :
    assignedSettings (log ++ seen) = assignedSettings log ++ assignedSettings seen := by
  unfold assignedSettings
  rw [assignedOf_append, List.map_append]

variable [DecidableEq ι] {fl : Rounding} {py : PyText} {labels : Labels} {dmm dmm' : InstroDMM ι}
  {i j u : ι} {m : Move} {log seen : List (ι × Seen)}

namespace Moves

/-- A setting comes with a call. -/
theorem setting_of_call (h : Moves fl py labels dmm i m seen dmm') {setting : Setting}
    (hsetting : (dmm'.stages i).setting? = some setting) :
    (dmm.stages i).setting? = some setting ∨ ∃ call : Call, m = .call call ∧
      call.method = .configure setting ∧ (dmm.measurementConfig.isSome ∨
        ∃ function, setting = .setMeasurementFunction function) := by
  cases h with
  | refuse => exact .inl hsetting
  | @begin call hstage hconfigured =>
    rw [InstroDMM.stages_setStage_self] at hsetting
    obtain ⟨method, kwargs⟩ := call
    cases method with
    | read => cases hsetting
    | configure setting =>
      obtain rfl := Option.some.inj hsetting
      refine .inr ⟨_, rfl, rfl, ?_⟩
      rcases hconfigured with hnone | hsome
      · cases setting with
        | setMeasurementFunction function => exact .inr ⟨function, rfl⟩
        | _ => cases hnone
      · exact .inl hsome
  | acquire hstage | keep hstage | ask hstage | look hstage | receive hstage | confirm hstage
  | measure hstage | release hstage =>
    refine .inl ?_
    rw [hstage]
    simpa [Stage.setting?] using hsetting
  | compute hstage hmethod =>
    refine .inl ?_
    rw [hstage]
    rw [InstroDMM.stages_setStage_self] at hsetting
    exact (congrArg Method.setting? hmethod).trans hsetting
  | _ => simp [InstroDMM.leave, Stage.setting?] at hsetting

/-- A thread that only reads leaves the configuration and the driver alone. -/
theorem of_reading (h : Moves fl py labels dmm i m seen dmm') (hread : (dmm.stages i).setting? = none) :
    dmm'.measurementConfig = dmm.measurementConfig ∧ acceptedOf seen = [] ∧ assignedOf seen = [] := by
  cases h with
  | keep hstage hmethod | confirm hstage _ hmethod =>
    rw [hstage] at hread
    cases hread.symm.trans (congrArg Method.setting? hmethod)
  | assign hstage =>
    rw [hstage] at hread
    cases hread
  | _ => exact ⟨rfl, rfl, rfl⟩

end Moves

/-- One thread configures: the others are in `read`, if they are in a method. -/
structure Configured (fl : Rounding) (u : ι) (dmm : InstroDMM ι) (log : List (ι × Seen)) : Prop where
  alone : ∀ i ≠ u, (dmm.stages i).setting? = none
  guarded : ∀ setting, (dmm.stages u).setting? = some setting →
    dmm.measurementConfig.isSome ∨ ∃ function, setting = .setMeasurementFunction function
  assigning : ∀ setting kwargs config timestamp,
    dmm.stages u = .assigning setting kwargs config timestamp →
      setting.replace dmm.measurementConfig = .ok config
  /-- Every assignment puts its setting into the configuration there was. -/
  config_eq : ∀ before, before <+: log → configOf before = configured (assignedSettings before)
  accepted_eq : acceptedOf log = assignedSettings log ++ (dmm.stages u).pending.toList
  /-- Every setting that is accepted fits. -/
  fits : ∀ settings setting, settings ++ [setting] <+: acceptedOf log →
    setting.Fits fl (configured settings)

/-- A setting that is not one of the calls of another thread. -/
def OnlyConfigures (u : ι) (event : ι × Move) : Prop :=
  ∀ call : Call, event.2 = .call call → call.method ≠ .read → event.1 = u

omit [DecidableEq ι] in
/-- What assigns nothing keeps what is known of the assignments. -/
theorem config_eq_append (hconfig : ∀ before, before <+: log →
      configOf before = configured (assignedSettings before))
    (hseen : assignedOf seen = []) {before : List (ι × Seen)} (hbefore : before <+: log ++ seen) :
    configOf before = configured (assignedSettings before) := by
  rcases List.prefix_or_prefix_of_prefix hbefore (List.prefix_append log seen) with hprefix | ⟨mid, rfl⟩
  · exact hconfig before hprefix
  · have hnone : assignedOf mid = [] := by
      obtain ⟨rest, rfl⟩ := (List.prefix_append_right_inj log).mp hbefore
      rw [assignedOf_append] at hseen
      exact (List.append_eq_nil_iff.mp hseen).1
    have hlog := hconfig log List.prefix_rfl
    rw [configOf_append, assignedSettings_append]
    simpa [configOf, assignedSettings, hnone] using hlog

theorem configured_others (hconfigured : Configured fl u dmm log) (hiu : i ≠ u)
    (honly : OnlyConfigures u (i, m)) (h : Moves fl py labels dmm i m seen dmm') :
    Configured fl u dmm' (log ++ seen) := by
  obtain ⟨hconfig, haccepted, hassigned⟩ := h.of_reading (hconfigured.alone i hiu)
  have hstage := h.others (Ne.symm hiu)
  refine ⟨fun k hku => ?_, ?_, ?_, fun _ => config_eq_append hconfigured.config_eq hassigned, ?_, ?_⟩
  · by_cases hki : k = i
    · subst hki
      rw [Option.eq_none_iff_forall_ne_some]
      intro setting hsetting
      rcases h.setting_of_call hsetting with hold | ⟨call, rfl, hmethod, -⟩
      · cases hold.symm.trans (hconfigured.alone k hiu)
      · exact hku (honly call rfl (by rw [hmethod]; simp))
    · rw [h.others hki]
      exact hconfigured.alone k hku
  · rw [hstage, hconfig]
    exact hconfigured.guarded
  · rw [hstage, hconfig]
    exact hconfigured.assigning
  · rw [hstage, acceptedOf_append, assignedSettings_append, haccepted, List.append_nil,
      hconfigured.accepted_eq]
    simp [assignedSettings, hassigned]
  · rw [acceptedOf_append, haccepted, List.append_nil]
    exact hconfigured.fits

omit [DecidableEq ι] in
/-- Between the settings, the configuration has all that was accepted. -/
theorem config_of_settled (hkept : Kept fl dmm log) (hconfigured : Configured fl u dmm log)
    (hsettled : (dmm.stages u).pending = none) :
    configured (acceptedOf log) = dmm.measurementConfig := by
  rw [hconfigured.accepted_eq, hsettled, Option.toList_none, List.append_nil, hkept.config_eq,
    hconfigured.config_eq log List.prefix_rfl]

omit [DecidableEq ι] in
theorem fits_accept (hkept : Kept fl dmm log) (hconfigured : Configured fl u dmm log)
    (hsettled : (dmm.stages u).pending = none) {setting : Setting}
    (hsetting : (dmm.stages u).setting? = some setting) (haccepts : setting.Accepted fl)
    {settings : List Setting} {setting' : Setting}
    (h : settings ++ [setting'] <+: acceptedOf log ++ [setting]) :
    setting'.Fits fl (configured settings) := by
  rcases List.prefix_concat_iff.mp h with heq | hprefix
  · obtain ⟨rfl, rfl⟩ := List.append_singleton_inj.mp heq
    rw [config_of_settled hkept hconfigured hsettled]
    exact ⟨haccepts, hconfigured.guarded _ hsetting⟩
  · exact hconfigured.fits settings setting' hprefix

theorem guarded_self (hconfigured : Configured fl u dmm log) (h : Moves fl py labels dmm u m seen dmm')
    {setting : Setting} (hsetting : (dmm'.stages u).setting? = some setting) :
    dmm'.measurementConfig.isSome ∨ ∃ function, setting = .setMeasurementFunction function := by
  have hkeeps : dmm.measurementConfig.isSome → dmm'.measurementConfig.isSome := by
    cases h with
    | assign => exact fun _ => rfl
    | _ => exact id
  rcases h.setting_of_call hsetting with hold | ⟨_, -, -, hguarded⟩
  · exact (hconfigured.guarded setting hold).imp_left hkeeps
  · exact hguarded.imp_left hkeeps

theorem assigning_self (hconfigured : Configured fl u dmm log)
    (h : Moves fl py labels dmm u m seen dmm') {setting : Setting} {kwargs : Dict String String}
    {config : DMMMeasurementConfig} {timestamp : ℤ}
    (hstage : dmm'.stages u = .assigning setting kwargs config timestamp) :
    setting.replace dmm'.measurementConfig = .ok config := by
  cases h with
  | refuse => exact hconfigured.assigning _ _ _ _ hstage
  | compute _ _ hreplace =>
    rw [InstroDMM.stages_setStage_self] at hstage
    obtain ⟨rfl, -, rfl, -⟩ := Stage.assigning.inj hstage
    exact hreplace
  | _ => simp [InstroDMM.leave] at hstage

theorem config_eq_self (hkept : Kept fl dmm log) (hconfigured : Configured fl u dmm log)
    (h : Moves fl py labels dmm u m seen dmm') {before : List (ι × Seen)} (hbefore : before <+: log ++ seen) :
    configOf before = configured (assignedSettings before) := by
  cases h with
  | @assign setting kwargs config timestamp hstage =>
    rcases List.prefix_concat_iff.mp hbefore with rfl | hprefix
    · have hreplace := hconfigured.assigning _ _ _ _ hstage
      have hlog := hconfigured.config_eq log List.prefix_rfl
      rw [hkept.config_eq, hlog] at hreplace
      have hnew : assignedSettings [(u, Seen.assigned setting config)] = [setting] := rfl
      rw [configOf_append, assignedSettings_append, hnew, configured_append_singleton, Setting.apply,
        hreplace]
      rfl
    · exact hconfigured.config_eq before hprefix
  | _ => exact config_eq_append hconfigured.config_eq rfl hbefore

theorem accepted_eq_self (hconfigured : Configured fl u dmm log)
    (h : Moves fl py labels dmm u m seen dmm') :
    acceptedOf (log ++ seen) = assignedSettings (log ++ seen) ++ (dmm'.stages u).pending.toList := by
  have hold := hconfigured.accepted_eq
  rw [acceptedOf_append, assignedSettings_append, hold]
  cases h with
  | refuse hstage | begin hstage | acquire hstage | reject hstage | ask hstage | look hstage
  | lose hstage | receive hstage | fail hstage | publish hstage =>
    simp [hstage, Stage.pending, InstroDMM.leave, acceptedOf, assignedSettings, assignedOf]
  | keep hstage hmethod | confirm hstage _ hmethod | measure hstage _ hmethod | compute hstage hmethod
  | label hstage hmethod =>
    simp [hstage, Stage.pending, acceptedOf, assignedSettings, assignedOf, hmethod, Method.setting?]
  | release hstage | assign hstage =>
    simp [hstage, Stage.pending, acceptedOf, assignedSettings, assignedOf]
  | @miss call response timestamp e hstage hnone herror =>
    have hread : call.method.setting? = none := by
      rw [Option.eq_none_iff_forall_ne_some]
      intro setting hsetting
      have hguarded := hconfigured.guarded setting (by rw [hstage]; exact hsetting)
      rw [hnone] at hguarded
      obtain hsome | ⟨function, rfl⟩ := hguarded
      · cases hsome
      · cases herror _ (Method.eq_configure_of_setting hsetting)
    simp [hstage, Stage.pending, acceptedOf, assignedSettings, assignedOf, hread]

theorem fits_self (hkept : Kept fl dmm log) (hconfigured : Configured fl u dmm log)
    (h : Moves fl py labels dmm u m seen dmm') {settings : List Setting} {setting : Setting}
    (hsettings : settings ++ [setting] <+: acceptedOf (log ++ seen)) :
    setting.Fits fl (configured settings) := by
  rw [acceptedOf_append] at hsettings
  cases h with
  | keep hstage hmethod haccepts =>
    refine fits_accept hkept hconfigured (by rw [hstage]; rfl) ?_ haccepts hsettings
    rw [hstage]
    exact congrArg Method.setting? hmethod
  | confirm hstage _ hmethod =>
    obtain ⟨function, rfl⟩ := function_of_checking hkept.proper hstage hmethod
    have haccepts : (Setting.setMeasurementFunction function).Accepted fl := fun _ h => nomatch h
    refine fits_accept hkept hconfigured (by rw [hstage]; rfl) ?_ haccepts hsettings
    rw [hstage]
    exact congrArg Method.setting? hmethod
  | _ => exact hconfigured.fits settings setting (by simpa [acceptedOf] using hsettings)

/-- **Step lemma.** -/
theorem configured_step (hkept : Kept fl dmm log) (hconfigured : Configured fl u dmm log)
    (honly : OnlyConfigures u (i, m)) (h : Moves fl py labels dmm i m seen dmm') :
    Configured fl u dmm' (log ++ seen) := by
  by_cases hiu : i = u
  · subst hiu
    exact ⟨fun k hk => (congrArg Stage.setting? (h.others hk)).trans (hconfigured.alone k hk),
      fun _ => guarded_self hconfigured h, fun _ _ _ _ => assigning_self hconfigured h,
      fun _ => config_eq_self hkept hconfigured h, accepted_eq_self hconfigured h,
      fun _ _ => fits_self hkept hconfigured h⟩
  · exact configured_others hconfigured hiu honly h

omit [DecidableEq ι] in
theorem configured_new : Configured fl u (.new : InstroDMM ι) [] where
  alone _ _ := rfl
  guarded _ h := nomatch h
  assigning _ _ _ _ h := nomatch h
  config_eq before hbefore := by
    rw [List.prefix_nil.mp hbefore]
    rfl
  accepted_eq := rfl
  fits settings setting h := by simp [acceptedOf] at h

/-- **Run lemma.** -/
theorem configured_run {events : List (ι × Move)} (hu : ∀ event ∈ events, OnlyConfigures u event)
    (h : (metering fl py labels).stateAfter .new events = some dmm) :
    Configured fl u dmm ((metering fl py labels).actions .new events) := by
  have hnew : Accounts fl py labels (.new : InstroDMM ι) [] := accounts_new
  have hboth := (metering fl py labels).actions_induction
    (P := fun events log dmm => (∀ event ∈ events, OnlyConfigures u event) →
      Kept fl dmm log ∧ Configured fl u dmm log)
    (fun _ => ⟨hnew.kept, configured_new⟩) ?_ h
  · exact (hboth hu).2
  · intro events log dmm event dmm' ih hstep honly
    obtain ⟨hkept, hconfigured⟩ := ih fun e he => honly e (List.mem_append_left _ he)
    have hmoves := moves_of_some (EventLoop.step_of_ofStep hstep)
    exact ⟨kept_step hkept hmoves, configured_step hkept hconfigured
      (honly event (List.mem_append_right _ (List.mem_singleton.mpr rfl))) hmoves⟩

namespace Configured

variable {before : List (ι × Seen)}

omit [DecidableEq ι] in
/-- The driver after any part of the log is as the settings that it has accepted by then. -/
theorem driverOf_eq (hconfigured : Configured fl u dmm log) (hbefore : before <+: log) :
    driverOf fl before = driverFor fl (configured (acceptedOf before)) := by
  refine driverFor_configured fun settings setting hsettings => ?_
  obtain ⟨rest, rfl⟩ := hbefore
  refine hconfigured.fits settings setting (hsettings.trans ?_)
  rw [acceptedOf_append]
  exact List.prefix_append _ _

/-- The function of the configuration differs from the one looked up where it was set since. -/
theorem set_of_function_ne (hconfigured : Configured fl u dmm log) {talk : List (Text × Answer)}
    (since : Since i talk before) (hbefore : before <+: log) {function : MeasurementFunction}
    (hfunction : (configOf before).map (·.function) = some function) (hne : function ≠ since.function) :
    .setMeasurementFunction function ∈ assignedSettings since.mid := by
  have hpre : since.pre <+: log := List.IsPrefix.trans ⟨_, since.log_eq.symm⟩ hbefore
  have hsettings : assignedSettings before =
      assignedSettings since.pre ++ assignedSettings since.mid :=
    (congrArg assignedSettings since.log_eq).trans (assignedSettings_append _ _)
  obtain ⟨config, hconfig, hlooked⟩ := Option.map_eq_some_iff.mp since.function_eq
  obtain ⟨config', hconfig', rfl⟩ := Option.map_eq_some_iff.mp hfunction
  rw [hconfigured.config_eq _ hbefore, hsettings, configured, List.foldl_append, ← configured,
    ← hconfigured.config_eq _ hpre, hconfig] at hconfig'
  refine mem_of_function_ne hconfig' ?_
  rw [hlooked]
  exact hne

end Configured

/-- What holds where one thread configures. -/
structure Followed (fl : Rounding) (py : PyText) (labels : Labels) (u : ι) (dmm : InstroDMM ι)
    (log : List (ι × Seen)) : Prop where
  /-- The configuration is what the settings make of it, in the order in which they were assigned. -/
  config_eq : dmm.measurementConfig = configured (assignedSettings log)
  /-- The driver has accepted one setting more at most. -/
  accepted_eq : acceptedOf log = assignedSettings log ++ (dmm.stages u).pending.toList
  driver_eq : dmm.driver = driverFor fl (configured (acceptedOf log))
  /-- Every reading was measured with the range and the resolution of the settings that had been
  accepted, and has another label only where the function was set meanwhile. -/
  readings : ∀ before i measurement,
    before ++ [(i, .returned (.ok (.measurement measurement)))] <+: log →
      ∃ made : Reading fl py labels i measurement before,
        made.answered.command =
            (driverFor fl (configured (acceptedOf made.answered.since.pre))).measurement
              made.answered.since.function ∧
          (made.label ≠ made.answered.since.function →
            .setMeasurementFunction made.label ∈ assignedSettings made.answered.since.mid)

/-- One thread configures, beside any others that read. -/
theorem configuration_followed {events : List (ι × Move)}
    (hu : ∀ event ∈ events, OnlyConfigures u event)
    (h : (metering fl py labels).stateAfter .new events = some dmm) :
    Followed fl py labels u dmm ((metering fl py labels).actions .new events) := by
  have hkept := (accounts_run h).kept
  have hconfigured := configured_run hu h
  refine ⟨?_, hconfigured.accepted_eq, ?_, fun before i measurement hbefore => ?_⟩
  · rw [hkept.config_eq, hconfigured.config_eq _ List.prefix_rfl]
  · rw [hkept.driver_eq, hconfigured.driverOf_eq List.prefix_rfl]
  · obtain ⟨made⟩ := (accounts_run h).made before i measurement hbefore
    have hearlier : made.earlier <+: (metering fl py labels).actions .new events :=
      List.IsPrefix.trans ⟨_, made.log_eq.symm⟩ ((List.prefix_append _ _).trans hbefore)
    have hpre : made.answered.since.pre <+: (metering fl py labels).actions .new events :=
      List.IsPrefix.trans ⟨_, made.answered.since.log_eq.symm⟩ hearlier
    refine ⟨made, ?_, hconfigured.set_of_function_ne made.answered.since hearlier made.label_eq⟩
    exact made.answered.command_eq.symm.trans
      (congrArg (·.measurement made.answered.since.function) (hconfigured.driverOf_eq hpre))

theorem configuration_followed_race :
    ∃ dmm : InstroDMM Bool,
      (metering double wholeText raceLabels).stateAfter .new raceEvents = some dmm ∧
      Followed double wholeText raceLabels false dmm
        ((metering double wholeText raceLabels).actions .new raceEvents) := by
  have hends : ((metering double wholeText raceLabels).stateAfter (.new : InstroDMM Bool)
      raceEvents).isSome = true := by decide +kernel
  obtain ⟨dmm, hdmm⟩ := Option.isSome_iff_exists.mp hends
  refine ⟨dmm, hdmm, configuration_followed ?_ hdmm⟩
  simp [raceEvents, configuring, OnlyConfigures]

end Instro.Dmm
