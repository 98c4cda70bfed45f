import Instro.Dmm.InstroDMM

/-!
# The readings of a multimeter

Whatever the threads do, a reading that `read` publishes is what the meter answered to the command that the
same `read` sent, and nothing else was sent until the meter had answered for its error. The reading
is published under the function of the configuration that the thread sees after it has released the lock.
-/

namespace Instro.Dmm

open Instro.Library
open Instro.Daq (Measurement)
open Instro.Instrument (Labels)

variable {ι : Type}

/-! ## Logs -/

section Logs

variable (fl : Rounding) (i : ι) (log : List (ι × Seen))

/-- What has been sent and answered. -/
def wire : List (ι × Text × Answer) :=
  log.filterMap fun (i, seen) =>
    match seen with
    | .talked command answer => some (i, command, answer)
    | _ => none

def acceptedOf : List Setting :=
  log.filterMap fun (_, seen) =>
    match seen with
    | .accepted setting => some setting
    | _ => none

def assignedOf : List (Setting × DMMMeasurementConfig) :=
  log.filterMap fun (_, seen) =>
    match seen with
    | .assigned setting config => some (setting, config)
    | _ => none

/-- What a thread has done. -/
def own [DecidableEq ι] : List Seen := log.filterMap fun (j, seen) => if j = i then some seen else none

/-- The configuration that was assigned last. -/
def configOf : Option DMMMeasurementConfig := (assignedOf log).getLast?.map Prod.snd

/-- The driver with all it has accepted. -/
def driverOf : Agilent34401A := (acceptedOf log).foldl (fun driver setting => setting.keep fl driver) .new

end Logs

section Append

variable {i : ι} (log seen : List (ι × Seen))

@[simp] theorem wire_append : wire (log ++ seen) = wire log ++ wire seen := List.filterMap_append

@[simp] theorem acceptedOf_append : acceptedOf (log ++ seen) = acceptedOf log ++ acceptedOf seen :=
  List.filterMap_append

@[simp] theorem assignedOf_append : assignedOf (log ++ seen) = assignedOf log ++ assignedOf seen :=
  List.filterMap_append

@[simp] theorem own_append [DecidableEq ι] : own i (log ++ seen) = own i log ++ own i seen := List.filterMap_append

theorem configOf_append : configOf (log ++ seen) = (configOf seen).or (configOf log) := by
  unfold configOf
  rw [assignedOf_append, List.getLast?_append, Option.map_or]

theorem driverOf_append {fl : Rounding} : driverOf fl (log ++ seen) =
    (acceptedOf seen).foldl (fun driver setting => setting.keep fl driver) (driverOf fl log) := by
  unfold driverOf
  rw [acceptedOf_append, List.foldl_append]

theorem own_of_tagged [DecidableEq ι] {j : ι} {seen : List (ι × Seen)} (hseen : ∀ entry ∈ seen, entry.1 = j)
    (hij : j ≠ i) : own i seen = [] := by
  refine List.filterMap_eq_nil_iff.mpr fun entry hentry => ?_
  exact if_neg fun h => hij ((hseen entry hentry).symm.trans h)

end Append

variable [DecidableEq ι] {fl : Rounding} {py : PyText} {labels : Labels} {dmm dmm' : InstroDMM ι} {i j : ι}
  {m : Move} {log seen : List (ι × Seen)}

/-! ## Steps -/

namespace InstroDMM

@[simp] theorem stages_setStage_self (dmm : InstroDMM ι) (i : ι) (stage : Stage) :
    (dmm.setStage i stage).stages i = stage := Function.update_self _ _ _

@[simp] theorem stages_leave_self (dmm : InstroDMM ι) (i : ι) : (dmm.leave i).stages i = .idle :=
  Function.update_self _ _ _

end InstroDMM

namespace Moves

theorem tagged (h : Moves fl py labels dmm i m seen dmm') : ∀ entry ∈ seen, entry.1 = i := by
  cases h <;> simp

theorem others (h : Moves fl py labels dmm i m seen dmm') (hji : j ≠ i) :
    dmm'.stages j = dmm.stages j := by
  cases h with
  | refuse => rfl
  | _ => exact Function.update_of_ne hji _ _

/-- Only a thread that holds the lock is on the wire. -/
theorem wire_eq_nil (h : Moves fl py labels dmm i m seen dmm')
    (hfree : (dmm.stages i).holding = false) : wire seen = [] := by
  cases h with
  | lose hstage | receive hstage | fail hstage | confirm hstage | measure hstage =>
    rw [hstage] at hfree
    cases hfree
  | _ => rfl

/-- What becomes of the lock. -/
theorem owner (h : Moves fl py labels dmm i m seen dmm') :
    (dmm'.owner = dmm.owner ∧ ((dmm'.stages i).holding = true → (dmm.stages i).holding = true)) ∨
    (dmm.owner = none ∧ dmm'.owner = some i) ∨
    ((dmm.stages i).holding = true ∧ (dmm'.stages i).holding = false ∧ dmm'.owner = none) := by
  cases h with
  | refuse => exact .inl ⟨rfl, id⟩
  | acquire _ hfree => exact .inr (.inl ⟨hfree, rfl⟩)
  | reject hstage | lose hstage | fail hstage | release hstage =>
    exact .inr (.inr ⟨by rw [hstage]; rfl, by simp [InstroDMM.leave, Stage.holding], rfl⟩)
  | keep hstage | ask hstage | look hstage | receive hstage | confirm hstage | measure hstage =>
    exact .inl ⟨rfl, fun _ => by rw [hstage]; rfl⟩
  | _ => exact .inl ⟨rfl, fun h => by simp [Stage.holding] at h⟩

end Moves

/-! ## What is kept -/

/-- A thread that waits for a measurement is in `read` or `set_measurement_function`. -/
def Stage.Proper : Stage → Prop
  | .querying call command =>
    (∀ setting, call.method = .configure setting → ∃ function, setting = .setMeasurementFunction function) ∧
      ∃ (driver : Agilent34401A) (function : MeasurementFunction), command = driver.measurement function
  | .checking call _ =>
    ∀ setting, call.method = .configure setting → ∃ function, setting = .setMeasurementFunction function
  | _ => True

omit [DecidableEq ι] in
theorem measurement_of_querying (hproper : ∀ i, (dmm.stages i).Proper) {call : Call} {command : Text}
    (hstage : dmm.stages i = .querying call command) :
    ∃ (driver : Agilent34401A) (function : MeasurementFunction),
      command = driver.measurement function := by
  have hold := hproper i
  rw [hstage] at hold
  exact hold.2

omit [DecidableEq ι] in
theorem function_of_checking (hproper : ∀ i, (dmm.stages i).Proper) {call : Call} {value : Text}
    {setting : Setting} (hstage : dmm.stages i = .checking call value)
    (hmethod : call.method = .configure setting) :
    ∃ function, setting = .setMeasurementFunction function := by
  have hold := hproper i
  rw [hstage] at hold
  exact hold _ hmethod

structure Kept (fl : Rounding) (dmm : InstroDMM ι) (log : List (ι × Seen)) : Prop where
  /-- One thread holds the lock at most. -/
  exclusive : ∀ i, (dmm.stages i).holding = true → dmm.owner = some i
  proper : ∀ i, (dmm.stages i).Proper
  /-- The configuration is what was assigned last, and the driver has what it has accepted. -/
  config_eq : dmm.measurementConfig = configOf log
  driver_eq : dmm.driver = driverOf fl log

omit [DecidableEq ι] in
/-- While a thread holds the lock, no other does. -/
theorem Kept.holding_eq_false (hkept : Kept fl dmm log) (hi : (dmm.stages i).holding = true)
    (hji : j ≠ i) : (dmm.stages j).holding = false := by
  by_contra hholding
  have howner := hkept.exclusive j (by simpa using hholding)
  exact hji (Option.some.inj (howner.symm.trans (hkept.exclusive i hi)))

theorem exclusive_step (hexclusive : ∀ i, (dmm.stages i).holding = true → dmm.owner = some i)
    (h : Moves fl py labels dmm i m seen dmm') {j : ι} (hj : (dmm'.stages j).holding = true) :
    dmm'.owner = some j := by
  by_cases hji : j = i
  · subst hji
    obtain ⟨howner, hkeeps⟩ | ⟨-, howner⟩ | ⟨-, hfree, -⟩ := h.owner
    · exact howner.trans (hexclusive j (hkeeps hj))
    · exact howner
    · cases hj.symm.trans hfree
  · rw [h.others hji] at hj
    have hown := hexclusive j hj
    obtain ⟨howner, -⟩ | ⟨hnone, -⟩ | ⟨hholding, -⟩ := h.owner
    · exact howner.trans hown
    · cases hnone.symm.trans hown
    · exact absurd (Option.some.inj (hown.symm.trans (hexclusive i hholding))) hji

theorem proper_step (hproper : ∀ i, (dmm.stages i).Proper) (h : Moves fl py labels dmm i m seen dmm')
    (j : ι) : (dmm'.stages j).Proper := by
  by_cases hji : j = i
  · subst hji
    cases h with
    | refuse => exact hproper j
    | ask hstage hmethod =>
      rw [InstroDMM.stages_setStage_self]
      refine ⟨fun setting hsetting => ?_, _, _, rfl⟩
      obtain rfl := Method.configure.inj (hmethod.symm.trans hsetting)
      exact ⟨_, rfl⟩
    | look hstage hmethod =>
      rw [InstroDMM.stages_setStage_self]
      exact ⟨fun setting hsetting => absurd (hmethod.symm.trans hsetting) (by simp), _, _, rfl⟩
    | receive hstage =>
      have hold := hproper j
      rw [hstage] at hold
      rw [InstroDMM.stages_setStage_self]
      exact hold.1
    | _ => simp [InstroDMM.leave, Stage.Proper]
  · rw [h.others hji]
    exact hproper j

theorem config_step (hconfig : dmm.measurementConfig = configOf log)
    (h : Moves fl py labels dmm i m seen dmm') : dmm'.measurementConfig = configOf (log ++ seen) := by
  rw [configOf_append]
  cases h with
  | assign => rfl
  | _ => exact hconfig

theorem driver_step (hproper : ∀ i, (dmm.stages i).Proper) (hdriver : dmm.driver = driverOf fl log)
    (h : Moves fl py labels dmm i m seen dmm') : dmm'.driver = driverOf fl (log ++ seen) := by
  rw [driverOf_append, ← hdriver]
  cases h with
  | confirm hstage _ hmethod =>
    obtain ⟨function, rfl⟩ := function_of_checking hproper hstage hmethod
    rfl
  | _ => rfl

theorem kept_step (hkept : Kept fl dmm log) (h : Moves fl py labels dmm i m seen dmm') :
    Kept fl dmm' (log ++ seen) where
  exclusive _ := exclusive_step hkept.exclusive h
  proper := proper_step hkept.proper h
  config_eq := config_step hkept.config_eq h
  driver_eq := driver_step hkept.proper hkept.driver_eq h

/-! ## The wire -/

/-- Every measurement that was answered is followed by the query for the error, of the same thread. -/
inductive Paired : List (ι × Text × Answer) → Prop
  | nil : Paired []
  | lost {talk answer e} (i : ι) (driver : Agilent34401A) (function : MeasurementFunction)
      (h : Paired talk) (htext : answer.text = .error e) :
    Paired (talk ++ [(i, driver.measurement function, answer)])
  | answered {talk answer value} (i : ι) (driver : Agilent34401A) (function : MeasurementFunction)
      (errors : Answer) (h : Paired talk) (htext : answer.text = .ok value) :
    Paired (talk ++ [(i, driver.measurement function, answer), (i, InstroDMM.errorQuery, errors)])

/-- A thread may be between the two queries. -/
inductive OnWire (dmm : InstroDMM ι) (log : List (ι × Seen)) : Prop
  | whole (hnone : ∀ i call value, dmm.stages i ≠ .checking call value) (h : Paired (wire log))
  | between {i call value talk answer} (hstage : dmm.stages i = .checking call value)
      (driver : Agilent34401A) (function : MeasurementFunction)
      (hwire : wire log = talk ++ [(i, driver.measurement function, answer)])
      (htext : answer.text = .ok value) (h : Paired talk)

/-- Behind the query for the error, no thread is between the two. -/
theorem not_checking_of_left (hkept : Kept fl dmm log) (h : Moves fl py labels dmm i m seen dmm')
    {call : Call} {value : Text} (hstage : dmm.stages i = .checking call value)
    (hleft : ∀ call value, dmm'.stages i ≠ .checking call value) :
    ∀ j call value, dmm'.stages j ≠ .checking call value := by
  intro j call' value' hj
  by_cases hji : j = i
  · exact hleft call' value' (hji ▸ hj)
  · rw [h.others hji] at hj
    have hother := hkept.holding_eq_false (by rw [hstage]; rfl) hji
    rw [hj] at hother
    cases hother

theorem onWire_step (hkept : Kept fl dmm log) (hwire : OnWire dmm log)
    (h : Moves fl py labels dmm i m seen dmm') : OnWire dmm' (log ++ seen) := by
  cases hwire with
  | whole hnone hpaired =>
    have hrest (hleft : ∀ call value, dmm'.stages i ≠ .checking call value) :
        ∀ j call value, dmm'.stages j ≠ .checking call value := by
      intro j call value
      by_cases hji : j = i
      · exact hji ▸ hleft call value
      · rw [h.others hji]
        exact hnone j call value
    cases h with
    | @receive call command answer value hstage htext =>
      obtain ⟨driver, function, rfl⟩ := measurement_of_querying hkept.proper hstage
      exact .between (InstroDMM.stages_setStage_self _ _ _) driver function (wire_append _ _) htext
        hpaired
    | @lose call command answer e hstage htext =>
      obtain ⟨driver, function, rfl⟩ := measurement_of_querying hkept.proper hstage
      refine .whole (hrest fun _ _ => by simp) ?_
      rw [wire_append]
      exact hpaired.lost i driver function htext
    | fail hstage | confirm hstage | measure hstage => exact absurd hstage (hnone i _ _)
    | refuse => exact .whole hnone (by simpa [wire] using hpaired)
    | _ => exact .whole (hrest fun _ _ => by simp [InstroDMM.leave]) (by simpa [wire] using hpaired)
  | @between k call value talk answer hstage driver function htalk htext hpaired =>
    by_cases hki : k = i
    · subst hki
      have hwhole (errors : Answer) (hleft : ∀ call value, dmm'.stages k ≠ .checking call value)
          (hseen : wire seen = [(k, InstroDMM.errorQuery, errors)]) : OnWire dmm' (log ++ seen) := by
        refine .whole (not_checking_of_left hkept h hstage hleft) ?_
        rw [wire_append, htalk, hseen, List.append_assoc]
        exact hpaired.answered k driver function errors htext
      cases h with
      | refuse hother | begin hother | acquire hother | reject hother | keep hother | ask hother
      | look hother | lose hother | receive hother | release hother | compute hother | label hother
      | miss hother | assign hother | publish hother => cases hother.symm.trans hstage
      | @fail _ _ errors => exact hwhole errors (fun _ _ => by simp) rfl
      | @confirm _ _ _ errors => exact hwhole errors (fun _ _ => by simp) rfl
      | @measure _ _ errors => exact hwhole errors (fun _ _ => by simp) rfl
    · have hfree : (dmm.stages i).holding = false :=
        hkept.holding_eq_false (by rw [hstage]; rfl) (Ne.symm hki)
      refine .between ((h.others hki).trans hstage) driver function ?_ htext hpaired
      rw [wire_append, h.wire_eq_nil hfree, List.append_nil, htalk]

/-! ## Readings -/

section Accounts

variable (fl : Rounding) (py : PyText) (labels : Labels) (i : ι)

/-- A `read` of a thread since it has looked up the function, with what it has sent since. -/
structure Since (talk : List (Text × Answer)) (log : List (ι × Seen)) where
  function : MeasurementFunction
  pre : List (ι × Seen)
  mid : List (ι × Seen)
  log_eq : log = pre ++ (i, .looked function) :: mid
  /-- It was the function of the configuration. -/
  function_eq : (configOf pre).map (·.function) = some function
  own_eq : own i mid = talk.map fun (command, answer) => .talked command answer
  /-- Nothing else was sent before it was answered. -/
  wire_eq : ∃ rest, wire mid = talk.map (fun (command, answer) => (i, command, answer)) ++ rest

/-- The command of the measurement, with the range and the resolution that the driver has. -/
def Since.command {i : ι} {talk : List (Text × Answer)} {log : List (ι × Seen)}
    (since : Since i talk log) : Text := (driverOf fl since.pre).measurement since.function

/-- A `read` that has its response. -/
structure Answered (x : PyFloat) (log : List (ι × Seen)) where
  command : Text
  answer : Answer
  errors : Answer
  value : Text
  since : Since i [(command, answer), (InstroDMM.errorQuery, errors)] log
  command_eq : since.command fl = command
  text_eq : answer.text = .ok value
  reading_eq : reading py value errors = .ok x

/-- Where a measurement that `read` publishes comes from. -/
structure Reading (measurement : Measurement) (log : List (ι × Seen)) where
  x : PyFloat
  label : MeasurementFunction
  timestamp : ℤ
  kwargs : Dict String String
  earlier : List (ι × Seen)
  late : List (ι × Seen)
  answered : Answered fl py i x earlier
  log_eq : log = earlier ++ (i, .labelled label) :: late
  /-- The label is the function of the configuration when the thread reads it again. -/
  label_eq : (configOf earlier).map (·.function) = some label
  late_eq : own i late = []
  measured_eq : measured labels fl label (some x) timestamp kwargs = .ok measurement

end Accounts

namespace Since

variable {talk : List (Text × Answer)}

/-- What other threads do. -/
def others (since : Since i talk log) (hseen : own i seen = []) : Since i talk (log ++ seen) where
  function := since.function
  pre := since.pre
  mid := since.mid ++ seen
  log_eq := (congrArg (· ++ seen) since.log_eq).trans (List.append_assoc _ _ _)
  function_eq := since.function_eq
  own_eq := by rw [own_append, hseen, List.append_nil, since.own_eq]
  wire_eq := by
    obtain ⟨rest, hwire⟩ := since.wire_eq
    exact ⟨rest ++ wire seen, by rw [wire_append, hwire, List.append_assoc]⟩

/-- The thread sends a command with the lock still held. -/
def talked (since : Since i talk log) {command : Text} {answer : Answer}
    (hheld : wire since.mid = talk.map fun (command, answer) => (i, command, answer)) :
    Since i (talk ++ [(command, answer)]) (log ++ [(i, .talked command answer)]) where
  function := since.function
  pre := since.pre
  mid := since.mid ++ [(i, .talked command answer)]
  log_eq := (congrArg (· ++ [(i, .talked command answer)]) since.log_eq).trans (List.append_assoc _ _ _)
  function_eq := since.function_eq
  own_eq := by
    rw [own_append, since.own_eq, List.map_append]
    simp [own]
  wire_eq := ⟨[], by
    rw [wire_append, hheld, List.map_append, List.append_nil]
    rfl⟩

end Since

def Answered.others {x : PyFloat} (answered : Answered fl py i x log) (hseen : own i seen = []) :
    Answered fl py i x (log ++ seen) :=
  { answered with since := answered.since.others hseen }

def Reading.others {measurement : Measurement} (made : Reading fl py labels i measurement log)
    (hseen : own i seen = []) : Reading fl py labels i measurement (log ++ seen) :=
  { made with
    late := made.late ++ seen
    log_eq := (congrArg (· ++ seen) made.log_eq).trans (List.append_assoc _ _ _)
    late_eq := by rw [own_append, made.late_eq, hseen, List.append_nil] }

/-- What the log says of the call in which a thread is. -/
def Story (fl : Rounding) (py : PyText) (labels : Labels) (i : ι) (log : List (ι × Seen)) :
    Stage → Prop
  | .querying call command => call.method = .read →
    ∃ since : Since i [] log, since.command fl = command ∧ wire since.mid = []
  | .checking call value => call.method = .read →
    ∃ (command : Text) (answer : Answer) (since : Since i [(command, answer)] log),
      since.command fl = command ∧ wire since.mid = [(i, command, answer)] ∧ answer.text = .ok value
  | .leaving call response | .left call response _ => call.method = .read →
    ∃ x, response = some x ∧ Nonempty (Answered fl py i x log)
  | .publishing outcome => ∀ measurement, outcome = .ok (.measurement measurement) →
    Nonempty (Reading fl py labels i measurement log)
  | _ => True

/-- While a thread has the lock, the others send nothing. -/
theorem Story.others {stage : Stage} (h : Story fl py labels i log stage) (hown : own i seen = [])
    (hwire : stage.holding = true → wire seen = []) : Story fl py labels i (log ++ seen) stage := by
  cases stage with
  | querying call command =>
    intro hread
    obtain ⟨since, hcommand, hmid⟩ := h hread
    exact ⟨since.others hown, hcommand, (wire_append _ _).trans (by rw [hmid, hwire rfl]; rfl)⟩
  | checking call value =>
    intro hread
    obtain ⟨command, answer, since, hcommand, hmid, htext⟩ := h hread
    exact ⟨command, answer, since.others hown, hcommand,
      (wire_append _ _).trans (by rw [hmid, hwire rfl]; rfl), htext⟩
  | leaving call response | left call response timestamp =>
    intro hread
    obtain ⟨x, hresponse, ⟨answered⟩⟩ := h hread
    exact ⟨x, hresponse, ⟨answered.others hown⟩⟩
  | publishing outcome =>
    intro measurement hmeasurement
    obtain ⟨made⟩ := h measurement hmeasurement
    exact ⟨made.others hown⟩
  | _ => trivial

/-- **Step lemma.** The thread itself. -/
theorem story_self (hkept : Kept fl dmm log) (hstory : Story fl py labels i log (dmm.stages i))
    (h : Moves fl py labels dmm i m seen dmm') :
    Story fl py labels i (log ++ seen) (dmm'.stages i) := by
  cases h with
  | refuse hstage =>
    rw [hstage]
    trivial
  | begin | acquire | reject | lose | fail | compute | miss | publish =>
    simp [InstroDMM.leave, Story]
  | keep _ hmethod | confirm _ _ hmethod =>
    simp [Story, hmethod]
  | ask _ hmethod => simp [Story, hmethod]
  | @look call config hstage hmethod hconfig =>
    rw [InstroDMM.stages_setStage_self]
    refine fun _ => ⟨⟨config.function, log, [], rfl, ?_, rfl, [], rfl⟩, ?_, rfl⟩
    · rw [← hkept.config_eq, hconfig]
      rfl
    · rw [hkept.driver_eq]
      rfl
  | @receive call command answer value hstage htext =>
    rw [InstroDMM.stages_setStage_self]
    intro hread
    rw [hstage] at hstory
    obtain ⟨since, hcommand, hmid⟩ := hstory hread
    refine ⟨command, answer, since.talked hmid, hcommand, ?_, htext⟩
    exact (wire_append _ _).trans (by rw [hmid]; rfl)
  | @measure call value errors x hstage hreading hmethod =>
    rw [InstroDMM.stages_setStage_self]
    intro hread
    rw [hstage] at hstory
    obtain ⟨command, answer, since, hcommand, hmid, htext⟩ := hstory hread
    exact ⟨x, rfl, ⟨command, answer, errors, value, since.talked hmid, hcommand, htext, hreading⟩⟩
  | release hstage =>
    rw [hstage] at hstory
    rw [List.append_nil]
    exact (InstroDMM.stages_setStage_self dmm i _).symm ▸ hstory
  | @label call config response timestamp hstage hmethod hconfig =>
    rw [InstroDMM.stages_setStage_self]
    intro measurement hmeasurement
    rw [hstage] at hstory
    obtain ⟨x, rfl, ⟨answered⟩⟩ := hstory hmethod
    refine ⟨⟨x, config.function, timestamp, call.kwargs, log, [], answered, rfl, ?_, rfl, ?_⟩⟩
    · rw [← hkept.config_eq, hconfig]
      rfl
    · cases hmeasured : measured labels fl config.function (some x) timestamp call.kwargs with
      | error e =>
        rw [hmeasured] at hmeasurement
        cases hmeasurement
      | ok made =>
        rw [hmeasured] at hmeasurement
        exact congrArg Except.ok (Published.measurement.inj (Except.ok.inj hmeasurement))
  | @assign setting kwargs config timestamp =>
    show Story fl py labels i _ ((dmm.setStage i _).stages i)
    rw [InstroDMM.stages_setStage_self]
    intro measurement hmeasurement
    -- a command is no measurement
    cases hcommand : setting.command labels fl timestamp kwargs <;>
      exact nomatch hcommand ▸ hmeasurement

/-- What `Story` says of all threads, and of the measurements that have been published. -/
structure Accounts (fl : Rounding) (py : PyText) (labels : Labels) (dmm : InstroDMM ι)
    (log : List (ι × Seen)) : Prop where
  kept : Kept fl dmm log
  onWire : OnWire dmm log
  stories : ∀ i, Story fl py labels i log (dmm.stages i)
  made : ∀ before i measurement,
    before ++ [(i, .returned (.ok (.measurement measurement)))] <+: log →
      Nonempty (Reading fl py labels i measurement before)

/-- What stands at the end of a beginning was there before, or is new. -/
theorem prefix_of_not_mem {α : Type*} {before log seen : List α} {a : α}
    (h : before ++ [a] <+: log ++ seen) (hseen : a ∉ seen) : before ++ [a] <+: log := by
  induction seen using List.reverseRecOn with
  | nil => rwa [List.append_nil] at h
  | append_singleton seen b ih =>
    rw [List.mem_append, not_or] at hseen
    rw [← List.append_assoc] at h
    rcases List.prefix_concat_iff.mp h with heq | hprefix
    · exact absurd (List.mem_singleton.mpr (List.append_singleton_inj.mp heq).2) hseen.2
    · exact ih hprefix hseen.1

theorem accounts_new : Accounts fl py labels (.new : InstroDMM ι) [] where
  kept := ⟨fun _ => Bool.noConfusion, fun _ => trivial, rfl, rfl⟩
  onWire := .whole (fun _ _ _ => Stage.noConfusion) .nil
  stories _ := trivial
  made before i measurement h := by simp at h

theorem accounts_step (haccounts : Accounts fl py labels dmm log)
    (h : Moves fl py labels dmm i m seen dmm') : Accounts fl py labels dmm' (log ++ seen) where
  kept := kept_step haccounts.kept h
  onWire := onWire_step haccounts.kept haccounts.onWire h
  stories j := by
    by_cases hji : j = i
    · subst hji
      exact story_self haccounts.kept (haccounts.stories j) h
    · rw [h.others hji]
      refine (haccounts.stories j).others (own_of_tagged h.tagged (Ne.symm hji)) fun hholding => ?_
      exact h.wire_eq_nil (haccounts.kept.holding_eq_false hholding (Ne.symm hji))
  made before j measurement hbefore := by
    cases h with
    | @publish outcome hstage =>
      rcases List.prefix_concat_iff.mp hbefore with heq | hprefix
      · obtain ⟨rfl, hentry⟩ := List.append_singleton_inj.mp heq
        obtain ⟨rfl, houtcome⟩ := Prod.mk.inj hentry
        have hstory := haccounts.stories j
        rw [hstage] at hstory
        exact hstory measurement (Seen.returned.inj houtcome).symm
      · exact haccounts.made before j measurement hprefix
    | _ => exact haccounts.made before j measurement (prefix_of_not_mem hbefore (by simp))

/-- **Run lemma.** -/
theorem accounts_run {events : List (ι × Move)}
    (h : (metering fl py labels).stateAfter .new events = some dmm) :
    Accounts fl py labels dmm ((metering fl py labels).actions .new events) := by
  refine EventLoop.actions_induction _ (P := fun _ log dmm => Accounts fl py labels dmm log)
    accounts_new ?_ h
  intro _ log dmm event dmm' haccounts hstep
  exact accounts_step haccounts (moves_of_some (EventLoop.step_of_ofStep hstep))

/-- The function of the configuration that was assigned last since the look-up, if one was. -/
def Since.newest {talk : List (Text × Answer)} (since : Since i talk log) : MeasurementFunction :=
  ((configOf since.mid).map (·.function)).getD since.function

/-- The label is the function that was measured, unless another one was assigned in between. -/
theorem Reading.label_eq_newest {measurement : Measurement}
    (made : Reading fl py labels i measurement log) : made.label = made.answered.since.newest := by
  have hconfig : configOf made.earlier =
      (configOf made.answered.since.mid).or (configOf made.answered.since.pre) :=
    (congrArg configOf made.answered.since.log_eq).trans (configOf_append _ _)
  have hlabel := made.label_eq
  rw [hconfig, Option.map_or, made.answered.since.function_eq] at hlabel
  unfold Since.newest
  cases hmid : (configOf made.answered.since.mid).map (·.function) with
  | none =>
    rw [hmid] at hlabel
    exact (Option.some.inj hlabel).symm
  | some other =>
    rw [hmid] at hlabel
    exact (Option.some.inj hlabel).symm

/-- Any number of threads in the methods of a multimeter, however their statements follow each other and
whatever the meter answers: every measurement that is published is what the meter answered to the command of
the same `read`, and it is published under the function of the configuration that was assigned last. -/
theorem readings_answered {events : List (ι × Move)}
    (h : (metering fl py labels).stateAfter .new events = some dmm) :
    (dmm.owner = none → Paired (wire ((metering fl py labels).actions .new events))) ∧
      ∀ before i measurement, before ++ [(i, .returned (.ok (.measurement measurement)))] <+:
          (metering fl py labels).actions .new events →
        ∃ made : Reading fl py labels i measurement before,
          made.label = made.answered.since.newest := by
  have haccounts := accounts_run h
  refine ⟨fun hfree => ?_, fun before i measurement hbefore => ?_⟩
  · cases haccounts.onWire with
    | whole _ hpaired => exact hpaired
    | between hstage =>
      have howner := haccounts.kept.exclusive _ (by rw [hstage]; rfl)
      cases hfree.symm.trans howner
  · obtain ⟨made⟩ := haccounts.made before i measurement hbefore
    exact ⟨made, made.label_eq_newest⟩

/-- Whole numbers, as `float` reads them. -/
def wholeText : PyText where
  upperChar c := [c.toUpper]
  float text := if text ≠ [] ∧ text.all PyText.isDigit then
      (PyText.toInt text).toOption.map fun n => .finite n
    else none

/-- A call of `set_measurement_function` up to the release of the lock. -/
def configuring (function : MeasurementFunction) : List (Bool × Move) :=
  [(false, .call ⟨.configure (.setMeasurementFunction function), .ofList []⟩), (false, .acquire),
    (false, .drive), (false, .answer (some [0x31])), (false, .answer (some [0x30])), (false, .release 1)]

/-- The function is assigned between the look-up and the label of a `read` of another thread. -/
def raceEvents : List (Bool × Move) :=
  configuring .dcVoltage ++ [(false, .load), (false, .assign), (false, .publish)] ++
    configuring .dcCurrent ++ [(false, .load),
      (true, .call ⟨.read, .ofList []⟩), (true, .acquire), (true, .drive), (false, .assign),
      (true, .answer (some [0x35])), (true, .answer (some [0x30])), (true, .release 2), (true, .load),
      (true, .publish)]

def raceLabels : Labels := ⟨"dmm", false, .ofList []⟩

/-- The volts are published under the name of a current. -/
def raceMeasurement : Measurement :=
  ⟨.singleton "dmm.dc_current" [.finite 5], [2], some (.ofList [])⟩

theorem readings_answered_race :
    ∃ (dmm : InstroDMM Bool) (before : List (Bool × Seen)),
      (metering double wholeText raceLabels).stateAfter .new raceEvents = some dmm ∧
      (metering double wholeText raceLabels).actions .new raceEvents =
        before ++ [(true, .returned (.ok (.measurement raceMeasurement)))] ∧
      (true, .looked .dcVoltage) ∈ before ∧
      ∃ made : Reading double wholeText raceLabels true raceMeasurement before,
        made.label = made.answered.since.newest := by
  have hlog : (metering double wholeText raceLabels).actions .new raceEvents =
      ((metering double wholeText raceLabels).actions .new raceEvents).dropLast ++
        [(true, .returned (.ok (.measurement raceMeasurement)))] := by decide +kernel
  have hends : ((metering double wholeText raceLabels).stateAfter (.new : InstroDMM Bool)
      raceEvents).isSome = true := by decide +kernel
  obtain ⟨dmm, hdmm⟩ := Option.isSome_iff_exists.mp hends
  refine ⟨dmm, _, hdmm, hlog, ?_, (readings_answered hdmm).2 _ _ _ ⟨[], ?_⟩⟩
  · decide +kernel
  · rw [List.append_nil]
    exact hlog.symm

end Instro.Dmm
