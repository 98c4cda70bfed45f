import Instro.Dmm.Agilent34401A
import Instro.Instrument.Packaging
import Instro.Library.EventLoop
import Mathlib.Logic.Function.Basic

/-!
# The multimeter

`InstroDMM` over an Agilent 34401A, with any number of threads in its methods; the background daemon is one
of them. A thread holds the lock while it is in the driver. It reads and assigns the configuration after it
has released the lock.
-/

namespace Instro.Dmm

open Instro.Library
open Instro.Daq (Measurement channelName mergeTags)
open Instro.Instrument (Command Datum Labels)

/-! ## Methods -/

structure DMMMeasurementConfig where
  function : MeasurementFunction
  digits : Option ℤ
  apertureSeconds : Option PyFloat
  apertureNplc : Option PyFloat
  range : Option PyFloat
  deriving DecidableEq

/-- The methods that configure, with what they are given. -/
inductive Setting
  | setMeasurementFunction (function : MeasurementFunction)
  | setDigits (n : ℤ)
  | setApertureSeconds (seconds : PyFloat)
  | setApertureNplc (nplc : PyFloat)
  | setRange (value : Option PyFloat)
  deriving DecidableEq

inductive Method
  | configure (setting : Setting)
  | read
  deriving DecidableEq

structure Call where
  method : Method
  kwargs : Dict String String

/-- What a method raises while there is no configuration. -/
def Method.unconfigured : Method → Option String
  | .configure (.setMeasurementFunction _) => none
  | .configure (.setDigits _) => some "set_measurement_function must be called before set_digits"
  | .configure (.setApertureSeconds _) | .configure (.setApertureNplc _) =>
    some "set_measurement_function must be called before setting the aperture"
  | .configure (.setRange _) => some "set_measurement_function must be called before set_range"
  | .read => some "set_measurement_function must be called before read"

/-- What a method assigns in place of the configuration. -/
def Setting.replace : Setting → Option DMMMeasurementConfig → Except Raised DMMMeasurementConfig
  | .setMeasurementFunction function, none => .ok ⟨function, none, none, none, none⟩
  | .setMeasurementFunction function, some config => .ok { config with function }
  | .setDigits n, some config => .ok { config with digits := some n }
  | .setApertureSeconds seconds, some config =>
    .ok { config with apertureSeconds := some seconds, apertureNplc := none }
  | .setApertureNplc nplc, some config =>
    .ok { config with apertureSeconds := none, apertureNplc := some nplc }
  | .setRange value, some config => .ok { config with range := value }
  | _, none => .error (.python .typeError)

inductive Published
  | command (command : Command)
  | measurement (measurement : Measurement)
  deriving DecidableEq

section Packaging

variable (labels : Labels) (fl : Rounding)

/-- The command of `set_range`. -/
def rangeCommand (value : Option PyFloat) (timestamp : ℤ) (kwargs : Dict String String) : Command where
  channelData :=
    let mode : Dict String Datum := .singleton (channelName labels.name "range_mode.cmd")
      (.text (if value.isSome then "MANUAL" else "AUTO"))
    match value with
    | none => mode
    | some range => mode.set (channelName labels.name "range.cmd") (.float range)
  timestamp
  tags := some (mergeTags labels.defaultTags kwargs)

/-- What a method that configures publishes. -/
def Setting.command (setting : Setting) (timestamp : ℤ) (kwargs : Dict String String) :
    Except PyException Command :=
  match setting with
  | .setMeasurementFunction function =>
    labels.packageCommand fl "set_measurement_function.cmd" (.text function.value) timestamp kwargs
  | .setDigits n => labels.packageCommand fl "digits.cmd" (.value (.num (.int n))) timestamp kwargs
  | .setApertureSeconds seconds =>
    labels.packageCommand fl "aperture_seconds.cmd" (.value (.num (.float seconds))) timestamp kwargs
  | .setApertureNplc nplc =>
    labels.packageCommand fl "aperture_nplc.cmd" (.value (.num (.float nplc))) timestamp kwargs
  | .setRange value => .ok (rangeCommand labels value timestamp kwargs)

/-- What `read` publishes of a response, under the name of a function. -/
def measured (function : MeasurementFunction) (response : Option PyFloat) (timestamp : ℤ)
    (kwargs : Dict String String) : Except PyException Measurement :=
  match response with
  | none => .error .typeError
  | some x => labels.packageMeasurement fl function.value.toLower (.num (.float x)) timestamp kwargs

end Packaging

/-! ## Threads -/

/-- Where a thread is in a call. -/
inductive Stage
  | idle
  /-- Before the lock. -/
  | waiting (call : Call)
  /-- With the lock, before the driver. -/
  | entered (call : Call)
  /-- Before the command of a measurement is sent. -/
  | querying (call : Call) (command : Text)
  /-- Before the meter is asked for its error. -/
  | checking (call : Call) (value : Text)
  /-- Behind the driver, with the lock. -/
  | leaving (call : Call) (response : Option PyFloat)
  /-- Behind the lock. -/
  | left (call : Call) (response : Option PyFloat) (timestamp : ℤ)
  | assigning (setting : Setting) (kwargs : Dict String String) (config : DMMMeasurementConfig)
      (timestamp : ℤ)
  | publishing (outcome : Except PyException Published)

/-- The thread holds the lock. -/
def Stage.holding : Stage → Bool
  | .entered _ | .querying _ _ | .checking _ _ | .leaving _ _ => true
  | _ => false

structure InstroDMM (ι : Type) where
  driver : Agilent34401A
  measurementConfig : Option DMMMeasurementConfig
  owner : Option ι
  stages : ι → Stage

inductive Move
  | call (call : Call)
  | acquire
  | drive
  | answer (answer : Answer)
  | release (timestamp : ℤ)
  | load
  | assign
  | publish

/-- What a thread does that others can tell from outside, and when it reads the configuration. -/
inductive Seen
  | raised (e : Raised)
  | looked (function : MeasurementFunction)
  | talked (command : Text) (answer : Answer)
  /-- The driver has done what a method that configures asks of it. -/
  | accepted (setting : Setting)
  | assigned (setting : Setting) (config : DMMMeasurementConfig)
  | labelled (function : MeasurementFunction)
  | returned (outcome : Except PyException Published)
  deriving DecidableEq

variable {ι : Type} [DecidableEq ι]

namespace InstroDMM

/-- After `__init__`. -/
def new : InstroDMM ι := ⟨.new, none, none, fun _ => .idle⟩

variable (dmm : InstroDMM ι) (i : ι)

def setStage (stage : Stage) : InstroDMM ι :=
  { dmm with stages := Function.update dmm.stages i stage }

/-- An exception in the driver leaves the lock. -/
def leave : InstroDMM ι := { dmm.setStage i .idle with owner := none }

variable (fl : Rounding) (py : PyText) (labels : Labels)

/-- The statements in the lock up to the first command. -/
def drive (call : Call) : List (ι × Seen) × InstroDMM ι :=
  match call.method, dmm.measurementConfig with
  | .configure (.setMeasurementFunction function), _ =>
    ([], dmm.setStage i (.querying call (dmm.driver.measurement function)))
  | .configure (.setDigits n), _ =>
    match dmm.driver.setDigits fl n with
    | .ok driver => ([(i, .accepted (.setDigits n))], { dmm.setStage i (.leaving call none) with driver })
    | .error e => ([(i, .raised e)], dmm.leave i)
  | .configure (.setApertureSeconds _), _ =>
    ([(i, .raised (.notImplementedError "set_aperture_seconds is not supported by this driver"))],
      dmm.leave i)
  | .configure (.setApertureNplc _), some config =>
    ([(i, .raised (.notImplementedError
        ("set_" ++ config.function.value.toLower ++ "_nplc is not supported by this driver")))],
      dmm.leave i)
  | .configure (.setRange value), some _ =>
    ([(i, .accepted (.setRange value))],
      { dmm.setStage i (.leaving call none) with driver := dmm.driver.storeRange value })
  | .read, some config =>
    ([(i, .looked config.function)],
      dmm.setStage i (.querying call (dmm.driver.measurement config.function)))
  | _, none => ([(i, .raised .attributeError)], dmm.leave i)

def errorQuery : Text := "SYST:ERR?".toList

/-- The meter is sent a command, and answers. -/
def query (call : Call) (command : Text) (answer : Answer) : List (ι × Seen) × InstroDMM ι :=
  match answer.text with
  | .ok value => ([(i, .talked command answer)], dmm.setStage i (.checking call value))
  | .error e => ([(i, .talked command answer), (i, .raised e)], dmm.leave i)

/-- The meter is asked for its error, and answers. -/
def check (call : Call) (value : Text) (answer : Answer) : List (ι × Seen) × InstroDMM ι :=
  match reading py value answer, call.method with
  | .ok x, .configure setting =>
    ([(i, .talked errorQuery answer), (i, .accepted setting)], dmm.setStage i (.leaving call (some x)))
  | .ok x, .read => ([(i, .talked errorQuery answer)], dmm.setStage i (.leaving call (some x)))
  | .error e, _ => ([(i, .talked errorQuery answer), (i, .raised e)], dmm.leave i)

/-- The configuration is read after the lock. -/
def load (call : Call) (response : Option PyFloat) (timestamp : ℤ) :
    List (ι × Seen) × InstroDMM ι :=
  match call.method, dmm.measurementConfig with
  | .configure setting, config =>
    match setting.replace config with
    | .ok config => ([], dmm.setStage i (.assigning setting call.kwargs config timestamp))
    | .error e => ([(i, .raised e)], dmm.setStage i .idle)
  | .read, some config =>
    ([(i, .labelled config.function)], dmm.setStage i (.publishing
      (.measurement <$> measured labels fl config.function response timestamp call.kwargs)))
  | .read, none => ([(i, .raised .attributeError)], dmm.setStage i .idle)

def move (m : Move) : Option (List (ι × Seen) × InstroDMM ι) :=
  match dmm.stages i, m with
  | .idle, .call call =>
    match call.method.unconfigured, dmm.measurementConfig with
    | some message, none => some ([(i, .raised (.valueError message))], dmm)
    | _, _ => some ([], dmm.setStage i (.waiting call))
  | .waiting call, .acquire =>
    match dmm.owner with
    | none => some ([], { dmm.setStage i (.entered call) with owner := some i })
    | some _ => none
  | .entered call, .drive => some (dmm.drive i fl call)
  | .querying call command, .answer answer => some (dmm.query i call command answer)
  | .checking call value, .answer answer => some (dmm.check i py call value answer)
  | .leaving call response, .release timestamp =>
    some ([], { dmm.setStage i (.left call response timestamp) with owner := none })
  | .left call response timestamp, .load => some (dmm.load i fl labels call response timestamp)
  | .assigning setting kwargs config timestamp, .assign =>
    some ([(i, .assigned setting config)],
      { dmm.setStage i (.publishing (.command <$> setting.command labels fl timestamp kwargs)) with
        measurementConfig := some config })
  | .publishing outcome, .publish => some ([(i, .returned outcome)], dmm.setStage i .idle)
  | _, _ => none

end InstroDMM

/-- The threads in any order, with any answers of the meter. -/
def metering (fl : Rounding) (py : PyText) (labels : Labels) :
    EventLoop (InstroDMM ι) (ι × Move) (ι × Seen) :=
  .ofStep fun dmm (i, m) => dmm.move i fl py labels m

/-! ## Steps -/

/-- What the driver keeps of a setting that it accepts. -/
def Setting.keep (fl : Rounding) (driver : Agilent34401A) : Setting → Agilent34401A
  | .setDigits n => { driver with resolution := (Agilent34401A.resMap fl n).or driver.resolution }
  | .setRange value => driver.storeRange value
  | _ => driver

/-- The driver raises for other numbers of digits. -/
def Setting.Accepted (fl : Rounding) (setting : Setting) : Prop :=
  ∀ n, setting = .setDigits n → (Agilent34401A.resMap fl n).isSome

theorem setDigits_ok {fl : Rounding} {driver driver' : Agilent34401A} {n : ℤ}
    (h : driver.setDigits fl n = .ok driver') :
    driver' = (Setting.setDigits n).keep fl driver ∧ (Setting.setDigits n).Accepted fl := by
  unfold Agilent34401A.setDigits at h
  cases hmap : Agilent34401A.resMap fl n with
  | none =>
    rw [hmap] at h
    cases h
  | some resolution =>
    rw [hmap] at h
    obtain rfl := Except.ok.inj h
    refine ⟨by simp [Setting.keep, hmap], ?_⟩
    rintro m ⟨rfl⟩
    rw [hmap]
    rfl

/-- What a move does. -/
inductive Moves (fl : Rounding) (py : PyText) (labels : Labels) (dmm : InstroDMM ι) (i : ι) :
    Move → List (ι × Seen) → InstroDMM ι → Prop
  | refuse {call : Call} {message} (hstage : dmm.stages i = .idle)
      (hmessage : call.method.unconfigured = some message) (hnone : dmm.measurementConfig = none) :
    Moves fl py labels dmm i (.call call) [(i, .raised (.valueError message))] dmm
  | begin {call : Call} (hstage : dmm.stages i = .idle)
      (hconfigured : call.method.unconfigured = none ∨ dmm.measurementConfig.isSome) :
    Moves fl py labels dmm i (.call call) [] (dmm.setStage i (.waiting call))
  | acquire {call} (hstage : dmm.stages i = .waiting call) (hfree : dmm.owner = none) :
    Moves fl py labels dmm i .acquire [] { dmm.setStage i (.entered call) with owner := some i }
  | reject {call e} (hstage : dmm.stages i = .entered call) :
    Moves fl py labels dmm i .drive [(i, .raised e)] (dmm.leave i)
  | keep {call setting} (hstage : dmm.stages i = .entered call)
      (hmethod : call.method = .configure setting) (haccepts : setting.Accepted fl) :
    Moves fl py labels dmm i .drive [(i, .accepted setting)]
      { dmm.setStage i (.leaving call none) with driver := setting.keep fl dmm.driver }
  | ask {call function} (hstage : dmm.stages i = .entered call)
      (hmethod : call.method = .configure (.setMeasurementFunction function)) :
    Moves fl py labels dmm i .drive [] (dmm.setStage i (.querying call (dmm.driver.measurement function)))
  | look {call config} (hstage : dmm.stages i = .entered call) (hmethod : call.method = .read)
      (hconfig : dmm.measurementConfig = some config) :
    Moves fl py labels dmm i .drive [(i, .looked config.function)]
      (dmm.setStage i (.querying call (dmm.driver.measurement config.function)))
  | lose {call command answer e} (hstage : dmm.stages i = .querying call command)
      (htext : answer.text = .error e) :
    Moves fl py labels dmm i (.answer answer) [(i, .talked command answer), (i, .raised e)] (dmm.leave i)
  | receive {call command answer value} (hstage : dmm.stages i = .querying call command)
      (htext : answer.text = .ok value) :
    Moves fl py labels dmm i (.answer answer) [(i, .talked command answer)]
      (dmm.setStage i (.checking call value))
  | fail {call value answer e} (hstage : dmm.stages i = .checking call value)
      (hreading : reading py value answer = .error e) :
    Moves fl py labels dmm i (.answer answer)
      [(i, .talked InstroDMM.errorQuery answer), (i, .raised e)] (dmm.leave i)
  | confirm {call setting value answer x} (hstage : dmm.stages i = .checking call value)
      (hreading : reading py value answer = .ok x) (hmethod : call.method = .configure setting) :
    Moves fl py labels dmm i (.answer answer)
      [(i, .talked InstroDMM.errorQuery answer), (i, .accepted setting)]
      (dmm.setStage i (.leaving call (some x)))
  | measure {call value answer x} (hstage : dmm.stages i = .checking call value)
      (hreading : reading py value answer = .ok x) (hmethod : call.method = .read) :
    Moves fl py labels dmm i (.answer answer) [(i, .talked InstroDMM.errorQuery answer)]
      (dmm.setStage i (.leaving call (some x)))
  | release {call response timestamp} (hstage : dmm.stages i = .leaving call response) :
    Moves fl py labels dmm i (.release timestamp) []
      { dmm.setStage i (.left call response timestamp) with owner := none }
  | compute {call setting config response timestamp}
      (hstage : dmm.stages i = .left call response timestamp)
      (hmethod : call.method = .configure setting)
      (hreplace : setting.replace dmm.measurementConfig = .ok config) :
    Moves fl py labels dmm i .load [] (dmm.setStage i (.assigning setting call.kwargs config timestamp))
  | label {call config response timestamp} (hstage : dmm.stages i = .left call response timestamp)
      (hmethod : call.method = .read) (hconfig : dmm.measurementConfig = some config) :
    Moves fl py labels dmm i .load [(i, .labelled config.function)] (dmm.setStage i (.publishing
      (.measurement <$> measured labels fl config.function response timestamp call.kwargs)))
  | miss {call response timestamp e} (hstage : dmm.stages i = .left call response timestamp)
      (hnone : dmm.measurementConfig = none)
      (herror : ∀ setting, call.method = .configure setting → setting.replace none = .error e) :
    Moves fl py labels dmm i .load [(i, .raised e)] (dmm.setStage i .idle)
  | assign {setting kwargs config timestamp}
      (hstage : dmm.stages i = .assigning setting kwargs config timestamp) :
    Moves fl py labels dmm i .assign [(i, .assigned setting config)]
      { dmm.setStage i (.publishing (.command <$> setting.command labels fl timestamp kwargs)) with
        measurementConfig := some config }
  | publish {outcome} (hstage : dmm.stages i = .publishing outcome) :
    Moves fl py labels dmm i .publish [(i, .returned outcome)] (dmm.setStage i .idle)

variable {fl : Rounding} {py : PyText} {labels : Labels} {dmm dmm' : InstroDMM ι} {i : ι} {m : Move}
  {seen : List (ι × Seen)}

theorem moves_drive {call : Call} (hstage : dmm.stages i = .entered call)
    (h : dmm.drive i fl call = (seen, dmm')) : Moves fl py labels dmm i .drive seen dmm' := by
  unfold InstroDMM.drive at h
  split at h
  · next hmethod =>
    obtain ⟨rfl, rfl⟩ := Prod.mk.inj h
    exact .ask hstage hmethod
  · next hmethod =>
    split at h
    · next hdigits =>
      obtain ⟨rfl, rfl⟩ := Prod.mk.inj h
      obtain ⟨rfl, haccepts⟩ := setDigits_ok hdigits
      exact .keep hstage hmethod haccepts
    · obtain ⟨rfl, rfl⟩ := Prod.mk.inj h
      exact .reject hstage
  · obtain ⟨rfl, rfl⟩ := Prod.mk.inj h
    exact .reject hstage
  · obtain ⟨rfl, rfl⟩ := Prod.mk.inj h
    exact .reject hstage
  · next hmethod _ =>
    obtain ⟨rfl, rfl⟩ := Prod.mk.inj h
    exact .keep hstage hmethod fun _ h => nomatch h
  · next hmethod hconfig =>
    obtain ⟨rfl, rfl⟩ := Prod.mk.inj h
    exact .look hstage hmethod hconfig
  · obtain ⟨rfl, rfl⟩ := Prod.mk.inj h
    exact .reject hstage

theorem moves_check {call : Call} {value : Text} {answer : Answer}
    (hstage : dmm.stages i = .checking call value)
    (h : dmm.check i py call value answer = (seen, dmm')) :
    Moves fl py labels dmm i (.answer answer) seen dmm' := by
  unfold InstroDMM.check at h
  split at h
  · next hreading hmethod =>
    obtain ⟨rfl, rfl⟩ := Prod.mk.inj h
    exact .confirm hstage hreading hmethod
  · next hreading hmethod =>
    obtain ⟨rfl, rfl⟩ := Prod.mk.inj h
    exact .measure hstage hreading hmethod
  · next hreading =>
    obtain ⟨rfl, rfl⟩ := Prod.mk.inj h
    exact .fail hstage hreading

/-- Only without a configuration there is nothing to replace. -/
theorem replace_error {setting : Setting} {config : Option DMMMeasurementConfig} {e : Raised}
    (h : setting.replace config = .error e) : config = none := by
  cases config with
  | none => rfl
  | some config => cases setting <;> cases h

theorem moves_load {call : Call} {response : Option PyFloat} {timestamp : ℤ}
    (hstage : dmm.stages i = .left call response timestamp)
    (h : dmm.load i fl labels call response timestamp = (seen, dmm')) :
    Moves fl py labels dmm i .load seen dmm' := by
  unfold InstroDMM.load at h
  split at h
  · next hmethod =>
    split at h
    · next hreplace =>
      obtain ⟨rfl, rfl⟩ := Prod.mk.inj h
      exact .compute hstage hmethod hreplace
    · next hreplace =>
      obtain ⟨rfl, rfl⟩ := Prod.mk.inj h
      have hnone := replace_error hreplace
      refine .miss hstage hnone fun setting hsetting => ?_
      obtain rfl := Method.configure.inj (hmethod.symm.trans hsetting)
      rwa [hnone] at hreplace
  · next hmethod hconfig =>
    obtain ⟨rfl, rfl⟩ := Prod.mk.inj h
    exact .label hstage hmethod hconfig
  · next hmethod hconfig =>
    obtain ⟨rfl, rfl⟩ := Prod.mk.inj h
    exact .miss hstage hconfig fun _ hsetting => nomatch hmethod.symm.trans hsetting

theorem moves_of_some (h : dmm.move i fl py labels m = some (seen, dmm')) :
    Moves fl py labels dmm i m seen dmm' := by
  unfold InstroDMM.move at h
  split at h
  · next hstage =>
    split at h
    · next hmessage hnone =>
      obtain ⟨rfl, rfl⟩ := Prod.mk.inj (Option.some.inj h)
      exact .refuse hstage hmessage hnone
    · next call _ _ hother =>
      obtain ⟨rfl, rfl⟩ := Prod.mk.inj (Option.some.inj h)
      refine .begin hstage ?_
      cases hmessage : call.method.unconfigured with
      | none => exact .inl rfl
      | some message =>
        cases hconfig : dmm.measurementConfig with
        | none => exact absurd hconfig (hother message hmessage)
        | some config => exact .inr rfl
  · next hstage =>
    split at h
    · next hfree =>
      obtain ⟨rfl, rfl⟩ := Prod.mk.inj (Option.some.inj h)
      exact .acquire hstage hfree
    · cases h
  · next hstage => exact moves_drive hstage (Option.some.inj h)
  · next hstage =>
    have h := Option.some.inj h
    unfold InstroDMM.query at h
    split at h
    · next htext =>
      obtain ⟨rfl, rfl⟩ := Prod.mk.inj h
      exact .receive hstage htext
    · next htext =>
      obtain ⟨rfl, rfl⟩ := Prod.mk.inj h
      exact .lose hstage htext
  · next hstage => exact moves_check hstage (Option.some.inj h)
  · next hstage =>
    obtain ⟨rfl, rfl⟩ := Prod.mk.inj (Option.some.inj h)
    exact .release hstage
  · next hstage => exact moves_load hstage (Option.some.inj h)
  · next hstage =>
    obtain ⟨rfl, rfl⟩ := Prod.mk.inj (Option.some.inj h)
    exact .assign hstage
  · next hstage =>
    obtain ⟨rfl, rfl⟩ := Prod.mk.inj (Option.some.inj h)
    exact .publish hstage
  · cases h

end Instro.Dmm
