import Instro.Psu.Bk914x

/-!
# The output a command acts on

A command for a channel acts on the output of that channel as long as the channel the driver remembers
is the one the instrument has selected. The driver remembers a channel that the instrument has refused,
it still remembers the old one when `INST` arrives and its write raises, and it does not forget when it
is closed.
-/

namespace Instro.Psu.Bk914x

open Instro.Library Instro.Library.Procedure

variable {last : ℕ}

/-- The first output is written as a numeral. -/
local instance (priority := high) neZero_outputs (last : ℕ) : NeZero (last + 1) := ⟨Nat.succ_ne_zero last⟩

/-- The instrument has an output for the channel. -/
def HasOutput (last : ℕ) (channel : ℤ) : Prop := 1 ≤ channel ∧ channel ≤ last + 1

instance (last : ℕ) (channel : ℤ) : Decidable (HasOutput last channel) := by
  unfold HasOutput
  infer_instance

/-- The output is the one of the channel. -/
def IsOutputOf (output : Fin (last + 1)) (channel : ℤ) : Prop := (output : ℤ) = channel - 1

/-- A command for a channel acts on the output of that channel. -/
def Action.Routed (action : Action last) : Prop :=
  action.received.command.ofChannel = true → IsOutputOf action.received.output action.channel

namespace Bench

variable (bench : Bench last)

/-- The output that is selected when the command of a call comes. -/
def target (channel : ℤ) : Fin (last + 1) :=
  if bench.activeChannel = some channel then bench.psu.selected
  else bench.psu.select (channel - 1)

/-- The command of a call reaches the instrument. -/
def Reaches (channel : ℤ) (wire : Wire) : Prop :=
  bench.isOpen = true ∧ (bench.activeChannel = some channel ∨ wire.select = .sent) ∧
    wire.command ≠ .lost

/-- The channel is remembered and selected, or it is not remembered and there is an output for it. -/
def Selects (channel : ℤ) : Prop :=
  if bench.activeChannel = some channel then IsOutputOf bench.psu.selected channel
  else HasOutput last channel

/-- The output of the channel the driver remembers is selected. -/
def Synced : Prop :=
  ∀ channel, bench.activeChannel = some channel →
    HasOutput last channel ∧ IsOutputOf bench.psu.selected channel

end Bench

/-- A call whose command reaches the instrument finds its channel selected, or can select it. -/
def Safe (bench : Bench last) : Event → Prop
  | .call method channel wire =>
    method.command.isSome = true → bench.Reaches channel wire → bench.Selects channel
  | _ => True

/-- A call is for an output the instrument has, and a write of `INST` that raises has not arrived. The
instrument is switched off before the driver has selected a channel, or when it is at its first output
anyway. -/
def Orderly (bench : Bench last) : Event → Prop
  | .call method channel wire =>
    method.command.isSome = true → HasOutput last channel ∧ wire.select ≠ .sentRaising
  | .powerCycle => bench.activeChannel = none ∨ bench.psu.selected = 0
  | _ => True

/-! ## The instrument -/

theorem isOutputOf_select_iff {psu : Instrument last} {channel : ℤ} :
    IsOutputOf (psu.select (channel - 1)) channel ↔ HasOutput last channel := by
  unfold IsOutputOf HasOutput Instrument.select
  split_ifs with h
  · refine iff_of_true ?_ (by omega)
    show ((channel - 1).toNat : ℤ) = channel - 1
    omega
  · refine iff_of_false ?_ (by omega)
    have hlt := psu.selected.isLt
    omega

theorem isOutputOf_target_iff {bench : Bench last} {channel : ℤ} :
    IsOutputOf (bench.target channel) channel ↔ bench.Selects channel := by
  unfold Bench.target Bench.Selects
  split_ifs with h
  · rfl
  · exact isOutputOf_select_iff

/-- A command that is not `INST` leaves the selection. -/
theorem receive_selected {psu : Instrument last} {command : Command}
    (h : ∀ k, command ≠ .inst k) : (psu.receive command).selected = psu.selected := by
  unfold Instrument.receive
  split
  · exact absurd rfl (h _)
  · rfl
  · rfl

/-! ## Writes and reads -/

/-- The bench after a command has arrived. -/
def Bench.received (bench : Bench last) (command : Command) : Bench last :=
  { bench with psu := bench.psu.receive command }

theorem write_eq (command : Command) (outcome : WriteOutcome) (bench : Bench last) :
    write command outcome bench =
      if bench.isOpen then
        match outcome with
        | .sent => ⟨bench.received command, [⟨command.text, command, bench.psu.selected⟩], .ok ()⟩
        | .lost => ⟨bench, [], .error .visa⟩
        | .sentRaising =>
          ⟨bench.received command, [⟨command.text, command, bench.psu.selected⟩], .error .visa⟩
      else ⟨bench, [], .error .notOpen⟩ := by
  obtain ⟨isOpen, activeChannel, psu⟩ := bench
  cases isOpen
  · rfl
  · cases outcome
    · rfl
    · rfl
    · rfl

section Steps

variable {A : Received last → Prop} {P R : Bench last → Prop} {Q : Unit → Bench last → Prop}
  {E : Bench last → Prop}

/-- A write arrives or not, and returns or raises. -/
theorem ensures_write {command : Command} {outcome : WriteOutcome}
    (hshown : ∀ bench, P bench → bench.isOpen = true → outcome ≠ .lost →
      A ⟨command.text, command, bench.psu.selected⟩)
    (hsent : ∀ bench, P bench → outcome = .sent → Q () (bench.received command))
    (hraising : ∀ bench, P bench → outcome = .sentRaising → E (bench.received command))
    (hraised : ∀ bench, P bench → E bench) : Ensures P (write command outcome) A Q E := by
  constructor
  · intro bench hbench a ha
    rw [write_eq] at ha
    split_ifs at ha with hopen
    · cases outcome with
      | sent =>
        obtain rfl := List.mem_singleton.mp ha
        exact hshown bench hbench hopen nofun
      | lost => cases ha
      | sentRaising =>
        obtain rfl := List.mem_singleton.mp ha
        exact hshown bench hbench hopen nofun
    · cases ha
  · intro bench hbench b hb
    rw [write_eq] at hb ⊢
    split_ifs at hb ⊢
    · cases outcome with
      | sent => exact hsent bench hbench rfl
      | lost => cases hb
      | sentRaising => cases hb
  · intro bench hbench e he
    rw [write_eq] at he ⊢
    split_ifs at he ⊢
    · cases outcome with
      | sent => cases he
      | lost => exact hraised bench hbench
      | sentRaising => exact hraising bench hbench rfl
    · exact hraised bench hbench

theorem ensures_requireOpen : Ensures R (requireOpen : Talk last Unit) A (fun _ => R) R := by
  refine (ensures_get (Q := fun bench s => R s) fun _ h => h).bind fun bench => ?_
  split
  · exact ensures_pure fun _ h => h
  · exact ensures_raise fun _ h => h

/-- Reading shows nothing and changes nothing. -/
theorem ensures_readRaw (outcome : ReadOutcome) : Ensures R (readRaw outcome) A (fun _ => R) R := by
  refine ensures_requireOpen.bind fun _ => ?_
  cases outcome with
  | raises => exact ensures_raise fun _ h => h
  | text response => exact ensures_pure fun _ h => h

theorem ensures_readResponse (reads : ℕ → ReadOutcome) (i : ℕ) (response : Text) (rounds : ℕ) :
    Ensures R (readResponse reads i response rounds) A (fun _ => R) R := by
  induction rounds generalizing i response with
  | zero => exact ensures_pure fun _ h => h
  | succ rounds ih =>
    refine (ensures_readRaw (reads i)).bind fun response => ?_
    split_ifs
    · exact ensures_pure fun _ h => h
    · exact ih (i + 1) response

/-- What a query keeps, and where it acts. -/
theorem ensures_queryLocked {query : Query} {outcome : WriteOutcome} {reads : ℕ → ReadOutcome}
    (hshown : ∀ bench, R bench → bench.isOpen = true → outcome ≠ .lost →
      A ⟨Command.text (.query query), .query query, bench.psu.selected⟩)
    (hkept : ∀ bench, R bench → R (bench.received (.query query))) :
    Ensures R (queryLocked query outcome reads) A (fun _ => R) R :=
  (ensures_write hshown (fun bench h _ => hkept bench h) (fun bench h _ => hkept bench h)
    fun _ h => h).bind fun _ => ensures_readResponse reads 0 [] 3

theorem ensures_checkErrors {wire : Wire}
    (hshown : ∀ output, A ⟨Command.text (.query .systErr), .query .systErr, output⟩)
    (hkept : ∀ bench, R bench → R (bench.received (.query .systErr))) :
    Ensures R (checkErrors wire) A (fun _ => R) R := by
  refine (ensures_queryLocked (fun _ _ _ _ => hshown _) hkept).bind fun err => ?_
  split_ifs
  · exact ensures_pure fun _ h => h
  · exact ensures_raise fun _ h => h

end Steps

/-! ## Calls -/

section Calls

variable {bench : Bench last} {channel : ℤ} {wire : Wire} {A : Received last → Prop}
  {P R : Bench last → Prop}

theorem ensures_channelSelect (hshown : ∀ text k output, A ⟨text, .inst k, output⟩)
    (hkept : ∀ bench, P bench → bench.activeChannel = some channel → R bench)
    (hsent : ∀ bench, P bench → bench.activeChannel ≠ some channel → wire.select = .sent →
      R { bench.received (.inst (channel - 1)) with activeChannel := some channel })
    {E : Bench last → Prop}
    (hraising : ∀ bench, P bench → wire.select = .sentRaising →
      E (bench.received (.inst (channel - 1))))
    (hraised : ∀ bench, P bench → E bench) :
    Ensures P (channelSelect wire channel) A (fun _ => R) E := by
  refine (ensures_get (Q := fun bench s => P bench ∧ s = bench) fun _ h => ⟨h, rfl⟩).bind
    fun bench => ?_
  split
  · rename_i hactive
    refine ensures_pure ?_
    rintro _ ⟨hbench, rfl⟩
    exact hkept _ hbench hactive
  · rename_i hactive
    refine (ensures_write (Q := fun _ s => R { s with activeChannel := some channel }) ?_ ?_ ?_
      ?_).bind fun _ => ensures_modify fun _ h => h
    · intro s _ _ _
      exact hshown _ _ _
    · rintro _ ⟨hbench, rfl⟩ hselect
      exact hsent _ hbench hactive hselect
    · rintro _ ⟨hbench, rfl⟩ hselect
      exact hraising _ hbench hselect
    · rintro _ ⟨hbench, rfl⟩
      exact hraised _ hbench

/-- What the bodies of the methods share: a call of the method with this command, or none. -/
inductive Body (wire : Wire) (channel : ℤ) : Option Command → Talk last Value → Prop
  | set (command : Command) (hchannel : command.ofChannel = true) (f : Unit → Value) :
    Body wire channel (some command) (f <$> setOn wire command channel)
  | query (query : Query) (hchannel : (Command.query query).ofChannel = true) {β : Type}
    (convert : Text → Except Raised β) (f : β → Value) :
    Body wire channel (some (.query query))
      (f <$> (queryOn wire query channel >>= fun value => Procedure.lift (convert value)))
  | notSupported (feature : String) (f : Unit → Value) :
    Body wire channel none (f <$> notSupported feature)

theorem body_run (py : PyText) (wire : Wire) (channel : ℤ) (method : Method) :
    Body wire channel method.command (method.run py wire channel : Talk last Value) := by
  cases method with
  | setVoltage voltage => exact .set (.volt voltage) rfl _
  | getVoltage => exact .query .measVolt rfl (toFloat py) _
  | setCurrentLimit limit => exact .set (.curr limit) rfl _
  | getCurrent => exact .query .measCurr rfl (toFloat py) _
  | outputEnable enable => exact .set (.outpStat enable) rfl _
  | getOutputStatus =>
    exact .query .outpStat rfl (fun resp => .ok (decide (resp = "1".toList))) _
  | setOvervoltageProtectionLevel voltage => exact .set (.voltProt voltage) rfl _
  | getOvervoltageProtectionLevel => exact .query .voltProt rfl (toFloat py) _
  | setOvervoltageProtectionEnabled enabled => exact .notSupported _ _
  | getOvervoltageProtectionEnabled => exact .notSupported _ _
  | setOvervoltageProtectionDelay delay => exact .notSupported _ _
  | getOvervoltageProtectionDelay => exact .notSupported _ _
  | setOvercurrentProtectionLevel current => exact .set (.currProt current) rfl _
  | getOvercurrentProtectionLevel => exact .query .currProt rfl (toFloat py) _
  | setOvercurrentProtectionEnabled enabled => exact .set (.currProtStat enabled) rfl _
  | getOvercurrentProtectionEnabled =>
    exact .query .currProtStat rfl (fun value => .ok (isOn py value)) _
  | setRemoteSenseEnabled enabled => exact .set (.voltSens enabled) rfl _
  | getRemoteSenseEnabled => exact .query .voltSens rfl (fun value => .ok (isOn py value)) _

/-- The rule of a call. -/
theorem ensures_body {command : Option Command} {body : Talk last Value}
    (hbody : Body wire channel command body) {E : Bench last → Prop}
    (hselect : command.isSome = true →
      Ensures P (channelSelect wire channel) A (fun _ => R) E)
    (hshown : ∀ command bench, R bench → bench.isOpen = true → wire.command ≠ .lost →
      A ⟨command.text, command, bench.psu.selected⟩)
    (herror : ∀ output, A ⟨Command.text (.query .systErr), .query .systErr, output⟩)
    (hkept : ∀ (command : Command) bench, (∀ k, command ≠ .inst k) → R bench →
      R (bench.received command)) (hR : ∀ bench, R bench → E bench)
    (hraised : ∀ bench, P bench → E bench) : Ensures P body A (fun _ => R) E := by
  have hcheck : Ensures R (checkErrors wire) A (fun _ => R) E :=
    (ensures_checkErrors herror fun bench h => hkept _ bench nofun h).mono (fun _ h => h)
      (fun _ _ h => h) hR
  cases hbody with
  | set command hchannel f =>
    have hinst : ∀ k, command ≠ .inst k := by
      rintro k rfl
      cases hchannel
    refine ((hselect rfl).bind fun _ => ?_).map
    refine (ensures_write (Q := fun _ => R) (hshown command) (fun bench h _ => hkept command bench hinst h)
      (fun bench h _ => hR _ (hkept command bench hinst h)) hR).bind fun _ => ?_
    exact hcheck
  | query query hchannel convert f =>
    have hquery : Ensures R (queryLocked query wire.command wire.responses) A (fun _ => R) E :=
      (ensures_queryLocked (hshown _) fun bench h => hkept _ bench nofun h).mono (fun _ h => h)
        (fun _ _ h => h) hR
    have hread : Ensures P (queryOn wire query channel) A (fun _ => R) E :=
      (hselect rfl).bind fun _ => hquery.bind fun value => hcheck.bind fun _ =>
        ensures_pure fun _ h => h
    have hconvert : ∀ value, Ensures R (Procedure.lift (convert value) : Talk last _) A
        (fun _ => R) E := fun value => ensures_lift (fun _ h _ _ => h) hR
    exact (hread.bind hconvert).map
  | notSupported feature f => exact (ensures_raise hraised).map

theorem shown_notSupported {body : Talk last Value} (h : Body wire channel none body) :
    (body bench).shown = [] := by
  cases h with
  | notSupported feature f => exact shown_map _ _ _

/-- A command for the channel acts on the target of the call, and only if it reaches it. -/
theorem acts_on_target {command : Option Command} {body : Talk last Value}
    (hbody : Body wire channel command body) {received : Received last}
    (h : received ∈ (body bench).shown) (hchannel : received.command.ofChannel = true) :
    received.output = bench.target channel ∧ bench.Reaches channel wire := by
  have hselect : Ensures (· = bench) (channelSelect wire channel)
      (fun received => received.command.ofChannel = true →
        received.output = bench.target channel ∧ bench.Reaches channel wire)
      (fun _ s => s.psu.selected = bench.target channel ∧ s.isOpen = bench.isOpen ∧
        (bench.activeChannel = some channel ∨ wire.select = .sent)) (fun _ => True) := by
    refine ensures_channelSelect (fun _ _ _ => nofun) ?_ ?_ (fun _ _ _ => trivial) fun _ _ => trivial
    · rintro _ rfl hactive
      exact ⟨(if_pos hactive).symm, rfl, .inl hactive⟩
    · rintro _ rfl hactive hsent
      exact ⟨(if_neg hactive).symm, rfl, .inr hsent⟩
  refine (ensures_body hbody (fun _ => hselect) ?_ (fun _ => nofun) ?_ (fun _ _ => trivial)
    fun _ _ => trivial).shown bench rfl received h hchannel
  · rintro command s ⟨hselected, hopen, hsent⟩ hisOpen hlost -
    exact ⟨hselected, hopen.symm.trans hisOpen, hsent, hlost⟩
  · rintro command s hinst ⟨hselected, hrest⟩
    exact ⟨(receive_selected hinst).trans hselected, hrest⟩

theorem channelSelect_eq (wire : Wire) (channel : ℤ) (bench : Bench last) :
    channelSelect wire channel bench =
      if bench.activeChannel = some channel then ⟨bench, [], .ok ()⟩
      else (write (.inst (channel - 1)) wire.select >>= fun _ =>
        Procedure.modify fun bench => { bench with activeChannel := some channel }) bench := by
  unfold channelSelect
  rw [get_bind]
  split_ifs with hactive
  · rfl
  · rfl

theorem channelSelect_returns (hopen : bench.isOpen = true)
    (hselect : bench.activeChannel = some channel ∨ wire.select = .sent) :
    (channelSelect wire channel bench).result = .ok () ∧
      (channelSelect wire channel bench).state.isOpen = true ∧
      (channelSelect wire channel bench).state.psu.selected = bench.target channel := by
  unfold Bench.target
  rw [channelSelect_eq]
  split_ifs with hactive
  · exact ⟨rfl, hopen, rfl⟩
  · have hwrite := write_eq (.inst (channel - 1)) .sent bench
    rw [if_pos hopen] at hwrite
    rw [hselect.resolve_left hactive, bind_of_ok (congrArg Done.result hwrite), hwrite]
    exact ⟨rfl, hopen, rfl⟩

/-- A command that reaches the instrument is shown. -/
theorem exists_acting {command : Command} {body : Talk last Value}
    (hbody : Body wire channel (some command) body) (h : bench.Reaches channel wire) :
    ∃ received ∈ (body bench).shown, received.command.ofChannel = true ∧
      received.output = bench.target channel := by
  obtain ⟨hopen, hselect, hlost⟩ := h
  obtain ⟨hreturns, hisOpen, hselected⟩ := channelSelect_returns hopen hselect
  have hwrite : ⟨command.text, command, bench.target channel⟩ ∈
      (write command wire.command (channelSelect wire channel bench).state).shown := by
    rw [write_eq, if_pos hisOpen, hselected]
    cases houtcome : wire.command with
    | sent => exact List.mem_cons_self
    | lost => exact absurd houtcome hlost
    | sentRaising => exact List.mem_cons_self
  cases hbody with
  | set command hchannel f =>
    refine ⟨⟨command.text, command, bench.target channel⟩, ?_, hchannel, rfl⟩
    rw [shown_map]
    exact shown_next_subset_bind hreturns (shown_subset_bind _ _ _ hwrite)
  | query query hchannel convert f =>
    refine ⟨⟨Command.text (.query query), .query query, bench.target channel⟩, ?_, hchannel, rfl⟩
    rw [shown_map]
    apply shown_subset_bind
    apply shown_next_subset_bind hreturns
    apply shown_subset_bind
    exact shown_subset_bind _ _ _ hwrite

end Calls

/-! ## Runs -/

section Runs

variable {py : PyText} {bench : Bench last}

/-- A step sends its channel commands where they belong exactly when it is safe. -/
theorem routed_step_iff {event : Event} :
    (∀ action ∈ ((driver last py).step bench event).1, action.Routed) ↔ Safe bench event := by
  cases event with
  | «open» connects => exact iff_of_true nofun trivial
  | close => exact iff_of_true nofun trivial
  | powerCycle => exact iff_of_true nofun trivial
  | call method channel wire =>
    have hbody : Body wire channel method.command (method.run py wire channel : Talk last Value) :=
      body_run py wire channel method
    show (∀ action ∈ List.map (Action.mk channel) _, Action.Routed action) ↔ _
    rw [List.forall_mem_map]
    unfold Safe
    constructor
    · intro h hsupported hreaches
      obtain ⟨command, hcommand⟩ := Option.isSome_iff_exists.mp hsupported
      rw [hcommand] at hbody
      obtain ⟨received, hreceived, hchannel, houtput⟩ := exists_acting hbody hreaches
      rw [← isOutputOf_target_iff, ← houtput]
      exact h received hreceived hchannel
    · intro h received hreceived hchannel
      obtain ⟨houtput, hreaches⟩ := acts_on_target hbody hreceived hchannel
      have hsupported : method.command.isSome = true := by
        cases hcommand : method.command with
        | some command => rfl
        | none =>
          rw [hcommand] at hbody
          rw [shown_notSupported hbody] at hreceived
          cases hreceived
      show IsOutputOf received.output channel
      rw [houtput]
      exact isOutputOf_target_iff.mpr (h hsupported hreaches)

/-- What an orderly step keeps. -/
theorem synced_step {event : Event} {bench' : Bench last} (hsynced : bench.Synced)
    (horderly : Orderly bench event) (h : ((driver last py).step bench event).2 = some bench') :
    bench'.Synced := by
  cases event with
  | «open» connects =>
    obtain rfl := Option.some.inj h
    exact hsynced
  | close =>
    obtain rfl := Option.some.inj h
    exact hsynced
  | powerCycle =>
    have h : (if bench.isOpen then none else some { bench with psu := ⟨0, 0⟩ }) = some bench' := h
    split_ifs at h
    obtain rfl := Option.some.inj h
    intro channel hchannel
    rcases horderly with hnone | hfirst
    · rw [hnone] at hchannel
      cases hchannel
    · obtain ⟨hhas, houtput⟩ := hsynced channel hchannel
      rw [hfirst] at houtput
      exact ⟨hhas, houtput⟩
  | call method channel wire =>
    obtain rfl := Option.some.inj h
    have hselect : method.command.isSome = true → Ensures Bench.Synced (channelSelect wire channel)
        (fun _ => True) (fun _ => Bench.Synced) (fun s : Bench last => s.Synced) := by
      intro hsupported
      obtain ⟨hhas, hnot⟩ := horderly hsupported
      refine ensures_channelSelect (fun _ _ _ => trivial) (fun _ h _ => h) ?_
        (fun _ _ h => absurd h hnot) fun _ h => h
      rintro bench - - - channel' hchannel'
      obtain rfl := Option.some.inj hchannel'
      exact ⟨hhas, isOutputOf_select_iff.mpr hhas⟩
    refine (ensures_body (body_run py wire channel method) hselect (fun _ _ _ _ _ => trivial)
      (fun _ => trivial) ?_ (fun _ h => h) fun _ h => h).state hsynced
    intro command bench hinst hbench channel' hchannel'
    obtain ⟨hhas, houtput⟩ := hbench channel' hchannel'
    refine ⟨hhas, ?_⟩
    show IsOutputOf (bench.psu.receive command).selected channel'
    rw [receive_selected hinst]
    exact houtput

/-- An orderly step from a synced bench is safe. -/
theorem safe_of_orderly {event : Event} (hsynced : bench.Synced) (horderly : Orderly bench event) :
    Safe bench event := by
  cases event with
  | «open» connects => trivial
  | close => trivial
  | powerCycle => trivial
  | call method channel wire =>
    intro hsupported _
    unfold Bench.Selects
    split_ifs with hactive
    · exact (hsynced channel hactive).2
    · exact (horderly hsupported).1

/-- **Every command for a channel acts on the output of that channel, exactly in the safe runs**, and
so in the orderly ones. -/
theorem channels_routed_iff (py : PyText) (psu : Instrument last) (run : List Event) :
    ((∀ action ∈ (driver last py).actions (.initial psu) run, action.Routed) ↔
      (driver last py).Along Safe (.initial psu) run) ∧
    ((driver last py).Along Orderly (.initial psu) run →
      (driver last py).Along Safe (.initial psu) run) := by
  constructor
  · rw [EventLoop.forall_actions_iff]
    exact (driver last py).along_congr (I := fun _ => True) trivial (fun _ _ _ _ _ => trivial)
      fun _ _ _ => routed_step_iff
  · intro horderly pre event bench hpre hbench
    have hstart : (Bench.initial psu).Synced := nofun
    have hsynced : bench.Synced :=
      (horderly.mono _ ((List.prefix_append pre [event]).trans hpre)).stateAfter _ hstart
        (fun _ _ _ hs hc hstep => synced_step hs hc hstep) hbench
    exact safe_of_orderly hsynced (horderly pre event bench hpre hbench)

end Runs

/-- Every write arrives, and the instrument reports no error. -/
def quiet : Wire := ⟨.sent, .sent, fun _ => .text [], .sent, fun _ => .text "0,No error".toList⟩

/-- The instrument is switched off and on between two calls for its second output. -/
def powerCycled : List Event :=
  [.open true, .call (.setVoltage (.finite 5)) 2 quiet, .close, .powerCycle, .open true,
    .call (.setVoltage (.finite 12)) 2 quiet]

/-- The second voltage arrives at the first output. -/
def strayVoltage : Action 1 := ⟨2, "VOLT 12.000".toList, .volt (.finite 12), 0⟩

theorem stale_channel_after_power_cycle :
    strayVoltage ∈ (driver 1 ⟨fun c => [c], fun _ => none⟩).actions (.initial ⟨0, 0⟩) powerCycled ∧
      ¬strayVoltage.Routed :=
  ⟨by decide +kernel, fun hrouted => absurd (hrouted rfl) (by decide : ¬((0 : ℤ) = 2 - 1))⟩

end Instro.Psu.Bk914x
