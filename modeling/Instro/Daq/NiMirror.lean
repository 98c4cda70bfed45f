import Instro.Daq.NiResponse

/-!
# The mirror of the line tasks

A single line is written and read through the task of all lines of its direction, by the place of
its key in a dictionary of the driver. The dictionary mirrors the task as long as every call that
reaches the library adds one line under a new alias. A call that fails there after its key has been
set, or sets a key that is there, leaves the two apart.
-/

namespace Instro.Daq.Ni

open Instro.Library

/-! ## The mirror -/

/-- The logic-adjusted value last written to a line; false if it was never written. -/
def lastWritten (history : List Action) (channelAlias : String) : Bool :=
  history.foldl (fun value action =>
    match action with
    | .wrote channel data _ =>
      if channel.channelAlias = channelAlias then adjusted channel.logic data else value
    | _ => value) false

/-- The dictionaries have the lines of the tasks in task order, and the values last written. -/
structure Mirrors (history : List Action) (s : State) : Prop where
  order : ∀ direction, (s.bank direction).linesState.keys = s.lines direction
  values : ∀ channelAlias ∈ s.outputs.linesState.keys,
    s.outputs.linesState.get? channelAlias = some (lastWritten history channelAlias)

/-- A call that configures a line under a new alias adds one channel. Under an alias that is there
the library raises, and the line is an input, or its value is false. -/
def Keeps (s : State) : Event → Prop
  | .configureLine direction physicalChannel logic channelAlias further raises =>
    ∀ channel, buildLineChannel physicalChannel logic channelAlias = .ok channel →
      Reaches s direction raises →
        if channel.channelAlias ∈ (s.bank direction).linesState.keys then
          raises = some .addChan ∧ (direction = .output →
            s.outputs.linesState.get? channel.channelAlias = some false)
        else raises ≠ some .addChan ∧ further = 0
  | _ => True

/-! ## Histories -/

theorem lastWritten_append (history : List Action) {actions : List Action} (h : Silent actions)
    (channelAlias : String) :
    lastWritten (history ++ actions) channelAlias = lastWritten history channelAlias := by
  unfold lastWritten
  rw [List.foldl_append]
  generalize List.foldl _ false history = value
  induction actions with
  | nil => rfl
  | cons action actions ih =>
    have hrest : Silent actions := fun channel data sent hmem =>
      h channel data sent (List.mem_cons_of_mem action hmem)
    rw [List.foldl_cons]
    cases action with
    | wrote channel data sent => exact absurd List.mem_cons_self (h channel data sent)
    | returned data => exact ih hrest
    | raised e => exact ih hrest

theorem lastWritten_wrote (history : List Action) (channel : DigitalLineChannel) (data : ℤ)
    (sent : List Bool) {rest : List Action} (h : Silent rest) (channelAlias : String) :
    lastWritten (history ++ .wrote channel data sent :: rest) channelAlias =
      if channel.channelAlias = channelAlias then adjusted channel.logic data
      else lastWritten history channelAlias := by
  rw [← List.singleton_append, ← List.append_assoc, lastWritten_append _ h]
  unfold lastWritten
  rw [List.foldl_append]
  rfl

/-- What holds in every run: channels are registered under their aliases and have keys, and lines
without keys have not been written. -/
structure Tidy (history : List Action) (s : State) : Prop where
  registered : ∀ direction channelAlias channel,
    (s.bank direction).channels.get? channelAlias = some channel →
      channel.channelAlias = channelAlias ∧ channelAlias ∈ (s.bank direction).linesState.keys
  unwritten : ∀ channelAlias, channelAlias ∉ s.outputs.linesState.keys →
    lastWritten history channelAlias = false

section Step

variable {history actions : List Action} {s s' : State} {event : Event}

theorem Tidy.same (h : Tidy history s) (hsame : SameLines s s') (hactions : Silent actions) :
    Tidy (history ++ actions) s' := by
  constructor
  · intro direction channelAlias channel hchannel
    cases direction with
    | input =>
      have hold := h.registered .input channelAlias channel (by
        show s.inputs.channels.get? channelAlias = some channel
        rw [← hsame.channels]
        exact hchannel)
      refine ⟨hold.1, ?_⟩
      show channelAlias ∈ s'.inputs.linesState.keys
      rw [hsame.keys]
      exact hold.2
    | output =>
      have hold := h.registered .output channelAlias channel (by
        show s.outputs.channels.get? channelAlias = some channel
        rw [← hsame.outputs]
        exact hchannel)
      refine ⟨hold.1, ?_⟩
      show channelAlias ∈ s'.outputs.linesState.keys
      rw [hsame.outputs]
      exact hold.2
  · intro channelAlias hnot
    rw [hsame.outputs] at hnot
    rw [lastWritten_append _ hactions]
    exact h.unwritten channelAlias hnot

/-- The bank of one direction takes another key, and maybe the channel registered under it. -/
theorem Tidy.setBank (h : Tidy history s) {t : State} {direction : Direction}
    (hbanks : ∀ direction', t.bank direction' = s.bank direction') (channel : DigitalLineChannel)
    {channels : Dict String DigitalLineChannel}
    (hchannels : channels = (s.bank direction).channels ∨
      channels = (s.bank direction).channels.set channel.channelAlias channel)
    (hactions : Silent actions) :
    Tidy (history ++ actions) (t.setBank direction
      { linesState := (s.bank direction).linesState.set channel.channelAlias false
        channels := channels }) := by
  constructor
  · intro direction' channelAlias channel' hchannel
    by_cases hdirection : direction' = direction
    · subst hdirection
      rw [bank_setBank_self] at hchannel ⊢
      dsimp only at hchannel ⊢
      rw [Dict.mem_keys_set]
      have hold : ∀ hget : (s.bank direction').channels.get? channelAlias = some channel', _ :=
        h.registered direction' channelAlias channel'
      rcases hchannels with rfl | rfl
      · exact ⟨(hold hchannel).1, .inr (hold hchannel).2⟩
      · by_cases halias : channelAlias = channel.channelAlias
        · rw [halias, Dict.get?_set_self] at hchannel
          obtain rfl := Option.some.inj hchannel
          exact ⟨halias.symm, .inl halias⟩
        · rw [Dict.get?_set_ne halias] at hchannel
          exact ⟨(hold hchannel).1, .inr (hold hchannel).2⟩
    · rw [bank_setBank_ne hdirection, hbanks] at hchannel ⊢
      exact h.registered direction' channelAlias channel' hchannel
  · intro channelAlias hnot
    rw [lastWritten_append _ hactions]
    apply h.unwritten
    intro hkey
    apply hnot
    show channelAlias ∈ ((t.setBank direction _).bank .output).linesState.keys
    by_cases hdirection : Direction.output = direction
    · subst hdirection
      rw [bank_setBank_self]
      exact Dict.mem_keys_set.mpr (.inr hkey)
    · rw [bank_setBank_ne hdirection, hbanks]
      exact hkey

theorem Tidy.step (h : Tidy history s) (hmoves : LineMoves s event s' actions) :
    Tidy (history ++ actions) s' := by
  cases hmoves with
  | configures direction physicalChannel logic channelAlias further raises _ result hconfigures =>
    cases hconfigures with
    | rejected e hnot => exact h.same (.refl s) (silent_raisedBy _)
    | failed channel t hbuild hreaches hraises hlines hbanks hsame =>
      exact h.setBank hbanks channel (.inl rfl) (silent_raisedBy _)
    | added channel t hbuild hreaches hraises hlines hothers hbanks =>
      exact h.setBank hbanks channel (.inr rfl) (silent_raisedBy _)
  | writes channelAlias data raises channel linesState rest hchannel hlinesState hrest =>
    subst hlinesState
    constructor
    · intro direction channelAlias' channel' hchannel'
      have hold := h.registered direction channelAlias' channel' (by cases direction <;> exact hchannel')
      cases direction with
      | input => exact hold
      | output => exact ⟨hold.1, Dict.mem_keys_set.mpr (.inr hold.2)⟩
    · intro channelAlias' hnot
      have hnot : channelAlias' ∉ (s.outputs.linesState.set channel.channelAlias
        (adjusted channel.logic data)).keys := hnot
      rw [Dict.mem_keys_set, not_or] at hnot
      rw [lastWritten_wrote _ _ _ _ hrest, if_neg fun heq => hnot.1 heq.symm]
      exact h.unwritten channelAlias' hnot.2
  | keeps _ _ _ hevent hsame hactions => exact h.same hsame hactions

theorem Mirrors.same (h : Mirrors history s) (hsame : SameLines s s') (hactions : Silent actions) :
    Mirrors (history ++ actions) s' := by
  constructor
  · intro direction
    rw [hsame.lines, ← h.order]
    cases direction with
    | input => exact hsame.keys
    | output => exact congrArg (fun bank => bank.linesState.keys) hsame.outputs
  · intro channelAlias hkey
    rw [hsame.outputs] at hkey ⊢
    rw [lastWritten_append _ hactions]
    exact h.values channelAlias hkey

theorem keeps_iff {direction : Direction} {physicalChannel : String} {logic : Logic}
    {channelAlias : Option String} {further : ℕ} {raises : Option NiCall}
    {channel : DigitalLineChannel}
    (hbuild : buildLineChannel physicalChannel logic channelAlias = .ok channel)
    (hreaches : Reaches s direction raises) :
    Keeps s (.configureLine direction physicalChannel logic channelAlias further raises) ↔
      if channel.channelAlias ∈ (s.bank direction).linesState.keys then
        raises = some .addChan ∧ (direction = .output →
          s.outputs.linesState.get? channel.channelAlias = some false)
      else raises ≠ some .addChan ∧ further = 0 := by
  constructor
  · exact fun h => h channel hbuild hreaches
  · intro h channel' hbuild' _
    obtain rfl := Except.ok.inj (hbuild.symm.trans hbuild')
    exact h

/-- Where a key has been set, the mirror holds exactly if the task has the line of a new key and no
further one, and a key that was there had the value false. -/
theorem mirrors_setBank_iff (h : Mirrors history s) (htidy : Tidy history s) {t : State}
    {direction : Direction} {channelAlias : String} {added : List String}
    (hlines : t.lines direction = s.lines direction ++ added)
    (hothers : ∀ direction', direction' ≠ direction → t.lines direction' = s.lines direction')
    (hbanks : ∀ direction', t.bank direction' = s.bank direction')
    (channels : Dict String DigitalLineChannel) (hactions : Silent actions) :
    Mirrors (history ++ actions) (t.setBank direction
        { linesState := (s.bank direction).linesState.set channelAlias false
          channels := channels }) ↔
      added = (if channelAlias ∈ (s.bank direction).linesState.keys then [] else [channelAlias]) ∧
        (channelAlias ∈ (s.bank direction).linesState.keys → direction = .output →
          s.outputs.linesState.get? channelAlias = some false) := by
  have hkeys : ((s.bank direction).linesState.set channelAlias false).keys =
      s.lines direction ++
        if channelAlias ∈ (s.bank direction).linesState.keys then [] else [channelAlias] := by
    rw [Dict.keys_set, ← h.order]
    split_ifs
    · rw [List.append_nil]
    · rfl
  constructor
  · intro hafter
    constructor
    · have horder := hafter.order direction
      rw [bank_setBank_self, lines_setBank, hlines, hkeys] at horder
      exact (List.append_cancel_left horder).symm
    · rintro hkey rfl
      have hvalue := hafter.values channelAlias (Dict.mem_keys_set.mpr (.inl rfl))
      rw [lastWritten_append _ hactions] at hvalue
      rw [h.values channelAlias hkey, ← hvalue]
      exact Dict.get?_set_self _ _ _
  · rintro ⟨rfl, hfalse⟩
    constructor
    · intro direction'
      rw [lines_setBank]
      by_cases hdirection : direction' = direction
      · subst hdirection
        rw [bank_setBank_self, hlines]
        exact hkeys
      · rw [bank_setBank_ne hdirection, hbanks, hothers direction' hdirection]
        exact h.order direction'
    · show ∀ channelAlias' ∈ ((t.setBank direction _).bank .output).linesState.keys,
        ((t.setBank direction _).bank .output).linesState.get? channelAlias' = _
      by_cases hdirection : Direction.output = direction
      · subst hdirection
        rw [bank_setBank_self]
        apply Dict.get?_set_eq h.values
        · rw [lastWritten_append _ hactions]
          by_cases hold : channelAlias ∈ s.outputs.linesState.keys
          · rw [h.values channelAlias hold] at hfalse
            exact Option.some.inj (hfalse hold rfl)
          · exact htidy.unwritten channelAlias hold
        · exact fun channelAlias' _ => lastWritten_append _ hactions channelAlias'
      · rw [bank_setBank_ne hdirection, hbanks]
        intro channelAlias' hkey
        rw [lastWritten_append _ hactions]
        exact h.values channelAlias' hkey

/-- **Step lemma.** A step from a mirrored state ends in one exactly if it keeps the mirror. -/
theorem mirrors_step_iff (h : Mirrors history s) (htidy : Tidy history s)
    (hmoves : LineMoves s event s' actions) :
    Keeps s event ↔ Mirrors (history ++ actions) s' := by
  cases hmoves with
  | configures direction physicalChannel logic channelAlias further raises _ result hconfigures =>
    cases hconfigures with
    | rejected e hnot =>
      apply iff_of_true
      · exact fun channel hbuild hreaches => absurd hreaches (hnot channel hbuild)
      · exact h.same (.refl s) (silent_raisedBy _)
    | failed channel t hbuild hreaches hraises hlines hbanks hsame =>
      rw [keeps_iff hbuild hreaches, mirrors_setBank_iff h htidy
        (by rw [hlines, List.append_nil]) (fun direction' _ => hlines direction') hbanks _
        (silent_raisedBy _)]
      split_ifs with hkey
      · exact ⟨fun hkeeps => ⟨rfl, fun _ => hkeeps.2⟩, fun hafter => ⟨hraises, hafter.2 hkey⟩⟩
      · exact iff_of_false (fun hkeeps => hkeeps.1 hraises) fun hafter => by cases hafter.1
    | added channel t hbuild hreaches hraises hlines hothers hbanks =>
      rw [keeps_iff hbuild hreaches, mirrors_setBank_iff h htidy hlines hothers hbanks _
        (silent_raisedBy _)]
      split_ifs with hkey
      · exact iff_of_false (fun hkeeps => hraises hkeeps.1) fun hafter => by cases hafter.1
      · constructor
        · rintro ⟨-, rfl⟩
          exact ⟨rfl, fun hin => absurd hin hkey⟩
        · rintro ⟨hadded, -⟩
          refine ⟨hraises, ?_⟩
          simpa using hadded
  | writes channelAlias data raises channel linesState rest hchannel hlinesState hrest =>
    subst hlinesState
    refine iff_of_true trivial ?_
    have hregistered := htidy.registered .output channelAlias channel hchannel
    have hkey : channel.channelAlias ∈ s.outputs.linesState.keys := by
      rw [hregistered.1]
      exact hregistered.2
    have hkeys : (s.outputs.linesState.set channel.channelAlias
        (adjusted channel.logic data)).keys = s.outputs.linesState.keys := by
      rw [Dict.keys_set, if_pos hkey]
    constructor
    · intro direction
      cases direction with
      | input => exact h.order .input
      | output => exact hkeys.trans (h.order .output)
    · apply Dict.get?_set_eq h.values
      · rw [lastWritten_wrote _ _ _ _ hrest, if_pos rfl]
      · intro channelAlias' hne
        rw [lastWritten_wrote _ _ _ _ hrest, if_neg hne.symm]
  | keeps _ _ _ hevent hsame hactions =>
    refine iff_of_true ?_ (h.same hsame hactions)
    cases event with
    | configureLine direction physicalChannel logic channelAlias further raises =>
      exact absurd rfl (hevent _ _ _ _ _ _)
    | _ => trivial

end Step

/-! ## Runs -/

section Run

variable {fl : Rounding} {run pre : List Event} {s : State}

theorem driver_step (s : State) (event : Event) :
    ((driver fl).step s event).2 = some (step fl s event).1 := rfl

theorem actions_concat (h : (driver fl).stateAfter initial pre = some s) (event : Event) :
    (driver fl).actions initial (pre ++ [event]) =
      (driver fl).actions initial pre ++ (step fl s event).2 := by
  rw [EventLoop.actions_append _ h, EventLoop.actions_cons_some _ (driver_step s event)]
  exact congrArg _ (List.append_nil _)

theorem stateAfter_concat (h : (driver fl).stateAfter initial pre = some s) (event : Event) :
    (driver fl).stateAfter initial (pre ++ [event]) = some (step fl s event).1 :=
  (EventLoop.stateAfter_append_singleton _).mpr ⟨s, h, driver_step s event⟩

theorem tidy_initial : Tidy [] initial := by
  constructor
  · intro direction channelAlias channel hchannel
    cases direction <;> cases hchannel
  · exact fun _ _ => rfl

theorem mirrors_initial : Mirrors [] initial := by
  constructor
  · intro direction
    cases direction <;> rfl
  · exact fun _ hkey => absurd hkey List.not_mem_nil

/-- **Run lemma.** Every run is tidy. -/
theorem tidy_reached (h : (driver fl).stateAfter initial run = some s) :
    Tidy ((driver fl).actions initial run) s := by
  induction run using List.reverseRecOn generalizing s with
  | nil =>
    obtain rfl := Option.some.inj h
    exact tidy_initial
  | append_singleton pre event ih =>
    obtain ⟨t, ht, hstep⟩ := (EventLoop.stateAfter_append_singleton _).mp h
    obtain rfl := Option.some.inj hstep
    rw [actions_concat ht]
    exact (ih ht).step (lineMoves_step fl t event)

/-- **Run lemma.** A run whose steps all keep the mirror ends in a mirrored state. -/
theorem mirrors_reached (hkeeps : (driver fl).Along Keeps initial run)
    (h : (driver fl).stateAfter initial run = some s) :
    Mirrors ((driver fl).actions initial run) s := by
  induction run using List.reverseRecOn generalizing s with
  | nil =>
    obtain rfl := Option.some.inj h
    exact mirrors_initial
  | append_singleton pre event ih =>
    obtain ⟨t, ht, hstep⟩ := (EventLoop.stateAfter_append_singleton _).mp h
    obtain rfl := Option.some.inj hstep
    rw [actions_concat ht]
    apply (mirrors_step_iff (ih (hkeeps.mono _ (List.prefix_append _ _)) ht) (tidy_reached ht)
      (lineMoves_step fl t event)).mp
    exact hkeeps pre event t List.prefix_rfl ht

/-- All states of a run are mirrored exactly if all its steps keep the mirror. -/
theorem mirrors_throughout_iff :
    (∀ pre s, pre <+: run → (driver fl).stateAfter initial pre = some s →
      Mirrors ((driver fl).actions initial pre) s) ↔ (driver fl).Along Keeps initial run := by
  constructor
  · intro h pre event t hpre ht
    have hafter := h (pre ++ [event]) _ hpre (stateAfter_concat ht event)
    rw [actions_concat ht] at hafter
    exact (mirrors_step_iff (h pre t ((List.prefix_append _ _).trans hpre) ht) (tidy_reached ht)
      (lineMoves_step fl t event)).mpr hafter
  · intro h pre s hpre hs
    exact mirrors_reached (h.mono _ hpre) hs

end Run

/-! ## What callers see -/

/-- The value of a line as a read returns it. -/
def ownBit (logic : Logic) (bit : Bool) : ℕ :=
  match logic with
  | .high => bit.toNat
  | .low => (!bit).toNat

/-- The lines of a run are written and read as they should be. -/
structure LinesHold (fl : Rounding) (run : List Event) : Prop where
  /-- The keys are the channels of the tasks, in task order. -/
  order : ∀ pre s, pre <+: run → (driver fl).stateAfter initial pre = some s →
    ∀ direction, (s.bank direction).linesState.keys = s.lines direction
  /-- A write sends every line of the task the value last written to it. -/
  writes : ∀ pre channelAlias data raises s channel,
    pre ++ [.writeLine channelAlias data raises] <+: run →
      (driver fl).stateAfter initial pre = some s →
        s.outputs.channels.get? channelAlias = some channel →
          (step fl s (.writeLine channelAlias data raises)).2 =
            .wrote channel data ((s.lines .output).map
              (lastWritten ((driver fl).actions initial
                (pre ++ [.writeLine channelAlias data raises])))) ::
              if raises then [.raised .daqmx] else []
  /-- A read returns the bit of its own line. -/
  reads : ∀ pre channelAlias bits s channel,
    pre ++ [.readLine channelAlias bits false] <+: run →
      (driver fl).stateAfter initial pre = some s →
        s.inputs.channels.get? channelAlias = some channel →
          ∃ i, (s.lines .input)[i]? = some channelAlias ∧
            (step fl s (.readLine channelAlias bits false)).2 =
              [.returned (ownBit channel.logic (bits i))]
  /-- A call that raises leaves everything after it as it would be without the call. -/
  unaffected : ∀ pre direction physicalChannel logic channelAlias further raises s e,
    pre ++ [.configureLine direction physicalChannel logic channelAlias further raises] <+: run →
      (driver fl).stateAfter initial pre = some s →
        (step fl s
          (.configureLine direction physicalChannel logic channelAlias further raises)).2 =
            [.raised e] →
          ∀ post, (driver fl).actions (step fl s
            (.configureLine direction physicalChannel logic channelAlias further raises)).1 post =
              (driver fl).actions s post

section Callers

variable {fl : Rounding} {history : List Action} {s : State}

/-- The lines of a direction are there only if their task is. -/
theorem task_of_mem_lines {direction : Direction} {channelAlias : String}
    (h : channelAlias ∈ s.lines direction) :
    ∃ task, s.tasks.get? direction.channelType = some task ∧ task.lines = s.lines direction := by
  unfold State.lines at h ⊢
  cases htask : s.tasks.get? direction.channelType with
  | none =>
    rw [htask] at h
    exact absurd h List.not_mem_nil
  | some task => exact ⟨task, rfl, rfl⟩

theorem write_of_mirrors (h : Mirrors history s) (htidy : Tidy history s) {channelAlias : String}
    {channel : DigitalLineChannel}
    (hchannel : s.outputs.channels.get? channelAlias = some channel) (data : ℤ) (raises : Bool) :
    (step fl s (.writeLine channelAlias data raises)).2 =
      .wrote channel data ((s.lines .output).map
        (lastWritten (history ++ (step fl s (.writeLine channelAlias data raises)).2))) ::
        if raises then [.raised .daqmx] else [] := by
  obtain ⟨halias, hkey⟩ := htidy.registered .output channelAlias channel hchannel
  obtain ⟨task, htask, -⟩ := task_of_mem_lines (h.order .output ▸ hkey)
  have hstep : step fl s (.writeLine channelAlias data raises) =
      ({ s with outputs := ⟨s.outputs.linesState.set channel.channelAlias
          (adjusted channel.logic data), s.outputs.channels⟩ },
        .wrote channel data (s.outputs.linesState.set channel.channelAlias
          (adjusted channel.logic data)).values :: if raises then [.raised .daqmx] else []) := by
    unfold step
    dsimp only
    rw [hchannel]
    dsimp only
    unfold State.writeDigitalLine
    rw [show s.tasks.get? .digitalOutput = some task from htask]
  have hafter := (mirrors_step_iff h htidy
    (lineMoves_step fl s (.writeLine channelAlias data raises))).mp trivial
  have hvalues := Dict.values_eq_map_keys hafter.values
  have horder := hafter.order .output
  rw [hstep] at hvalues horder
  rw [hstep]
  have hlines : (s.outputs.linesState.set channel.channelAlias
      (adjusted channel.logic data)).keys = s.lines .output := horder
  dsimp only at hvalues ⊢
  rw [← hlines, ← hvalues]

theorem read_of_mirrors (h : Mirrors history s) (htidy : Tidy history s) {channelAlias : String}
    {channel : DigitalLineChannel}
    (hchannel : s.inputs.channels.get? channelAlias = some channel) (bits : ℕ → Bool) :
    ∃ i, (s.lines .input)[i]? = some channelAlias ∧
      (step fl s (.readLine channelAlias bits false)).2 =
        [.returned (ownBit channel.logic (bits i))] := by
  obtain ⟨halias, hkey⟩ := htidy.registered .input channelAlias channel hchannel
  have hlines : s.inputs.linesState.keys = s.lines .input := h.order .input
  have hmem : channelAlias ∈ s.lines .input := h.order .input ▸ hkey
  obtain ⟨task, htask, htasklines⟩ := task_of_mem_lines hmem
  obtain ⟨i, hi⟩ : ∃ i, (s.lines .input).idxOf? channelAlias = some i :=
    Option.isSome_iff_exists.mp (List.isSome_idxOf?.mpr hmem)
  obtain ⟨hlt, hget, -⟩ := List.idxOf?_eq_some_iff.mp hi
  refine ⟨i, ?_, ?_⟩
  · rw [List.getElem?_eq_getElem hlt, hget]
  · unfold step
    dsimp only
    rw [hchannel]
    dsimp only
    rw [readDigitalLine_actions htask, readResult, hlines, htasklines, if_neg (lt_irrefl _), halias, hi]
    dsimp only
    rw [if_pos hlt]
    unfold ownBit
    cases channel.logic <;> rfl

/-- A call that raises, from a mirrored state, changes the stored response at most. -/
theorem alike_of_raised (h : Mirrors history s) {direction : Direction} {physicalChannel : String}
    {logic : Logic} {channelAlias : Option String} {further : ℕ} {raises : Option NiCall} {s' : State}
    {e : Error}
    (hkeeps : Keeps s (.configureLine direction physicalChannel logic channelAlias further raises))
    (hconfigures : Configures s direction physicalChannel logic channelAlias further raises s'
      (.error e)) : Alike s s' := by
  cases hconfigures with
  | rejected _ hnot => exact .refl s
  | failed channel t hbuild hreaches hraises hlines hbanks hsame =>
    rw [keeps_iff hbuild hreaches] at hkeeps
    split_ifs at hkeeps with hkey
    · obtain ⟨task, htask, -⟩ := task_of_mem_lines (h.order direction ▸ hkey)
      obtain rfl := hsame (by rw [htask]; rfl)
      cases direction with
      | input => exact ⟨_, rfl, by rw [Dict.keys_set]; exact if_pos hkey⟩
      | output =>
        have hset : (t.bank .output).linesState.set channel.channelAlias false =
            (t.bank .output).linesState := Dict.set_of_get? (hkeeps.2 rfl)
        rw [hset]
        exact .refl t
    · exact absurd hraises hkeeps.1

/-- States that differ in the stored response do the same over any events. -/
theorem actions_alike {t : State} (h : Alike s t) (post : List Event) :
    (driver fl).actions t post = (driver fl).actions s post := by
  refine (EventLoop.actions_eq_map (driver fl) (driver fl) (f := id) (R := fun t s => Alike s t)
    ?_ h).trans (List.map_id _)
  intro t s event _ hrelated
  obtain ⟨hactions, hstates⟩ := step_alike hrelated event
  exact ⟨hactions.trans (List.map_id _).symm, Option.Rel.some hstates⟩

end Callers

/-- **Digital lines.** In every run whose steps all keep the mirror, the lines are written and read
as they should be; and the states of a run mirror the tasks exactly if all its steps do. -/
theorem lines_of_keeps (fl : Rounding) (run : List Event) :
    ((∀ pre s, pre <+: run → (driver fl).stateAfter initial pre = some s →
      Mirrors ((driver fl).actions initial pre) s) ↔ (driver fl).Along Keeps initial run) ∧
    ((driver fl).Along Keeps initial run → LinesHold fl run) := by
  refine ⟨mirrors_throughout_iff, fun hkeeps => ⟨?_, ?_, ?_, ?_⟩⟩
  · intro pre s hpre hs
    exact (mirrors_reached (hkeeps.mono _ hpre) hs).order
  · intro pre channelAlias data raises s channel hpre hs hchannel
    rw [actions_concat hs]
    exact write_of_mirrors (mirrors_reached (hkeeps.mono _ ((List.prefix_append _ _).trans hpre)) hs)
      (tidy_reached hs) hchannel data raises
  · intro pre channelAlias bits s channel hpre hs hchannel
    exact read_of_mirrors (mirrors_reached (hkeeps.mono _ ((List.prefix_append _ _).trans hpre)) hs)
      (tidy_reached hs) hchannel bits
  · intro pre direction physicalChannel logic channelAlias further raises s e hpre hs hraised post
    have hmirrors := mirrors_reached (hkeeps.mono _ ((List.prefix_append _ _).trans hpre)) hs
    have hconfigures := configures s direction physicalChannel logic channelAlias further raises
    cases hresult : (s.configureLineChannel direction physicalChannel logic channelAlias further
        raises).2 with
    | ok =>
      have hsilent : (step fl s (.configureLine direction physicalChannel logic channelAlias further
        raises)).2 = [] := congrArg raisedBy hresult
      rw [hsilent] at hraised
      cases hraised
    | error e' =>
      rw [hresult] at hconfigures
      exact actions_alike (alike_of_raised hmirrors (hkeeps pre _ s hpre hs) hconfigures) post

/-! ## A stray key and a value that is lost -/

/-- The line of an alias on port 0 of the device. -/
def configureOutput (channelAlias : String) (line : String) (raises : Option NiCall) : Event :=
  .configureLine .output ("Dev1/port0/line" ++ line) .high (some channelAlias) 0 raises

/-- Two lines, and a write to each. -/
def twoLines : List Event :=
  [configureOutput "a" "0" none, configureOutput "b" "1" none, .writeLine "a" 1 false,
    .writeLine "b" 1 false]

/-- The library refuses the second line; the first one is written. -/
def refusedLine : List Event :=
  [configureOutput "a" "0" none, configureOutput "b" "1" (some .addChan), .writeLine "a" 1 false]

/-- The library refuses an alias that is there; then the other line is written. -/
def refusedAlias : List Event :=
  [configureOutput "a" "0" none, configureOutput "b" "1" none, .writeLine "a" 1 false,
    configureOutput "a" "2" (some .addChan), .writeLine "b" 1 false]

theorem keeps_twoLines : (driver exact).Along Keeps initial twoLines := by
  have hfirst : buildLineChannel "Dev1/port0/line0" .high (some "a") =
      .ok ⟨"Dev1/port0/line0", "a", .high⟩ := by decide +kernel
  have hsecond : buildLineChannel "Dev1/port0/line1" .high (some "b") =
      .ok ⟨"Dev1/port0/line1", "b", .high⟩ := by decide +kernel
  refine (EventLoop.along_cons _).mpr
    ⟨(keeps_iff hfirst (.inr (by decide))).mpr (by decide +kernel), fun s hs => ?_⟩
  obtain rfl := Option.some.inj hs
  refine (EventLoop.along_cons _).mpr
    ⟨(keeps_iff hsecond (.inr (by decide))).mpr (by decide +kernel), fun s hs => ?_⟩
  refine (EventLoop.along_cons _).mpr ⟨trivial, fun s hs => ?_⟩
  exact (EventLoop.along_cons _).mpr ⟨trivial, fun s hs => EventLoop.along_nil _ _ _⟩

theorem lines_of_keeps_two : LinesHold exact twoLines :=
  (lines_of_keeps exact twoLines).2 keeps_twoLines

/-- One line gets two values; and a line that was set is cleared by a write to the other one. -/
theorem refused_configure_misaligns :
    ¬ LinesHold exact refusedLine ∧ ¬ LinesHold exact refusedAlias ∧
      (driver exact).actions initial refusedLine =
        [.raised .daqmx, .wrote ⟨"Dev1/port0/line0", "a", .high⟩ 1 [true, false]] ∧
      (driver exact).actions initial refusedAlias =
        [.wrote ⟨"Dev1/port0/line0", "a", .high⟩ 1 [true, false], .raised .daqmx,
          .wrote ⟨"Dev1/port0/line1", "b", .high⟩ 1 [false, true]] := by
  refine ⟨fun h => ?_, fun h => ?_, by decide +kernel, by decide +kernel⟩
  · have horder := h.order refusedLine _ List.prefix_rfl rfl .output
    exact absurd horder (by decide +kernel)
  · have hwrite := h.writes (refusedAlias.take 4) "b" 1 false _ ⟨"Dev1/port0/line1", "b", .high⟩
      List.prefix_rfl rfl (by decide +kernel)
    exact absurd hwrite (by decide +kernel)

end Instro.Daq.Ni
