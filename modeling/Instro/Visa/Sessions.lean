import Instro.Visa.Driver
import Mathlib.Order.Lattice

/-!
# Sessions of the VISA transport

Whatever the callers of a driver do and whichever calls raise, every resource that was opened has been
closed once, but for the one the driver holds. Outside every block with another timeout the resource has
the timeout of the configuration.
-/

namespace Instro.Visa

open Instro.Library

/-! ## What is kept -/

/-- Every resource that was opened is closed, once, or held. -/
structure Session.Sound (s : Session) : Prop where
  once : s.closed.Nodup
  closed_iff : ∀ id, id ∈ s.closed ↔ id < s.opened ∧ s.inst ≠ some id
  held : ∀ id, s.inst = some id → id < s.opened

/-- The timeout of the configuration in milliseconds. -/
def VisaConfig.timeoutMs (cfg : VisaConfig) : ℤ := cfg.timeout.recv * 1000

/-- What the callers keep: resources are held from when they are opened, those that were there have the
timeout they had, and a new one has that of the configuration. -/
structure Session.Moved (cfg : VisaConfig) (s s' : Session) : Prop where
  sound : s'.Sound
  opened : s.opened ≤ s'.opened
  unset : s.unset ⊆ s'.unset
  same : ∀ id < s.opened, s'.inst = some id → s.inst = some id
  kept : ∀ id < s.opened, id ∉ s'.unset → s'.timeout id = s.timeout id
  fresh : ∀ id, s.opened ≤ id → s'.inst = some id → id ∉ s'.unset → s'.timeout id = cfg.timeoutMs

def Session.Moves (cfg : VisaConfig) (s s' : Session) : Prop := s.Sound → s.Moved cfg s'

/-- Nothing has changed but the number of calls. -/
def Session.Quiet (s s' : Session) : Prop := ∃ calls, s' = { s with calls }

/-- Nothing has changed but the timeout of one resource. -/
def Session.Configures (id : ℕ) (s s' : Session) : Prop :=
  ∃ calls timeout unset, s' = { s with calls, timeout, unset } ∧ s.unset ⊆ unset ∧
    ∀ other ≠ id, timeout other = s.timeout other

namespace Session

variable {cfg : VisaConfig} {s s' s'' : Session} {id : ℕ}

theorem Sound.refl_moved (h : s.Sound) : s.Moved cfg s where
  sound := h
  opened := le_rfl
  unset := List.Subset.refl _
  same _ _ h := h
  kept _ _ _ := rfl
  fresh id hid hinst := absurd (h.held id hinst) (not_lt.mpr hid)

theorem Moved.trans (h : s.Moved cfg s') (h' : s'.Moved cfg s'') : s.Moved cfg s'' where
  sound := h'.sound
  opened := h.opened.trans h'.opened
  unset := List.Subset.trans h.unset h'.unset
  same id hid hinst := h.same id hid (h'.same id (hid.trans_le h.opened) hinst)
  kept id hid hset := by
    rw [h'.kept id (hid.trans_le h.opened) hset]
    exact h.kept id hid fun hmem => hset (h'.unset hmem)
  fresh id hid hinst hset := by
    by_cases hnew : s'.opened ≤ id
    · exact h'.fresh id hnew hinst hset
    · have hold : id < s'.opened := not_le.mp hnew
      rw [h'.kept id hold hset]
      exact h.fresh id hid (h'.same id hold hinst) fun hmem => hset (h'.unset hmem)

instance : IsPreorder Session (Moves cfg) where
  refl _ h := h.refl_moved
  trans _ _ _ h h' hs := (h hs).trans (h' (h hs).sound)

instance : IsPreorder Session Quiet where
  refl s := ⟨s.calls, rfl⟩
  trans := by
    rintro s _ _ ⟨calls, rfl⟩ ⟨calls', rfl⟩
    exact ⟨calls', rfl⟩

instance : IsPreorder Session (Configures id) where
  refl s := ⟨s.calls, s.timeout, s.unset, rfl, List.Subset.refl _, fun _ _ => rfl⟩
  trans := by
    rintro s _ _ ⟨calls, timeout, unset, rfl, hunset, hother⟩ ⟨calls', timeout', unset', rfl, hunset',
      hother'⟩
    exact ⟨calls', timeout', unset', rfl, List.Subset.trans hunset hunset',
      fun other hne => (hother' other hne).trans (hother other hne)⟩

theorem Quiet.configures (h : s.Quiet s') (id : ℕ) : s.Configures id s' := by
  obtain ⟨calls, rfl⟩ := h
  exact ⟨calls, s.timeout, s.unset, rfl, List.Subset.refl _, fun _ _ => rfl⟩

/-- A session is as sound as one that holds the same resources. -/
theorem Sound.of_eq (h : s.Sound) (hinst : s'.inst = s.inst) (hopened : s'.opened = s.opened)
    (hclosed : s'.closed = s.closed) : s'.Sound := by
  constructor
  · rw [hclosed]
    exact h.once
  · intro id
    rw [hclosed, hopened, hinst]
    exact h.closed_iff id
  · intro id
    rw [hinst, hopened]
    exact h.held id

theorem Quiet.moves (h : s.Quiet s') : s.Moves cfg s' := by
  obtain ⟨calls, rfl⟩ := h
  intro hs
  exact { @Sound.refl_moved cfg s hs with sound := hs.of_eq rfl rfl rfl }

end Session

/-! ## Calls -/

section Calls

variable {world : World} {cfg : VisaConfig} {inst : ℕ} {s : Session}

theorem quiet_perform (call : VisaCall) : Procedure.Leads Session.Quiet (perform world call) := by
  intro s
  unfold perform attempt
  cases world.faults s.calls with
  | none => exact ⟨s.calls + 1, rfl⟩
  | some fault => exact ⟨s.calls + 1, rfl⟩

theorem quiet_performs (calls : List VisaCall) :
    Procedure.Leads Session.Quiet (calls.forM (perform world)) := by
  induction calls with
  | nil => exact Procedure.leads_pure ()
  | cons call calls ih => exact (quiet_perform call).bind fun _ => ih

theorem quiet_getTimeout (inst : ℕ) : Procedure.Leads Session.Quiet (getTimeout world inst) :=
  (quiet_perform _).bind fun _ => Procedure.leads_get.bind fun _ => Procedure.leads_pure _

theorem quiet_requireOpen : Procedure.Leads Session.Quiet requireOpen := by
  refine Procedure.leads_get.bind fun s => ?_
  cases s.inst with
  | none => exact Procedure.leads_raise _
  | some inst => exact Procedure.leads_pure inst

theorem quiet_call (method : Method) : Procedure.Leads Session.Quiet (method.run world) :=
  quiet_requireOpen.bind fun _ => quiet_performs _

theorem quiet_openResourceManager (backend : Option String) :
    Procedure.Leads Session.Quiet (openResourceManager world backend) := by
  cases backend with
  | some backend => exact quiet_perform _
  | none =>
    refine (quiet_perform _).handle fun e => ?_
    split_ifs
    · exact quiet_perform _
    · exact Procedure.leads_raise e

theorem quiet_disableNagle (inst : ℕ) : Procedure.Leads Session.Quiet (disableNagle world inst) := by
  unfold disableNagle
  split_ifs
  · refine (quiet_perform _).handle fun e => ?_
    split_ifs
    · exact quiet_perform _
    · exact Procedure.leads_raise e
  · exact Procedure.leads_pure ()

theorem quiet_configureSerial (inst : ℕ) (serial : SerialConfig) :
    Procedure.Leads Session.Quiet (configureSerial world inst serial) := by
  exact (quiet_perform _).bind fun _ => (quiet_perform _).bind fun _ => (quiet_perform _).bind
    fun _ => (quiet_perform _).bind fun _ => quiet_perform _

theorem configures_setTimeout (inst : ℕ) (ms : ℤ) :
    Procedure.Leads (Session.Configures inst) (setTimeout world inst ms) := by
  intro s
  unfold setTimeout attempt
  cases world.faults s.calls with
  | none =>
    exact ⟨s.calls + 1, Function.update s.timeout inst ms, s.unset, rfl, List.Subset.refl _,
      fun other hne => Function.update_of_ne hne _ _⟩
  | some fault =>
    exact ⟨s.calls + 1, s.timeout, inst :: s.unset, rfl, List.subset_cons_self _ _, fun _ _ => rfl⟩

/-- What follows the assignment of the timeout. -/
theorem quiet_rest (inst : ℕ) (cfg : VisaConfig) :
    Procedure.Leads Session.Quiet (do
      if cfg.tcpNodelay then disableNagle world inst
      perform world (.interfaceType inst)
      if world.isSerial then configureSerial world inst cfg.serialConfig) := by
  split_ifs
  · exact (quiet_disableNagle inst).bind fun _ => (quiet_perform _).bind fun _ =>
      quiet_configureSerial inst _
  · exact (quiet_perform _).bind fun _ => quiet_configureSerial inst _
  · exact (quiet_disableNagle inst).bind fun _ => (quiet_perform _).bind fun _ => Procedure.leads_pure ()
  · exact (quiet_perform _).bind fun _ => Procedure.leads_pure ()

/-- A resource that is configured has the timeout of the configuration; no other is touched. -/
theorem configures_configureResource (inst : ℕ) (cfg : VisaConfig) :
    Procedure.Leads (Session.Configures inst) (configureResource world inst cfg) := by
  have hquiet : ∀ {α : Type} {x : Talk α}, Procedure.Leads Session.Quiet x →
      Procedure.Leads (Session.Configures inst) x := fun h => h.mono fun _ _ h => h.configures inst
  exact (hquiet (quiet_perform _)).bind fun _ => (hquiet (quiet_perform _)).bind fun _ =>
    (configures_setTimeout inst _).bind fun _ => hquiet (quiet_rest inst cfg)

theorem ensures_setTimeout (inst : ℕ) (ms : ℤ) :
    Procedure.Ensures (fun _ => True) (setTimeout world inst ms) (fun _ => True)
      (fun _ s => s.timeout inst = ms) (fun _ => True) where
  shown _ _ _ _ := trivial
  returned s _ _ h := by
    unfold setTimeout attempt at h ⊢
    cases hfault : world.faults s.calls with
    | none => exact Function.update_self inst ms s.timeout
    | some fault =>
      rw [hfault] at h
      cases h
  raised _ _ _ _ := trivial

theorem timeout_configureResource (inst : ℕ) (cfg : VisaConfig) :
    Procedure.Ensures (fun _ => True) (configureResource world inst cfg) (fun _ => True)
      (fun _ s => s.timeout inst = cfg.timeoutMs) (fun _ => True) := by
  have hany : ∀ setting, Procedure.Ensures (fun _ => True) (assign world inst setting) (fun _ => True)
      (fun _ _ => True) (fun _ => True) :=
    fun setting => (quiet_perform (.assign inst setting)).ensures fun _ _ _ _ => trivial
  refine (hany _).bind fun _ => (hany _).bind fun _ => (ensures_setTimeout inst _).bind fun _ => ?_
  refine ((quiet_rest inst cfg).ensures (P := fun s => s.timeout inst = cfg.timeoutMs) ?_).mono
    (fun _ h => h) (fun _ _ h => h) fun _ _ => trivial
  rintro s _ ⟨calls, rfl⟩ h
  exact h

theorem Session.Configures.sound {s s' : Session} {id : ℕ} (h : s.Configures id s')
    (hs : s.Sound) : s'.Sound := by
  obtain ⟨calls, timeout, unset, rfl, -, -⟩ := h
  exact hs.of_eq rfl rfl rfl

/-- The resource that was just opened is closed again. -/
theorem Session.Moved.ofDiscarded {s s' : Session} (hs : s.Sound) (hinst : s.inst = none)
    (h : Session.Configures s.opened { s with opened := s.opened + 1 } s') :
    s.Moved cfg { s' with closed := s.opened :: s'.closed } := by
  obtain ⟨calls, timeout, unset, rfl, hunset, hother⟩ := h
  have hnew : s.opened ∉ s.closed := fun hmem => absurd ((hs.closed_iff _).mp hmem).1 (lt_irrefl _)
  have hnone : ∀ id, s.inst ≠ some id := by
    intro id h
    rw [hinst] at h
    cases h
  refine ⟨⟨List.nodup_cons.mpr ⟨hnew, hs.once⟩, fun id => ?_, fun id h => absurd h (hnone id)⟩,
    Nat.le_succ _, hunset, fun _ _ h => h, fun id hid _ => hother id hid.ne,
    fun id _ h => absurd h (hnone id)⟩
  show id ∈ s.opened :: s.closed ↔ id < s.opened + 1 ∧ s.inst ≠ some id
  rw [List.mem_cons, hs.closed_iff]
  have := hnone id
  constructor
  · rintro (rfl | ⟨hlt, -⟩)
    · exact ⟨Nat.lt_succ_self _, this⟩
    · exact ⟨Nat.lt_succ_of_lt hlt, this⟩
  · rintro ⟨hlt, -⟩
    rcases Nat.lt_succ_iff_lt_or_eq.mp hlt with hlt | rfl
    · exact .inr ⟨hlt, this⟩
    · exact .inl rfl

/-- The resource that was just opened is held. -/
theorem Session.Moved.ofHeld {s s' : Session} (hs : s.Sound) (hinst : s.inst = none)
    (h : Session.Configures s.opened { s with opened := s.opened + 1 } s')
    (htimeout : s'.timeout s.opened = cfg.timeoutMs) :
    s.Moved cfg { s' with inst := some s.opened } := by
  obtain ⟨calls, timeout, unset, rfl, hunset, hother⟩ := h
  have hnone : ∀ id, s.inst ≠ some id := by
    intro id h
    rw [hinst] at h
    cases h
  refine ⟨⟨hs.once, fun id => ?_, ?_⟩, Nat.le_succ _, hunset, ?_, fun id hid _ => hother id hid.ne, ?_⟩
  · show id ∈ s.closed ↔ id < s.opened + 1 ∧ some s.opened ≠ some id
    rw [hs.closed_iff]
    have := hnone id
    constructor
    · rintro ⟨hlt, -⟩
      exact ⟨Nat.lt_succ_of_lt hlt, fun h => hlt.ne (Option.some.inj h).symm⟩
    · rintro ⟨hlt, hne⟩
      exact ⟨lt_of_le_of_ne (Nat.lt_succ_iff.mp hlt) fun h => hne (congrArg some h.symm), this⟩
  · intro id h
    obtain rfl := Option.some.inj h
    exact Nat.lt_succ_self _
  · intro id hid h
    obtain rfl := Option.some.inj h
    exact absurd hid (lt_irrefl _)
  · intro id _ h _
    obtain rfl := Option.some.inj h
    exact htimeout

/-- `inst.close()` is one call, whether it raises or not. -/
theorem closeResource_state (inst : ℕ) (s : Session) :
    (closeResource world inst s).state = { s with calls := s.calls + 1, closed := inst :: s.closed } := by
  unfold closeResource attempt
  cases world.faults s.calls with
  | none => rfl
  | some fault => rfl

/-- The cleanup of a failed `open` closes the resource and raises what was raised. -/
theorem discard_spec (inst : ℕ) (e : Raised) (s : Session) :
    let done := (do
      (closeResource world inst).handle fun _ => pure ()
      Procedure.raise e : Talk Unit) s
    done.state = { s with calls := s.calls + 1, closed := inst :: s.closed } ∧ done.result = .error e := by
  have hhandled : ((closeResource world inst).handle (fun _ => pure ()) s).state =
      { s with calls := s.calls + 1, closed := inst :: s.closed } ∧
      ((closeResource world inst).handle (fun _ => pure ()) s).result = .ok () := by
    have hstate := @closeResource_state world inst s
    cases hclose : (closeResource world inst s).result with
    | ok _ =>
      rw [Procedure.handle_of_ok hclose]
      exact ⟨hstate, hclose⟩
    | error e =>
      rw [Procedure.handle_of_error hclose]
      exact ⟨hstate, rfl⟩
  dsimp only
  rw [Procedure.bind_of_ok hhandled.2]
  exact ⟨hhandled.1, rfl⟩

/-- A new resource is configured, or closed again. -/
theorem moves_newResource (cfg : VisaConfig) (hinst : s.inst = none) :
    s.Moves cfg ((do
      let inst ← openResource world cfg.visaResource
      (configureResource world inst cfg).handle fun e => do
        (closeResource world inst).handle fun _ => pure ()
        Procedure.raise e
      Procedure.modify fun s => { s with inst := some inst } : Talk Unit) s).state := by
  intro hs
  cases hfault : world.faults s.calls with
  | some fault =>
    have hopen : openResource world cfg.visaResource s =
        ⟨{ s with calls := s.calls + 1 }, [.openResource cfg.visaResource], .error (.pyvisa fault)⟩ := by
      unfold openResource
      rw [Procedure.get_bind, Procedure.bind_of_error (e := .pyvisa fault)]
      · unfold attempt
        rw [hfault]
        rfl
      · unfold attempt
        rw [hfault]
    rw [Procedure.bind_of_error (congrArg Done.result hopen), hopen]
    exact Session.Quiet.moves ⟨_, rfl⟩ hs
  | none =>
    have hopen : openResource world cfg.visaResource s =
        ⟨{ s with calls := s.calls + 1, opened := s.opened + 1 }, [.openResource cfg.visaResource] ++ [],
          .ok s.opened⟩ := by
      unfold openResource
      rw [Procedure.get_bind, Procedure.bind_of_ok (b := ())]
      · unfold attempt
        rw [hfault]
        rfl
      · unfold attempt
        rw [hfault]
    rw [Procedure.bind_of_ok (congrArg Done.result hopen), hopen]
    dsimp only
    generalize hopened : ({ s with calls := s.calls + 1, opened := s.opened + 1 } : Session) = s₁
    have hconfigures : Session.Configures s.opened { s with opened := s.opened + 1 }
        (configureResource world s.opened cfg s₁).state := by
      have hquiet : Session.Quiet { s with opened := s.opened + 1 } s₁ := ⟨s.calls + 1, hopened.symm⟩
      exact trans_of _ (hquiet.configures s.opened) (configures_configureResource s.opened cfg s₁)
    cases hconfigure : (configureResource world s.opened cfg s₁).result with
    | ok _ =>
      have htimeout := (timeout_configureResource s.opened cfg).returned s₁ trivial () hconfigure
      rw [Procedure.bind_of_ok (b := ()), Procedure.handle_of_ok hconfigure]
      · exact Session.Moved.ofHeld hs hinst hconfigures htimeout
      · rw [Procedure.handle_of_ok hconfigure]
        exact hconfigure
    | error e =>
      have hdiscard := @discard_spec world s.opened e (configureResource world s.opened cfg s₁).state
      dsimp only at hdiscard
      rw [Procedure.bind_of_error (e := e), Procedure.handle_of_error hconfigure]
      · dsimp only
        rw [hdiscard.1]
        obtain ⟨calls, timeout, unset, hstate, hunset, hother⟩ := hconfigures
        rw [hstate]
        exact Session.Moved.ofDiscarded hs hinst ⟨calls + 1, timeout, unset, rfl, hunset, hother⟩
      · rw [Procedure.handle_of_error hconfigure]
        exact hdiscard.2

theorem moves_openDriver (cfg : VisaConfig) :
    Procedure.Leads (Session.Moves cfg) (openDriver world cfg) := by
  intro s
  unfold openDriver
  rw [Procedure.get_bind]
  by_cases hheld : s.inst.isSome = true
  · rw [if_pos hheld]
    exact fun hs => hs.refl_moved
  rw [if_neg hheld]
  obtain ⟨calls, hcalls⟩ := @quiet_openResourceManager world cfg.visaBackend s
  cases hmanager : (openResourceManager world cfg.visaBackend s).result with
  | error e =>
    rw [Procedure.bind_of_error hmanager]
    exact Session.Quiet.moves ⟨calls, hcalls⟩
  | ok _ =>
    rw [Procedure.bind_of_ok hmanager, hcalls]
    have hnone : s.inst = none := by simpa using hheld
    exact trans_of (Session.Moves cfg) (Session.Quiet.moves ⟨calls, rfl⟩) (moves_newResource cfg hnone)

theorem moves_closeDriver (cfg : VisaConfig) :
    Procedure.Leads (Session.Moves cfg) (closeDriver world) := by
  intro s
  unfold closeDriver
  rw [Procedure.get_bind]
  cases hinst : s.inst with
  | none => exact fun hs => hs.refl_moved
  | some inst =>
    intro hs
    dsimp only
    have hstate : ((closeResource world inst).cleanup
        (Procedure.modify fun s => { s with inst := none }) s).state =
        { s with calls := s.calls + 1, closed := inst :: s.closed, inst := none } := by
      show { (closeResource world inst s).state with inst := none } = _
      rw [closeResource_state]
    rw [hstate]
    have hlt := hs.held inst hinst
    have hopen : inst ∉ s.closed := fun hmem => ((hs.closed_iff inst).mp hmem).2 hinst
    refine ⟨⟨List.nodup_cons.mpr ⟨hopen, hs.once⟩, fun id => ?_, nofun⟩, le_rfl, List.Subset.refl _,
      nofun, fun _ _ _ => rfl, nofun⟩
    show id ∈ inst :: s.closed ↔ id < s.opened ∧ none ≠ some id
    rw [List.mem_cons, hs.closed_iff, hinst]
    constructor
    · rintro (rfl | ⟨hid, -⟩)
      · exact ⟨hlt, nofun⟩
      · exact ⟨hid, nofun⟩
    · rintro ⟨hid, -⟩
      by_cases hsame : id = inst
      · exact .inl hsame
      · exact .inr ⟨hid, fun h => hsame (Option.some.inj h).symm⟩

theorem requireOpen_of_none (h : s.inst = none) : requireOpen s = ⟨s, [], .error .notOpen⟩ := by
  unfold requireOpen
  rw [Procedure.get_bind, h]
  rfl

theorem requireOpen_of_some (h : s.inst = some inst) : requireOpen s = ⟨s, [], .ok inst⟩ := by
  unfold requireOpen
  rw [Procedure.get_bind, h]
  rfl

/-- The timeout that is read is the one there is. -/
theorem ensures_getTimeout (inst : ℕ) (ms : ℤ) :
    Procedure.Ensures (fun s => s.timeout inst = ms) (getTimeout world inst) (fun _ => True)
      (fun original _ => original = ms) (fun _ => True) := by
  refine Procedure.Ensures.bind (M := fun _ s => s.timeout inst = ms) ?_ fun _ =>
    (Procedure.ensures_get (Q := fun (s : Session) _ => s.timeout inst = ms) fun _ h => h).bind fun s =>
      Procedure.ensures_pure fun _ h => h
  refine ((quiet_perform _).ensures (P := fun s => s.timeout inst = ms) ?_).mono
    (fun _ h => h) (fun _ _ h => h) fun _ _ => trivial
  rintro s _ ⟨calls, rfl⟩ h
  exact h

/-- Between two assignments of a timeout, of which the second undoes the first. -/
theorem Session.Moved.restored {s s₁ s₂ s₃ : Session} (hs : s.Sound) (hinst : s.inst = some inst)
    (hset : s.Configures inst s₁) (hbody : s₁.Moves cfg s₂) (hrestore : s₂.Configures inst s₃)
    (hrestored : inst ∉ s₃.unset → s₃.timeout inst = s.timeout inst) : s.Moved cfg s₃ := by
  have hlt := hs.held inst hinst
  have hmoved := hbody (hset.sound hs)
  have hsound := hrestore.sound hmoved.sound
  obtain ⟨_, timeout₁, unset₁, rfl, hunset₁, hother₁⟩ := hset
  obtain ⟨_, timeout₃, unset₃, rfl, hunset₃, hother₃⟩ := hrestore
  refine ⟨hsound, hmoved.opened, fun id h => hunset₃ (hmoved.unset (hunset₁ h)), hmoved.same,
    fun id hid hmem => ?_, fun id hid hnew hmem => ?_⟩
  · by_cases hsame : id = inst
    · rw [hsame] at hmem ⊢
      exact hrestored hmem
    · calc timeout₃ id = s₂.timeout id := hother₃ id hsame
        _ = timeout₁ id := hmoved.kept id hid fun h => hmem (hunset₃ h)
        _ = s.timeout id := hother₁ id hsame
  · have hne : id ≠ inst := fun h => absurd (h ▸ hlt) (not_lt.mpr hid)
    exact (hother₃ id hne).trans (hmoved.fresh id hid hnew fun h => hmem (hunset₃ h))

/-- A failed assignment of a timeout is noted. -/
theorem setTimeout_restores (inst : ℕ) (ms : ℤ) (s : Session) :
    inst ∉ (setTimeout world inst ms s).state.unset →
      (setTimeout world inst ms s).state.timeout inst = ms := by
  unfold setTimeout attempt
  cases world.faults s.calls with
  | none => exact fun _ => Function.update_self inst ms s.timeout
  | some fault => exact fun h => absurd List.mem_cons_self h

theorem unset_of_error {ms : ℤ} {e : Raised} (h : (setTimeout world inst ms s).result = .error e) :
    inst ∈ (setTimeout world inst ms s).state.unset := by
  unfold setTimeout attempt at h ⊢
  cases hfault : world.faults s.calls with
  | none =>
    rw [hfault] at h
    cases h
  | some fault => exact List.mem_cons_self

/-- Every timeout is restored, or its assignment raised. -/
theorem moves_temporaryTimeout {body : Talk Unit} (hbody : Procedure.Leads (Session.Moves cfg) body)
    (timeoutMs : ℤ) :
    Procedure.Leads (Session.Moves cfg) (temporaryTimeout world timeoutMs body) := by
  intro s hs
  unfold temporaryTimeout
  cases hinst : s.inst with
  | none =>
    have hrequire := requireOpen_of_none hinst
    rw [Procedure.bind_of_error (congrArg Done.result hrequire), hrequire]
    exact hs.refl_moved
  | some inst =>
    have hrequire := requireOpen_of_some hinst
    rw [Procedure.bind_of_ok (congrArg Done.result hrequire), hrequire]
    dsimp only
    have hquiet := @quiet_getTimeout world inst s
    cases hget : (getTimeout world inst s).result with
    | error e =>
      rw [Procedure.bind_of_error hget]
      exact hquiet.moves hs
    | ok original =>
      obtain rfl := (ensures_getTimeout inst (s.timeout inst)).returned s rfl original hget
      rw [Procedure.bind_of_ok hget]
      dsimp only
      generalize (getTimeout world inst s).state = s₀ at hquiet ⊢
      have hset : s.Configures inst (setTimeout world inst timeoutMs s₀).state :=
        trans_of (Session.Configures inst) (hquiet.configures inst)
          (configures_setTimeout inst timeoutMs s₀)
      cases hresult : (setTimeout world inst timeoutMs s₀).result with
      | error e =>
        rw [Procedure.bind_of_error hresult]
        exact .restored hs hinst hset (fun h => h.refl_moved) (refl_of (Session.Configures inst) _)
          fun hmem => absurd (unset_of_error hresult) hmem
      | ok _ =>
        rw [Procedure.bind_of_ok hresult]
        exact .restored hs hinst hset (hbody _) (configures_setTimeout inst (s.timeout inst) _)
          (setTimeout_restores inst (s.timeout inst) _)

end Calls

/-! ## Scripts -/

section Scripts

variable (world : World) (cfg : VisaConfig)

/-- **Step lemma.** Whatever the callers do leads along the moves. -/
theorem moves_run (script : Script) : Procedure.Leads (Session.Moves cfg) (script.run world cfg) := by
  induction script with
  | nothing => exact Procedure.leads_pure ()
  | openDriver => exact moves_openDriver cfg
  | closeDriver => exact moves_closeDriver cfg
  | call method => exact (quiet_call method).mono fun _ _ h => h.moves
  | fail => exact Procedure.leads_raise _
  | next first second ihfirst ihsecond => exact ihfirst.bind fun _ => ihsecond
  | handle body handler ihbody ihhandler => exact ihbody.handle fun _ => ihhandler
  | temporaryTimeout timeoutMs body ihbody => exact moves_temporaryTimeout ihbody timeoutMs

/-- **Sessions are closed once.** Whatever the callers of a driver do, and whichever calls of pyvisa raise,
`close` has been called once on every resource that was opened, but for the one that is held, on which it
has not been called. This one has the timeout of the configuration, unless an assignment of it raised. -/
theorem sessions_closed_once (script : Script) :
    let s := (script.run world cfg {}).state
    (∀ id, s.closed.count id = if id < s.opened ∧ s.inst ≠ some id then 1 else 0) ∧
      ∀ id, s.inst = some id → id < s.opened ∧ (id ∉ s.unset → s.timeout id = cfg.timeoutMs) := by
  have hstart : Session.Sound {} :=
    ⟨List.nodup_nil, fun id => ⟨nofun, fun h => absurd h.1 (Nat.not_lt_zero id)⟩, nofun⟩
  have hmoved := moves_run world cfg script {} hstart
  refine ⟨fun id => ?_, fun id hid => ⟨hmoved.sound.held id hid,
    hmoved.fresh id (Nat.zero_le id) hid⟩⟩
  rw [List.Nodup.count hmoved.sound.once]
  simp only [hmoved.sound.closed_iff]

/-- In a block with another timeout the driver is closed and opened again. -/
example :
    let s := ((Script.next .openDriver (.temporaryTimeout 500 (.next .closeDriver .openDriver))).run
      ⟨fun _ => none, false, false⟩ ⟨"GPIB0::1::INSTR", none, {}, {}, {}, true⟩ {}).state
    (s.inst, s.opened, s.closed, s.timeout 1) = (some 1, 2, [0], 15000) := by decide

end Scripts

end Instro.Visa
