import Mathlib.Algebra.Ring.Nat
import Mathlib.Data.List.Induction

/-!
# Event loops

An event loop takes events one at a time. At each event it performs a list of actions and either
goes on in a new state or leaves. `stateAfter` and `actions` run it over a list of events;
`stateAfter_induction` is the rule every whole-run invariant is proved by.
-/

namespace Instro.Library

/-- A loop with states `σ`, events `ε` and observable actions `α`. A step that returns no state
leaves the loop. -/
structure EventLoop (σ ε α : Type*) where
  step : σ → ε → List α × Option σ

namespace EventLoop

variable {σ ε α : Type*} (L : EventLoop σ ε α)

/-- The state after the events, or `none` once the loop has left. -/
def stateAfter : σ → List ε → Option σ
  | s, [] => some s
  | s, e :: es => (L.step s e).2.bind fun s' => stateAfter s' es

/-- Everything the loop does over the events. Events after it has left are not taken. -/
def actions : σ → List ε → List α
  | _, [] => []
  | s, e :: es => (L.step s e).1 ++ (L.step s e).2.elim [] fun s' => actions s' es

@[simp] theorem stateAfter_nil (s : σ) : L.stateAfter s [] = some s := rfl

@[simp] theorem actions_nil (s : σ) : L.actions s [] = [] := rfl

theorem stateAfter_cons (s : σ) (e : ε) (es : List ε) :
    L.stateAfter s (e :: es) = (L.step s e).2.bind fun s' => L.stateAfter s' es := rfl

theorem stateAfter_append (s : σ) (es fs : List ε) :
    L.stateAfter s (es ++ fs) = (L.stateAfter s es).bind fun s' => L.stateAfter s' fs := by
  induction es generalizing s with
  | nil => rfl
  | cons e es ih =>
    rw [List.cons_append, stateAfter_cons, stateAfter_cons, Option.bind_assoc]
    exact congrArg _ (funext ih)

theorem actions_cons_some {s s' : σ} {e : ε} (h : (L.step s e).2 = some s') (es : List ε) :
    L.actions s (e :: es) = (L.step s e).1 ++ L.actions s' es := by
  rw [actions, h, Option.elim_some]

theorem actions_cons_none {s : σ} {e : ε} (h : (L.step s e).2 = none) (es : List ε) :
    L.actions s (e :: es) = (L.step s e).1 := by
  rw [actions, h, Option.elim_none, List.append_nil]

/-- A run that is still in the loop after `es` continues from the state it has there. -/
theorem actions_append {s s' : σ} {es : List ε} (h : L.stateAfter s es = some s') (fs : List ε) :
    L.actions s (es ++ fs) = L.actions s es ++ L.actions s' fs := by
  induction es generalizing s with
  | nil =>
    obtain rfl : s = s' := Option.some.inj h
    rfl
  | cons e es ih =>
    rw [stateAfter_cons] at h
    obtain ⟨t, ht, h⟩ := Option.bind_eq_some_iff.mp h
    rw [List.cons_append, L.actions_cons_some ht, L.actions_cons_some ht, ih h,
      List.append_assoc]

/-- What holds of the start, and is preserved by each step together with the events taken so far,
holds after every run that has not left the loop. -/
theorem stateAfter_induction {P : List ε → σ → Prop} {s : σ} (h0 : P [] s)
    (hstep : ∀ es t e t', P es t → (L.step t e).2 = some t' → P (es ++ [e]) t') :
    ∀ {es : List ε} {s' : σ}, L.stateAfter s es = some s' → P es s' := by
  intro es
  induction es using List.reverseRecOn with
  | nil =>
    intro s' h
    obtain rfl : s = s' := Option.some.inj h
    exact h0
  | append_singleton es e ih =>
    intro s' h
    rw [stateAfter_append] at h
    obtain ⟨t, ht, h⟩ := Option.bind_eq_some_iff.mp h
    rw [stateAfter_cons] at h
    obtain ⟨t', ht', h⟩ := Option.bind_eq_some_iff.mp h
    obtain rfl : t' = s' := Option.some.inj h
    exact hstep es t e t' (ih ht) ht'

theorem stateAfter_append_singleton {s s' : σ} {es : List ε} {e : ε} :
    L.stateAfter s (es ++ [e]) = some s' ↔
      ∃ t, L.stateAfter s es = some t ∧ (L.step t e).2 = some s' := by
  rw [stateAfter_append, Option.bind_eq_some_iff]
  apply exists_congr
  intro t
  rw [stateAfter_cons, Option.bind_eq_some_iff]
  simp

/-- The same for what also speaks of everything done so far. -/
theorem actions_induction {P : List ε → List α → σ → Prop} {s : σ} (h0 : P [] [] s)
    (hstep : ∀ es log t e t', P es log t → (L.step t e).2 = some t' →
      P (es ++ [e]) (log ++ (L.step t e).1) t')
    {es : List ε} {s' : σ} (h : L.stateAfter s es = some s') : P es (L.actions s es) s' := by
  have hP : P es (L.actions s es) s' ∧ L.stateAfter s es = some s' := by
    refine L.stateAfter_induction
      (P := fun es t => P es (L.actions s es) t ∧ L.stateAfter s es = some t) ⟨h0, rfl⟩ ?_ h
    rintro es t e t' ⟨hP, ht⟩ ht'
    refine ⟨?_, L.stateAfter_append_singleton.mpr ⟨t, ht, ht'⟩⟩
    rw [L.actions_append ht, L.actions_cons_some ht', actions_nil, List.append_nil]
    exact hstep es _ t e t' hP ht'
  exact hP.1

/-- The loop leaves at the last of the events. -/
def Leaves (s : σ) (es : List ε) : Prop :=
  ∃ pre e t, es = pre ++ [e] ∧ L.stateAfter s pre = some t ∧ (L.step t e).2 = none

/-! ## Properties of whole runs -/

/-- Every state the run passes through has the property. -/
def Throughout (P : σ → Prop) (s : σ) (es : List ε) : Prop :=
  ∀ pre t, pre <+: es → L.stateAfter s pre = some t → P t

/-- Every step the run takes meets the condition, which sees the state before the step. -/
def Along (C : σ → ε → Prop) (s : σ) (es : List ε) : Prop :=
  ∀ pre e t, pre ++ [e] <+: es → L.stateAfter s pre = some t → C t e

@[simp] theorem along_nil (C : σ → ε → Prop) (s : σ) : L.Along C s [] := by
  intro pre e t hpre _
  simp at hpre

/-- A run meets the condition when its first step does and the run from there does. -/
theorem along_cons {C : σ → ε → Prop} {s : σ} {e : ε} {es : List ε} :
    L.Along C s (e :: es) ↔ C s e ∧ ∀ s', (L.step s e).2 = some s' → L.Along C s' es := by
  constructor
  · intro h
    refine ⟨h [] e s (List.prefix_append [e] es) rfl, ?_⟩
    intro s' hs' pre f t hpre ht
    refine h (e :: pre) f t (List.prefix_cons_inj e |>.mpr hpre) ?_
    rw [stateAfter_cons, hs']
    exact ht
  · rintro ⟨hC, hrest⟩ pre f t hpre ht
    cases pre with
    | nil =>
      obtain ⟨rfl, -⟩ := List.cons_prefix_cons.mp hpre
      obtain rfl : s = t := Option.some.inj ht
      exact hC
    | cons e' pre =>
      obtain ⟨rfl, htail⟩ := List.cons_prefix_cons.mp hpre
      rw [stateAfter_cons] at ht
      obtain ⟨s', hs', ht⟩ := Option.bind_eq_some_iff.mp ht
      exact hrest s' hs' pre f t htail ht

theorem along_append {C : σ → ε → Prop} {s : σ} {es fs : List ε} :
    L.Along C s (es ++ fs) ↔
      L.Along C s es ∧ ∀ t, L.stateAfter s es = some t → L.Along C t fs := by
  induction es generalizing s with
  | nil =>
    refine ⟨fun h => ⟨L.along_nil C s, fun t ht => ?_⟩, fun h => h.2 s rfl⟩
    obtain rfl : s = t := Option.some.inj ht
    exact h
  | cons e es ih =>
    rw [List.cons_append, along_cons, along_cons]
    constructor
    · rintro ⟨he, hrest⟩
      refine ⟨⟨he, fun s' hs' => (ih.mp (hrest s' hs')).1⟩, fun t ht => ?_⟩
      rw [stateAfter_cons] at ht
      obtain ⟨s', hs', ht⟩ := Option.bind_eq_some_iff.mp ht
      exact (ih.mp (hrest s' hs')).2 t ht
    · rintro ⟨⟨he, hes⟩, hfs⟩
      refine ⟨he, fun s' hs' => ih.mpr ⟨hes s' hs', fun t ht => hfs t ?_⟩⟩
      rw [stateAfter_cons, hs']
      exact ht

theorem along_append_singleton {C : σ → ε → Prop} {s : σ} {es : List ε} {e : ε} :
    L.Along C s (es ++ [e]) ↔ L.Along C s es ∧ ∀ t, L.stateAfter s es = some t → C t e := by
  constructor
  · intro h
    refine ⟨fun pre f t hpre ht => h pre f t (hpre.trans (List.prefix_append es [e])) ht, ?_⟩
    exact fun t ht => h es e t List.prefix_rfl ht
  · rintro ⟨h, hlast⟩ pre f t hpre ht
    rcases List.prefix_concat_iff.mp hpre with heq | hpre
    · obtain ⟨rfl, rfl⟩ := List.append_singleton_inj.mp heq
      exact hlast t ht
    · exact h pre f t hpre ht

theorem Along.mono {C : σ → ε → Prop} {s : σ} {es fs : List ε} (h : L.Along C s fs)
    (hpre : es <+: fs) : L.Along C s es :=
  fun pre e t hes ht => h pre e t (hes.trans hpre) ht

/-- What holds of the start and is preserved by the steps that meet the condition holds after every
run whose steps all meet it. -/
theorem Along.stateAfter {C : σ → ε → Prop} {I : σ → Prop} {s : σ} (h0 : I s)
    (hstep : ∀ t e t', I t → C t e → (L.step t e).2 = some t' → I t') {es : List ε} {s' : σ}
    (h : L.Along C s es) (hs' : L.stateAfter s es = some s') : I s' := by
  induction es using List.reverseRecOn generalizing s' with
  | nil =>
    obtain rfl : s = s' := Option.some.inj hs'
    exact h0
  | append_singleton es e ih =>
    obtain ⟨t, ht, hts'⟩ := L.stateAfter_append_singleton.mp hs'
    have hI : I t := ih (h.mono L (List.prefix_append es [e])) ht
    exact hstep t e s' hI (h es e t List.prefix_rfl ht) hts'

/-- Two conditions that agree in the states that keep an invariant agree along every run. -/
theorem along_congr {C D : σ → ε → Prop} {I : σ → Prop} {s : σ} (h0 : I s)
    (hstep : ∀ t e t', I t → (L.step t e).2 = some t' → I t')
    (hiff : ∀ t e, I t → (C t e ↔ D t e)) {es : List ε} : L.Along C s es ↔ L.Along D s es := by
  have hreached : ∀ {pre t}, L.stateAfter s pre = some t → I t :=
    L.stateAfter_induction (P := fun _ t => I t) h0 fun _ t e t' ht => hstep t e t' ht
  constructor
  · intro h pre e t hpre ht
    exact (hiff t e (hreached ht)).mp (h pre e t hpre ht)
  · intro h pre e t hpre ht
    exact (hiff t e (hreached ht)).mpr (h pre e t hpre ht)

/-- Two conditions hold along a run when both do. -/
theorem along_and {C D : σ → ε → Prop} {s : σ} {es : List ε} :
    L.Along (fun t e => C t e ∧ D t e) s es ↔ L.Along C s es ∧ L.Along D s es := by
  constructor
  · intro h
    exact ⟨fun pre e t hpre ht => (h pre e t hpre ht).1, fun pre e t hpre ht => (h pre e t hpre ht).2⟩
  · rintro ⟨hC, hD⟩ pre e t hpre ht
    exact ⟨hC pre e t hpre ht, hD pre e t hpre ht⟩

theorem throughout_cons {P : σ → Prop} {s : σ} {e : ε} {es : List ε} :
    L.Throughout P s (e :: es) ↔
      P s ∧ ∀ s', (L.step s e).2 = some s' → L.Throughout P s' es := by
  constructor
  · intro h
    refine ⟨h [] s List.nil_prefix rfl, ?_⟩
    intro s' hs' pre t hpre ht
    refine h (e :: pre) t (List.prefix_cons_inj e |>.mpr hpre) ?_
    rw [stateAfter_cons, hs']
    exact ht
  · rintro ⟨hP, hrest⟩ pre t hpre ht
    cases pre with
    | nil =>
      obtain rfl : s = t := Option.some.inj ht
      exact hP
    | cons e' pre =>
      obtain ⟨rfl, htail⟩ := List.cons_prefix_cons.mp hpre
      rw [stateAfter_cons] at ht
      obtain ⟨s', hs', ht⟩ := Option.bind_eq_some_iff.mp ht
      exact hrest s' hs' pre t htail ht

/-- Where a step meets a condition exactly if it has a property and ends in the invariant, a run
meets the condition exactly if it keeps the invariant and all its steps have the property. -/
theorem throughout_and_along_iff {I : σ → Prop} {C D : σ → ε → Prop}
    (hstep : ∀ t e, I t → (C t e ↔ (∀ t', (L.step t e).2 = some t' → I t') ∧ D t e)) {s : σ}
    {es : List ε} (h0 : I s) : L.Throughout I s es ∧ L.Along D s es ↔ L.Along C s es := by
  induction es generalizing s with
  | nil =>
    refine iff_of_true ⟨?_, L.along_nil D s⟩ (L.along_nil C s)
    intro pre t hpre ht
    obtain rfl := List.prefix_nil.mp hpre
    obtain rfl : s = t := Option.some.inj ht
    exact h0
  | cons e es ih =>
    rw [throughout_cons, along_cons, along_cons, hstep s e h0]
    constructor
    · rintro ⟨⟨-, hI⟩, hD, hrest⟩
      have hafter : ∀ s', (L.step s e).2 = some s' → I s' :=
        fun s' hs' => hI s' hs' [] s' List.nil_prefix rfl
      exact ⟨⟨hafter, hD⟩, fun s' hs' => (ih (hafter s' hs')).mp ⟨hI s' hs', hrest s' hs'⟩⟩
    · rintro ⟨⟨hafter, hD⟩, hrest⟩
      have hboth := fun s' hs' => (ih (hafter s' hs')).mpr (hrest s' hs')
      exact ⟨⟨h0, fun s' hs' => (hboth s' hs').1⟩, hD, fun s' hs' => (hboth s' hs').2⟩

/-- Everything a run does has a property when everything each step does has it. -/
theorem forall_actions_iff {P : α → Prop} {s : σ} {es : List ε} :
    (∀ a ∈ L.actions s es, P a) ↔ L.Along (fun t e => ∀ a ∈ (L.step t e).1, P a) s es := by
  induction es generalizing s with
  | nil => simp
  | cons e es ih =>
    rw [L.along_cons]
    cases h : (L.step s e).2 with
    | none =>
      rw [L.actions_cons_none h]
      simp
    | some s' =>
      rw [L.actions_cons_some h, List.forall_mem_append, ih]
      simp

/-- A count is bounded when each counted step is paid for: from a potential of the states, and from what
the actions on the way add to it. -/
theorem countP_add_potential_le {I : σ → Prop} (p : ε → Bool) (potential : σ → ℕ) (gain : α → ℕ)
    (hstep : ∀ t e t', I t → (L.step t e).2 = some t' → I t' ∧
      (p e).toNat + potential t' ≤ potential t + ((L.step t e).1.map gain).sum)
    {s s' : σ} {es : List ε} (h0 : I s) (h : L.stateAfter s es = some s') :
    es.countP p + potential s' ≤ potential s + ((L.actions s es).map gain).sum := by
  induction es generalizing s with
  | nil =>
    obtain rfl : s = s' := Option.some.inj h
    simp
  | cons e es ih =>
    rw [stateAfter_cons] at h
    obtain ⟨t, ht, h⟩ := Option.bind_eq_some_iff.mp h
    obtain ⟨hI, hpaid⟩ := hstep s e t h0 ht
    have hrest := ih hI h
    have hcount : (e :: es).countP p = es.countP p + (p e).toNat := by
      rw [List.countP_cons]
      cases p e <;> rfl
    rw [L.actions_cons_some ht, List.map_append, List.sum_append, hcount]
    omega

/-! ## Steps by their number -/

/-- The run takes a step at the `n`-th event, and the step meets the condition. -/
def At (C : σ → ε → Prop) (s : σ) (es : List ε) (n : ℕ) : Prop :=
  ∃ t e, L.stateAfter s (es.take n) = some t ∧ es[n]? = some e ∧ C t e

theorem at_cons_zero {C : σ → ε → Prop} {s : σ} {e : ε} {es : List ε} :
    L.At C s (e :: es) 0 ↔ C s e := by
  unfold At
  simp

theorem at_cons_succ {C : σ → ε → Prop} {s : σ} {e : ε} {es : List ε} {n : ℕ} :
    L.At C s (e :: es) (n + 1) ↔ ∃ s', (L.step s e).2 = some s' ∧ L.At C s' es n := by
  unfold At
  simp only [List.take_succ_cons, List.getElem?_cons_succ, stateAfter_cons,
    Option.bind_eq_some_iff]
  constructor
  · rintro ⟨t, f, ⟨s', hs', ht⟩, hf, hC⟩
    exact ⟨s', hs', t, f, ht, hf, hC⟩
  · rintro ⟨s', hs', t, f, ht, hf, hC⟩
    exact ⟨t, f, ⟨s', hs', ht⟩, hf, hC⟩

theorem At.mono {C D : σ → ε → Prop} {s : σ} {es : List ε} {n : ℕ} (h : L.At C s es n)
    (hCD : ∀ t e, L.stateAfter s (es.take n) = some t → C t e → D t e) : L.At D s es n := by
  obtain ⟨t, e, ht, he, hC⟩ := h
  exact ⟨t, e, ht, he, hCD t e ht hC⟩

/-- The first events of a run take the steps they take in the run. -/
theorem at_take_iff {C : σ → ε → Prop} {s : σ} {es : List ε} {m n : ℕ} :
    L.At C s (es.take m) n ↔ n < m ∧ L.At C s es n := by
  unfold At
  rw [List.getElem?_take, List.take_take]
  constructor
  · rintro ⟨t, e, ht, he, hC⟩
    split_ifs at he with hlt
    rw [min_eq_left (Nat.le_of_lt hlt)] at ht
    exact ⟨hlt, t, e, ht, he, hC⟩
  · rintro ⟨hlt, t, e, ht, he, hC⟩
    rw [if_pos hlt, min_eq_left (Nat.le_of_lt hlt)]
    exact ⟨t, e, ht, he, hC⟩

/-- What a step does comes after what the steps before it do. -/
theorem actions_of_at {a : α} {s : σ} {es : List ε} {n : ℕ}
    (h : L.At (fun t e => (L.step t e).1 = [a]) s es n) :
    ∃ post, L.actions s es = L.actions s (es.take n) ++ a :: post := by
  induction es generalizing s n with
  | nil =>
    obtain ⟨t, e, -, he, -⟩ := h
    cases he
  | cons e es ih =>
    cases n with
    | zero =>
      have ha := L.at_cons_zero.mp h
      exact ⟨_, by rw [actions, ha]; rfl⟩
    | succ n =>
      obtain ⟨s', hs', h⟩ := L.at_cons_succ.mp h
      obtain ⟨post, hpost⟩ := ih h
      refine ⟨post, ?_⟩
      rw [List.take_succ_cons, L.actions_cons_some hs', L.actions_cons_some hs', hpost,
        List.append_assoc]

/-- Where a step does at most one thing, each thing done is the work of a step. -/
theorem at_of_actions {a : α} {pre post : List α} {s : σ} {es : List ε}
    (hone : L.Along (fun t e => (L.step t e).1.length ≤ 1) s es)
    (h : L.actions s es = pre ++ a :: post) :
    ∃ n, L.At (fun t e => (L.step t e).1 = [a]) s es n ∧ L.actions s (es.take n) = pre := by
  induction es generalizing s pre with
  | nil => simp at h
  | cons e es ih =>
    obtain ⟨hfirst, hrest⟩ := L.along_cons.mp hone
    have hlater : ∀ {pre'}, (L.step s e).2.elim [] (fun s' => L.actions s' es) = pre' ++ a :: post →
        ∃ n, L.At (fun t e => (L.step t e).1 = [a]) s (e :: es) n ∧
          L.actions s ((e :: es).take n) = (L.step s e).1 ++ pre' := by
      intro pre' h
      cases hs' : (L.step s e).2 with
      | none =>
        rw [hs'] at h
        simp at h
      | some s' =>
        rw [hs'] at h
        obtain ⟨n, hn, hpre⟩ := ih (hrest s' hs') h
        refine ⟨n + 1, L.at_cons_succ.mpr ⟨s', hs', hn⟩, ?_⟩
        rw [List.take_succ_cons, L.actions_cons_some hs', hpre]
    rw [actions] at h
    cases hacts : (L.step s e).1 with
    | nil =>
      rw [hacts] at h hlater
      exact hlater h
    | cons b acts =>
      obtain rfl : acts = [] := by
        rw [hacts] at hfirst
        exact List.eq_nil_of_length_eq_zero (Nat.le_zero.mp (Nat.le_of_succ_le_succ hfirst))
      rw [hacts] at h hlater
      cases pre with
      | nil =>
        obtain ⟨rfl, -⟩ := List.cons.inj h
        exact ⟨0, L.at_cons_zero.mpr hacts, rfl⟩
      | cons b' pre =>
        obtain ⟨rfl, htail⟩ := List.cons.inj h
        exact hlater htail

/-! ## Loops of guarded steps -/

/-- The loop whose steps may be impossible in a state. A run takes possible steps only. -/
def ofStep (step : σ → ε → Option (List α × σ)) : EventLoop σ ε α where
  step s e := ((step s e).elim [] Prod.fst, (step s e).map Prod.snd)

section Guarded

variable {step : σ → ε → Option (List α × σ)} {s s' : σ} {e : ε}

theorem step_of_ofStep (h : ((ofStep step).step s e).2 = some s') :
    step s e = some (((ofStep step).step s e).1, s') := by
  obtain ⟨⟨actions, t⟩, hstep, rfl⟩ := Option.map_eq_some_iff.mp h
  simp [ofStep, hstep]

theorem actions_of_impossible (h : ((ofStep step).step s e).2 = none) :
    ((ofStep step).step s e).1 = [] := by
  simp [ofStep, Option.map_eq_none_iff.mp h]

end Guarded

/-! ## Simulation -/

/-- Two loops whose related states take every event alike do the same over any events, `f` of the
actions of the one being the actions of the other. -/
theorem actions_eq_map {σ' α' : Type*} (L' : EventLoop σ' ε α') {f : α' → α} {R : σ → σ' → Prop}
    {es : List ε}
    (hstep : ∀ t t', ∀ e ∈ es, R t t' → (L.step t e).1 = (L'.step t' e).1.map f ∧
      Option.Rel R (L.step t e).2 (L'.step t' e).2) {s : σ} {s' : σ'} (h : R s s') :
    L.actions s es = (L'.actions s' es).map f := by
  induction es generalizing s s' with
  | nil => rfl
  | cons e es ih =>
    have hrest : ∀ {t t'}, R t t' → L.actions t es = (L'.actions t' es).map f :=
      ih fun t t' e' he' => hstep t t' e' (List.mem_cons_of_mem e he')
    obtain ⟨hactions, hstates⟩ := hstep s s' e List.mem_cons_self h
    rw [actions, actions, hactions, List.map_append]
    congr 1
    generalize (L.step s e).2 = after at hstates ⊢
    generalize (L'.step s' e).2 = after' at hstates ⊢
    cases hstates with
    | none => rfl
    | some h => exact hrest h

/-- A loop that takes the events of another one by what they stand for. -/
theorem run_map {ε' : Type*} (L' : EventLoop σ ε' α) {f : ε → ε'}
    (hstep : ∀ s e, L.step s e = L'.step s (f e)) (s : σ) (es : List ε) :
    L.actions s es = L'.actions s (es.map f) ∧ L.stateAfter s es = L'.stateAfter s (es.map f) := by
  induction es generalizing s with
  | nil => exact ⟨rfl, rfl⟩
  | cons e es ih =>
    rw [List.map_cons, actions, actions, stateAfter_cons, stateAfter_cons, hstep]
    cases (L'.step s (f e)).2 with
    | none => exact ⟨rfl, rfl⟩
    | some s' => exact ⟨congrArg _ (ih s').1, (ih s').2⟩

end EventLoop

end Instro.Library
