import Mathlib.Data.List.Infix

/-!
# Machines of guarded atomic actions

A machine is a partial step function: `step s a = none` means that the action
`a` is not enabled in the state `s`. All nondeterminism (which thread moves,
what the environment answers) is in the actions, so a run is a list of actions
and the step function can be evaluated on a concrete schedule.

A few induction rules carry the developments above this file. `Run.invariant`
is the usual one: what every step preserves holds wherever a run leads.
`Run.invariant_along` relativizes it to runs all of whose steps satisfy a
condition on the state before the step and the action, and
`Run.forall_prefix_iff` and `Run.final_iff` say when such a condition is exact.

Where a property is about what has happened, and not only about where things are
now, `recorded` keeps a record beside the state.
-/

/-- A system that moves by atomic actions, each enabled in some states only. -/
structure Machine (σ α : Type*) where
  /-- The state after the action, or `none` where the action is not enabled. -/
  step : σ → α → Option σ

namespace Machine

variable {σ α : Type*} {M : Machine σ α}

/-- The actions of `acts`, taken in order, lead from `s` to `t`. -/
inductive Run (M : Machine σ α) : σ → List α → σ → Prop where
  | nil (s) : Run M s [] s
  | cons {s u t a acts} : M.step s a = some u → Run M u acts t → Run M s (a :: acts) t

/-- Take the actions in order, failing at the first that is not enabled. -/
def exec (M : Machine σ α) : σ → List α → Option σ
  | s, [] => some s
  | s, a :: acts => (M.step s a).bind fun u => M.exec u acts

/-- Every step that the schedule takes satisfies `C` in the state before it.
Steps after the first disabled action are not taken and carry no obligation. -/
def Along (M : Machine σ α) (C : σ → α → Prop) : σ → List α → Prop
  | _, [] => True
  | s, a :: acts => C s a ∧ ∀ u, M.step s a = some u → M.Along C u acts

namespace Run

@[simp] theorem nil_iff {s t : σ} : M.Run s [] t ↔ s = t := by
  constructor
  · intro h
    cases h
    rfl
  · rintro rfl
    exact .nil s

theorem cons_iff {s t : σ} {a : α} {acts : List α} :
    M.Run s (a :: acts) t ↔ ∃ u, M.step s a = some u ∧ M.Run u acts t := by
  constructor
  · intro h
    cases h with
    | cons hs hr => exact ⟨_, hs, hr⟩
  · rintro ⟨u, hs, hr⟩
    exact .cons hs hr

theorem single {s t : σ} {a : α} (h : M.step s a = some t) : M.Run s [a] t :=
  .cons h (.nil t)

theorem append {s u t : σ} {acts acts' : List α} (h : M.Run s acts u) (h' : M.Run u acts' t) :
    M.Run s (acts ++ acts') t := by
  induction h with
  | nil => exact h'
  | cons hstep _ ih => exact .cons hstep (ih h')

/-- The executable runner computes exactly the runs. -/
theorem exec_iff {s t : σ} {acts : List α} : M.exec s acts = some t ↔ M.Run s acts t := by
  induction acts generalizing s with
  | nil => simp [exec]
  | cons a acts ih =>
      rw [exec, cons_iff]
      cases M.step s a with
      | none => simp
      | some u => simp [ih]

/-- What holds initially and is preserved by every step holds after every run. -/
theorem invariant {I : σ → Prop} (step : ∀ s a t, I s → M.step s a = some t → I t)
    {s t : σ} {acts : List α} (hr : M.Run s acts t) (hs : I s) : I t := by
  induction hr with
  | nil => exact hs
  | cons h _ ih => exact ih (step _ _ _ hs h)

/-- The invariant rule for runs restricted by a condition on their steps. -/
theorem invariant_along {C : σ → α → Prop} {I : σ → Prop}
    (step : ∀ s a t, I s → C s a → M.step s a = some t → I t)
    {s t : σ} {acts : List α} (hr : M.Run s acts t) (hc : M.Along C s acts) (hs : I s) :
    I t := by
  induction hr with
  | nil => exact hs
  | cons h _ ih => exact ih (hc.2 _ h) (step _ _ _ hs hc.1 h)

end Run

/-- Along an enabled action there is one successor to look at. -/
theorem along_cons {C : σ → α → Prop} {s u : σ} {a : α} {acts : List α}
    (h : M.step s a = some u) : M.Along C s (a :: acts) ↔ C s a ∧ M.Along C u acts := by
  refine ⟨fun hc => ⟨hc.1, hc.2 u h⟩, fun hc => ⟨hc.1, fun v hv => ?_⟩⟩
  rw [h] at hv
  cases hv
  exact hc.2

/-- A condition on the steps of a schedule is one on its first steps. -/
theorem Along.of_append {C : σ → α → Prop} {s : σ} {acts acts' : List α}
    (h : M.Along C s (acts ++ acts')) : M.Along C s acts := by
  induction acts generalizing s with
  | nil => trivial
  | cons a acts ih => exact ⟨h.1, fun u hu => ih (h.2 u hu)⟩

/-- When a step keeps `P` exactly if it meets `C`, a run stays inside `P` in
every state it passes through exactly if all its steps meet `C`. The rest of
what is known about the states is carried by the invariant `I`. -/
theorem Run.forall_prefix_iff {C : σ → α → Prop} {I P : σ → Prop}
    (keeps : ∀ s a t, I s → M.step s a = some t → I t)
    (exact : ∀ s a t, I s → P s → M.step s a = some t → (P t ↔ C s a))
    {s t : σ} {acts : List α} (hr : M.Run s acts t) (hi : I s) (hp : P s) :
    (∀ front u, front <+: acts → M.Run s front u → P u) ↔ M.Along C s acts := by
  induction hr with
  | nil s =>
      refine ⟨fun _ => trivial, fun _ front u hfront hu => ?_⟩
      rw [List.prefix_nil] at hfront
      subst hfront
      exact Run.nil_iff.mp hu ▸ hp
  | @cons s v t a acts h _ ih =>
      have hstep : P v ↔ C s a := exact _ _ _ hi hp h
      constructor
      · intro hall
        have hv : P v := hall [a] v ⟨acts, rfl⟩ (.single h)
        refine (along_cons h).mpr ⟨hstep.mp hv, ?_⟩
        apply (ih (keeps _ _ _ hi h) hv).mp
        intro front u hfront hu
        exact hall (a :: front) u (List.cons_prefix_cons.mpr ⟨rfl, hfront⟩) (.cons h hu)
      · intro hall front u hfront hu
        obtain ⟨hc, hrest⟩ := (along_cons h).mp hall
        have hv : P v := hstep.mpr hc
        cases hu with
        | nil => exact hp
        | cons hs hu' =>
            obtain ⟨rfl, hfront'⟩ := List.cons_prefix_cons.mp hfront
            rw [h] at hs
            cases hs
            exact (ih (keeps _ _ _ hi h) hv).mpr hrest _ _ hfront' hu'

/-- What each step only leads to from states that have it was there at the start. -/
theorem Run.backward {B : σ → Prop} (step : ∀ s a t, M.step s a = some t → B t → B s)
    {s t : σ} {acts : List α} (hr : M.Run s acts t) (ht : B t) : B s := by
  induction hr with
  | nil => exact ht
  | cons h _ ih => exact step _ _ _ h (ih ht)

/-- A property that is never regained holds at the end of a run exactly if all
steps of the run meet `C`. The steps need to be understood only within a bound
`B` that the end of the run respects. -/
theorem Run.final_iff {B I P : σ → Prop} {C : σ → α → Prop}
    (within : ∀ s a t, M.step s a = some t → B t → B s)
    (lost : ∀ s a t, I s → M.step s a = some t → P t → P s)
    (keeps : ∀ s a t, I s → M.step s a = some t → B t → I t)
    (exact : ∀ s a t, I s → P s → M.step s a = some t → B t → (P t ↔ C s a))
    {s t : σ} {acts : List α} (hr : M.Run s acts t) (hb : B t) (hi : I s) (hp : P s) :
    P t ↔ M.Along C s acts := by
  have hback : ∀ {s t acts}, M.Run s acts t → B t → I s → P t → P s := by
    intro s t acts hr hb hi ht
    induction hr with
    | nil => exact ht
    | cons h hr ih =>
        exact lost _ _ _ hi h (ih hb (keeps _ _ _ hi h (hr.backward within hb)) ht)
  induction hr with
  | nil s => exact ⟨fun _ => trivial, fun _ => hp⟩
  | @cons s u t a acts h hr ih =>
      have hbu : B u := hr.backward within hb
      have hiu : I u := keeps _ _ _ hi h hbu
      have hstep : P u ↔ C s a := exact _ _ _ hi hp h hbu
      constructor
      · intro ht
        have hpu : P u := hback hr hb hiu ht
        exact (along_cons h).mpr ⟨hstep.mp hpu, (ih hb hiu hpu).mp ht⟩
      · intro hall
        obtain ⟨hc, hrest⟩ := (along_cons h).mp hall
        exact (ih hb hiu (hstep.mpr hc)).mpr hrest

/-- The invariant rule with the schedule so far in view. -/
theorem Run.schedule_invariant {I : σ → List α → Prop}
    (step : ∀ s past a t, I s past → M.step s a = some t → I t (past ++ [a]))
    {s t : σ} {acts : List α} (hr : M.Run s acts t) {past : List α} (hs : I s past) :
    I t (past ++ acts) := by
  induction hr generalizing past with
  | nil => rwa [List.append_nil]
  | cons h _ ih =>
      have hrest := ih (step _ _ _ _ hs h)
      rwa [List.append_assoc] at hrest

/-- Conditions that agree on the states of an invariant agree on runs. -/
theorem Run.along_congr {C C' : σ → α → Prop} {I : σ → Prop}
    (keeps : ∀ s a t, I s → M.step s a = some t → I t) (same : ∀ s a, I s → (C s a ↔ C' s a))
    {s t : σ} {acts : List α} (hr : M.Run s acts t) (hi : I s) :
    M.Along C s acts ↔ M.Along C' s acts := by
  induction hr with
  | nil => exact Iff.rfl
  | cons h _ ih => rw [along_cons h, along_cons h, same _ _ hi, ih (keeps _ _ _ hi h)]

/-- A condition on the actions alone is one on the schedule. -/
theorem Run.along_iff_forall_mem {C : α → Prop} {s t : σ} {acts : List α}
    (hr : M.Run s acts t) : M.Along (fun _ => C) s acts ↔ ∀ a ∈ acts, C a := by
  induction hr with
  | nil s => exact iff_of_true trivial fun a ha => absurd ha List.not_mem_nil
  | cons h _ ih => rw [along_cons h, ih, List.forall_mem_cons]

/-! ### Records -/

/-- The machine with a record of what an observer sees of each step: `observe` tells
it from the state before the step and the action. -/
def recorded {ω : Type*} (M : Machine σ α) (observe : σ → α → List ω) :
    Machine (σ × List ω) α where
  step s a := (M.step s.1 a).map fun u => (u, s.2 ++ observe s.1 a)

section Recorded

variable {ω : Type*} {observe : σ → α → List ω}

theorem recorded_step_iff {s u : σ} {log log' : List ω} {a : α} :
    (M.recorded observe).step (s, log) a = some (u, log') ↔
      M.step s a = some u ∧ log' = log ++ observe s a := by
  simp only [recorded, Option.map_eq_some_iff, Prod.mk.injEq]
  constructor
  · rintro ⟨u, h, rfl, rfl⟩
    exact ⟨h, rfl⟩
  · rintro ⟨h, rfl⟩
    exact ⟨u, h, rfl, rfl⟩

/-- The record does not get in the way: every run has one. -/
theorem Run.exists_recorded {s t : σ} {acts : List α} (hr : M.Run s acts t) (log : List ω) :
    ∃ log', (M.recorded observe).Run (s, log) acts (t, log') := by
  induction hr generalizing log with
  | nil s => exact ⟨log, .nil _⟩
  | cons h _ ih =>
      obtain ⟨log', hrest⟩ := ih (log ++ observe _ _)
      exact ⟨log', .cons (recorded_step_iff.mpr ⟨h, rfl⟩) hrest⟩

/-- What every step preserves, of the state and the record together, holds after
every run. -/
theorem Run.recorded_invariant {I : σ → List ω → Prop}
    (step : ∀ s log a t, I s log → M.step s a = some t → I t (log ++ observe s a))
    {s t : σ} {log log' : List ω} {acts : List α}
    (hr : (M.recorded observe).Run (s, log) acts (t, log')) (hs : I s log) : I t log' := by
  refine hr.invariant (I := fun p => I p.1 p.2) ?_ hs
  rintro ⟨s, log⟩ a ⟨t, log'⟩ hs h
  obtain ⟨hstep, rfl⟩ := recorded_step_iff.mp h
  exact step s log a t hs hstep

/-- A condition on the steps of a machine is one on those of the recorded machine. -/
theorem Along.recorded {C : σ → α → Prop} {s : σ} {acts : List α} (hc : M.Along C s acts)
    (log : List ω) : (M.recorded observe).Along (fun p => C p.1) (s, log) acts := by
  induction acts generalizing s log with
  | nil => trivial
  | cons a acts ih =>
      refine ⟨hc.1, ?_⟩
      rintro ⟨u, log'⟩ h
      exact ih (hc.2 u (recorded_step_iff.mp h).1) log'

/-- The invariant rule for states with records, on runs restricted by a condition. -/
theorem Run.recorded_invariant_along {C : σ → α → Prop} {I : σ → List ω → Prop}
    (step : ∀ s log a t, I s log → C s a → M.step s a = some t → I t (log ++ observe s a))
    {s t : σ} {log log' : List ω} {acts : List α}
    (hr : (M.recorded observe).Run (s, log) acts (t, log')) (hc : M.Along C s acts)
    (hs : I s log) : I t log' := by
  refine hr.invariant_along (I := fun p => I p.1 p.2) ?_ (hc.recorded log) hs
  rintro ⟨s, log⟩ a ⟨t, log'⟩ hs hc h
  obtain ⟨hstep, rfl⟩ := recorded_step_iff.mp h
  exact step s log a t hs hc hstep

end Recorded

end Machine
