import WatsonIotp.Machine.Basic
import WatsonIotp.Text.StdString
import Mathlib.Algebra.Group.Nat.Defs
import Mathlib.Data.List.Nodup
import Mathlib.Logic.Function.Basic

/-!
# Request ids

`send_message` reads the clock into `now` and later, in one atomic step,
increments `mReqCounter` and writes the sum of both as the id of the request.
Any number of threads run it on one client. The clock readings are chosen by the
schedule and never decrease, whichever thread takes them.

The sum is not an invariant of anything: a call that is overtaken between its
two steps may form the id of the call that overtook it. `reqIds_distinct_iff`
says when exactly the ids of a run are distinct.
-/

namespace RequestId

variable {τ : Type} [DecidableEq τ]

/-- `ss << ++mReqCounter + now`, on `unsigned long`, after the increment. -/
def formId (mReqCounter now : Nat) : StdString := .ofNat ((mReqCounter + now) % 2 ^ 64)

/-- A call that has formed its id: the two numbers it took. -/
structure Call where
  mReqCounter : Nat
  now : Nat
  deriving DecidableEq

def Call.reqId (c : Call) : StdString := formId c.mReqCounter c.now

/-- `now` is set in the threads that are between their two steps. -/
structure State (τ : Type) where
  mReqCounter : Nat
  clock : Nat
  now : τ → Option Nat
  /-- The calls that have formed their ids, latest first. -/
  calls : List Call

/-- A new client: `InitializeProperties` sets the counter to zero. -/
def State.initial : State τ := ⟨0, 0, fun _ => none, []⟩

inductive Action (τ : Type) where
  /-- `time(&now)`. -/
  | readClock (t : τ) (reading : Nat)
  /-- `ss << ++mReqCounter + now`. -/
  | increment (t : τ)

def step (s : State τ) : Action τ → Option (State τ)
  | .readClock t reading =>
      if s.now t = none ∧ s.clock ≤ reading then
        some { s with clock := reading, now := Function.update s.now t (some reading) }
      else none
  | .increment t =>
      (s.now t).map fun now =>
        { s with
          mReqCounter := (s.mReqCounter + 1) % 2 ^ 64
          now := Function.update s.now t none
          calls := ⟨(s.mReqCounter + 1) % 2 ^ 64, now⟩ :: s.calls }

def machine : Machine (State τ) (Action τ) := ⟨step⟩

/-- Everything a step can do. -/
theorem step_cases {s u : State τ} {a : Action τ} (h : machine.step s a = some u) :
    (∃ t reading, a = .readClock t reading ∧ s.now t = none ∧ s.clock ≤ reading ∧
      u = { s with clock := reading, now := Function.update s.now t (some reading) }) ∨
    ∃ t now, a = .increment t ∧ s.now t = some now ∧
      u = { s with
            mReqCounter := (s.mReqCounter + 1) % 2 ^ 64
            now := Function.update s.now t none
            calls := ⟨(s.mReqCounter + 1) % 2 ^ 64, now⟩ :: s.calls } := by
  cases a with
  | readClock t reading =>
      simp only [machine, step, Option.ite_none_right_eq_some, Option.some.injEq] at h
      exact .inl ⟨t, reading, rfl, h.1.1, h.1.2, h.2.symm⟩
  | increment t =>
      obtain ⟨now, hnow, rfl⟩ := Option.map_eq_some_iff.mp h
      exact .inr ⟨t, now, rfl, hnow, rfl⟩

/-- The counter and the clock are far from the end of their type. -/
def Far (s : State τ) : Prop := s.clock + s.calls.length < 2 ^ 64

instance (s : State τ) : Decidable (Far s) := inferInstanceAs (Decidable (_ < _))

omit [DecidableEq τ] in
theorem Far.mono {s u : State τ} (hclock : s.clock ≤ u.clock) (hcalls : s.calls <:+ u.calls)
    (h : Far u) : Far s := by
  have := hcalls.length_le
  simp only [Far] at h ⊢
  omega

/-- The clock never goes back and no call is forgotten. -/
theorem run_mono {s u : State τ} {acts : List (Action τ)} (hr : machine.Run s acts u) :
    s.clock ≤ u.clock ∧ s.calls <:+ u.calls := by
  apply hr.invariant (I := fun v => s.clock ≤ v.clock ∧ s.calls <:+ v.calls)
  · intro v a w ⟨hclock, hcalls⟩ hstep
    obtain ⟨_, _, -, -, hle, rfl⟩ | ⟨_, _, -, -, rfl⟩ := step_cases hstep
    · exact ⟨hclock.trans hle, hcalls⟩
    · exact ⟨hclock, hcalls.trans (List.suffix_cons _ _)⟩
  · exact ⟨le_rfl, List.suffix_rfl⟩

/-- The counter has counted the calls, and no reading is ahead of the clock. -/
structure Counted (s : State τ) : Prop where
  counter : s.mReqCounter = s.calls.length
  call : ∀ c ∈ s.calls, c.mReqCounter ≤ s.mReqCounter ∧ c.now ≤ s.clock
  pending : ∀ t now, s.now t = some now → now ≤ s.clock

omit [DecidableEq τ] in
theorem counted_initial : Counted (State.initial : State τ) :=
  ⟨rfl, by simp [State.initial], by simp [State.initial]⟩

theorem Counted.step {s u : State τ} {a : Action τ} (hs : Counted s)
    (h : machine.step s a = some u) (hfar : Far u) : Counted u := by
  obtain ⟨t, reading, -, -, hle, rfl⟩ | ⟨t, now, -, hnow, rfl⟩ := step_cases h
  · refine ⟨hs.counter, fun c hc => ?_, fun t' now hnow => ?_⟩
    · exact ⟨(hs.call c hc).1, (hs.call c hc).2.trans hle⟩
    · obtain rfl | hne := eq_or_ne t' t
      · simp only [Function.update_self, Option.some.injEq] at hnow
        exact hnow.ge
      · simp only [Function.update_of_ne hne] at hnow
        exact (hs.pending t' now hnow).trans hle
  · have hcounter : (s.mReqCounter + 1) % 2 ^ 64 = s.calls.length + 1 := by
      have := hs.counter
      simp only [Far, List.length_cons] at hfar
      omega
    refine ⟨hcounter, fun c hc => ?_, fun t' now' hnow' => ?_⟩
    · obtain rfl | hc := List.mem_cons.mp hc
      · exact ⟨le_rfl, hs.pending t now hnow⟩
      · obtain ⟨hle, hnow'⟩ := hs.call c hc
        have := hs.counter
        exact ⟨by simp only; omega, hnow'⟩
    · obtain rfl | hne := eq_or_ne t' t
      · simp at hnow'
      · simp only [Function.update_of_ne hne] at hnow'
        exact hs.pending t' now' hnow'

/-- Some call incremented the counter `k` increments before the next one, from a
reading taken `k` seconds after `now`. -/
def Overtaken (s : State τ) (now : Nat) : Prop :=
  ∃ c ∈ s.calls, c.now = now + (s.mReqCounter + 1 - c.mReqCounter)

/-- No call increments the counter after it has been overtaken. -/
def InTime (s : State τ) : Action τ → Prop
  | .readClock _ _ => True
  | .increment t => ∀ now, s.now t = some now → ¬ Overtaken s now

/-- The ids formed so far are pairwise different. -/
def ReqIdsDistinct (s : State τ) : Prop := (s.calls.map Call.reqId).Nodup

instance (s : State τ) : Decidable (ReqIdsDistinct s) :=
  inferInstanceAs (Decidable (s.calls.map Call.reqId).Nodup)

omit [DecidableEq τ] in
/-- An earlier call has the id that is being formed exactly if the difference of
the readings makes up for the increments in between. -/
theorem Counted.reqId_eq_iff {s : State τ} (hs : Counted s) {c : Call} (hc : c ∈ s.calls)
    {now : Nat} (hnow : now ≤ s.clock) (hfar : s.clock + (s.calls.length + 1) < 2 ^ 64) :
    c.reqId = formId ((s.mReqCounter + 1) % 2 ^ 64) now ↔
      c.now = now + (s.mReqCounter + 1 - c.mReqCounter) := by
  obtain ⟨hle, hle'⟩ := hs.call c hc
  have hcounter := hs.counter
  rw [Call.reqId, formId, formId, StdString.ofNat_inj, Nat.mod_eq_of_lt (by omega),
    Nat.mod_eq_of_lt (by omega), Nat.mod_eq_of_lt (by omega)]
  omega

/-- A step keeps the ids distinct exactly if it is in time. -/
theorem ReqIdsDistinct.step_iff {s u : State τ} {a : Action τ} (hs : Counted s)
    (hd : ReqIdsDistinct s) (h : machine.step s a = some u) (hfar : Far u) :
    ReqIdsDistinct u ↔ InTime s a := by
  obtain ⟨t, reading, rfl, -, -, rfl⟩ | ⟨t, now, rfl, hnow, rfl⟩ := step_cases h
  · exact ⟨fun _ => trivial, fun _ => hd⟩
  · have hle := hs.pending t now hnow
    simp only [ReqIdsDistinct, List.map_cons, List.nodup_cons, List.mem_map, not_exists, not_and]
    constructor
    · rintro ⟨hnew, -⟩ now' hnow' ⟨c, hc, hcnow⟩
      rw [hnow, Option.some.injEq] at hnow'
      subst hnow'
      exact hnew c hc ((hs.reqId_eq_iff hc hle hfar).mpr hcnow)
    · intro hin
      refine ⟨fun c hc heq => ?_, hd⟩
      exact hin now hnow ⟨c, hc, (hs.reqId_eq_iff hc hle hfar).mp heq⟩

theorem ReqIdsDistinct.backward {s u : State τ} {a : Action τ} (h : machine.step s a = some u)
    (hd : ReqIdsDistinct u) : ReqIdsDistinct s := by
  have hsuffix := (run_mono (.single h)).2
  exact hd.sublist (hsuffix.sublist.map _)

/-- The ids that the calls of a run form are pairwise different exactly if no
call is overtaken between its two steps in the sense of `Overtaken`. -/
theorem reqIds_distinct_iff {acts : List (Action τ)} {t : State τ}
    (hr : machine.Run .initial acts t) (hfar : Far t) :
    ReqIdsDistinct t ↔ machine.Along InTime State.initial acts := by
  apply hr.final_iff (B := Far) (I := Counted) (P := ReqIdsDistinct)
  · intro s a u h hu
    obtain ⟨hclock, hcalls⟩ := run_mono (.single h)
    exact hu.mono hclock hcalls
  · intro s a u _ h hu
    exact hu.backward h
  · intro s a u hs h hu
    exact hs.step h hu
  · intro s a u hs hd h hu
    exact hd.step_iff hs h hu
  · exact hfar
  · exact counted_initial
  · exact List.nodup_nil

/-- Thread 1 overtakes thread 0 with a reading one second later, and both send
the id 102. -/
theorem reqIds_distinct_fails : ¬ ∀ (acts : List (Action Nat)) (t : State Nat),
    machine.Run .initial acts t → Far t → ReqIdsDistinct t := by
  intro h
  have hr : machine.Run State.initial
      [.readClock 0 100, .readClock 1 101, .increment 1, .increment 0] _ :=
    Machine.Run.exec_iff.mp rfl
  exact absurd (h _ _ hr (by decide)) (by decide)

/-- A run of two calls, the second of which is two seconds ahead when it overtakes. -/
theorem reqIds_distinct_two_seconds :
    let acts : List (Action Nat) :=
      [.readClock 0 100, .readClock 1 102, .increment 1, .increment 0]
    ∃ t, machine.Run State.initial acts t ∧
      (ReqIdsDistinct t ↔ machine.Along InTime State.initial acts) := by
  intro acts
  have hr : machine.Run State.initial acts _ := Machine.Run.exec_iff.mp rfl
  exact ⟨_, hr, reqIds_distinct_iff hr (by decide)⟩

omit [DecidableEq τ] in
/-- A call whose reading is still the latest one when it increments is in time. -/
theorem inTime_of_latest {s : State τ} (hs : Counted s) {t : τ}
    (hlatest : s.now t = some s.clock) : InTime s (.increment t) := by
  rintro now hnow ⟨c, hc, hcnow⟩
  rw [hlatest, Option.some.injEq] at hnow
  obtain ⟨hle, hle'⟩ := hs.call c hc
  omega

end RequestId
