import Mathlib.Data.Finset.Basic

/-!
# A mutex with one condition variable

A monitor records which thread holds the mutex, which threads are blocked in a
condition wait, and which have left the wait but have not re-acquired the mutex
yet. Waiting releases the mutex and blocks in one action, and a woken thread
competes for the mutex like any other. A notification acts on the threads that
are blocked at that moment only: with nobody blocked it leaves no trace, which
is why a wait has to be guarded by a predicate to be safe.

Each operation is partial; its lemma says when it is enabled and what the
monitor is afterwards, so that clients never unfold one.
-/

/-- The state of a mutex and its condition variable over the threads `τ`. -/
structure Monitor (τ : Type*) where
  owner : Option τ
  waiting : Finset τ
  woken : Finset τ
  deriving DecidableEq

namespace Monitor

variable {τ : Type*} [DecidableEq τ] {m m' : Monitor τ} {t : τ}

/-- Nobody holds the mutex and nobody waits. -/
def free : Monitor τ := ⟨none, ∅, ∅⟩

/-- Lock the mutex. -/
def enter (m : Monitor τ) (t : τ) : Option (Monitor τ) :=
  if m.owner = none then some { m with owner := some t } else none

/-- Unlock the mutex. -/
def leave (m : Monitor τ) (t : τ) : Option (Monitor τ) :=
  if m.owner = some t then some { m with owner := none } else none

/-- Release the mutex and block on the condition variable, atomically. -/
def wait (m : Monitor τ) (t : τ) : Option (Monitor τ) :=
  if m.owner = some t then
    some { m with owner := none, waiting := insert t m.waiting }
  else none

/-- A blocked thread stops waiting: notified, timed out, or spuriously. -/
def wake (m : Monitor τ) (t : τ) : Option (Monitor τ) :=
  if t ∈ m.waiting then
    some { m with waiting := m.waiting.erase t, woken := insert t m.woken }
  else none

/-- Re-acquire the mutex on the way out of a wait. -/
def resume (m : Monitor τ) (t : τ) : Option (Monitor τ) :=
  if m.owner = none ∧ t ∈ m.woken then
    some { m with owner := some t, woken := m.woken.erase t }
  else none

/-- Wake the chosen blocked thread; choosing nobody is possible only when
nobody is blocked, and the notification is then lost. -/
def notifyOne (m : Monitor τ) : Option τ → Option (Monitor τ)
  | some t => m.wake t
  | none => if m.waiting = ∅ then some m else none

/-- Wake every blocked thread. -/
def notifyAll (m : Monitor τ) : Monitor τ :=
  { m with waiting := ∅, woken := m.waiting ∪ m.woken }

omit [DecidableEq τ] in
theorem enter_iff : m.enter t = some m' ↔
    m.owner = none ∧ m' = { m with owner := some t } := by
  simp only [enter, Option.ite_none_right_eq_some, Option.some.injEq, eq_comm (a := m')]

theorem leave_iff : m.leave t = some m' ↔
    m.owner = some t ∧ m' = { m with owner := none } := by
  simp only [leave, Option.ite_none_right_eq_some, Option.some.injEq, eq_comm (a := m')]

theorem wait_iff : m.wait t = some m' ↔
    m.owner = some t ∧ m' = { m with owner := none, waiting := insert t m.waiting } := by
  simp only [wait, Option.ite_none_right_eq_some, Option.some.injEq, eq_comm (a := m')]

theorem wake_iff : m.wake t = some m' ↔ t ∈ m.waiting ∧
    m' = { m with waiting := m.waiting.erase t, woken := insert t m.woken } := by
  simp only [wake, Option.ite_none_right_eq_some, Option.some.injEq, eq_comm (a := m')]

theorem resume_iff : m.resume t = some m' ↔ (m.owner = none ∧ t ∈ m.woken) ∧
    m' = { m with owner := some t, woken := m.woken.erase t } := by
  simp only [resume, Option.ite_none_right_eq_some, Option.some.injEq, eq_comm (a := m')]

theorem notifyOne_owner {chosen : Option τ} (h : m.notifyOne chosen = some m') :
    m'.owner = m.owner := by
  cases chosen with
  | none =>
      simp only [notifyOne, Option.ite_none_right_eq_some, Option.some.injEq] at h
      exact h.2 ▸ rfl
  | some t =>
      obtain ⟨-, rfl⟩ := wake_iff.mp h
      rfl

/-- Lock and block: the whole of a critical section that goes straight into a wait. -/
theorem enter_wait_iff : (m.enter t).bind (·.wait t) = some m' ↔
    m.owner = none ∧ m' = { m with waiting := insert t m.waiting } := by
  constructor
  · intro h
    obtain ⟨u, hu, hw⟩ := Option.bind_eq_some_iff.mp h
    obtain ⟨hm, rfl⟩ := enter_iff.mp hu
    obtain ⟨-, rfl⟩ := wait_iff.mp hw
    exact ⟨hm, by rw [← hm]⟩
  · rintro ⟨hm, rfl⟩
    rw [enter_iff.mpr ⟨hm, rfl⟩]
    exact wait_iff.mpr ⟨rfl, by rw [hm]⟩

/-- Lock and unlock: a critical section that neither waits nor blocks. -/
theorem enter_leave_iff : (m.enter t).bind (·.leave t) = some m' ↔
    m.owner = none ∧ m' = m := by
  constructor
  · intro h
    obtain ⟨u, hu, hl⟩ := Option.bind_eq_some_iff.mp h
    obtain ⟨hm, rfl⟩ := enter_iff.mp hu
    obtain ⟨-, rfl⟩ := leave_iff.mp hl
    exact ⟨hm, by rw [← hm]⟩
  · rintro ⟨hm, rfl⟩
    rw [enter_iff.mpr ⟨hm, rfl⟩]
    exact leave_iff.mpr ⟨rfl, by rw [← hm]⟩

end Monitor
