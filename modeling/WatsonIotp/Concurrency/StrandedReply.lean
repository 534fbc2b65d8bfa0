import WatsonIotp.Concurrency.Reply

/-!
# Stranded replies

A reply is stranded when the reply thread is blocked, or gone, with a message on
the queue that nobody will tell it about. `notify_one` reaches the reply thread
only while it is in its wait, each wake-up takes one message only, and a wake-up
that counts as a timeout takes none. So a message is safe when it is pushed onto
the empty queue while the reply thread is in its wait, and when that wait does not
end as a timeout; `noStrandedReply_of_timely` says that runs of such pushes strand
nothing.
-/

namespace Reply

variable {τ μ : Type}

/-- The reply thread is blocked without a notification, or has left its loop. -/
def Unattended (s : State τ μ) : Prop :=
  .reply ∈ s.monitor.waiting ∨ s.reply = .left

def NoStrandedReply (s : State τ μ) : Prop := Unattended s → s.mReplyMsgs = []

/-- Messages are pushed onto an empty queue while the reply thread is in its wait,
and no wait ends as a timeout while a message is there. -/
def Timely (s : State τ μ) : Action τ μ → Prop
  | .push _ _ => (∃ deadline, s.reply = .waiting deadline) ∧ s.mReplyMsgs = []
  | .resume timedOut => timedOut = true → s.mReplyMsgs = []
  | _ => True

/-- The reply thread alone uses the condition variable, and only in its wait. -/
structure WaitsAlone (s : State τ μ) : Prop where
  alone : s.monitor.waiting ⊆ {.reply}
  wait : (∃ deadline, s.reply = .waiting deadline) ↔
    .reply ∈ s.monitor.waiting ∨ .reply ∈ s.monitor.woken
  once : .reply ∈ s.monitor.waiting → .reply ∉ s.monitor.woken

theorem waitsAlone_initial : WaitsAlone (State.initial : State τ μ) :=
  ⟨by simp [State.initial, Monitor.free], by simp [State.initial, Monitor.free],
    by simp [State.initial, Monitor.free]⟩

/-- Outside of its wait the reply thread is not at the condition variable. -/
theorem WaitsAlone.absent {s : State τ μ} (hs : WaitsAlone s)
    (hreply : ∀ deadline, s.reply ≠ .waiting deadline) :
    .reply ∉ s.monitor.waiting ∧ .reply ∉ s.monitor.woken := by
  have hnot := mt hs.wait.mpr (by simpa using hreply)
  exact not_or.mp hnot

/-- Steps outside of the wait leave the condition variable alone. -/
theorem WaitsAlone.frame {s u : State τ μ} (hs : WaitsAlone s)
    (hwaiting : u.monitor.waiting = s.monitor.waiting) (hwoken : u.monitor.woken = s.monitor.woken)
    (hreply : (∃ deadline, u.reply = .waiting deadline) ↔ ∃ deadline, s.reply = .waiting deadline) :
    WaitsAlone u :=
  ⟨hwaiting ▸ hs.alone, by rw [hreply, hwaiting, hwoken]; exact hs.wait,
    by rw [hwaiting, hwoken]; exact hs.once⟩

variable [DecidableEq τ]

/-- A notification reaches the reply thread if it is blocked, and nobody otherwise. -/
theorem WaitsAlone.notifyOne {s : State τ μ} (hs : WaitsAlone s) {chosen : Option (Thread τ)}
    {monitor : Monitor (Thread τ)} (h : s.monitor.notifyOne chosen = some monitor) :
    (.reply ∈ s.monitor.waiting ∧ monitor.waiting = ∅ ∧
      monitor.woken = insert .reply s.monitor.woken) ∨
    (.reply ∉ s.monitor.waiting ∧ monitor = s.monitor) := by
  cases chosen with
  | none =>
      simp only [Monitor.notifyOne, Option.ite_none_right_eq_some, Option.some.injEq] at h
      exact .inr ⟨by simp [h.1], h.2.symm⟩
  | some t =>
      obtain ⟨ht, rfl⟩ := Monitor.wake_iff.mp h
      obtain rfl := Finset.mem_singleton.mp (hs.alone ht)
      refine .inl ⟨ht, ?_, rfl⟩
      rw [Finset.subset_singleton_iff.mp hs.alone |>.resolve_left (Finset.ne_empty_of_mem ht)]
      simp

theorem WaitsAlone.step {s u : State τ μ} {a : Action τ μ} (hs : WaitsAlone s)
    (h : machine.step s a = some u) : WaitsAlone u := by
  cases steps_of_step h with
  | tick | exit | called _ | locked _ _ | released _ _ => exact hs.frame rfl rfl Iff.rfl
  | looped hreply _ | left hreply _ | published hreply | publishFailed hreply
  | completed hreply _ | awaited hreply | awaitFailed hreply | unlocked hreply =>
      exact hs.frame rfl rfl (by simp [State.setReply, hreply])
  | blocked hreply _ =>
      obtain ⟨hwaiting, hwoken⟩ := hs.absent (by simp [hreply])
      refine ⟨Finset.insert_subset (Finset.mem_singleton_self _) hs.alone, ?_, fun _ => hwoken⟩
      simp [State.setReply]
  | woken hwaiting =>
      refine ⟨(Finset.erase_subset _ _).trans hs.alone, ?_, by simp⟩
      simp [hs.wait, hwaiting]
  | passed _ hwoken _ | taken _ hwoken _ =>
      have hwaiting : .reply ∉ s.monitor.waiting := fun h => hs.once h hwoken
      refine ⟨hs.alone, ?_, fun h => absurd h hwaiting⟩
      simp [State.setReply, hwaiting]
  | pushed hsender hnotify =>
      obtain ⟨hwaiting, hnone, hwoken⟩ | ⟨-, rfl⟩ := hs.notifyOne hnotify
      · refine ⟨?_, ?_, ?_⟩
        · simp [State.setSender, hnone]
        · simp [State.setSender, hs.wait, hwaiting, hwoken]
        · simp [State.setSender, hnone]
      · exact hs.frame rfl rfl Iff.rfl

/-- A message on the queue is the only one, and the reply thread is on its way to it. -/
def Attended (s : State τ μ) : Prop :=
  s.mReplyMsgs = [] ∨ (∃ reply, s.mReplyMsgs = [reply]) ∧ .reply ∈ s.monitor.woken

omit [DecidableEq τ] in
theorem Attended.noStrandedReply {s : State τ μ} (hs : WaitsAlone s) (h : Attended s) :
    NoStrandedReply s := by
  intro hun
  obtain h | ⟨-, hwoken⟩ := h
  · exact h
  · obtain hwaiting | hleft := hun
    · exact absurd hwoken (hs.once hwaiting)
    · exact absurd hwoken (hs.absent (by simp [hleft])).2

theorem Attended.step {s u : State τ μ} {a : Action τ μ} (hw : WaitsAlone s) (hs : Attended s)
    (ha : Timely s a) (h : machine.step s a = some u) : Attended u := by
  cases steps_of_step h with
  | tick | exit | looped | left | blocked | published | publishFailed | completed | awaited
  | awaitFailed | unlocked | called | locked | released => exact hs
  | woken hwaiting =>
      obtain h | ⟨hqueue, -⟩ := hs
      · exact .inl h
      · exact .inr ⟨hqueue, Finset.mem_insert_self _ _⟩
  | passed _ _ hpass => exact .inl (hpass.elim ha id)
  | taken _ _ hqueue =>
      obtain h | ⟨⟨reply, h⟩, -⟩ := hs
      · simp [hqueue] at h
      · rw [hqueue, List.cons.injEq] at h
        exact .inl h.2
  | pushed hsender hnotify =>
      obtain ⟨hwait, hempty⟩ := ha
      refine .inr ⟨⟨_, by simp only [State.setSender, hempty, List.nil_append]; rfl⟩, ?_⟩
      obtain ⟨-, -, hwoken⟩ | ⟨hwaiting, rfl⟩ := hw.notifyOne hnotify
      · simp [State.setSender, hwoken]
      · exact (hw.wait.mp hwait).resolve_left hwaiting

/-- When every message is pushed onto an empty queue while the reply thread is in
its wait, and no wait with a message to take ends as a timeout, no state of the run
has a stranded reply. -/
theorem noStrandedReply_of_timely {s : State τ μ} {acts : List (Action τ μ)}
    (hr : machine.Run .initial acts s) (hc : machine.Along Timely State.initial acts) :
    NoStrandedReply s := by
  have hboth : WaitsAlone s ∧ Attended s := by
    apply hr.invariant_along (I := fun s => WaitsAlone s ∧ Attended s) _ hc
    · exact ⟨waitsAlone_initial, .inl rfl⟩
    · intro s a u hs ha h
      exact ⟨hs.1.step h, hs.2.step hs.1 ha h⟩
  exact hboth.2.noStrandedReply hboth.1

/-- One reply of the receive thread, sent while the reply thread is blocked. -/
theorem noStrandedReply_one :
    let acts : List (Action Nat Nat) := [.test, .block, .call .receive 1, .lock .receive,
      .push .receive (some .reply), .release .receive, .resume false, .publish true,
      .complete, .awaited true, .unlock, .test, .block]
    ∃ s, machine.Run .initial acts s ∧ NoStrandedReply s := by
  intro acts
  have hr : machine.Run .initial acts _ := Machine.Run.exec_iff.mp rfl
  have hc : machine.Along Timely (.initial : State Nat Nat) acts := by
    iterate 4 refine (Machine.along_cons rfl).mpr ⟨trivial, ?_⟩
    refine (Machine.along_cons rfl).mpr ⟨⟨⟨10000, rfl⟩, rfl⟩, ?_⟩
    refine (Machine.along_cons rfl).mpr ⟨trivial, ?_⟩
    refine (Machine.along_cons rfl).mpr ⟨by simp [Timely], ?_⟩
    iterate 6 refine (Machine.along_cons rfl).mpr ⟨trivial, ?_⟩
    trivial
  exact ⟨_, hr, noStrandedReply_of_timely hr hc⟩

/-- Every publication of the run returns a token, and the token completes. -/
def PublishesSucceed (acts : List (Action τ μ)) : Prop :=
  ∀ a ∈ acts, a ≠ .publish false ∧ a ≠ .awaited false

/-- Two replies are sent before the reply thread is back from its wait; it takes
the first, and blocks again behind the second. -/
theorem noStrandedReply_fails : ¬ ∀ (acts : List (Action Nat Nat)) (s : State Nat Nat),
    machine.Run .initial acts s → PublishesSucceed acts → NoStrandedReply s := by
  intro h
  have hexec : ∃ s, machine.exec (.initial : State Nat Nat)
      [.test, .block, .call .receive 1, .lock .receive, .push .receive (some .reply),
        .release .receive, .call (.producer 0) 2, .lock (.producer 0), .push (.producer 0) none,
        .release (.producer 0), .resume false, .publish true, .complete, .awaited true, .unlock,
        .test, .block] = some s ∧ s.monitor.waiting = {.reply} ∧ s.mReplyMsgs = [2] :=
    ⟨_, rfl, rfl, rfl⟩
  obtain ⟨s, hexec, hwaiting, hqueue⟩ := hexec
  have hempty := h _ s (Machine.Run.exec_iff.mp hexec) (by simp [PublishesSucceed])
    (.inl (by simp [hwaiting]))
  simp [hqueue] at hempty

end Reply
