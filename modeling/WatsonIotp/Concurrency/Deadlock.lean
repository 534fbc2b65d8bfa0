import WatsonIotp.Concurrency.Reply

/-!
# The reply thread against the receive thread

The reply thread keeps `mLock` while it waits for the completion of its delivery,
and deliveries are completed by the receive thread. The receive thread in turn
needs `mLock` to put the reply of a handler on the queue. Once each of them waits
for the other, only the timeout of `wait_for_completion` gets them apart, with an
exception.

A run gets there by one of two steps, and only by these: the receive thread has a
reply to send while a delivery is under way, or the reply thread publishes while
the receive thread is at the lock (`deadlockFree_iff`).
-/

namespace Reply

variable {τ μ : Type}

/-- The reply thread holds the lock and waits for its token, and the receive
thread, which would complete the token, is blocked on the lock. -/
def Deadlocked (s : State τ μ) : Prop :=
  s.monitor.owner = some .reply ∧ (∃ reply, s.reply = .awaiting reply false) ∧
    ∃ reply, s.sender .receive = .locking reply

/-- The receive thread asks for the lock only when no delivery is under way, and
the reply thread publishes only when the receive thread is not at the lock. -/
def Apart (s : State τ μ) : Action τ μ → Prop
  | .call .receive _ => ∀ reply, s.reply ≠ .awaiting reply false
  | .publish true => ∀ reply, s.sender .receive ≠ .locking reply
  | _ => True

/-- The places of the reply thread at which it holds the lock. -/
def ReplyPhase.Holds : ReplyPhase μ → Prop
  | .publishing _ | .awaiting _ _ | .unlocking => True
  | _ => False

def HoldsLock (s : State τ μ) : Prop := s.reply.Holds → s.monitor.owner = some .reply

variable [DecidableEq τ]

theorem HoldsLock.step {s u : State τ μ} {a : Action τ μ} (hs : HoldsLock s)
    (h : machine.step s a = some u) : HoldsLock u := by
  cases steps_of_step h with
  | tick | exit | woken | called => exact hs
  | looped | left | blocked | publishFailed | awaitFailed | unlocked => exact False.elim
  | passed | taken => exact fun _ => rfl
  | published hreply | completed hreply _ | awaited hreply =>
      intro _
      apply hs
      rw [hreply]
      trivial
  | locked _ howner | released _ howner =>
      intro hreply
      have hreply' := hs hreply
      rw [howner] at hreply'
      cases hreply'
  | pushed _ hnotify =>
      intro hreply
      exact (Monitor.notifyOne_owner hnotify).trans (hs hreply)

/-- A step of a run leads into the deadlock exactly if it is not apart. -/
theorem deadlocked_step_iff {s u : State τ μ} {a : Action τ μ} (hs : HoldsLock s)
    (hd : ¬ Deadlocked s) (h : machine.step s a = some u) : ¬ Deadlocked u ↔ Apart s a := by
  cases steps_of_step h with
  | tick | exit | woken =>
      exact ⟨fun _ => trivial, fun _ => hd⟩
  | looped | left | blocked | passed | taken | completed | awaited | unlocked =>
      refine ⟨fun _ => trivial, fun _ hdead => ?_⟩
      obtain ⟨reply, hreply⟩ := hdead.2.1
      cases hreply
  | publishFailed | awaitFailed | locked | released =>
      refine ⟨fun _ => trivial, fun _ hdead => ?_⟩
      cases hdead.1
  | @published reply hreply =>
      have howner : s.monitor.owner = some .reply := hs (by rw [hreply]; trivial)
      constructor
      · intro hu reply' hreceive
        exact hu ⟨howner, ⟨reply, rfl⟩, reply', hreceive⟩
      · rintro hapart ⟨-, -, reply', hreceive⟩
        exact hapart reply' hreceive
  | @called t reply hsender =>
      cases t with
      | receive =>
          constructor
          · intro hu reply' hreply
            have howner : s.monitor.owner = some .reply := hs (by rw [hreply]; trivial)
            exact hu ⟨howner, ⟨reply', hreply⟩, reply, by simp [State.setSender]⟩
          · rintro hapart ⟨-, ⟨reply', hreply⟩, -⟩
            exact hapart reply' hreply
      | producer t =>
          refine ⟨fun _ => trivial, fun _ hdead => hd ?_⟩
          obtain ⟨howner, hreply, reply', hreceive⟩ := hdead
          exact ⟨howner, hreply, reply', by simpa [State.setSender] using hreceive⟩
  | @pushed t chosen reply monitor hsender hnotify =>
      refine ⟨fun _ => trivial, fun _ hdead => hd ?_⟩
      obtain ⟨howner, hreply, reply', hreceive⟩ := hdead
      refine ⟨(Monitor.notifyOne_owner hnotify).symm.trans howner, hreply, reply', ?_⟩
      obtain rfl | hne := eq_or_ne t .receive
      · simp [State.setSender] at hreceive
      · simpa [State.setSender, hne.symm] using hreceive

/-- No state of a run is a deadlock exactly if, along the run, the receive thread
does not ask for the lock while a delivery is under way, and the reply thread does
not publish while the receive thread is at the lock. -/
theorem deadlockFree_iff {s : State τ μ} {acts : List (Action τ μ)}
    (hr : machine.Run .initial acts s) :
    (∀ front u, front <+: acts → machine.Run .initial front u → ¬ Deadlocked u) ↔
      machine.Along Apart State.initial acts := by
  apply hr.forall_prefix_iff (I := HoldsLock) (P := fun s => ¬ Deadlocked s)
  · intro s a u hs h
    exact hs.step h
  · intro s a u hs hd h
    exact deadlocked_step_iff hs hd h
  · exact False.elim
  · rintro ⟨howner, -⟩
    cases howner

/-- One reply of the receive thread, sent and delivered. -/
theorem deadlockFree_one :
    let acts : List (Action Nat Nat) := [.test, .block, .call .receive 1, .lock .receive,
      .push .receive (some .reply), .release .receive, .resume false, .publish true, .complete]
    ∃ s, machine.Run .initial acts s ∧
      ((∀ front u, front <+: acts → machine.Run .initial front u → ¬ Deadlocked u) ↔
        machine.Along Apart State.initial acts) := by
  intro acts
  have hr : machine.Run .initial acts _ := Machine.Run.exec_iff.mp rfl
  exact ⟨_, hr, deadlockFree_iff hr⟩

/-- A second message with a reply arrives while the first reply is being delivered. -/
theorem deadlockFree_fails : ¬ ∀ (acts : List (Action Nat Nat)) (s : State Nat Nat),
    machine.Run .initial acts s → ¬ Deadlocked s := by
  intro h
  have hexec : ∃ s, machine.exec (.initial : State Nat Nat)
      [.test, .block, .call .receive 1, .lock .receive, .push .receive (some .reply),
        .release .receive, .resume false, .publish true, .call .receive 2] = some s ∧
      s.monitor.owner = some .reply ∧ s.reply = .awaiting 1 false ∧
      s.sender .receive = .locking 2 :=
    ⟨_, rfl, rfl, rfl, rfl⟩
  obtain ⟨s, hexec, howner, hreply, hreceive⟩ := hexec
  exact h _ s (Machine.Run.exec_iff.mp hexec) ⟨howner, ⟨1, hreply⟩, 2, hreceive⟩

end Reply
