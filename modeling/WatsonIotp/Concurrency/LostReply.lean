import WatsonIotp.Concurrency.ReplyOrder
import WatsonIotp.Concurrency.StrandedReply

/-!
# Lost replies

A reply leaves the queue before it is published. When `publish` or
`wait_for_completion` throws, nothing puts it back, and nothing catches the exception
either: it leaves the function of the thread. `nothingLost_iff` says that the runs in
which no publication fails are the ones in which neither of this shows.
-/

namespace Reply

variable {τ μ : Type}

/-- The reply that the reply thread is publishing. -/
def ReplyPhase.inHand : ReplyPhase μ → List μ
  | .publishing reply | .awaiting reply _ => [reply]
  | _ => []

/-- The reply thread is running or has been told to stop, and each reply enqueued is
published, being published or on the queue. -/
structure NothingLost (s : State τ μ) (log : List (Event τ μ)) : Prop where
  running : s.reply = .left ∨ s.reply = .failed → s.mExit = true
  accounted : enqueued log = published log ++ s.reply.inHand ++ s.mReplyMsgs

/-- A step with which no reply is enqueued, taken or published. -/
theorem NothingLost.frame {s u : State τ μ} {log events : List (Event τ μ)}
    (hs : NothingLost s log) (hrunning : u.reply = .left ∨ u.reply = .failed → u.mExit = true)
    (henqueued : enqueued events = []) (hpublished : published events = [])
    (hhand : u.reply.inHand = s.reply.inHand) (hqueue : u.mReplyMsgs = s.mReplyMsgs) :
    NothingLost u (log ++ events) := by
  refine ⟨hrunning, ?_⟩
  rw [hhand, hqueue, enqueued, published, List.filterMap_append, List.filterMap_append]
  change enqueued log ++ enqueued events = published log ++ published events ++ _ ++ _
  rw [henqueued, hpublished, List.append_nil, List.append_nil]
  exact hs.accounted

/-- A publication that fails is one of a reply in the hand of the reply thread, which is
then in nobody's. -/
theorem not_nothingLost_failed {s u : State τ μ} {log : List (Event τ μ)} {reply : μ}
    (hs : NothingLost s log) (hhand : s.reply.inHand = [reply]) (hreply : u.reply = .failed)
    (hqueue : u.mReplyMsgs = s.mReplyMsgs) : ¬ NothingLost u (log ++ []) := by
  intro hu
  have hbefore := congrArg List.length hs.accounted
  have hafter := congrArg List.length hu.accounted
  rw [List.append_nil, hreply, hqueue] at hafter
  simp only [hhand, List.length_append, List.length_singleton] at hbefore
  simp only [ReplyPhase.inHand, List.length_append, List.length_nil] at hafter
  omega

variable [DecidableEq τ]

/-- The step lemma: only a failed publication loses a reply. -/
theorem nothingLost_step_iff {s u : State τ μ} {log : List (Event τ μ)} {a : Action τ μ}
    (hs : NothingLost s log) (h : machine.step s a = some u) :
    NothingLost u (log ++ observe s a) ↔ a ≠ .publish false ∧ a ≠ .awaited false := by
  cases steps_of_step h with
  | tick | woken => exact iff_of_true (hs.frame hs.running rfl rfl rfl rfl) (by simp)
  | exit => exact iff_of_true (hs.frame (fun _ => rfl) rfl rfl rfl rfl) (by simp)
  | looped hreply hexit | unlocked hreply | blocked hreply howner =>
      refine iff_of_true (hs.frame (by simp [State.setReply]) rfl rfl ?_ rfl) (by simp)
      rw [hreply]
      rfl
  | left hreply hexit =>
      refine iff_of_true (hs.frame (fun _ => hexit) rfl rfl ?_ rfl) (by simp)
      rw [hreply]
      rfl
  | @passed timedOut deadline hreply hwoken hpass =>
      have hevents : observe s (.resume timedOut) = [] := by
        cases timedOut with
        | true => rfl
        | false => simp only [observe, hpass.resolve_left Bool.false_ne_true]
      rw [hevents]
      refine iff_of_true (hs.frame (by simp [State.setReply]) rfl rfl ?_ rfl) (by simp)
      rw [hreply]
      rfl
  | @taken deadline reply rest hreply hwoken hqueue =>
      have hevents : observe s (.resume false) = [.taken reply] := by
        simp only [observe, hqueue]
      rw [hevents]
      refine iff_of_true ⟨by simp [State.setReply], ?_⟩ (by simp)
      simpa [hreply, hqueue, List.filterMap_cons, State.setReply, ReplyPhase.inHand]
        using hs.accounted
  | published hreply =>
      refine iff_of_true (hs.frame (by simp [State.setReply]) rfl rfl ?_ rfl) (by simp)
      rw [hreply]
      rfl
  | @publishFailed reply hreply =>
      have hhand : s.reply.inHand = [reply] := by rw [hreply]; rfl
      exact iff_of_false (not_nothingLost_failed hs hhand rfl rfl) (by simp)
  | completed hreply hreceive =>
      refine iff_of_true (hs.frame (by simp [State.setReply]) rfl rfl ?_ rfl) (by simp)
      rw [hreply]
      rfl
  | @awaited reply hreply =>
      have hevents : observe s (.awaited true) = [.published reply] := by
        simp only [observe, hreply]
      rw [hevents]
      refine iff_of_true ⟨by simp [State.setReply], ?_⟩ (by simp)
      simpa [hreply, List.filterMap_cons, State.setReply, ReplyPhase.inHand] using hs.accounted
  | @awaitFailed reply hreply =>
      have hhand : s.reply.inHand = [reply] := by rw [hreply]; rfl
      exact iff_of_false (not_nothingLost_failed hs hhand rfl rfl) (by simp)
  | called hsender | released hsender howner =>
      exact iff_of_true (hs.frame hs.running rfl rfl rfl rfl) (by simp)
  | @locked t reply hsender howner =>
      have hevents : observe s (.lock t) = [.acquired t reply] := by
        simp only [observe, hsender]
      rw [hevents]
      exact iff_of_true (hs.frame hs.running rfl rfl rfl rfl) (by simp)
  | @pushed t chosen reply monitor hsender hnotify =>
      have hevents : observe s (.push t chosen) = [.enqueued reply] := by
        simp only [observe, hsender]
      rw [hevents]
      refine iff_of_true ⟨hs.running, ?_⟩ (by simp)
      simpa [List.filterMap_cons, State.setSender] using congrArg (· ++ [reply]) hs.accounted

/-- In a run, the reply thread keeps running until it is told to stop and no reply is
lost exactly if every publication returns a token and every token completes. -/
theorem nothingLost_iff {s : State τ μ} {log : List (Event τ μ)} {acts : List (Action τ μ)}
    (hr : (machine.recorded observe).Run (.initial, []) acts (s, log)) :
    (∀ front u log', front <+: acts →
        (machine.recorded observe).Run (.initial, []) front (u, log') → NothingLost u log') ↔
      PublishesSucceed acts := by
  have hprefix := hr.forall_prefix_iff (I := fun _ => True) (P := fun p => NothingLost p.1 p.2)
    (C := fun _ a => a ≠ .publish false ∧ a ≠ .awaited false) (fun _ _ _ _ _ => trivial) ?_
    trivial ⟨by simp [State.initial], rfl⟩
  · rw [hr.along_iff_forall_mem] at hprefix
    exact ⟨fun hall => hprefix.mp fun front p => hall front p.1 p.2,
      fun hall front u log' => hprefix.mpr hall front (u, log')⟩
  · rintro ⟨s, log⟩ a ⟨u, log'⟩ - hs h
    obtain ⟨hstep, rfl⟩ := Machine.recorded_step_iff.mp h
    exact nothingLost_step_iff hs hstep

/-- One reply that is published. -/
theorem nothingLost_one :
    let acts : List (Action Nat Nat) := [.test, .block, .call .receive 1, .lock .receive,
      .push .receive (some .reply), .release .receive, .resume false, .publish true,
      .complete, .awaited true, .unlock]
    ∃ s log, (machine.recorded observe).Run (.initial, []) acts (s, log) ∧
      ((∀ front u log', front <+: acts →
          (machine.recorded observe).Run (.initial, []) front (u, log') → NothingLost u log') ↔
        PublishesSucceed acts) := by
  intro acts
  have hr : machine.Run .initial acts _ := Machine.Run.exec_iff.mp rfl
  obtain ⟨log, hr⟩ : ∃ log, (machine.recorded observe).Run (.initial, []) acts (_, log) :=
    hr.exists_recorded []
  exact ⟨_, log, hr, nothingLost_iff hr⟩

/-- The publication of a reply fails, and the reply thread is gone with it. -/
theorem nothingLost_fails : ¬ ∀ (acts : List (Action Nat Nat)) (s : State Nat Nat)
    (log : List (Event Nat Nat)), (machine.recorded observe).Run (.initial, []) acts (s, log) →
      NothingLost s log := by
  intro h
  have hexec : ∃ s log, (machine.recorded observe).exec ((.initial : State Nat Nat), [])
      [.test, .block, .call .receive 1, .lock .receive, .push .receive (some .reply),
        .release .receive, .resume false, .publish false] = some (s, log) ∧
      s.reply = .failed ∧ s.mExit = false := by
    refine ⟨_, _, rfl, ?_, ?_⟩ <;> rfl
  obtain ⟨s, log, hexec, hreply, hexit⟩ := hexec
  have hrunning := (h _ s log (Machine.Run.exec_iff.mp hexec)).running (.inr hreply)
  rw [hexit] at hrunning
  cases hrunning

end Reply
