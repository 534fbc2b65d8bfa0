import WatsonIotp.Concurrency.Polling

/-!
# Polling after destruction

The joins of the polling threads are in the base destructor, which runs when the hooks
of the derived class are gone already. The client, in turn, does not know which
handlers have a pointer to it. `noMisuse_of_quiet` is about the runs in which neither
matters, since the threads have ended when the derived destructor completes, and when
a client that the handler is bound to is destroyed.
-/

namespace Polling

/-- What a polling thread does with something that is gone. -/
inductive Misuse where
  /-- A hook is called behind the derived destructor. -/
  | hook
  /-- `IOTF_send_reply` is called on a destroyed client. -/
  | sendReply
  deriving DecidableEq

variable {D : Type} [CxxDouble D]

/-- The misuses of a step. -/
def misuses (s : State D) : Action D → List Misuse
  | .report _ _ => if s.object = .alive then [] else [.hook]
  | .notify k =>
      match s.polls[k]?.bind Poll.notify with
      | some (some _, _) =>
          if s.mClient = true ∧ s.clientAlive = false then [.sendReply] else []
      | _ => []
  | _ => []

/-- The threads have all ended. -/
def AllEnded (s : State D) : Prop := ∀ t ∈ s.polls, t.Ended

/-- The derived destructor completes, and a client that the handler is bound to is
destroyed, only when the threads have ended. -/
def Quiet (s : State D) : Action D → Prop
  | .destroyDerived => AllEnded s
  | .destroyClient => s.mClient = true → AllEnded s
  | _ => True

/-- Threads that have not ended find their hooks and their client. -/
structure Sheltered (s : State D) : Prop where
  object : s.object ≠ .alive → AllEnded s
  client : s.mClient = true → s.clientAlive = false → AllEnded s

omit [CxxDouble D] in
theorem sheltered_initial : Sheltered (State.initial : State D) :=
  ⟨fun h => absurd rfl h, fun h => by cases h⟩

omit [CxxDouble D] in
/-- While a thread goes on, the handler is alive, and so is the client that it is bound to. -/
theorem Sheltered.of_running {s : State D} (hs : Sheltered s) {k : Nat} {t : Poll D}
    (hpoll : s.polls[k]? = some t) (hrunning : ¬ t.Ended) :
    s.object = .alive ∧ (s.mClient = true → s.clientAlive = true) := by
  have hnot : ¬ AllEnded s := fun hall => hrunning (hall t (List.mem_of_getElem? hpoll))
  refine ⟨Decidable.not_not.mp fun hne => hnot (hs.object hne), fun hbound => ?_⟩
  rw [← Bool.not_eq_false]
  exact fun hgone => hnot (hs.client hbound hgone)

omit [CxxDouble D] in
theorem not_ended_of_phase {t : Poll D} {phase : PollPhase} (h : t.phase = phase)
    (hfinished : phase ≠ .finished) (hfailed : phase ≠ .failed) : ¬ t.Ended := by
  rintro (hended | hended)
  · exact hfinished (h.symm.trans hended)
  · exact hfailed (h.symm.trans hended)

/-- The step lemma. -/
theorem Sheltered.step {s u : State D} {a : Action D} (hs : Sheltered s) (ha : Quiet s a)
    (h : machine.step s a = some u) : Sheltered u ∧ misuses s a = [] := by
  obtain ⟨-, hsteps⟩ := steps_of_step h
  cases hsteps with
  | bound hclient =>
      refine ⟨⟨hs.object, fun _ hgone => ?_⟩, rfl⟩
      cases hclient.symm.trans hgone
  | @requested m hobject hclient =>
      refine ⟨⟨fun hne => absurd hobject hne, fun _ hgone => ?_⟩, rfl⟩
      cases hclient.symm.trans hgone
  | entered hpoll hphase =>
      obtain ⟨hobject, hclient⟩ :=
        hs.of_running hpoll (not_ended_of_phase hphase (by decide) (by decide))
      refine ⟨⟨fun hne => absurd hobject hne, fun hbound hgone => ?_⟩, rfl⟩
      cases (hclient hbound).symm.trans hgone
  | reported hpoll hphase =>
      obtain ⟨hobject, hclient⟩ :=
        hs.of_running hpoll (not_ended_of_phase hphase (by decide) (by decide))
      refine ⟨⟨fun hne => absurd hobject hne, fun hbound hgone => ?_⟩, if_pos hobject⟩
      cases (hclient hbound).symm.trans hgone
  | @notified k t t' reply hpoll hnotify =>
      obtain ⟨hobject, hclient⟩ := hs.of_running hpoll
        (not_ended_of_phase (Poll.notify_eq_some hnotify).1 (by decide) (by decide))
      refine ⟨⟨fun hne => absurd hobject hne, fun hbound hgone => ?_⟩, ?_⟩
      · cases (hclient hbound).symm.trans hgone
      · have hfound : ¬ (s.mClient = true ∧ s.clientAlive = false) := by
          rintro ⟨hbound, hgone⟩
          cases (hclient hbound).symm.trans hgone
        simp only [misuses, if_neg hfound]
        split <;> rfl
  | derivedDestroyed hobject => exact ⟨⟨fun _ => ha, hs.client⟩, rfl⟩
  | downloadJoined hobject _ | updateJoined hobject _ =>
      refine ⟨⟨fun _ => hs.object ?_, hs.client⟩, rfl⟩
      rw [hobject]
      decide
  | clientDestroyed hclient => exact ⟨⟨hs.object, fun hbound _ => ha hbound⟩, rfl⟩

/-- In a run in which the threads have ended when the derived destructor completes and
when a client that the handler is bound to is destroyed, no thread calls a hook or a
client that is gone. -/
theorem noMisuse_of_quiet {s : State D} {log : List Misuse} {acts : List (Action D)}
    (hr : (machine.recorded misuses).Run (.initial, []) acts (s, log))
    (hquiet : machine.Along Quiet State.initial acts) : log = [] := by
  have hboth : Sheltered s ∧ log = [] := by
    refine hr.recorded_invariant_along (I := fun s log => Sheltered s ∧ log = []) ?_ hquiet
      ⟨sheltered_initial, rfl⟩
    rintro s log a u ⟨hs, rfl⟩ ha h
    exact hs.step ha h
  exact hboth.2

/-- A handler and its client are destroyed when the download is over. -/
theorem noMisuse_finished :
    let acts : List (Action Int) := [.bind, .request downloadRequest, .enter 0,
      .report 0 [.state stateDownloaded], .notify 0, .destroyDerived, .joinDownload, .joinUpdate,
      .destroyClient]
    ∃ s log, (machine.recorded misuses).Run (.initial, []) acts (s, log) ∧ log = [] := by
  intro acts
  have hr : machine.Run .initial acts _ := Machine.Run.exec_iff.mp rfl
  obtain ⟨log, hlog⟩ : ∃ log, (machine.recorded misuses).Run (.initial, []) acts (_, log) :=
    hr.exists_recorded []
  have hquiet : machine.Along Quiet (State.initial : State Int) acts := by
    iterate 5 refine (Machine.along_cons rfl).mpr ⟨trivial, ?_⟩
    refine (Machine.along_cons rfl).mpr ⟨?_, ?_⟩
    · intro t ht
      obtain rfl := List.mem_singleton.mp ht
      exact .inl rfl
    · iterate 2 refine (Machine.along_cons rfl).mpr ⟨trivial, ?_⟩
      refine (Machine.along_cons rfl).mpr ⟨fun _ t ht => ?_, trivial⟩
      obtain rfl := List.mem_singleton.mp ht
      exact .inl rfl
  exact ⟨_, log, hlog, noMisuse_of_quiet hlog hquiet⟩

/-- The derived destructor completes in the middle of a download, and the next report
calls a hook that is gone. -/
theorem noMisuse_fails : ¬ ∀ (acts : List (Action Int)) (s : State Int) (log : List Misuse),
    (machine.recorded misuses).Run (.initial, []) acts (s, log) → log = [] := by
  intro h
  have hexec : ∃ s log, (machine.recorded misuses).exec ((.initial : State Int), [])
      [.bind, .request downloadRequest, .enter 0, .destroyDerived, .report 0 []] =
        some (s, log) ∧ log = [.hook] := by
    refine ⟨_, _, rfl, ?_⟩
    rfl
  obtain ⟨s, log, hexec, hlog⟩ := hexec
  have hnone := h _ s log (Machine.Run.exec_iff.mp hexec)
  rw [hlog] at hnone
  cases hnone

end Polling
