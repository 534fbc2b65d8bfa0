import WatsonIotp.Client.Manage
import WatsonIotp.Client.Passes

/-!
# A handler is registered once

`subscribeCommandHandler` looks a pair up in `mHandlers` before it adds it, and nothing
else adds any. So no pair is there twice, whatever calls have been made and whatever came
of them; the topics are another matter, since `mSubscriptions` does keep them twice.
-/

open Json

namespace Subscription

variable {η D : Type} [DecidableEq η]

/-- No handler is registered twice on a topic. -/
def Unique (s : Registry η) : Prop := s.mHandlers.Nodup

theorem Unique.keeps_subscribeCommandHandler (topic : StdString) (handler : η) :
    Proc.Keeps Unique (subscribeCommandHandler topic handler) := by
  intro s hs
  rw [exec_register]
  split_ifs with hmem hrefused
  · exact hs
  · exact hs
  · apply List.Nodup.append hs (List.nodup_singleton _)
    rw [List.disjoint_singleton]
    exact hmem

omit [DecidableEq η] in
theorem Unique.keeps_subscribeTopic (topic : StdString) :
    Proc.Keeps Unique (subscribeTopic (η := η) topic) := by
  intro s hs
  rw [exec_subscribeTopic]
  split_ifs <;> exact hs

omit [DecidableEq η] in
theorem Unique.keeps_unsubscribeCommands (topic : StdString) :
    Proc.Keeps Unique (unsubscribeCommands (η := η) topic) := by
  intro s hs
  rw [exec_unsubscribeCommands]
  split_ifs <;> exact hs

omit [DecidableEq η] in
theorem Unique.keeps_sendMessage (reqId : StdString) :
    Proc.Keeps Unique (sendMessage (η := η) reqId) := by
  intro s hs
  rw [exec_sendMessage]
  split <;> exact hs

variable [CxxDouble D]

/-- The step lemma: every call keeps the handlers unique. -/
theorem Unique.step {hs : Handlers η} {s t : Registry η} {a : List Bool × Call η D}
    (h : Unique s) (hstep : (machine hs).step s a = some t) : Unique t := by
  obtain ⟨script, call⟩ := a
  cases hstep
  have hscript : Unique { s with script } := h
  cases call with
  | subscribeTopic topic => exact keeps_subscribeTopic topic _ hscript
  | subscribeCommandHandler topic handler =>
      exact keeps_subscribeCommandHandler topic handler _ hscript
  | unsubscribeCommands topic => exact keeps_unsubscribeCommands topic _ hscript
  | manage reqId res =>
      exact keeps_manage (keeps_subscribeCommandHandler _ _)
        (fun _ _ => keeps_subscribeCommandHandler _ _) keeps_sendMessage _ hscript
  | unmanage reqId =>
      apply Proc.Keeps.bind (keeps_sendMessage reqId) _ _ hscript
      intro reqId
      exact .bind (keeps_unsubscribeCommands _) fun _ => .pure _

/-- Nothing is left to register for a call of `manage`. -/
theorem Managed.keeps_manage {hs : Handlers η} {s : Registry η} (h : Managed hs s)
    (reqId : StdString) (res : Value D) :
    Proc.Keeps (fun t => t.mHandlers = s.mHandlers) (manage hs reqId res) := by
  have hregistered : ∀ pair ∈ s.mHandlers,
      Proc.Keeps (fun t => t.mHandlers = s.mHandlers) (subscribeCommandHandler pair.1 pair.2) := by
    intro pair hpair t ht
    rw [exec_register, if_pos (ht ▸ hpair)]
    exact ht
  apply Subscription.keeps_manage (hregistered _ h.response)
  · intro pair hpair
    exact hregistered pair (h.managed pair hpair)
  · intro reqId t ht
    rw [exec_sendMessage]
    split <;> exact ht

/-- Calls of `manage`, each with the answers of the broker, its id and the response. -/
def manageCalls (repeats : List (List Bool × StdString × Value D)) :
    List (List Bool × Call η D) :=
  repeats.map fun r => (r.1, .manage r.2.1 r.2.2)

/-- However often `manage` is repeated, all its handlers are registered as they were. -/
theorem Managed.run_manage {hs : Handlers η} {s t : Registry η} (h : Managed hs s)
    {repeats : List (List Bool × StdString × Value D)}
    (hr : (machine hs).Run s (manageCalls repeats) t) : t.mHandlers = s.mHandlers := by
  suffices hall : ∀ u : Registry η, u.mHandlers = s.mHandlers →
      (machine hs).Run u (manageCalls repeats) t → t.mHandlers = s.mHandlers from hall s rfl hr
  clear hr
  induction repeats with
  | nil =>
      intro u hu hr
      cases hr
      exact hu
  | cons r repeats ih =>
      intro u hu hr
      obtain ⟨v, hstep, hrest⟩ := Machine.Run.cons_iff.mp hr
      cases hstep
      exact ih _ (h.keeps_manage r.2.1 r.2.2 { u with script := r.1 } hu) hrest

/-- In every state that calls lead to from a fresh connection, no handler is registered
twice on a topic. So `manage` changes nothing once it has returned true, and a message is
passed to no handler twice. -/
theorem registrations_unique {hs : Handlers η} {acts : List (List Bool × Call η D)}
    {s : Registry η} (hr : (machine hs).Run .fresh acts s) :
    s.mHandlers.Nodup ∧
      (∀ (script : List Bool) (reqId : StdString) (res : Value D) (t u : Registry η)
        (repeats : List (List Bool × StdString × Value D)),
        (manage hs reqId res).exec { s with script } = (.ok true, t) →
        (machine hs).Run t (manageCalls repeats) u → u.mHandlers = t.mHandlers) ∧
      ∀ (object : Callback η D) (m : Arrival η D), object.mHandlers = s.mHandlers →
        (object.handedTo m).Nodup := by
  have hunique : Unique s := hr.invariant (fun _ _ _ h hstep => h.step hstep) List.nodup_nil
  refine ⟨hunique, ?_, ?_⟩
  · intro script reqId res t u repeats hmanage hrepeats
    exact (managed_of_manage hmanage).run_manage hrepeats
  · intro object m heq
    apply Callback.nodup_handedTo
    rw [heq]
    exact hunique

/-- A client is managed twice. -/
theorem registrations_unique_firmware :
    let acts : List (List Bool × Call Nat Int) :=
      [([], .manage "101".toList accepted), ([], .manage "102".toList accepted)]
    ∃ s, (machine firmwareHandlers).Run .fresh acts s ∧
      s.mHandlers.Nodup ∧
      (∀ (script : List Bool) (reqId : StdString) (res : Value Int) (t u : Registry Nat)
        (repeats : List (List Bool × StdString × Value Int)),
        (manage firmwareHandlers reqId res).exec { s with script } = (.ok true, t) →
        (machine firmwareHandlers).Run t (manageCalls repeats) u → u.mHandlers = t.mHandlers) ∧
      ∀ (object : Callback Nat Int) (m : Arrival Nat Int), object.mHandlers = s.mHandlers →
        (object.handedTo m).Nodup := by
  intro acts
  have hr : (machine firmwareHandlers).Run .fresh acts _ := Machine.Run.exec_iff.mp rfl
  exact ⟨_, hr, registrations_unique hr⟩

end Subscription
