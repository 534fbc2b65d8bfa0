import WatsonIotp.Handler.Basic
import WatsonIotp.Machine.Basic
import WatsonIotp.Machine.Proc
import Mathlib.Data.Finset.Basic
import Mathlib.Logic.Function.Basic

/-!
# Subscriptions

The callback object keeps the topics it has subscribed in `mSubscriptions` and
the handlers it has registered in `mHandlers`; the broker has a set of topics of
its own. Subscribing with a handler adds to all three, subscribing without one to
the first and the third. Unsubscribing takes one occurrence out of the first and
the topic out of the third, and leaves the handlers alone.

The broker grants or refuses each request as the script of the call says. A
refusal is an exception, thrown before anything local has changed.
-/

open Json

namespace Subscription

variable {η D : Type}

/-- What client and broker know of the subscriptions, for handlers of type `η`. -/
structure Registry (η : Type) where
  mSubscriptions : List StdString
  /-- The multimap, in the order of insertion. -/
  mHandlers : List (StdString × η)
  /-- Whether `handler->mClient` is set. -/
  mClient : η → Bool
  broker : Finset StdString
  /-- The answers of the broker to come; it grants what the script does not tell. -/
  script : List Bool

def Registry.fresh : Registry η := ⟨[], [], fun _ => false, ∅, []⟩

/-- The handlers of an `IOTP_DeviceClient`. -/
structure Handlers (η : Type) where
  mResponseHandler : η
  mFirmwareHandler : Option η
  mActionHandler : Option η
  mDevAttributeHandler : Option η

/-- The topics on which `manage` registers each handler, in its order. -/
def Handlers.managed (hs : Handlers η) : List (StdString × η) :=
  (hs.mFirmwareHandler.toList.flatMap fun h =>
    [(serverUpdateTopic, h), (serverObserveTopic, h), (serverCancelTopic, h),
      (serverFirmwareDownloadTopic, h), (serverFirmwareUpdateTopic, h)]) ++
  (hs.mActionHandler.toList.flatMap fun h =>
    [(serverDeviceRebootTopic, h), (serverFactoryResetTopic, h)]) ++
  hs.mDevAttributeHandler.toList.map fun h => (serverUpdateTopic, h)

/-! ### Requests to the broker -/

/-- The next answer of the broker is a refusal. -/
def Registry.Refused (s : Registry η) : Prop := s.script.head? = some false

instance (s : Registry η) : Decidable s.Refused := inferInstanceAs (Decidable (_ = _))

/-- After the next answer of the broker. -/
def Registry.answered (s : Registry η) : Registry η := { s with script := s.script.tail }

/-- One request to the broker and the wait for its token. -/
def request : Proc (Registry η) Fault Unit := do
  let s ← get
  set s.answered
  if s.Refused then throw .mqtt

/-- `pasync_client->subscribe`, `wait_for_completion` and `is_complete`. -/
def asyncSubscribe (topic : StdString) : Proc (Registry η) Fault Bool := do
  request
  modify fun s => { s with broker := insert topic s.broker }
  return true

def asyncUnsubscribe (topic : StdString) : Proc (Registry η) Fault Bool := do
  request
  modify fun s => { s with broker := s.broker.erase topic }
  return true

/-- `send_message`, with the id that it forms or the empty one. -/
def sendMessage (reqId : StdString) : Proc (Registry η) Fault StdString := do
  request
  return reqId

theorem exec_request (s : Registry η) : (request (η := η)).exec s =
    if s.Refused then (.error .mqtt, s.answered) else (.ok ⟨⟩, s.answered) := by
  rw [request, Proc.exec_bind_ok (Proc.exec_get s), Proc.exec_bind_ok (Proc.exec_set s _)]
  by_cases h : s.Refused
  · rw [if_pos h, if_pos h]
    rfl
  · rw [if_neg h, if_neg h]
    rfl

theorem exec_asyncSubscribe (topic : StdString) (s : Registry η) :
    (asyncSubscribe topic).exec s = if s.Refused then (.error .mqtt, s.answered)
      else (.ok true, { s.answered with broker := insert topic s.broker }) := by
  by_cases h : s.Refused <;> simp only [asyncSubscribe, Proc.exec_bind, exec_request, h] <;> rfl

theorem exec_asyncUnsubscribe (topic : StdString) (s : Registry η) :
    (asyncUnsubscribe topic).exec s = if s.Refused then (.error .mqtt, s.answered)
      else (.ok true, { s.answered with broker := s.broker.erase topic }) := by
  by_cases h : s.Refused <;> simp only [asyncUnsubscribe, Proc.exec_bind, exec_request, h] <;> rfl

theorem exec_sendMessage (reqId : StdString) (s : Registry η) :
    (sendMessage reqId).exec s =
      if s.Refused then (.error .mqtt, s.answered) else (.ok reqId, s.answered) := by
  by_cases h : s.Refused <;> simp only [sendMessage, Proc.exec_bind, exec_request, h] <;> rfl

/-! ### The calls -/

def subscribeTopic (topic : StdString) : Proc (Registry η) Fault Bool := do
  let s ← get
  if topic ∈ s.mSubscriptions then return true
  else if ← asyncSubscribe topic then
    modify fun s => { s with mSubscriptions := s.mSubscriptions ++ [topic] }
    return true
  else return false

def unsubscribeCommands (topic : StdString) : Proc (Registry η) Fault Bool := do
  let s ← get
  if topic ∈ s.mSubscriptions then
    if ← asyncUnsubscribe topic then
      modify fun s => { s with mSubscriptions := s.mSubscriptions.erase topic }
      return true
    else return false
  else return false

def unmanage (reqId : StdString) : Proc (Registry η) Fault Bool := do
  let reqId ← sendMessage reqId
  let _ ← unsubscribeCommands serverResponseTopic
  return (reqId ≠ [] : Bool)

section

variable [DecidableEq η] [CxxDouble D]

def subscribeCommandHandler (topic : StdString) (handler : η) :
    Proc (Registry η) Fault Bool := do
  let s ← get
  if (topic, handler) ∈ s.mHandlers then return true
  else if ← asyncSubscribe topic then
    modify fun s => { s with
      mSubscriptions := s.mSubscriptions ++ [topic]
      mHandlers := s.mHandlers ++ [(topic, handler)]
      mClient := Function.update s.mClient handler true }
    return true
  else return false

def subscribeAll : List (StdString × η) → Proc (Registry η) Fault Unit
  | [] => pure ()
  | (topic, handler) :: pairs => do
      let _ ← subscribeCommandHandler topic handler
      subscribeAll pairs

/-- `manage`, whose wait for the response gives `res`. -/
def manage (hs : Handlers η) (reqId : StdString) (res : Value D) :
    Proc (Registry η) Fault Bool := do
  if ← subscribeCommandHandler serverResponseTopic hs.mResponseHandler then
    let reqId ← sendMessage reqId
    if reqId = [] then return false
    else
      let rc ← Proc.ofExcept .json (rc res)
      if rc = 200 then
        subscribeAll hs.managed
        return true
      else return false
  else return false

/-- A call of the application. -/
inductive Call (η D : Type) where
  | subscribeTopic (topic : StdString)
  | subscribeCommandHandler (topic : StdString) (handler : η)
  | unsubscribeCommands (topic : StdString)
  | manage (reqId : StdString) (res : Value D)
  | unmanage (reqId : StdString)

def Call.run (hs : Handlers η) : Call η D → Proc (Registry η) Fault Bool
  | .subscribeTopic topic => Subscription.subscribeTopic topic
  | .subscribeCommandHandler topic handler => Subscription.subscribeCommandHandler topic handler
  | .unsubscribeCommands topic => Subscription.unsubscribeCommands topic
  | .manage reqId res => Subscription.manage hs reqId res
  | .unmanage reqId => Subscription.unmanage reqId

/-- Calls of the application, each with the answers of the broker during it. An
exception of a call is left to the application, which goes on with the next. -/
def machine (hs : Handlers η) : Machine (Registry η) (List Bool × Call η D) where
  step s a := some ((a.2.run hs).exec { s with script := a.1 }).2

end

/-! ### What the calls do -/

theorem exec_subscribeTopic (topic : StdString) (s : Registry η) :
    (subscribeTopic topic).exec s = if topic ∈ s.mSubscriptions then (.ok true, s)
      else if s.Refused then (.error .mqtt, s.answered)
      else (.ok true, { s.answered with
        broker := insert topic s.broker
        mSubscriptions := s.mSubscriptions ++ [topic] }) := by
  rw [subscribeTopic, Proc.exec_bind_ok (Proc.exec_get s)]
  by_cases hmem : topic ∈ s.mSubscriptions
  · rw [if_pos hmem, if_pos hmem]
    rfl
  · rw [if_neg hmem, if_neg hmem]
    by_cases h : s.Refused <;> simp only [Proc.exec_bind, exec_asyncSubscribe, h] <;> rfl

theorem exec_unsubscribeCommands (topic : StdString) (s : Registry η) :
    (unsubscribeCommands topic).exec s = if topic ∈ s.mSubscriptions then
        if s.Refused then (.error .mqtt, s.answered)
        else (.ok true, { s.answered with
          broker := s.broker.erase topic
          mSubscriptions := s.mSubscriptions.erase topic })
      else (.ok false, s) := by
  rw [unsubscribeCommands, Proc.exec_bind_ok (Proc.exec_get s)]
  by_cases hmem : topic ∈ s.mSubscriptions
  · rw [if_pos hmem, if_pos hmem]
    by_cases h : s.Refused <;> simp only [Proc.exec_bind, exec_asyncUnsubscribe, h] <;> rfl
  · rw [if_neg hmem, if_neg hmem]
    rfl

theorem exec_unmanage (reqId : StdString) (s : Registry η) :
    ((unmanage reqId).exec s).2 = if s.Refused then s.answered
      else ((unsubscribeCommands serverResponseTopic).exec s.answered).2 := by
  by_cases h : s.Refused
  · simp only [unmanage, Proc.exec_bind, exec_sendMessage, h, if_true]
  · simp only [unmanage, Proc.exec_bind, exec_sendMessage, h, if_false]
    cases hexec : (unsubscribeCommands serverResponseTopic).exec s.answered with
    | mk outcome t => cases outcome <;> rfl

theorem exec_subscribeCommandHandler [DecidableEq η] (topic : StdString) (handler : η)
    (s : Registry η) :
    (subscribeCommandHandler topic handler).exec s =
      if (topic, handler) ∈ s.mHandlers then (.ok true, s)
      else if s.Refused then (.error .mqtt, s.answered)
      else (.ok true, { s.answered with
        broker := insert topic s.broker
        mSubscriptions := s.mSubscriptions ++ [topic]
        mHandlers := s.mHandlers ++ [(topic, handler)]
        mClient := Function.update s.mClient handler true }) := by
  rw [subscribeCommandHandler, Proc.exec_bind_ok (Proc.exec_get s)]
  by_cases hmem : (topic, handler) ∈ s.mHandlers
  · rw [if_pos hmem, if_pos hmem]
    rfl
  · rw [if_neg hmem, if_neg hmem]
    by_cases h : s.Refused <;> simp only [Proc.exec_bind, exec_asyncSubscribe, h] <;> rfl

section

variable [DecidableEq η] [CxxDouble D] {I : Registry η → Prop}

omit [CxxDouble D] in
theorem keeps_subscribeAll {pairs : List (StdString × η)}
    (hsubscribe : ∀ pair ∈ pairs, Proc.Keeps I (subscribeCommandHandler pair.1 pair.2)) :
    Proc.Keeps I (subscribeAll pairs) := by
  induction pairs with
  | nil => exact .pure _
  | cons pair pairs ih =>
      obtain ⟨hpair, hpairs⟩ := List.forall_mem_cons.mp hsubscribe
      exact .bind hpair fun _ => ih hpairs

/-- What the registrations of `manage` and its message preserve, the call preserves. -/
theorem keeps_manage {hs : Handlers η} {reqId : StdString} {res : Value D}
    (hresponse : Proc.Keeps I (subscribeCommandHandler serverResponseTopic hs.mResponseHandler))
    (hmanaged : ∀ pair ∈ hs.managed, Proc.Keeps I (subscribeCommandHandler pair.1 pair.2))
    (hsend : ∀ reqId, Proc.Keeps I (sendMessage reqId)) :
    Proc.Keeps I (manage hs reqId res) := by
  rw [manage]
  apply Proc.Keeps.bind hresponse
  intro subscribed
  apply Proc.Keeps.ite
  · intro _
    apply Proc.Keeps.bind (hsend _)
    intro reqId
    apply Proc.Keeps.ite
    · intro _
      exact .pure _
    · intro _
      refine Proc.Keeps.bind (.ofExcept _ _) ?_
      intro rc
      apply Proc.Keeps.ite
      · intro _
        exact .bind (keeps_subscribeAll hmanaged) fun _ => .pure _
      · intro _
        exact .pure _
  · intro _
    exact .pure _

end

/-! ### Client and broker agree -/

/-- The local containers say what the broker has. -/
structure Agrees (s : Registry η) : Prop where
  subscriptions : ∀ topic, topic ∈ s.mSubscriptions ↔ topic ∈ s.broker
  handlers : ∀ pair ∈ s.mHandlers, pair.1 ∈ s.broker

theorem agrees_fresh : Agrees (Registry.fresh : Registry η) :=
  ⟨by simp [Registry.fresh], by simp [Registry.fresh]⟩

@[simp] theorem agrees_answered {s : Registry η} : Agrees s.answered ↔ Agrees s :=
  ⟨fun h => ⟨h.1, h.2⟩, fun h => ⟨h.1, h.2⟩⟩

theorem Agrees.keeps_subscribeTopic (topic : StdString) :
    Proc.Keeps Agrees (subscribeTopic (η := η) topic) := by
  intro s hs
  rw [exec_subscribeTopic]
  split_ifs with hmem hrefused
  · exact hs
  · exact agrees_answered.mpr hs
  · constructor
    · intro topic'
      simp [hs.subscriptions, or_comm]
    · intro pair hpair
      exact Finset.mem_insert_of_mem (hs.handlers pair hpair)

theorem Agrees.keeps_sendMessage (reqId : StdString) :
    Proc.Keeps Agrees (sendMessage (η := η) reqId) := by
  intro s hs
  rw [exec_sendMessage]
  split <;> exact agrees_answered.mpr hs

variable [DecidableEq η] [CxxDouble D]

theorem Agrees.keeps_subscribeCommandHandler (topic : StdString) (handler : η) :
    Proc.Keeps Agrees (subscribeCommandHandler topic handler) := by
  intro s hs
  rw [exec_subscribeCommandHandler]
  split_ifs with hmem hrefused
  · exact hs
  · exact agrees_answered.mpr hs
  · constructor
    · intro topic'
      simp [hs.subscriptions, or_comm]
    · intro pair hpair
      obtain hpair | hpair := List.mem_append.mp hpair
      · exact Finset.mem_insert_of_mem (hs.handlers pair hpair)
      · obtain rfl := List.mem_singleton.mp hpair
        exact Finset.mem_insert_self _ _

theorem Agrees.keeps_manage (hs : Handlers η) (reqId : StdString) (res : Value D) :
    Proc.Keeps Agrees (manage hs reqId res) :=
  Subscription.keeps_manage (keeps_subscribeCommandHandler _ _)
    (fun _ _ => keeps_subscribeCommandHandler _ _) keeps_sendMessage

/-- An unsubscription that finds the topic subscribed finds it once, and with no
handler left for it. -/
def Removable (s : Registry η) (topic : StdString) : Prop :=
  topic ∈ s.mSubscriptions →
    s.mSubscriptions.count topic = 1 ∧ ∀ pair ∈ s.mHandlers, pair.1 ≠ topic

omit [DecidableEq η] in
/-- The agreement is kept if the last occurrence of the topic is taken out. -/
theorem Agrees.erase_iff {s : Registry η} (hs : Agrees s) {topic : StdString}
    (hmem : topic ∈ s.mSubscriptions) :
    Agrees { s.answered with
      broker := s.broker.erase topic
      mSubscriptions := s.mSubscriptions.erase topic } ↔ Removable s topic := by
  have hpos : 0 < s.mSubscriptions.count topic := List.count_pos_iff.mpr hmem
  have hcount : topic ∈ s.mSubscriptions.erase topic ↔ s.mSubscriptions.count topic ≠ 1 := by
    rw [← List.count_pos_iff, List.count_erase_self]
    omega
  constructor
  · intro h _
    have hself := h.subscriptions topic
    simp only [hcount, Finset.notMem_erase, iff_false, not_not] at hself
    exact ⟨hself, fun pair hpair => (Finset.mem_erase.mp (h.handlers pair hpair)).1⟩
  · intro h
    obtain ⟨hone, hnone⟩ := h hmem
    constructor
    · intro topic'
      obtain rfl | hne := eq_or_ne topic' topic
      · simp [hcount, hone]
      · simp [List.mem_erase_of_ne hne, Finset.mem_erase, hne, hs.subscriptions]
    · intro pair hpair
      exact Finset.mem_erase.mpr ⟨hnone pair hpair, hs.handlers pair hpair⟩

omit [DecidableEq η] in
theorem Agrees.unsubscribe_iff {s : Registry η} (hs : Agrees s) (topic : StdString) :
    Agrees ((unsubscribeCommands topic).exec s).2 ↔ ¬ s.Refused → Removable s topic := by
  rw [exec_unsubscribeCommands]
  split_ifs with hmem hrefused
  · simp [hs, hrefused]
  · simp [hs.erase_iff hmem, hrefused]
  · simp [hs, Removable, hmem]

/-- Every unsubscription of the step that the broker grants is of a removable topic. -/
def CleanUnsubscribe (s : Registry η) : List Bool × Call η D → Prop
  | (script, .unsubscribeCommands topic) => script.head? ≠ some false → Removable s topic
  | (script, .unmanage _) => script.head? ≠ some false → script.tail.head? ≠ some false →
      Removable s serverResponseTopic
  | _ => True

/-- The step lemma: only an unsubscription can break the agreement. -/
theorem Agrees.step_iff {hs : Handlers η} {s u : Registry η} {a : List Bool × Call η D}
    (h : Agrees s) (hstep : (machine hs).step s a = some u) : Agrees u ↔ CleanUnsubscribe s a := by
  obtain ⟨script, call⟩ := a
  cases hstep
  have hscript : Agrees { s with script } := ⟨h.subscriptions, h.handlers⟩
  cases call with
  | subscribeTopic topic => exact iff_of_true (keeps_subscribeTopic topic _ hscript) trivial
  | subscribeCommandHandler topic handler =>
      exact iff_of_true (keeps_subscribeCommandHandler topic handler _ hscript) trivial
  | manage reqId res => exact iff_of_true (keeps_manage hs reqId res _ hscript) trivial
  | unsubscribeCommands topic => exact hscript.unsubscribe_iff topic
  | unmanage reqId =>
      change Agrees ((unmanage reqId).exec { s with script }).2 ↔ _
      rw [exec_unmanage]
      split_ifs with hrefused
      · apply iff_of_true (agrees_answered.mpr hscript)
        intro hne
        exact absurd hrefused hne
      · rw [(agrees_answered.mpr hscript).unsubscribe_iff]
        exact ⟨fun hr _ => hr, fun hr => hr hrefused⟩

/-- From a fresh connection, client and broker agree in every state of a run exactly
if along the run the broker grants no unsubscription of a topic that is subscribed
twice or has a handler left. -/
theorem agrees_iff {hs : Handlers η} {acts : List (List Bool × Call η D)} {s : Registry η}
    (hr : (machine hs).Run .fresh acts s) :
    (∀ front u, front <+: acts → (machine hs).Run .fresh front u → Agrees u) ↔
      (machine hs).Along CleanUnsubscribe .fresh acts := by
  apply hr.forall_prefix_iff (I := fun _ => True) (P := Agrees)
  · exact fun _ _ _ _ _ => trivial
  · intro s a u _ h hstep
    exact h.step_iff hstep
  · trivial
  · exact agrees_fresh

/-- The handlers of a client that registers none of its own. -/
def noHandlers : Handlers Nat := ⟨0, none, none, none⟩

/-- A topic is subscribed without a handler and unsubscribed again. -/
theorem agrees_subscribe_unsubscribe :
    let acts : List (List Bool × Call Nat Int) :=
      [([], .subscribeTopic "iot-2/cmd/+/fmt/+".toList),
        ([], .unsubscribeCommands "iot-2/cmd/+/fmt/+".toList)]
    ∃ s, (machine noHandlers).Run .fresh acts s ∧
      ((∀ front u, front <+: acts → (machine noHandlers).Run .fresh front u → Agrees u) ↔
        (machine noHandlers).Along CleanUnsubscribe .fresh acts) := by
  intro acts
  have hr : (machine noHandlers).Run .fresh acts _ := Machine.Run.exec_iff.mp rfl
  exact ⟨_, hr, agrees_iff hr⟩

/-- After `manage` and `unmanage` the response handler is still registered, but the
broker has no subscription for its topic. -/
theorem agrees_fails : ¬ ∀ (hs : Handlers Nat) (acts : List (List Bool × Call Nat Int))
    (s : Registry Nat), (machine hs).Run .fresh acts s → Agrees s := by
  intro h
  have hexec : ∃ s, (machine noHandlers).exec .fresh
      [([], .manage "101".toList (.objectValue [("rc".toList, .intValue 200)])),
        ([], (.unmanage "102".toList : Call Nat Int))] = some s ∧
      s.mHandlers = [(serverResponseTopic, 0)] ∧ s.broker = ∅ :=
    ⟨_, rfl, rfl, rfl⟩
  obtain ⟨s, hexec, hhandlers, hbroker⟩ := hexec
  have hmem := (h noHandlers _ s (Machine.Run.exec_iff.mp hexec)).handlers
    (serverResponseTopic, 0) (by simp [hhandlers])
  simp [hbroker] at hmem

end Subscription
