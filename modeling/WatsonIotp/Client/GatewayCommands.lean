import WatsonIotp.Client.Connection

/-!
# Command subscriptions of a gateway

A gateway subscribes its own commands when it connects, and the commands of the devices
behind it on request. It remembers two topics: that of its own commands in
`gatewayCMDTopic`, and in `deviceCMDTopic` that of the device asked for last. `disconnect`
unsubscribes these two. `dropped_iff` says for which sequences of calls this is everything
that has been subscribed.
-/

open Subscription

variable {η : Type}

/-- An `IOTP_GatewayClient`, with its subscriptions and the broker's. -/
structure GatewayClient (η : Type) where
  mProperties : Properties
  gatewayCMDTopic : StdString
  deviceCMDTopic : StdString
  registry : Registry η
  /-- What the broker had subscribed when the client disconnected, once it has. -/
  atDisconnect : Option (Finset StdString)

namespace GatewayClient

/-- The topic of the commands to a device. -/
def deviceTopic (deviceType deviceId : StdString) : StdString :=
  "iot-2/type/".toList ++ deviceType ++ "/id/".toList ++ deviceId ++ "/cmd/+/fmt/+".toList

theorem deviceTopic_ne_nil (deviceType deviceId : StdString) :
    deviceTopic deviceType deviceId ≠ [] :=
  List.append_ne_nil_of_right_ne_nil _ (by decide)

/-- A call of the base class that concerns the subscriptions only. -/
def onRegistry {α : Type} (x : Proc (Registry η) Fault α) : Proc (GatewayClient η) Fault α :=
  Proc.zoom registry (fun r s => { s with registry := r }) x

def subscribeGatewayCommands : Proc (GatewayClient η) Fault Bool := do
  modify fun s => { s with gatewayCMDTopic := Gateway.commandTopic s.mProperties }
  let s ← get
  onRegistry (subscribeTopic s.gatewayCMDTopic)

def subscribeDeviceCommands (deviceType deviceId : StdString) :
    Proc (GatewayClient η) Fault Bool := do
  modify fun s => { s with deviceCMDTopic := deviceTopic deviceType deviceId }
  let s ← get
  onRegistry (subscribeTopic s.deviceCMDTopic)

/-- `IOTP_Client::disconnect()`. -/
def clientDisconnect : Proc (GatewayClient η) Fault Unit := do
  onRegistry request
  modify fun s => { s with atDisconnect := some s.registry.broker }

/-- Unsubscribe one of the topics remembered, if there is one. -/
def unsubscribeRemembered (topic : StdString) : Proc (GatewayClient η) Fault Unit :=
  if topic.length > 0 then do
    let _ ← onRegistry (unsubscribeCommands topic)
  else pure ()

/-- `IOTP_GatewayClient::disconnect()`. -/
def disconnect : Proc (GatewayClient η) Fault Unit := do
  let s ← get
  unsubscribeRemembered s.gatewayCMDTopic
  let s ← get
  unsubscribeRemembered s.deviceCMDTopic
  clientDisconnect

/-- A call that subscribes commands. -/
inductive Call where
  | subscribeGatewayCommands
  | subscribeDeviceCommands (deviceType deviceId : StdString)

def Call.run : Call → Proc (GatewayClient η) Fault Bool
  | .subscribeGatewayCommands => GatewayClient.subscribeGatewayCommands
  | .subscribeDeviceCommands deviceType deviceId =>
      GatewayClient.subscribeDeviceCommands deviceType deviceId

/-- Calls of the application, one after the other. -/
def machine : Machine (GatewayClient η) Call where
  step s call := some (call.run.exec s).2

/-- The topics of the devices that the calls name, in their order. -/
def deviceTopics : List Call → List StdString
  | [] => []
  | .subscribeGatewayCommands :: calls => deviceTopics calls
  | .subscribeDeviceCommands deviceType deviceId :: calls =>
      deviceTopic deviceType deviceId :: deviceTopics calls

theorem deviceTopics_append (calls calls' : List Call) :
    deviceTopics (calls ++ calls') = deviceTopics calls ++ deviceTopics calls' := by
  induction calls with
  | nil => rfl
  | cons call calls ih =>
      cases call with
      | subscribeGatewayCommands => exact ih
      | subscribeDeviceCommands deviceType deviceId => exact congrArg (_ :: ·) ih

theorem exists_of_mem_deviceTopics {calls : List Call} {topic : StdString}
    (h : topic ∈ deviceTopics calls) :
    ∃ deviceType deviceId, topic = deviceTopic deviceType deviceId := by
  induction calls with
  | nil => exact absurd h List.not_mem_nil
  | cons call calls ih =>
      cases call with
      | subscribeGatewayCommands => exact ih h
      | subscribeDeviceCommands deviceType deviceId =>
          obtain rfl | h := List.mem_cons.mp h
          · exact ⟨deviceType, deviceId, rfl⟩
          · exact ih h

/-! ### Subscriptions that the broker grants -/

/-- After a subscription of the topic. -/
def subscribed (r : Registry η) (topic : StdString) : Registry η :=
  if r.mSubscriptions.contains topic then r
  else { r.answered with
    broker := insert topic r.broker
    mSubscriptions := r.mSubscriptions ++ [topic] }

/-- After an unsubscription of the topic. -/
def unsubscribed (r : Registry η) (topic : StdString) : Registry η :=
  if r.mSubscriptions.contains topic then
    { r.answered with
      broker := r.broker.erase topic
      mSubscriptions := r.mSubscriptions.erase topic }
  else r

section

variable {r : Registry η} {topic x : StdString}

theorem subscribed_eq : subscribed r topic =
    if topic ∈ r.mSubscriptions then r
    else { r.answered with
      broker := insert topic r.broker
      mSubscriptions := r.mSubscriptions ++ [topic] } :=
  if_congr List.contains_iff_mem rfl rfl

theorem unsubscribed_eq : unsubscribed r topic =
    if topic ∈ r.mSubscriptions then
      { r.answered with
        broker := r.broker.erase topic
        mSubscriptions := r.mSubscriptions.erase topic }
    else r :=
  if_congr List.contains_iff_mem rfl rfl

theorem not_refused (h : r.script = []) : ¬ r.Refused := by
  rw [Registry.Refused, h]
  decide

theorem exec_subscribeTopic_of_granted (h : r.script = []) :
    (subscribeTopic topic).exec r = (.ok true, subscribed r topic) := by
  rw [exec_subscribeTopic, if_neg (not_refused h), subscribed_eq]
  split <;> rfl

theorem exec_unsubscribeCommands_of_granted (h : r.script = []) :
    (unsubscribeCommands topic).exec r =
      (.ok (topic ∈ r.mSubscriptions : Bool), unsubscribed r topic) := by
  rw [exec_unsubscribeCommands, if_neg (not_refused h), unsubscribed_eq]
  by_cases hmem : topic ∈ r.mSubscriptions <;> simp only [hmem, if_true, if_false] <;> rfl

theorem mem_subscribed :
    x ∈ (subscribed r topic).mSubscriptions ↔ x ∈ r.mSubscriptions ∨ x = topic := by
  rw [subscribed_eq]
  split_ifs with hmem
  · exact ⟨.inl, fun h => h.elim id fun heq => heq ▸ hmem⟩
  · exact List.mem_append.trans (or_congr_right List.mem_singleton)

theorem count_subscribed_le (h : r.mSubscriptions.count x ≤ 1) :
    (subscribed r topic).mSubscriptions.count x ≤ 1 := by
  rw [subscribed_eq]
  split_ifs with hmem
  · exact h
  · change (r.mSubscriptions ++ [topic]).count x ≤ 1
    rw [List.count_append]
    obtain rfl | hne := eq_or_ne x topic
    · rw [List.count_eq_zero_of_not_mem hmem, List.count_singleton_self]
    · rw [List.count_singleton, if_neg (by simpa using hne.symm)]
      exact h

theorem script_subscribed (h : r.script = []) : (subscribed r topic).script = [] := by
  rw [subscribed_eq]
  split
  · exact h
  · exact congrArg List.tail h

theorem script_unsubscribed (h : r.script = []) : (unsubscribed r topic).script = [] := by
  rw [unsubscribed_eq]
  split
  · exact congrArg List.tail h
  · exact h

theorem mSubscriptions_unsubscribed :
    (unsubscribed r topic).mSubscriptions = r.mSubscriptions.erase topic := by
  rw [unsubscribed_eq]
  split_ifs with hmem
  · rfl
  · exact (List.erase_of_not_mem hmem).symm

/-- A topic that is subscribed once is gone after an unsubscription of it, and after
no other. -/
theorem mem_unsubscribed (h : r.mSubscriptions.count x ≤ 1) :
    x ∈ (unsubscribed r topic).mSubscriptions ↔ x ∈ r.mSubscriptions ∧ x ≠ topic := by
  rw [mSubscriptions_unsubscribed]
  obtain rfl | hne := eq_or_ne x topic
  · have hcount : (r.mSubscriptions.erase x).count x = 0 := by
      rw [List.count_erase_self]
      omega
    exact iff_of_false (List.count_eq_zero.mp hcount) fun h => h.2 rfl
  · exact (List.mem_erase_of_ne hne).trans (and_iff_left hne).symm

theorem count_unsubscribed_le (h : r.mSubscriptions.count x ≤ 1) :
    (unsubscribed r topic).mSubscriptions.count x ≤ 1 := by
  rw [mSubscriptions_unsubscribed]
  exact (List.erase_sublist.count_le x).trans h

theorem notMem_broker_unsubscribed (h : x ∉ r.broker) : x ∉ (unsubscribed r topic).broker := by
  rw [unsubscribed_eq]
  split
  · exact fun hmem => h (Finset.mem_of_mem_erase hmem)
  · exact h

theorem notMem_broker_unsubscribed_self (h : topic ∈ r.mSubscriptions) :
    topic ∉ (unsubscribed r topic).broker := by
  rw [unsubscribed_eq, if_pos h]
  exact Finset.notMem_erase _ _

end

/-! ### A connected gateway and its calls -/

/-- A gateway that has connected and subscribed its own commands, and no others so far.
It may have other subscriptions, and it may remember a device of an earlier connection. -/
structure Connected (s : GatewayClient η) : Prop where
  gateway : s.gatewayCMDTopic = Gateway.commandTopic s.mProperties
  own : s.registry.mSubscriptions.count (Gateway.commandTopic s.mProperties) = 1
  only : ∀ deviceType deviceId, deviceTopic deviceType deviceId ∈ s.registry.mSubscriptions →
    deviceTopic deviceType deviceId = Gateway.commandTopic s.mProperties
  /-- The broker grants what it is asked. -/
  granted : s.registry.script = []

/-- What a call remembers and subscribes. -/
def Call.after (s : GatewayClient η) : Call → GatewayClient η
  | .subscribeGatewayCommands => { s with
      gatewayCMDTopic := Gateway.commandTopic s.mProperties
      registry := subscribed s.registry (Gateway.commandTopic s.mProperties) }
  | .subscribeDeviceCommands deviceType deviceId => { s with
      deviceCMDTopic := deviceTopic deviceType deviceId
      registry := subscribed s.registry (deviceTopic deviceType deviceId) }

theorem exec_run {s : GatewayClient η} (h : s.registry.script = []) (call : Call) :
    call.run.exec s = (.ok true, call.after s) := by
  have hzoom : ∀ {t : GatewayClient η} {topic : StdString}, t.registry.script = [] →
      (onRegistry (subscribeTopic topic)).exec t =
        (.ok true, { t with registry := subscribed t.registry topic }) := by
    intro t topic ht
    rw [onRegistry, Proc.exec_zoom, exec_subscribeTopic_of_granted ht]
  cases call with
  | subscribeGatewayCommands =>
      exact hzoom (t := { s with gatewayCMDTopic := Gateway.commandTopic s.mProperties }) h
  | subscribeDeviceCommands deviceType deviceId =>
      exact hzoom (t := { s with deviceCMDTopic := deviceTopic deviceType deviceId }) h

/-- The state that `connect` leaves: the callback is new, and the commands of the gateway
are subscribed. -/
theorem connected_subscribeGatewayCommands {s : GatewayClient η}
    (hnew : s.registry.mSubscriptions = []) (hgranted : s.registry.script = []) :
    Connected (subscribeGatewayCommands.exec s).2 := by
  have hexec := exec_run hgranted .subscribeGatewayCommands
  have hsubscribed : (subscribed s.registry (Gateway.commandTopic s.mProperties)).mSubscriptions =
      [Gateway.commandTopic s.mProperties] := by
    rw [subscribed_eq, hnew, if_neg List.not_mem_nil]
    rfl
  rw [show subscribeGatewayCommands.exec s = _ from hexec]
  constructor
  · rfl
  · change List.count _ (subscribed _ _).mSubscriptions = 1
    rw [hsubscribed]
    exact List.count_singleton_self
  · intro deviceType deviceId hmem
    change _ ∈ (subscribed _ _).mSubscriptions at hmem
    rw [hsubscribed] at hmem
    exact List.mem_singleton.mp hmem
  · exact script_subscribed hgranted

/-- What is known of a gateway after calls that began in `s`. -/
structure Follows (s : GatewayClient η) (calls : List Call) (t : GatewayClient η) : Prop where
  properties : t.mProperties = s.mProperties
  gateway : t.gatewayCMDTopic = Gateway.commandTopic s.mProperties
  device : t.deviceCMDTopic = (deviceTopics calls).getLast?.getD s.deviceCMDTopic
  once : ∀ deviceType deviceId,
    t.registry.mSubscriptions.count (deviceTopic deviceType deviceId) ≤ 1
  mem : ∀ deviceType deviceId, deviceTopic deviceType deviceId ∈ t.registry.mSubscriptions ↔
    deviceTopic deviceType deviceId ∈ Gateway.commandTopic s.mProperties :: deviceTopics calls
  granted : t.registry.script = []

theorem Connected.follows {s : GatewayClient η} (hs : Connected s) : Follows s [] s where
  properties := rfl
  gateway := hs.gateway
  device := rfl
  once := by
    intro deviceType deviceId
    by_cases hmem : deviceTopic deviceType deviceId ∈ s.registry.mSubscriptions
    · rw [hs.only _ _ hmem]
      exact hs.own.le
    · rw [List.count_eq_zero_of_not_mem hmem]
      exact Nat.zero_le 1
  mem := by
    intro deviceType deviceId
    refine ⟨fun hmem => List.mem_singleton.mpr (hs.only _ _ hmem), fun hmem => ?_⟩
    rw [List.mem_singleton.mp hmem]
    exact List.count_pos_iff.mp (hs.own ▸ Nat.one_pos)
  granted := hs.granted

/-- The step lemma: a call remembers its topic and subscribes it, once. -/
theorem Follows.step {s t u : GatewayClient η} {calls : List Call} {call : Call}
    (h : Follows s calls t) (hstep : machine.step t call = some u) :
    Follows s (calls ++ [call]) u := by
  have hu : u = call.after t := by
    change some (call.run.exec t).2 = some u at hstep
    rw [exec_run h.granted] at hstep
    exact (Option.some.inj hstep).symm
  obtain rfl := hu
  cases call with
  | subscribeGatewayCommands =>
      have htopics : deviceTopics (calls ++ [.subscribeGatewayCommands]) = deviceTopics calls := by
        rw [deviceTopics_append]
        exact List.append_nil _
      constructor
      · exact h.properties
      · exact congrArg Gateway.commandTopic h.properties
      · rw [htopics]
        exact h.device
      · exact fun deviceType deviceId => count_subscribed_le (h.once deviceType deviceId)
      · intro deviceType deviceId
        refine mem_subscribed.trans ?_
        rw [h.mem, htopics, h.properties, or_iff_left_of_imp]
        intro heq
        exact heq ▸ List.mem_cons_self
      · exact script_subscribed h.granted
  | subscribeDeviceCommands deviceType deviceId =>
      have htopics : deviceTopics (calls ++ [.subscribeDeviceCommands deviceType deviceId]) =
          deviceTopics calls ++ [deviceTopic deviceType deviceId] :=
        deviceTopics_append _ _
      constructor
      · exact h.properties
      · exact h.gateway
      · rw [htopics, List.getLast?_concat]
        rfl
      · exact fun deviceType deviceId => count_subscribed_le (h.once deviceType deviceId)
      · intro deviceType' deviceId'
        refine mem_subscribed.trans ?_
        rw [h.mem, htopics, ← List.cons_append, List.mem_append, List.mem_singleton]
      · exact script_subscribed h.granted

/-- The run lemma. -/
theorem Follows.run {s t : GatewayClient η} {calls : List Call} (hs : Connected s)
    (hr : machine.Run s calls t) : Follows s calls t :=
  hr.schedule_invariant (I := fun t past => Follows s past t)
    (fun _ _ _ _ h hstep => h.step hstep) hs.follows

/-! ### Disconnecting -/

/-- The subscriptions after one of the topics remembered has been unsubscribed. -/
def forgotten (r : Registry η) (topic : StdString) : Registry η :=
  if topic.length > 0 then unsubscribed r topic else r

theorem exec_unsubscribeRemembered {s : GatewayClient η} (h : s.registry.script = [])
    (topic : StdString) : (unsubscribeRemembered topic).exec s =
      (.ok ⟨⟩, { s with registry := forgotten s.registry topic }) := by
  rw [unsubscribeRemembered, forgotten]
  split
  · rw [Proc.exec_bind, onRegistry, Proc.exec_zoom, exec_unsubscribeCommands_of_granted h]
    rfl
  · rfl

theorem script_forgotten {r : Registry η} {topic : StdString} (h : r.script = []) :
    (forgotten r topic).script = [] := by
  rw [forgotten]
  split
  · exact script_unsubscribed h
  · exact h

/-- The subscriptions when the base class disconnects. -/
def remaining (s : GatewayClient η) : Registry η :=
  forgotten (forgotten s.registry s.gatewayCMDTopic) s.deviceCMDTopic

theorem exec_disconnect {s : GatewayClient η} (h : s.registry.script = []) :
    disconnect.exec s = (.ok ⟨⟩, { s with
      registry := (remaining s).answered
      atDisconnect := some (remaining s).broker }) := by
  have hgranted : (forgotten s.registry s.gatewayCMDTopic).script = [] := script_forgotten h
  have hremaining : (remaining s).script = [] := script_forgotten hgranted
  rw [disconnect, Proc.exec_bind_ok (Proc.exec_get s),
    Proc.exec_bind_ok (exec_unsubscribeRemembered h _), Proc.exec_bind_ok (Proc.exec_get _),
    Proc.exec_bind_ok (exec_unsubscribeRemembered hgranted _)]
  change clientDisconnect.exec { s with registry := remaining s } = _
  rw [clientDisconnect, Proc.exec_bind, onRegistry, Proc.exec_zoom, exec_request,
    if_neg (not_refused hremaining)]
  rfl

/-- The topic had been unsubscribed when the client disconnected, and is forgotten. -/
structure Dropped (topic : StdString) (s : GatewayClient η) : Prop where
  unsubscribed : ∃ broker, s.atDisconnect = some broker ∧ topic ∉ broker
  forgotten : topic ∉ s.registry.mSubscriptions

/-- A command topic is forgotten by one of the two unsubscriptions if it is the topic
of that one. -/
theorem mem_forgotten {r : Registry η} {topic deviceType deviceId : StdString}
    (h : r.mSubscriptions.count (deviceTopic deviceType deviceId) ≤ 1) :
    deviceTopic deviceType deviceId ∈ (forgotten r topic).mSubscriptions ↔
      deviceTopic deviceType deviceId ∈ r.mSubscriptions ∧
        deviceTopic deviceType deviceId ≠ topic := by
  rw [forgotten]
  split_ifs with hlength
  · exact mem_unsubscribed h
  · obtain rfl : topic = [] := List.eq_nil_of_length_eq_zero (by omega)
    exact (and_iff_left (deviceTopic_ne_nil _ _)).symm

theorem count_forgotten_le {r : Registry η} {topic x : StdString}
    (h : r.mSubscriptions.count x ≤ 1) : (forgotten r topic).mSubscriptions.count x ≤ 1 := by
  rw [forgotten]
  split
  · exact count_unsubscribed_le h
  · exact h

theorem notMem_broker_forgotten {r : Registry η} {topic x : StdString} (h : x ∉ r.broker) :
    x ∉ (forgotten r topic).broker := by
  rw [forgotten]
  split
  · exact notMem_broker_unsubscribed h
  · exact h

theorem notMem_broker_forgotten_self {r : Registry η} {deviceType deviceId : StdString}
    (h : deviceTopic deviceType deviceId ∈ r.mSubscriptions) :
    deviceTopic deviceType deviceId ∉ (forgotten r (deviceTopic deviceType deviceId)).broker := by
  rw [forgotten, if_pos (List.length_pos_of_ne_nil (deviceTopic_ne_nil _ _))]
  exact notMem_broker_unsubscribed_self h

/-- Of the subscribed commands, `disconnect` drops those of the two topics remembered. -/
theorem Follows.dropped_topic_iff {s t : GatewayClient η} {calls : List Call}
    (h : Follows s calls t) {deviceType deviceId : StdString}
    (hmem : deviceTopic deviceType deviceId ∈ t.registry.mSubscriptions) :
    Dropped (deviceTopic deviceType deviceId) (disconnect.exec t).2 ↔
      deviceTopic deviceType deviceId = t.gatewayCMDTopic ∨
        deviceTopic deviceType deviceId = t.deviceCMDTopic := by
  have honce := h.once deviceType deviceId
  have hfirst : deviceTopic deviceType deviceId ∈
      (forgotten t.registry t.gatewayCMDTopic).mSubscriptions ↔ _ := mem_forgotten honce
  have hsecond : deviceTopic deviceType deviceId ∈ (remaining t).mSubscriptions ↔ _ :=
    mem_forgotten (count_forgotten_le honce)
  rw [exec_disconnect h.granted]
  constructor
  · intro hdropped
    by_contra hnone
    obtain ⟨hgateway, hdevice⟩ := not_or.mp hnone
    exact hdropped.forgotten (hsecond.mpr ⟨hfirst.mpr ⟨hmem, hgateway⟩, hdevice⟩)
  · intro hone
    constructor
    · refine ⟨_, rfl, ?_⟩
      by_cases hgateway : deviceTopic deviceType deviceId = t.gatewayCMDTopic
      · apply notMem_broker_forgotten
        rw [← hgateway]
        exact notMem_broker_forgotten_self hmem
      · have hdevice := hone.resolve_left hgateway
        change _ ∉ (forgotten (forgotten t.registry t.gatewayCMDTopic) t.deviceCMDTopic).broker
        rw [← hdevice]
        exact notMem_broker_forgotten_self (hfirst.mpr ⟨hmem, hgateway⟩)
    · intro hleft
      obtain ⟨hleft, hdevice⟩ := hsecond.mp hleft
      exact hone.elim (hfirst.mp hleft).2 hdevice

/-- The calls name no device but one, the gateway itself apart. -/
def OneDevice (p : Properties) (calls : List Call) : Prop :=
  ∀ topic ∈ deviceTopics calls,
    topic = Gateway.commandTopic p ∨ (deviceTopics calls).getLast? = some topic

/-- `disconnect` drops all the commands that have been subscribed exactly if those of one
device at most have been, besides the gateway's own. -/
theorem dropped_iff {s t : GatewayClient η} {calls : List Call} (hs : Connected s)
    (hr : machine.Run s calls t) :
    (∀ topic ∈ Gateway.commandTopic s.mProperties :: deviceTopics calls,
      Dropped topic (disconnect.exec t).2) ↔ OneDevice s.mProperties calls := by
  have h := Follows.run hs hr
  have hown : Dropped (Gateway.commandTopic s.mProperties) (disconnect.exec t).2 :=
    (h.dropped_topic_iff ((h.mem _ _).mpr List.mem_cons_self)).mpr (.inl h.gateway.symm)
  rw [List.forall_mem_cons, and_iff_right hown]
  refine forall₂_congr fun topic htopic => ?_
  obtain ⟨deviceType, deviceId, rfl⟩ := exists_of_mem_deviceTopics htopic
  rw [h.dropped_topic_iff ((h.mem _ _).mpr (List.mem_cons_of_mem _ htopic)), h.gateway, h.device]
  obtain ⟨last, hlast⟩ : ∃ last, (deviceTopics calls).getLast? = some last :=
    Option.ne_none_iff_exists'.mp fun hnone =>
      List.ne_nil_of_mem htopic (List.getLast?_eq_none_iff.mp hnone)
  rw [hlast, Option.getD_some, Option.some_inj, eq_comm (a := last)]

/-- The gateway of a test, connected. -/
def testGateway : GatewayClient Nat :=
  (subscribeGatewayCommands.exec ⟨Kind.testProperties Properties.token, [], [], .fresh, none⟩).2

theorem connected_testGateway : Connected testGateway :=
  connected_subscribeGatewayCommands rfl rfl

/-- One device, asked for twice. -/
theorem dropped_attached :
    let calls := [Call.subscribeDeviceCommands "attached".toList "testGatewayPublish".toList,
      .subscribeDeviceCommands "attached".toList "testGatewayPublish".toList]
    ∃ t, machine.Run testGateway calls t ∧
      ((∀ topic ∈ Gateway.commandTopic testGateway.mProperties :: deviceTopics calls,
        Dropped topic (disconnect.exec t).2) ↔ OneDevice testGateway.mProperties calls) := by
  intro calls
  have hr : machine.Run testGateway calls _ := Machine.Run.exec_iff.mp rfl
  exact ⟨_, hr, dropped_iff connected_testGateway hr⟩

/-- Of two devices, the first stays subscribed. -/
theorem dropped_fails : ¬ ∀ (s t : GatewayClient Nat) (calls : List Call), Connected s →
    machine.Run s calls t →
      ∀ topic ∈ Gateway.commandTopic s.mProperties :: deviceTopics calls,
        Dropped topic (disconnect.exec t).2 := by
  intro h
  have hr : machine.Run testGateway [.subscribeDeviceCommands "raspi".toList "pi1".toList,
      .subscribeDeviceCommands "raspi".toList "pi2".toList] _ := Machine.Run.exec_iff.mp rfl
  have hdropped := h _ _ _ connected_testGateway hr (deviceTopic "raspi".toList "pi1".toList)
    (by decide)
  exact hdropped.forgotten (by decide)

end GatewayClient
