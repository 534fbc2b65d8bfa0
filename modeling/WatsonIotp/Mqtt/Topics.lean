import WatsonIotp.Client.Dispatch
import WatsonIotp.Mqtt.Inbound

/-!
# The topics that messages come with

The library tells the callback of the application how long a topic is, with 0 for one that ends
where its NUL is. It does so only for messages out of the queue, and the callback takes the
length for what it is: those messages come with an empty topic.
-/

namespace MQTTPacket

/-- `std::string topic(topicName, topicName+topicLen)` in `async_client::on_message_arrived`. -/
def Call.topic (call : Call) : Bytes :=
  call.qe.topicName.take call.topicLen

namespace Inbound

/-- A message comes while the client is connected only, and the application takes it. -/
def Prompt (client : Inbound) : InAction → Prop
  | .receive _ answer => client.connected = true ∧ answer = true
  | _ => True

/-- Nothing waits, and every message has come with its topic. -/
structure Told (client : Inbound) : Prop where
  ma : client.ma = true
  messageQueue : client.messageQueue = []
  topics : ∀ call ∈ client.calls, call.topic = call.qe.topicName

section Topics

variable {cleansession ma : Bool} {client client' : Inbound} {acts : List InAction}

theorem Told.congr (h : client.Told) (hma : client'.ma = client.ma)
    (hqueue : client'.messageQueue = client.messageQueue) (hcalls : client'.calls = client.calls) :
    client'.Told :=
  ⟨hma.trans h.ma, hqueue.trans h.messageQueue, hcalls ▸ h.topics⟩

theorem Told.acknowledge (h : client.Told) (type : Fin 16) (msgId : Nat) :
    (client.acknowledge type msgId).Told :=
  h.congr rfl rfl rfl

theorem told_processPublication (h : client.Told) (hconnected : client.connected = true)
    (publish : Publish) : (client.processPublication publish true).Told := by
  rw [processPublication]
  dsimp only
  rw [if_pos ⟨h.messageQueue, hconnected, h.ma⟩, if_pos rfl]
  refine ⟨h.ma, h.messageQueue, fun call hcall => ?_⟩
  obtain hcall | hcall := List.mem_append.mp hcall
  · exact h.topics call hcall
  · rw [List.mem_singleton.mp hcall]
    exact List.take_length

theorem told_handle (h : client.Told) (hconnected : client.connected = true) (pack : Received) :
    (client.handle pack true).Told := by
  cases pack with
  | publish pack =>
      show (client.handlePublishes pack true).Told
      rw [handlePublishes]
      split_ifs
      · exact told_processPublication h hconnected pack
      · exact told_processPublication (h.acknowledge PUBACK pack.msgId) hconnected pack
      · exact h.congr rfl rfl rfl
      · exact h
  | pubrel header msgId =>
      show (client.handlePubrels header msgId true).Told
      rw [handlePubrels]
      cases client.inboundMsgs.find? (·.msgid = msgId) with
      | none =>
          dsimp only
          split_ifs
          · exact h.congr rfl rfl rfl
          · exact h
      | some m =>
          dsimp only
          split_ifs
          · exact h
          · exact (told_processPublication (h.acknowledge PUBCOMP msgId) hconnected
              m.toPublish).congr rfl rfl rfl

theorem told_step {action : InAction} (h : client.Told) (hprompt : Prompt client action)
    (hstep : inbound.step client action = some client') : client'.Told := by
  cases action with
  | setCallbacks =>
      cases hstep
      exact ⟨rfl, h.messageQueue, h.topics⟩
  | receive pack answer =>
      obtain ⟨hconnected, rfl⟩ := hprompt
      cases hstep
      exact (told_handle h hconnected pack).congr rfl rfl rfl
  | deliverQueued answer =>
      cases hstep
      rw [deliverQueued_nil h.messageQueue]
      exact h
  | connect =>
      cases hstep
      exact h.congr rfl rfl rfl
  | completeConnection =>
      simp only [inbound, completeConnection] at hstep
      split_ifs at hstep <;> cases hstep
      · exact ⟨h.ma, rfl, h.topics⟩
      · exact h.congr rfl rfl rfl
  | closeOnly =>
      cases hstep
      exact h.congr rfl rfl rfl
  | closeSession =>
      cases hstep
      rw [closeSession]
      split_ifs
      · exact ⟨h.ma, rfl, h.topics⟩
      · exact h.congr rfl rfl rfl

/-- With a server that sends nothing before CONNACK, and an application that takes every message,
no message waits and each comes with its topic. -/
theorem topics_told (hr : inbound.Run (initial cleansession true) acts client)
    (hprompt : inbound.Along Prompt (initial cleansession true) acts) :
    client.messageQueue = [] ∧ ∀ call ∈ client.calls, call.topic = call.qe.topicName := by
  have h : client.Told := hr.invariant_along (fun _ _ _ h hc hstep => told_step h hc hstep)
    hprompt ⟨rfl, rfl, fun _ h => absurd h List.not_mem_nil⟩
  exact ⟨h.messageQueue, h.topics⟩

/-- A message with QoS 2 that is released. -/
theorem topics_told_released :
    ∃ client, inbound.Run (initial false true)
        [.completeConnection, .receive (.publish sample) true,
          .receive (.pubrel sample.header 7) true] client ∧
      client.messageQueue = [] ∧ ∀ call ∈ client.calls, call.topic = call.qe.topicName :=
  have hr := Machine.Run.exec_iff.mp rfl
  ⟨_, hr, topics_told hr ⟨trivial, fun _ h => ⟨⟨by cases h; rfl, rfl⟩, fun _ h' =>
    ⟨⟨by cases h; cases h'; rfl, rfl⟩, fun _ _ => trivial⟩⟩⟩⟩

/-! ### Which topics are lost -/

theorem strlen_eq_length_iff {string : Bytes} : strlen string = string.length ↔ 0 ∉ string := by
  rw [← takeWhile_eq_self_iff_notMem]
  constructor
  · exact fun h => (List.takeWhile_prefix _).eq_of_length h
  · exact fun h => congrArg List.length h

/-- No message is taken out of the queue but with a topic that is empty or has a NUL. -/
def NoneLost (client : Inbound) : InAction → Prop
  | .deliverQueued _ => client.ma = true →
      ∀ qe ∈ client.messageQueue.head?, qe.topicName = [] ∨ 0 ∈ qe.topicName
  | _ => True

/-- Every message has come with its topic. -/
def AllTold (client : Inbound) : Prop :=
  ∀ call ∈ client.calls, call.topic = call.qe.topicName

/-- The calls that a step adds: at most one, and out of the queue only in the receiving thread. -/
inductive Called (client client' : Inbound) : InAction → Prop where
  | none (action) (calls : client'.calls = client.calls) (kept : NoneLost client action) :
      Called client client' action
  | direct (pack answer) (qe : QEntry)
      (calls : client'.calls = client.calls ++ [⟨qe, qe.topicName.length, answer⟩]) :
      Called client client' (.receive pack answer)
  | queued (answer) (qe : QEntry) (queue : List QEntry) (ma : client.ma = true)
      (messageQueue : client.messageQueue = qe :: queue)
      (calls : client'.calls = client.calls ++ [⟨qe,
        if strlen qe.topicName = qe.topicName.length then 0 else qe.topicName.length, answer⟩]) :
      Called client client' (.deliverQueued answer)

theorem called_processPublication (pack : Received) (publish : Publish) (answer : Bool) :
    Called client (client.processPublication publish answer) (.receive pack answer) := by
  rw [processPublication]
  dsimp only
  split_ifs
  · exact .direct pack answer (.ofPublish publish) rfl
  · exact .direct pack answer (.ofPublish publish) rfl
  · exact .none _ rfl trivial

theorem Called.congr {client'' : Inbound} {action : InAction} (h : Called client client' action)
    (hcalls : client''.calls = client'.calls) : Called client client'' action := by
  cases h with
  | none _ calls kept => exact .none _ (hcalls.trans calls) kept
  | direct pack answer qe calls => exact .direct pack answer qe (hcalls.trans calls)
  | queued answer qe queue ma messageQueue calls =>
      exact .queued answer qe queue ma messageQueue (hcalls.trans calls)

/-- A packet is handled after what has been written for it. -/
theorem Called.of_acknowledge {action : InAction} {type : Fin 16} {msgId : Nat}
    (h : Called (client.acknowledge type msgId) client' action) : Called client client' action := by
  cases h with
  | none _ calls kept => exact .none _ calls (by cases action <;> exact kept)
  | direct pack answer qe calls => exact .direct pack answer qe calls
  | queued answer qe queue ma messageQueue calls =>
      exact .queued answer qe queue ma messageQueue calls

theorem called_handle (pack : Received) (answer : Bool) :
    Called client (client.handle pack answer) (.receive pack answer) := by
  cases pack with
  | publish publish =>
      show Called client (client.handlePublishes publish answer) _
      rw [handlePublishes]
      split_ifs
      · exact called_processPublication _ publish answer
      · exact (called_processPublication _ publish answer).of_acknowledge
      · exact .none _ rfl trivial
      · exact .none _ rfl trivial
  | pubrel header msgId =>
      show Called client (client.handlePubrels header msgId answer) _
      rw [handlePubrels]
      cases client.inboundMsgs.find? (·.msgid = msgId) with
      | none =>
          dsimp only
          split_ifs <;> exact .none _ rfl trivial
      | some m =>
          dsimp only
          split_ifs
          · exact .none _ rfl trivial
          · exact (called_processPublication _ m.toPublish answer).of_acknowledge.congr rfl

theorem called_deliverQueued (answer : Bool) :
    Called client (client.deliverQueued answer) (.deliverQueued answer) := by
  cases hqueue : client.messageQueue with
  | nil =>
      refine .none _ (by rw [deliverQueued_nil hqueue]) fun _ qe hqe => ?_
      rw [hqueue] at hqe
      cases hqe
  | cons qe queue =>
      by_cases hma : client.ma = true
      · exact .queued answer qe queue hma hqueue (by rw [deliverQueued_cons hqueue hma])
      · exact .none _ (by rw [deliverQueued_dropped hqueue hma]) fun h => absurd h hma

theorem called_step {action : InAction} (hstep : inbound.step client action = some client') :
    Called client client' action := by
  cases action with
  | setCallbacks =>
      cases hstep
      exact .none _ rfl trivial
  | receive pack answer =>
      cases hstep
      exact (called_handle pack answer).congr rfl
  | deliverQueued answer =>
      cases hstep
      exact called_deliverQueued answer
  | connect =>
      cases hstep
      exact .none _ rfl trivial
  | completeConnection =>
      simp only [inbound, completeConnection] at hstep
      split_ifs at hstep <;> cases hstep <;> exact .none _ rfl trivial
  | closeOnly =>
      cases hstep
      exact .none _ rfl trivial
  | closeSession =>
      cases hstep
      rw [closeSession]
      split_ifs <;> exact .none _ rfl trivial

/-- What holds of the calls before a step holds of those behind it if it does of a new one. -/
theorem forall_mem_concat {calls : List Call} {new : Call} {P : Call → Prop}
    (h : ∀ call ∈ calls, P call) : (∀ call ∈ calls ++ [new], P call) ↔ P new := by
  rw [List.forall_mem_append, and_iff_right h, List.forall_mem_singleton]

theorem allTold_step_iff {action : InAction} (h : client.AllTold)
    (hstep : inbound.step client action = some client') :
    client'.AllTold ↔ NoneLost client action := by
  unfold AllTold
  cases called_step hstep with
  | none _ calls kept =>
      rw [calls]
      exact iff_of_true h kept
  | direct pack answer qe calls =>
      rw [calls, forall_mem_concat h]
      exact iff_of_true List.take_length trivial
  | queued answer qe queue ma messageQueue calls =>
      rw [calls, forall_mem_concat h, NoneLost, messageQueue, imp_iff_right ma, List.head?_cons]
      show qe.topicName.take _ = qe.topicName ↔ _
      simp only [Option.mem_some_iff, forall_eq']
      by_cases hnul : 0 ∈ qe.topicName
      · rw [if_neg fun h => strlen_eq_length_iff.mp h hnul, List.take_length]
        exact iff_of_true rfl (.inr hnul)
      · rw [if_pos (strlen_eq_length_iff.mpr hnul), List.take_zero, or_iff_left hnul]
        exact eq_comm

theorem allTold_of_step {action : InAction} (hstep : inbound.step client action = some client')
    (h : client'.AllTold) : client.AllTold := by
  have hcalls : client.calls <+: client'.calls := by
    cases called_step hstep with
    | none _ calls => rw [calls]
    | direct _ _ _ calls => rw [calls]; exact List.prefix_append _ _
    | queued _ _ _ _ _ calls => rw [calls]; exact List.prefix_append _ _
  exact fun call hcall => h call (hcalls.subset hcall)

/-- Every message comes with its topic just if none is taken out of the queue whose topic is a
usual one, with a character and without NUL. -/
theorem topics_told_iff (hr : inbound.Run (initial cleansession ma) acts client) :
    (∀ call ∈ client.calls, call.topic = call.qe.topicName) ↔
      inbound.Along NoneLost (initial cleansession ma) acts :=
  hr.final_iff (B := fun _ => True) (I := fun _ => True) (P := AllTold)
    (fun _ _ _ _ _ => trivial) (fun _ _ _ _ hstep h => allTold_of_step hstep h)
    (fun _ _ _ _ _ _ => trivial) (fun _ _ _ _ h hstep _ => allTold_step_iff h hstep)
    trivial trivial fun _ h => absurd h List.not_mem_nil

/-- A message that comes before CONNACK, and is taken out of the queue behind it. -/
theorem topics_told_iff_early :
    ∃ client, inbound.Run (initial false true)
        [.receive (.publish sample) true, .receive (.pubrel sample.header 7) true,
          .completeConnection, .deliverQueued true] client ∧
      ((∀ call ∈ client.calls, call.topic = call.qe.topicName) ↔
        inbound.Along NoneLost (initial false true)
          [.receive (.publish sample) true, .receive (.pubrel sample.header 7) true,
            .completeConnection, .deliverQueued true]) :=
  have hr := Machine.Run.exec_iff.mp rfl
  ⟨_, hr, topics_told_iff hr⟩

/-! ### What becomes of a message without its topic -/

/-- A topic that does not come as it is does not come at all. -/
theorem topic_eq_nil (hr : inbound.Run (initial cleansession ma) acts client) {call : Call}
    (hcall : call ∈ client.calls) (hlost : call.topic ≠ call.qe.topicName) : call.topic = [] := by
  have hmeasured : ∀ call ∈ client.calls, call.topic = call.qe.topicName ∨ call.topic = [] := by
    refine hr.invariant (I := fun client => ∀ call ∈ client.calls,
      call.topic = call.qe.topicName ∨ call.topic = []) ?_ fun _ h => absurd h List.not_mem_nil
    intro client action client' h hstep
    cases called_step hstep with
    | none _ calls =>
        rw [calls]
        exact h
    | direct pack answer qe calls =>
        rw [calls, forall_mem_concat h]
        exact .inl List.take_length
    | queued answer qe queue ma messageQueue calls =>
        rw [calls, forall_mem_concat h]
        show qe.topicName.take _ = qe.topicName ∨ qe.topicName.take _ = []
        split_ifs
        · exact .inr rfl
        · exact .inl List.take_length
  exact (hmeasured call hcall).resolve_left hlost

/-- A message that has lost its topic comes with the topic without characters. It makes
`message_arrived` throw where the application has set a callback for commands: there is no handler
on that topic, and what the topic of a command would say is looked for behind its end. -/
theorem lost_topic_throws {ι D : Type} [DecidableEq ι] [CxxDouble D]
    (hr : inbound.Run (initial cleansession ma) acts client) {call : Call}
    (hcall : call ∈ client.calls) (hlost : call.topic ≠ call.qe.topicName) :
    call.topic = [] ∧ ∀ {s : Callback ι D} {m : Arrival ι D},
      m.topic = call.topic.map (fun byte => Char.ofNat byte.toNat) → s.equalRange [] = [] →
      s.userCallback = true → ∀ terminating,
        ((Callback.messageArrived terminating m).exec s).1 = .error .outOfRange := by
  have hnil := topic_eq_nil hr hcall hlost
  refine ⟨hnil, fun {s m} htopic hnone hset terminating => ?_⟩
  have hempty : m.topic = [] := by
    rw [htopic, hnil]
    rfl
  have hparse : Command.parse m.topic m.payload = none := by
    rw [← Option.not_isSome_iff_eq_none, Command.parse_isSome_iff, hempty]
    decide
  rw [Callback.exec_messageArrived_of_no_handler (by rw [hempty, hnone]), if_pos hset,
    Callback.exec_processCommand, hparse]

/-- A client without handlers, for which a message has waited for CONNACK. -/
theorem lost_topic_throws_early :
    ∃ client call, inbound.Run (initial false true)
        [.receive (.publish sample) true, .receive (.pubrel sample.header 7) true,
          .completeConnection, .deliverQueued true] client ∧
      call ∈ client.calls ∧ call.topic ≠ call.qe.topicName ∧ call.topic = [] ∧
      ((Callback.messageArrived true (.agreeable [] "21".toList)).exec
        { Callback.single ['x'] .action with userCallback := true }).1 = .error .outOfRange :=
  have hr := Machine.Run.exec_iff.mp rfl
  have hcall : Call.mk (.ofPublish sample) 0 true ∈ [Call.mk (.ofPublish sample) 0 true] :=
    List.mem_singleton_self _
  have hlost : (Call.mk (.ofPublish sample) 0 true).topic ≠ sample.topic := nofun
  have hthrows := lost_topic_throws hr hcall hlost
  ⟨_, _, hr, hcall, hlost, hthrows.1, hthrows.2 (by rfl) (by rfl) (by rfl) true⟩

end Topics

end Inbound

end MQTTPacket
