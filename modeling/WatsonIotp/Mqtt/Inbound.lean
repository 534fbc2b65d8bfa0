import Mathlib.Data.List.Nodup
import WatsonIotp.Machine.Basic
import WatsonIotp.Machine.Exchange
import WatsonIotp.Mqtt.Contents

/-!
# Messages from the server

A message with QoS 0 or 1 is passed to the application when it is read. One with QoS 2 is kept
until the server releases it with PUBREL. What the application does not take, and what comes
while the client is not connected, waits in a queue, of which the receiving thread tries the
first one each time that something has happened on the socket.
-/

namespace MQTTPacket

/-! ### The code -/

/-- `Messages`, with the publication that it points to, and without the times. -/
structure Messages where
  msgid : Nat
  qos : Fin 4
  retain : Bool
  topic : Bytes
  payload : Bytes
  nextMessageType : Fin 16
  deriving DecidableEq

/-- `qEntry`, with the `MQTTAsync_message` that it points to. -/
structure QEntry where
  topicName : Bytes
  payload : Bytes
  qos : Fin 4
  retained : Bool
  dup : Bool
  msgid : Nat
  deriving DecidableEq

/-- A call of `messageArrived`, with its answer. -/
structure Call where
  qe : QEntry
  topicLen : Nat
  answer : Bool

/-- What the server has sent. -/
inductive Received where
  | publish (pack : Publish)
  | pubrel (header : Header) (msgId : Nat)

/-- The fields of `Clients` and `MQTTAsyncs` that messages from the server meet, with what has
been read, the calls of the application and the acknowledgements, each with its message id. -/
structure Inbound where
  inboundMsgs : List Messages
  messageQueue : List QEntry
  connected : Bool
  cleansession : Bool
  /-- Whether `ma` is set. -/
  ma : Bool
  received : List Received
  calls : List Call
  acks : List (Fin 16 × Nat)

def Inbound.initial (cleansession ma : Bool) : Inbound where
  inboundMsgs := []
  messageQueue := []
  connected := false
  cleansession := cleansession
  ma := ma
  received := []
  calls := []
  acks := []

/-- The message that `Protocol_processPublication` makes of a packet. -/
def QEntry.ofPublish (publish : Publish) : QEntry where
  topicName := publish.topic
  payload := publish.payload
  qos := publish.header.qos
  retained := publish.header.retain
  dup := if publish.header.qos.val = 2 then false else publish.header.dup
  msgid := publish.msgId

/-- The packet that `MQTTProtocol_handlePubrels` makes of a message. It leaves `dup` and `type`
as they are; they are not looked at with QoS 2. -/
def Messages.toPublish (m : Messages) : Publish where
  header := ⟨m.retain, m.qos, false, PUBLISH⟩
  topic := m.topic
  msgId := m.msgid
  payload := m.payload

/-- `strlen(string)`. -/
def strlen (string : Bytes) : Nat :=
  (string.takeWhile (· ≠ 0)).length

namespace Inbound

/-- `MQTTAsync_deliverMessage(m, topicName, topicLen, mm)`. -/
def deliverMessage (client : Inbound) (qe : QEntry) (topicLen : Nat) (answer : Bool) : Inbound :=
  { client with calls := client.calls ++ [⟨qe, topicLen, answer⟩] }

/-- `Protocol_processPublication(publish, client)`, with what the application would answer. -/
def processPublication (client : Inbound) (publish : Publish) (answer : Bool) : Inbound :=
  let qe := QEntry.ofPublish publish
  if client.messageQueue = [] ∧ client.connected = true ∧ client.ma = true then
    let client := client.deliverMessage qe publish.topic.length answer
    if answer = true then client else { client with messageQueue := client.messageQueue ++ [qe] }
  else { client with messageQueue := client.messageQueue ++ [qe] }

/-- A message takes the place of the one with its id, or comes behind the others. -/
def storeMessage (m : Messages) : List Messages → List Messages
  | [] => [m]
  | msg :: msgs => if msg.msgid = m.msgid then m :: msgs else msg :: storeMessage m msgs

/-- An acknowledgement is written. -/
def acknowledge (client : Inbound) (type : Fin 16) (msgId : Nat) : Inbound :=
  { client with acks := client.acks ++ [(type, msgId)] }

/-- `MQTTProtocol_handlePublishes(pack, sock)`. No branch is there for a QoS of 3. -/
def handlePublishes (client : Inbound) (publish : Publish) (answer : Bool) : Inbound :=
  if publish.header.qos.val = 0 then client.processPublication publish answer
  else if publish.header.qos.val = 1 then
    (client.acknowledge PUBACK publish.msgId).processPublication publish answer
  else if publish.header.qos.val = 2 then
    let m : Messages := ⟨publish.msgId, publish.header.qos, publish.header.retain, publish.topic,
      publish.payload, PUBREL⟩
    { client with inboundMsgs := storeMessage m client.inboundMsgs }.acknowledge PUBREC
      publish.msgId
  else client

/-- `MQTTProtocol_handlePubrels(pack, sock)`. -/
def handlePubrels (client : Inbound) (header : Header) (msgId : Nat) (answer : Bool) : Inbound :=
  match client.inboundMsgs.find? (·.msgid = msgId) with
  | none => if header.dup = true then client.acknowledge PUBCOMP msgId else client
  | some m =>
      if m.qos.val ≠ 2 ∨ m.nextMessageType ≠ PUBREL then client
      else
        let client := (client.acknowledge PUBCOMP msgId).processPublication m.toPublish answer
        { client with inboundMsgs := client.inboundMsgs.eraseP (·.msgid = msgId) }

/-- What `MQTTAsync_receiveThread` does with the queue. -/
def deliverQueued (client : Inbound) (answer : Bool) : Inbound :=
  match client.messageQueue with
  | [] => client
  | qe :: queue =>
      let topicLen :=
        if strlen qe.topicName = qe.topicName.length then 0 else qe.topicName.length
      if client.ma = true then
        let client := client.deliverMessage qe topicLen answer
        if answer = true then { client with messageQueue := queue } else client
      else { client with messageQueue := queue }

/-- `MQTTAsync_cleanSession(client)`, as far as it is about messages from the server. -/
def cleanSession (client : Inbound) : Inbound :=
  { client with inboundMsgs := [], messageQueue := [] }

/-- `MQTTAsync_completeConnection(m, pack)` with a CONNACK that accepts. -/
def completeConnection (client : Inbound) : Inbound :=
  if client.cleansession = true then { client with connected := true }.cleanSession
  else { client with connected := true }

/-- `MQTTAsync_closeOnly(client)`. -/
def closeOnly (client : Inbound) : Inbound :=
  { client with connected := false }

/-- `MQTTAsync_closeSession(client)`. -/
def closeSession (client : Inbound) : Inbound :=
  let client := client.closeOnly
  if client.cleansession = true then client.cleanSession else client

end Inbound

inductive InAction where
  /-- `MQTTAsync_setCallbacks`, where it is not refused; its `ma` must not be null. -/
  | setCallbacks
  /-- A packet is read, and the application would answer so. -/
  | receive (pack : Received) (answer : Bool)
  | deliverQueued (answer : Bool)
  /-- `MQTTAsync_connect`, with the session that it asks for. -/
  | connect (cleansession : Bool)
  /-- The CONNACK is read. -/
  | completeConnection
  | closeOnly
  | closeSession

/-- What is done with a packet. -/
def Inbound.handle (client : Inbound) (pack : Received) (answer : Bool) : Inbound :=
  match pack with
  | .publish pack => client.handlePublishes pack answer
  | .pubrel header msgId => client.handlePubrels header msgId answer

def inbound : Machine Inbound InAction where
  step client
    | .setCallbacks => some { client with ma := true }
    | .receive pack answer =>
        some { client.handle pack answer with received := client.received ++ [pack] }
    | .deliverQueued answer => some (client.deliverQueued answer)
    | .connect cleansession => some { client with cleansession }
    | .completeConnection =>
        if client.connected = false then some client.completeConnection else none
    | .closeOnly => some client.closeOnly
    | .closeSession => some client.closeSession

/-! ### What is kept -/

/-- The message that is made of what is kept. -/
def Messages.entry (m : Messages) : QEntry :=
  .ofPublish m.toPublish

/-- What a packet tells the receiver. -/
def Received.events : Received → List (Exchange.Event Nat QEntry)
  | .publish pack =>
      if pack.header.qos.val < 2 then [.once (.ofPublish pack)]
      else if pack.header.qos.val = 2 then [.offer pack.msgId (.ofPublish pack)]
      else []
  | .pubrel _ msgId => [.release msgId]

namespace Inbound

/-- What the server has told. -/
def events (client : Inbound) : List (Exchange.Event Nat QEntry) :=
  client.received.flatMap Received.events

/-- What is kept under each message id. -/
def store (client : Inbound) (msgId : Nat) : Option QEntry :=
  (client.inboundMsgs.find? (·.msgid = msgId)).map Messages.entry

/-- The messages that the application has taken. -/
def taken (client : Inbound) : List QEntry :=
  (client.calls.filter Call.answer).map Call.qe

/-- The messages that have been passed on: those that the application has taken, and those that
wait for it. -/
def passedOn (client : Inbound) : List QEntry :=
  client.taken ++ client.messageQueue

end Inbound

section Lists

variable {m : Messages} {msgs : List Messages} {msgId : Nat}

theorem find?_storeMessage :
    (Inbound.storeMessage m msgs).find? (·.msgid = msgId) =
      if m.msgid = msgId then some m else msgs.find? (·.msgid = msgId) := by
  induction msgs with
  | nil =>
      show [m].find? _ = _
      rw [List.find?_singleton]
      simp only [decide_eq_true_eq, List.find?_nil]
  | cons msg msgs ih =>
      rw [Inbound.storeMessage]
      split_ifs with hsame hid hid
      · exact List.find?_cons_of_pos (by simpa using hid)
      · rw [List.find?_cons_of_neg (by simpa using hid),
          List.find?_cons_of_neg (by simpa [hsame] using hid)]
      · rw [List.find?_cons_of_neg (by simpa [hid] using hsame), ih, if_pos hid]
      · rw [List.find?_cons, List.find?_cons, ih, if_neg hid]

theorem mem_storeMessage {msg : Messages} (h : msg ∈ Inbound.storeMessage m msgs) :
    msg = m ∨ msg ∈ msgs := by
  induction msgs with
  | nil => exact .inl (List.mem_singleton.mp h)
  | cons first msgs ih =>
      rw [Inbound.storeMessage] at h
      split_ifs at h with hsame
      · exact (List.mem_cons.mp h).imp_right (List.mem_cons_of_mem _)
      · obtain rfl | h := List.mem_cons.mp h
        · exact .inr List.mem_cons_self
        · exact (ih h).imp_right (List.mem_cons_of_mem _)

theorem map_storeMessage :
    (Inbound.storeMessage m msgs).map Messages.msgid =
      if m.msgid ∈ msgs.map Messages.msgid then msgs.map Messages.msgid
      else msgs.map Messages.msgid ++ [m.msgid] := by
  induction msgs with
  | nil => rfl
  | cons msg msgs ih =>
      rw [Inbound.storeMessage]
      by_cases hsame : msg.msgid = m.msgid
      · simp [hsame]
      · simp only [hsame, if_false, List.map_cons, ih, List.mem_cons, Ne.symm hsame, false_or]
        split_ifs <;> rfl

theorem find?_eraseP (h : (msgs.map Messages.msgid).Nodup) {other : Nat} :
    (msgs.eraseP (·.msgid = msgId)).find? (·.msgid = other) =
      if other = msgId then none else msgs.find? (·.msgid = other) := by
  induction msgs with
  | nil => simp
  | cons msg msgs ih =>
      rw [List.map_cons, List.nodup_cons] at h
      by_cases hsame : msg.msgid = msgId
      · rw [List.eraseP_cons_of_pos (by simpa using hsame)]
        split_ifs with hother
        · apply List.find?_eq_none.mpr
          intro m hm
          have hne : m.msgid ≠ msgId := fun he =>
            h.1 (hsame.trans he.symm ▸ List.mem_map_of_mem hm)
          simpa [hother] using hne
        · rw [List.find?_cons_of_neg (by simpa [hsame] using Ne.symm hother)]
      · rw [List.eraseP_cons_of_neg (by simpa using hsame), List.find?_cons, List.find?_cons,
          ih h.2]
        by_cases hmsg : msg.msgid = other
        · have hother : other ≠ msgId := fun he => hsame (hmsg.trans he)
          simp [hmsg, hother]
        · simp [hmsg]

end Lists

/-! ### What a step does -/

namespace Inbound

open Exchange (held passed empty)

/-- The messages that are kept have their own ids, and wait for PUBREL. -/
structure Good (client : Inbound) : Prop where
  nodup : (client.inboundMsgs.map Messages.msgid).Nodup
  waiting : ∀ m ∈ client.inboundMsgs, m.qos.val = 2 ∧ m.nextMessageType = PUBREL

/-- What is kept and passed on is what the events say. -/
structure Follows (client : Inbound) (events : List (Exchange.Event Nat QEntry))
    (client' : Inbound) : Prop where
  store : client'.store = held client.store events
  passedOn : client'.passedOn = client.passedOn ++ passed client.store events

section Steps

variable {client client' : Inbound}

theorem taken_deliverMessage (qe : QEntry) (topicLen : Nat) (answer : Bool) :
    (client.deliverMessage qe topicLen answer).taken =
      client.taken ++ if answer = true then [qe] else [] := by
  show ((client.calls ++ [Call.mk qe topicLen answer]).filter Call.answer).map Call.qe = _
  rw [List.filter_append, List.map_append]
  cases answer <;> rfl

/-- Whoever takes the message, it is passed on behind those before it. -/
theorem passedOn_processPublication (publish : Publish) (answer : Bool) :
    (client.processPublication publish answer).passedOn =
      client.passedOn ++ [.ofPublish publish] := by
  rw [processPublication]
  dsimp only
  split_ifs with hidle hanswer
  · show (client.deliverMessage _ _ answer).taken ++ client.messageQueue = _
    rw [taken_deliverMessage, if_pos hanswer, passedOn, hidle.1, List.append_nil, List.append_nil]
  · show (client.deliverMessage _ _ answer).taken ++ (client.messageQueue ++ [_]) = _
    rw [taken_deliverMessage, if_neg hanswer, List.append_nil, ← List.append_assoc]
    rfl
  · show client.taken ++ (client.messageQueue ++ [_]) = _
    rw [← List.append_assoc]
    rfl

theorem inboundMsgs_processPublication (publish : Publish) (answer : Bool) :
    (client.processPublication publish answer).inboundMsgs = client.inboundMsgs := by
  rw [processPublication]
  dsimp only
  split_ifs <;> rfl

theorem store_congr (h : client'.inboundMsgs = client.inboundMsgs) :
    client'.store = client.store := by
  funext msgId
  rw [store, h]
  rfl

/-- A message that is passed on at once. -/
theorem follows_processPublication (publish : Publish) (answer : Bool) :
    client.Follows [.once (.ofPublish publish)] (client.processPublication publish answer) :=
  ⟨store_congr (inboundMsgs_processPublication publish answer),
    passedOn_processPublication publish answer⟩

theorem follows_handlePublishes (publish : Publish) (answer : Bool) :
    client.Follows (Received.events (.publish publish))
      (client.handlePublishes publish answer) := by
  rw [handlePublishes, Received.events]
  by_cases h0 : publish.header.qos.val = 0
  · rw [if_pos h0, if_pos (by omega)]
    exact follows_processPublication publish answer
  by_cases h1 : publish.header.qos.val = 1
  · rw [if_neg h0, if_pos h1, if_pos (by omega)]
    have h : (client.acknowledge PUBACK publish.msgId).Follows _ _ :=
      follows_processPublication publish answer
    exact ⟨h.store, h.passedOn⟩
  rw [if_neg h0, if_neg h1, if_neg (by omega)]
  split_ifs with h2
  · constructor
    · funext msgId
      show ((storeMessage _ client.inboundMsgs).find? _).map Messages.entry =
        Function.update client.store publish.msgId (some (.ofPublish publish)) msgId
      rw [find?_storeMessage, Function.update_apply]
      by_cases hsame : publish.msgId = msgId
      · rw [if_pos hsame, if_pos hsame.symm]
        simp [Messages.entry, QEntry.ofPublish, Messages.toPublish, h2]
      · rw [if_neg hsame, if_neg (Ne.symm hsame)]
        rfl
    · exact (List.append_nil _).symm
  · exact ⟨rfl, (List.append_nil _).symm⟩

theorem follows_handlePubrels (h : client.Good) (header : Header) (msgId : Nat) (answer : Bool) :
    client.Follows (Received.events (.pubrel header msgId))
      (client.handlePubrels header msgId answer) := by
  rw [handlePubrels]
  cases hfind : client.inboundMsgs.find? (·.msgid = msgId) with
  | none =>
      have hnone : client.store msgId = none := by rw [store, hfind]; rfl
      have hstays : client.Follows (Received.events (.pubrel header msgId)) client := by
        constructor
        · show client.store = Function.update client.store msgId none
          rw [← hnone, Function.update_eq_self]
        · show client.passedOn = client.passedOn ++ ((client.store msgId).toList ++ [])
          rw [hnone]
          exact (List.append_nil _).symm
      dsimp only
      split_ifs
      · exact ⟨hstays.store, hstays.passedOn⟩
      · exact hstays
  | some m =>
      have hkept : ¬ (m.qos.val ≠ 2 ∨ m.nextMessageType ≠ PUBREL) := by
        rw [not_or, not_ne_iff, not_ne_iff]
        exact h.waiting m (List.mem_of_find?_eq_some hfind)
      have hsome : client.store msgId = some m.entry := by rw [store, hfind]; rfl
      dsimp only
      rw [if_neg hkept]
      constructor
      · funext other
        show ((List.eraseP _ (processPublication _ _ _).inboundMsgs).find? _).map Messages.entry =
          Function.update client.store msgId none other
        rw [inboundMsgs_processPublication]
        show ((client.inboundMsgs.eraseP _).find? _).map Messages.entry = _
        rw [find?_eraseP h.nodup, Function.update_apply]
        split_ifs <;> rfl
      · show (processPublication _ _ _).passedOn =
          client.passedOn ++ ((client.store msgId).toList ++ [])
        rw [passedOn_processPublication, hsome]
        rfl

theorem follows_handle (h : client.Good) (pack : Received) (answer : Bool) :
    client.Follows pack.events (client.handle pack answer) := by
  cases pack with
  | publish pack => exact follows_handlePublishes pack answer
  | pubrel header msgId => exact follows_handlePubrels h header msgId answer

theorem Good.congr (h : client.Good) (hsame : client'.inboundMsgs = client.inboundMsgs) :
    client'.Good :=
  ⟨hsame ▸ h.nodup, hsame ▸ h.waiting⟩

theorem good_handlePublishes (h : client.Good) (publish : Publish) (answer : Bool) :
    (client.handlePublishes publish answer).Good := by
  rw [handlePublishes]
  split_ifs with h0 h1 h2
  · exact h.congr (inboundMsgs_processPublication publish answer)
  · exact h.congr (inboundMsgs_processPublication publish answer)
  · constructor
    · show ((storeMessage _ client.inboundMsgs).map Messages.msgid).Nodup
      rw [map_storeMessage]
      split_ifs with hmem
      · exact h.nodup
      · rw [← List.concat_eq_append]
        exact h.nodup.concat hmem
    · intro m hm
      obtain rfl | hm := mem_storeMessage hm
      · exact ⟨h2, rfl⟩
      · exact h.waiting m hm
  · exact h

theorem good_handlePubrels (h : client.Good) (header : Header) (msgId : Nat) (answer : Bool) :
    (client.handlePubrels header msgId answer).Good := by
  rw [handlePubrels]
  cases client.inboundMsgs.find? (·.msgid = msgId) with
  | none =>
      dsimp only
      split_ifs
      · exact h.congr rfl
      · exact h
  | some m =>
      dsimp only
      split_ifs
      · exact h
      · have hsub : (((client.acknowledge PUBCOMP msgId).processPublication m.toPublish
            answer).inboundMsgs.eraseP (·.msgid = msgId)).Sublist client.inboundMsgs := by
          rw [inboundMsgs_processPublication]
          exact List.eraseP_sublist
        exact ⟨h.nodup.sublist (hsub.map _), fun m hm => h.waiting m (hsub.subset hm)⟩

theorem good_handle (h : client.Good) (pack : Received) (answer : Bool) :
    (client.handle pack answer).Good := by
  cases pack with
  | publish pack => exact good_handlePublishes h pack answer
  | pubrel header msgId => exact good_handlePubrels h header msgId answer

/-- No session is cleaned. -/
def KeepsSession (client : Inbound) : InAction → Prop
  | .completeConnection => client.cleansession = false
  | .closeSession => client.cleansession = false
  | _ => True

/-- No session is cleaned, and no message is taken from the queue without a callback. -/
def Keeps (client : Inbound) : InAction → Prop
  | .deliverQueued _ => client.ma = true
  | action => client.KeepsSession action

theorem Keeps.keepsSession {action : InAction} (h : client.Keeps action) :
    client.KeepsSession action := by
  cases action with
  | deliverQueued => trivial
  | _ => exact h

/-- What is kept and what has been passed on is no more than what the server has told. -/
structure AtMost (client : Inbound) : Prop where
  good : client.Good
  within : Exchange.Within client.store (held empty client.events)
  passedOn : client.passedOn.Sublist (passed empty client.events)

/-- What is kept is what the server has told. -/
structure Kept (client : Inbound) : Prop where
  good : client.Good
  store : client.store = held empty client.events

/-- What is kept and what has been passed on is what the server has told. -/
structure Exact (client : Inbound) : Prop extends client.Kept where
  passedOn : client.passedOn = passed empty client.events

/-- Away from the packets, messages are at most lost. -/
theorem AtMost.less (h : client.AtMost) (hreceived : client'.received = client.received)
    (hmsgs : client'.inboundMsgs = client.inboundMsgs ∨ client'.inboundMsgs = [])
    (hpassedOn : client'.passedOn.Sublist client.passedOn) : client'.AtMost := by
  have hevents : client'.events = client.events := by rw [events, hreceived]; rfl
  refine ⟨?_, ?_, ?_⟩
  · obtain hmsgs | hmsgs := hmsgs
    · exact h.good.congr hmsgs
    · constructor
      · rw [hmsgs]
        exact List.nodup_nil
      · intro m hm
        rw [hmsgs] at hm
        exact absurd hm List.not_mem_nil
  · rw [hevents]
    obtain hmsgs | hmsgs := hmsgs
    · rw [store_congr hmsgs]
      exact h.within
    · intro msgId qe hqe
      rw [store, hmsgs] at hqe
      exact absurd hqe (by simp)
  · rw [hevents]
    exact hpassedOn.trans h.passedOn

theorem Kept.same (h : client.Kept) (hreceived : client'.received = client.received)
    (hmsgs : client'.inboundMsgs = client.inboundMsgs) : client'.Kept := by
  have hevents : client'.events = client.events := by rw [events, hreceived]; rfl
  refine ⟨h.good.congr hmsgs, ?_⟩
  rw [store_congr hmsgs, hevents, h.store]

theorem completeConnection_kept (h : client.cleansession = false) :
    client.completeConnection = { client with connected := true } :=
  if_neg (Bool.eq_false_iff.mp h)

theorem closeSession_kept (h : client.cleansession = false) :
    client.closeSession = client.closeOnly :=
  if_neg (Bool.eq_false_iff.mp h)

theorem passedOn_cleanSession : (client.cleanSession).passedOn.Sublist client.passedOn := by
  show (client.taken ++ []).Sublist (client.taken ++ client.messageQueue)
  exact (List.nil_sublist _).append_left _

/-- The receiving thread calls the application with the first message of the queue, and leaves it
there if it is not taken. -/
theorem deliverQueued_cons {qe : QEntry} {queue : List QEntry}
    (hqueue : client.messageQueue = qe :: queue) (hma : client.ma = true) (answer : Bool) :
    client.deliverQueued answer = { client with
      calls := client.calls ++ [⟨qe,
        if strlen qe.topicName = qe.topicName.length then 0 else qe.topicName.length, answer⟩]
      messageQueue := if answer = true then queue else client.messageQueue } := by
  rw [deliverQueued, hqueue]
  dsimp only
  rw [if_pos hma]
  cases answer
  · show client.deliverMessage _ _ _ = _
    rw [if_neg Bool.false_ne_true, ← hqueue]
    rfl
  · rfl

theorem deliverQueued_dropped {qe : QEntry} {queue : List QEntry}
    (hqueue : client.messageQueue = qe :: queue) (hma : client.ma ≠ true) (answer : Bool) :
    client.deliverQueued answer = { client with messageQueue := queue } := by
  rw [deliverQueued, hqueue]
  exact if_neg hma

theorem deliverQueued_nil (hqueue : client.messageQueue = []) (answer : Bool) :
    client.deliverQueued answer = client := by
  rw [deliverQueued, hqueue]

theorem passedOn_deliverQueued (answer : Bool) :
    (client.deliverQueued answer).passedOn.Sublist client.passedOn ∧
      (client.ma = true → (client.deliverQueued answer).passedOn = client.passedOn) := by
  cases hqueue : client.messageQueue with
  | nil =>
      rw [deliverQueued_nil hqueue]
      exact ⟨List.Sublist.refl _, fun _ => rfl⟩
  | cons qe queue =>
      by_cases hma : client.ma = true
      · have hsame : (client.deliverQueued answer).passedOn = client.passedOn := by
          rw [deliverQueued_cons hqueue hma]
          show (client.deliverMessage qe _ answer).taken ++
            (if answer = true then queue else client.messageQueue) = _
          rw [taken_deliverMessage, passedOn, hqueue, List.append_assoc]
          cases answer <;> rfl
        rw [hsame]
        exact ⟨List.Sublist.refl _, fun _ => rfl⟩
      · rw [deliverQueued_dropped hqueue hma]
        refine ⟨?_, fun h => absurd h hma⟩
        show (client.taken ++ queue).Sublist (client.taken ++ client.messageQueue)
        rw [hqueue]
        exact (List.sublist_cons_self qe queue).append_left _

theorem inboundMsgs_deliverQueued (answer : Bool) :
    (client.deliverQueued answer).inboundMsgs = client.inboundMsgs ∧
      (client.deliverQueued answer).received = client.received := by
  cases hqueue : client.messageQueue with
  | nil =>
      rw [deliverQueued_nil hqueue]
      exact ⟨rfl, rfl⟩
  | cons qe queue =>
      by_cases hma : client.ma = true
      · rw [deliverQueued_cons hqueue hma]
        exact ⟨rfl, rfl⟩
      · rw [deliverQueued_dropped hqueue hma]
        exact ⟨rfl, rfl⟩

/-- A packet is added to the history. -/
theorem events_receive (pack : Received) :
    Inbound.events { client' with received := client.received ++ [pack] } =
      client.events ++ pack.events := by
  show (client.received ++ [pack]).flatMap _ = _
  rw [List.flatMap_append, List.flatMap_singleton]
  rfl

theorem atMost_receive (h : client.AtMost) (pack : Received) (answer : Bool) :
    AtMost { client.handle pack answer with received := client.received ++ [pack] } := by
  have hfollows := follows_handle h.good pack answer
  refine ⟨(good_handle h.good pack answer).congr rfl, ?_, ?_⟩
  · rw [events_receive, Exchange.held_append]
    show Exchange.Within (client.handle pack answer).store _
    rw [hfollows.store]
    exact Exchange.held_within h.within _
  · rw [events_receive, Exchange.passed_append]
    show (client.handle pack answer).passedOn.Sublist _
    rw [hfollows.passedOn]
    exact h.passedOn.append (Exchange.passed_sublist h.within _)

theorem kept_receive (h : client.Kept) (pack : Received) (answer : Bool) :
    Kept { client.handle pack answer with received := client.received ++ [pack] } := by
  refine ⟨(good_handle h.good pack answer).congr rfl, ?_⟩
  rw [events_receive, Exchange.held_append, ← h.store]
  exact (follows_handle h.good pack answer).store

theorem atMost_step {action : InAction} (h : client.AtMost)
    (hstep : inbound.step client action = some client') : client'.AtMost := by
  cases action with
  | setCallbacks =>
      cases hstep
      exact h.less rfl (.inl rfl) (List.Sublist.refl _)
  | receive pack answer =>
      cases hstep
      exact atMost_receive h pack answer
  | deliverQueued answer =>
      cases hstep
      have hsame : (client.deliverQueued answer).inboundMsgs = client.inboundMsgs ∧
          (client.deliverQueued answer).received = client.received :=
        inboundMsgs_deliverQueued answer
      exact h.less hsame.2 (.inl hsame.1) (passedOn_deliverQueued answer).1
  | connect =>
      cases hstep
      exact h.less rfl (.inl rfl) (List.Sublist.refl _)
  | completeConnection =>
      simp only [inbound, completeConnection] at hstep
      split_ifs at hstep <;> cases hstep
      · exact h.less rfl (.inr rfl) passedOn_cleanSession
      · exact h.less rfl (.inl rfl) (List.Sublist.refl _)
  | closeOnly =>
      cases hstep
      exact h.less rfl (.inl rfl) (List.Sublist.refl _)
  | closeSession =>
      cases hstep
      rw [closeSession]
      split_ifs
      · exact h.less rfl (.inr rfl) passedOn_cleanSession
      · exact h.less rfl (.inl rfl) (List.Sublist.refl _)

theorem kept_step {action : InAction} (h : client.Kept) (hkeeps : client.KeepsSession action)
    (hstep : inbound.step client action = some client') : client'.Kept := by
  cases action with
  | setCallbacks =>
      cases hstep
      exact h.same rfl rfl
  | receive pack answer =>
      cases hstep
      exact kept_receive h pack answer
  | deliverQueued answer =>
      cases hstep
      have hsame : (client.deliverQueued answer).inboundMsgs = client.inboundMsgs ∧
          (client.deliverQueued answer).received = client.received :=
        inboundMsgs_deliverQueued answer
      exact h.same hsame.2 hsame.1
  | connect =>
      cases hstep
      exact h.same rfl rfl
  | completeConnection =>
      simp only [inbound, completeConnection_kept hkeeps] at hstep
      split_ifs at hstep
      cases hstep
      exact h.same rfl rfl
  | closeOnly =>
      cases hstep
      exact h.same rfl rfl
  | closeSession =>
      simp only [inbound, closeSession_kept hkeeps] at hstep
      cases hstep
      exact h.same rfl rfl

theorem exact_step {action : InAction} (h : client.Exact) (hkeeps : client.Keeps action)
    (hstep : inbound.step client action = some client') : client'.Exact := by
  refine ⟨kept_step h.toKept hkeeps.keepsSession hstep, ?_⟩
  have hsame (hevents : client'.events = client.events)
      (hpassedOn : client'.passedOn = client.passedOn) :
      client'.passedOn = passed empty client'.events := by
    rw [hpassedOn, hevents, h.passedOn]
  cases action with
  | setCallbacks =>
      cases hstep
      exact hsame rfl rfl
  | receive pack answer =>
      cases hstep
      rw [events_receive, Exchange.passed_append, ← h.store, ← h.passedOn]
      exact (follows_handle h.good pack answer).passedOn
  | deliverQueued answer =>
      cases hstep
      refine hsame ?_ ((passedOn_deliverQueued answer).2 hkeeps)
      rw [events, (inboundMsgs_deliverQueued answer).2]
      rfl
  | connect =>
      cases hstep
      exact hsame rfl rfl
  | completeConnection =>
      simp only [inbound, completeConnection_kept hkeeps] at hstep
      split_ifs at hstep
      cases hstep
      exact hsame rfl rfl
  | closeOnly =>
      cases hstep
      exact hsame rfl rfl
  | closeSession =>
      simp only [inbound, closeSession_kept hkeeps] at hstep
      cases hstep
      exact hsame rfl rfl

end Steps

theorem good_initial (cleansession ma : Bool) : (initial cleansession ma).Good :=
  ⟨List.nodup_nil, fun _ h => absurd h List.not_mem_nil⟩

section Runs

variable {cleansession ma : Bool} {client : Inbound} {acts : List InAction}

theorem exact_run (hr : inbound.Run (initial cleansession ma) acts client)
    (hkeeps : inbound.Along Keeps (initial cleansession ma) acts) : client.Exact :=
  hr.invariant_along (fun _ _ _ h hc hstep => exact_step h hc hstep) hkeeps
    ⟨⟨good_initial _ _, rfl⟩, rfl⟩

theorem kept_run (hr : inbound.Run (initial cleansession ma) acts client)
    (hkeeps : inbound.Along KeepsSession (initial cleansession ma) acts) : client.Kept :=
  hr.invariant_along (fun _ _ _ h hc hstep => kept_step h hc hstep) hkeeps ⟨good_initial _ _, rfl⟩

/-- Whatever the server sends and the application answers, every message that the application
has taken or that waits for it is one that the server has sent, in the order of the packets that
make it due: its own one, or with QoS 2 the first PUBREL behind it. None comes twice, and where
no session is cleaned and there is a callback whenever one is taken from the queue, none is
missing. -/
theorem passed_on_once (hr : inbound.Run (initial cleansession ma) acts client) :
    client.passedOn.Sublist (passed empty client.events) ∧
      (inbound.Along Keeps (initial cleansession ma) acts →
        client.passedOn = passed empty client.events) := by
  have hmost : client.AtMost := hr.invariant (fun _ _ _ h hstep => atMost_step h hstep)
    ⟨good_initial _ _, fun _ _ h => absurd h (by simp [store, initial]), List.Sublist.refl _⟩
  exact ⟨hmost.passedOn, fun hkeeps => (exact_run hr hkeeps).passedOn⟩

/-- A message with QoS 2, of two bytes, on the topic `i`. -/
def sample : Publish := ⟨Header.ofByte 0x34, [105], 7, [1, 2]⟩

/-- The server sends a message and its PUBREL twice, and loses the connection between them. -/
theorem passed_on_once_lost :
    ∃ client, inbound.Run (initial false true)
        [.completeConnection, .receive (.publish sample) true, .closeOnly, .completeConnection,
          .receive (.publish sample) true, .receive (.pubrel sample.header 7) true,
          .receive (.pubrel sample.header 7) true] client ∧
      client.passedOn.Sublist (passed empty client.events) ∧
      (inbound.Along Keeps (initial false true)
          [.completeConnection, .receive (.publish sample) true, .closeOnly, .completeConnection,
            .receive (.publish sample) true, .receive (.pubrel sample.header 7) true,
            .receive (.pubrel sample.header 7) true] →
        client.passedOn = passed empty client.events) :=
  have hr := Machine.Run.exec_iff.mp rfl
  ⟨_, hr, passed_on_once hr⟩

/-- A server that sends its packets again, each until it has the answer, has no message passed on
more or less often for that, nor in another order, as long as the client keeps its session and has
a callback for what waits. -/
theorem repeats_pass_nothing_on (hr : inbound.Run (initial cleansession ma) acts client)
    (hkeeps : inbound.Along Keeps (initial cleansession ma) acts) {cleansession' ma' : Bool}
    {client' : Inbound} {acts' : List InAction}
    (hr' : inbound.Run (initial cleansession' ma') acts' client')
    (hkeeps' : inbound.Along Keeps (initial cleansession' ma') acts')
    (hrepeats : Exchange.Repeats client.events client'.events) :
    client'.passedOn = client.passedOn := by
  rw [(exact_run hr hkeeps).passedOn, (exact_run hr' hkeeps').passedOn]
  exact hrepeats.passed empty

/-- Both packets of an exchange once, and both twice. -/
theorem repeats_pass_nothing_on_twice :
    ∃ client client', inbound.Run (initial false true)
        [.completeConnection, .receive (.publish sample) true,
          .receive (.pubrel sample.header 7) true] client ∧
      inbound.Run (initial false true)
        [.completeConnection, .receive (.publish sample) true, .receive (.publish sample) true,
          .receive (.pubrel sample.header 7) true, .receive (.pubrel sample.header 7) true]
        client' ∧
      client'.passedOn = client.passedOn :=
  have hr := Machine.Run.exec_iff.mp rfl
  have hr' := Machine.Run.exec_iff.mp rfl
  have hoffer := @Exchange.Repeats.again Nat QEntry [.offer 7 (.ofPublish sample), .release 7]
    [] [] [.release 7] (.offer 7 (.ofPublish sample)) (.refl _) nofun nofun
  have hrelease := @Exchange.Repeats.again Nat QEntry [.offer 7 (.ofPublish sample), .release 7]
    [.offer 7 (.ofPublish sample), .offer 7 (.ofPublish sample)] [] [] (.release 7) hoffer nofun
    nofun
  ⟨_, _, hr, hr', repeats_pass_nothing_on hr
    ⟨rfl, fun _ _ => ⟨trivial, fun _ _ => ⟨trivial, fun _ _ => trivial⟩⟩⟩ hr'
    ⟨rfl, fun _ _ => ⟨trivial, fun _ _ => ⟨trivial, fun _ _ => ⟨trivial, fun _ _ =>
      ⟨trivial, fun _ _ => trivial⟩⟩⟩⟩⟩ (by exact hrelease)⟩

/-! ### The answers to PUBREL -/

/-- A message with QoS 2 has been read with the id, and has not been released since. -/
def Awaits (msgId : Nat) (received : List Received) : Prop :=
  ∃ front pack back, received = front ++ .publish pack :: back ∧ pack.header.qos.val = 2 ∧
    pack.msgId = msgId ∧ ∀ header, Received.pubrel header msgId ∉ back

theorem awaits_concat {msgId : Nat} {received : List Received} {last : Received} :
    Awaits msgId (received ++ [last]) ↔
      (∃ pack, last = .publish pack ∧ pack.header.qos.val = 2 ∧ pack.msgId = msgId) ∨
        (Awaits msgId received ∧ ∀ header, last ≠ .pubrel header msgId) := by
  constructor
  · rintro ⟨front, pack, back, heq, hqos, hid, hback⟩
    obtain rfl | ⟨more, last', rfl⟩ := List.eq_nil_or_concat back
    · obtain ⟨-, hlast⟩ := List.append_inj' heq rfl
      exact .inl ⟨pack, List.singleton_inj.mp hlast, hqos, hid⟩
    · rw [List.concat_eq_append, ← List.cons_append, ← List.append_assoc] at heq
      obtain ⟨hfront, hlast⟩ := List.append_inj' heq rfl
      obtain rfl := List.singleton_inj.mp hlast
      refine .inr ⟨⟨front, pack, more, hfront, hqos, hid, fun header hmem => ?_⟩,
        fun header hlast => ?_⟩
      · exact hback header (by simp [hmem])
      · exact hback header (by simp [hlast])
  · rintro (⟨pack, rfl, hqos, hid⟩ | ⟨⟨front, pack, back, rfl, hqos, hid, hback⟩, hlast⟩)
    · exact ⟨received, pack, [], rfl, hqos, hid, fun _ => List.not_mem_nil⟩
    · refine ⟨front, pack, back ++ [last], by simp, hqos, hid, fun header hmem => ?_⟩
      obtain hmem | hmem := List.mem_append.mp hmem
      · exact hback header hmem
      · exact hlast header (List.mem_singleton.mp hmem).symm

theorem awaits_concat_publish {msgId : Nat} {received : List Received} {pack : Publish} :
    Awaits msgId (received ++ [.publish pack]) ↔
      (pack.header.qos.val = 2 ∧ pack.msgId = msgId) ∨ Awaits msgId received := by
  rw [awaits_concat]
  constructor
  · rintro (⟨_, heq, hqos⟩ | ⟨h, -⟩)
    · cases heq
      exact .inl hqos
    · exact .inr h
  · rintro (hqos | h)
    · exact .inl ⟨pack, rfl, hqos⟩
    · exact .inr ⟨h, fun _ => nofun⟩

theorem awaits_concat_pubrel {msgId id : Nat} {received : List Received} {header : Header} :
    Awaits msgId (received ++ [.pubrel header id]) ↔ msgId ≠ id ∧ Awaits msgId received := by
  rw [awaits_concat]
  constructor
  · rintro (⟨_, heq, -⟩ | ⟨h, hother⟩)
    · cases heq
    · exact ⟨fun hid => hother header (by rw [hid]), h⟩
  · rintro ⟨hid, h⟩
    refine .inr ⟨h, fun _ heq => hid ?_⟩
    cases heq
    rfl

/-- What is kept under an id is what has been read and not been released. -/
theorem held_isSome_iff {msgId : Nat} {received : List Received} :
    (held empty (received.flatMap Received.events) msgId).isSome ↔ Awaits msgId received := by
  induction received using List.reverseRecOn with
  | nil =>
      refine iff_of_false (by simp [held, empty]) ?_
      rintro ⟨front, pack, back, heq, -⟩
      exact absurd heq.symm (by simp)
  | append_singleton received last ih =>
      rw [List.flatMap_append, List.flatMap_singleton, Exchange.held_append]
      generalize held empty (received.flatMap Received.events) = store at ih ⊢
      cases last with
      | publish pack =>
          rw [Received.events, awaits_concat_publish, ← ih]
          split_ifs with hlow hqos
          · show (store msgId).isSome ↔ _
            rw [or_iff_right fun h => by omega]
          · show (Function.update store pack.msgId (some _) msgId).isSome ↔ _
            rw [Function.update_apply]
            split_ifs with hid
            · exact iff_of_true rfl (.inl ⟨hqos, hid.symm⟩)
            · rw [or_iff_right fun h => hid h.2.symm]
          · show (store msgId).isSome ↔ _
            rw [or_iff_right fun h => hqos h.1]
      | pubrel header id =>
          rw [awaits_concat_pubrel, ← ih]
          show (Function.update store id none msgId).isSome ↔ _
          rw [Function.update_apply]
          split_ifs with hid
          · exact iff_of_false (by simp) fun h => h.1 hid
          · exact (and_iff_right hid).symm

theorem acks_processPublication (publish : Publish) (answer : Bool) :
    (client.processPublication publish answer).acks = client.acks := by
  rw [processPublication]
  dsimp only
  split_ifs <;> rfl

theorem acks_handlePubrels (h : client.Good) (header : Header) (msgId : Nat) (answer : Bool) :
    (client.handlePubrels header msgId answer).acks = client.acks ++
      if header.dup = true ∨ (client.store msgId).isSome = true then [(PUBCOMP, msgId)]
      else [] := by
  rw [handlePubrels, store]
  cases hfind : client.inboundMsgs.find? (·.msgid = msgId) with
  | none =>
      dsimp only
      split_ifs with hdup hor hor
      · rfl
      · exact absurd (.inl hdup) hor
      · exact absurd hor (by simp [hdup])
      · exact (List.append_nil _).symm
  | some m =>
      have hkept : ¬ (m.qos.val ≠ 2 ∨ m.nextMessageType ≠ PUBREL) := by
        rw [not_or, not_ne_iff, not_ne_iff]
        exact h.waiting m (List.mem_of_find?_eq_some hfind)
      dsimp only
      rw [if_neg hkept, if_pos (.inr rfl)]
      exact acks_processPublication _ answer

/-- PUBREL is answered if it is marked as sent again, or if its message has been read and not been
released; otherwise nothing comes back. -/
theorem pubrel_answered_iff (hr : inbound.Run (initial cleansession ma) acts client)
    (hkeeps : inbound.Along KeepsSession (initial cleansession ma) acts) (header : Header)
    (msgId : Nat) (answer : Bool) :
    (client.handlePubrels header msgId answer).acks = client.acks ++ [(PUBCOMP, msgId)] ↔
      header.dup = true ∨ Awaits msgId client.received := by
  have h := kept_run hr hkeeps
  rw [acks_handlePubrels h.good, h.store, events, ← held_isSome_iff, List.append_right_inj]
  split_ifs with hor
  · exact iff_of_true rfl hor
  · exact iff_of_false (fun h => nomatch h) hor

/-- The first PUBREL for a message is answered, though it is not marked. -/
theorem pubrel_answered_iff_first :
    ∃ client, inbound.Run (initial false true)
        [.completeConnection, .receive (.publish sample) true] client ∧
      ((client.handlePubrels (.request PUBREL false) 7 true).acks =
          client.acks ++ [(PUBCOMP, 7)] ↔
        (Header.request PUBREL false).dup = true ∨ Awaits 7 client.received) :=
  have hr := Machine.Run.exec_iff.mp rfl
  ⟨_, hr, pubrel_answered_iff hr ⟨rfl, fun _ _ => ⟨trivial, fun _ _ => trivial⟩⟩
    (.request PUBREL false) 7 true⟩

end Runs

end Inbound

end MQTTPacket
