import WatsonIotp.Mqtt.Inbound
import WatsonIotp.Mqtt.Reading

/-!
# Messages to the server

A message with QoS 1 or 2 is kept until the server has acknowledged it: with PUBACK, or with PUBREC,
which is answered with PUBREL, and PUBCOMP. Whatever else the server acknowledges in between, the
message goes exactly when it has got what it waits for, in this order (`acknowledged_iff`).
-/

namespace MQTTPacket

/-! ### The code -/

theorem mod_four_lt (qos : Nat) : qos % 4 < 4 :=
  Nat.mod_lt qos (Nat.succ_pos 3)

/-- `MQTTProtocol_createMessage(publish, mm, qos, retained)`. The code sets `nextMessageType` with
QoS 2 only; otherwise nothing reads it. -/
def createMessage (publish : Publish) (qos : Nat) (retained : Bool) : Messages where
  msgid := publish.msgId
  qos := ⟨qos % 4, mod_four_lt qos⟩
  retain := retained
  topic := publish.topic
  payload := publish.payload
  nextMessageType := PUBREC

/-- What `MQTTProtocol_startPublish(pubclient, publish, qos, retained, mm)` does to
`outboundMsgs`, whatever becomes of the packet. -/
def startPublish (publish : Publish) (qos : Nat) (retained : Bool) (outboundMsgs : List Messages) :
    List Messages :=
  if 0 < qos then outboundMsgs ++ [createMessage publish qos retained] else outboundMsgs

/-- `MQTTProtocol_handlePubacks(pack, sock)`. -/
def handlePubacks (msgId : Nat) (outboundMsgs : List Messages) : List Messages :=
  match outboundMsgs.find? (·.msgid = msgId) with
  | none => outboundMsgs
  | some m => if m.qos.val ≠ 1 then outboundMsgs else outboundMsgs.eraseP (·.msgid = msgId)

/-- `MQTTProtocol_handlePubrecs(pack, sock)`, but for the PUBREL. -/
def handlePubrecs (msgId : Nat) (outboundMsgs : List Messages) : List Messages :=
  match outboundMsgs.find? (·.msgid = msgId) with
  | none => outboundMsgs
  | some m =>
      if m.qos.val ≠ 2 ∨ m.nextMessageType ≠ PUBREC then outboundMsgs
      else Sockets.modifyFirst (·.msgid = msgId) (fun m => { m with nextMessageType := PUBCOMP })
        outboundMsgs

/-- `MQTTProtocol_handlePubcomps(pack, sock)`. -/
def handlePubcomps (msgId : Nat) (outboundMsgs : List Messages) : List Messages :=
  match outboundMsgs.find? (·.msgid = msgId) with
  | none => outboundMsgs
  | some m =>
      if m.qos.val ≠ 2 ∨ m.nextMessageType ≠ PUBCOMP then outboundMsgs
      else outboundMsgs.eraseP (·.msgid = msgId)

/-- The acknowledgements that are for messages, with the message id. -/
inductive Ack where
  | puback (msgId : Nat)
  | pubrec (msgId : Nat)
  | pubcomp (msgId : Nat)
  deriving DecidableEq

/-- What `MQTTAsync_cycle` does to `outboundMsgs` with an acknowledgement. -/
def Ack.handle : Ack → List Messages → List Messages
  | .puback msgId => handlePubacks msgId
  | .pubrec msgId => handlePubrecs msgId
  | .pubcomp msgId => handlePubcomps msgId

/-- The acknowledgements in a row. -/
def handleAll (acks : List Ack) (outboundMsgs : List Messages) : List Messages :=
  acks.foldl (fun msgs ack => ack.handle msgs) outboundMsgs

/-! ### What a message waits for -/

def Ack.msgId : Ack → Nat
  | .puback msgId => msgId
  | .pubrec msgId => msgId
  | .pubcomp msgId => msgId

/-- The acknowledgements that a message still needs. -/
def Messages.needed (m : Messages) : List Ack :=
  if m.qos.val = 1 then [.puback m.msgid]
  else if m.nextMessageType = PUBREC then [.pubrec m.msgid, .pubcomp m.msgid]
  else [.pubcomp m.msgid]

/-- A message of the list: those with QoS 2 wait for PUBREC or for PUBCOMP. -/
def Messages.IsOutbound (m : Messages) : Prop :=
  m.qos.val = 1 ∨ m.qos.val = 2 ∧ (m.nextMessageType = PUBREC ∨ m.nextMessageType = PUBCOMP)

section Acknowledged

variable {msgs : List Messages} {m : Messages} {ack : Ack} {msgid : Nat}

theorem isOutbound_createMessage {publish : Publish} {qos : Nat} {retained : Bool}
    (h : 0 < qos) (hqos : qos ≤ 2) : (createMessage publish qos retained).IsOutbound := by
  rcases (by omega : qos = 1 ∨ qos = 2) with rfl | rfl
  · exact .inl rfl
  · exact .inr ⟨rfl, .inl rfl⟩

theorem needed_of_qos_one (hqos : m.qos.val = 1) : m.needed = [.puback m.msgid] :=
  if_pos hqos

theorem needed_of_pubrec (hqos : m.qos.val = 2) (hnext : m.nextMessageType = PUBREC) :
    m.needed = [.pubrec m.msgid, .pubcomp m.msgid] := by
  have hone : m.qos.val ≠ 1 := by omega
  rw [Messages.needed, if_neg hone, if_pos hnext]

theorem needed_of_pubcomp (hqos : m.qos.val = 2) (hnext : m.nextMessageType = PUBCOMP) :
    m.needed = [.pubcomp m.msgid] := by
  have hone : m.qos.val ≠ 1 := by omega
  have hrec : ¬ m.nextMessageType = PUBREC := by
    rw [hnext]
    decide
  rw [Messages.needed, if_neg hone, if_neg hrec]

theorem needed_ne_nil : m.needed ≠ [] := by
  rw [Messages.needed]
  split_ifs <;> exact List.cons_ne_nil _ _

/-- Other messages are none of the acknowledgement's business. -/
theorem filter_handle_other (h : ack.msgId ≠ msgid) :
    (ack.handle msgs).filter (·.msgid = msgid) = msgs.filter (·.msgid = msgid) := by
  have hother : ∀ x : Messages, decide (x.msgid = ack.msgId) = true →
      decide (x.msgid = msgid) = false := by
    intro x hx
    rw [of_decide_eq_true hx]
    exact decide_eq_false h
  have herase : (msgs.eraseP (·.msgid = ack.msgId)).filter (·.msgid = msgid) =
      msgs.filter (·.msgid = msgid) := Sockets.filter_eraseP_other hother
  cases ack with
  | puback msgId =>
      rw [Ack.handle, handlePubacks]
      split
      · rfl
      · split_ifs
        · rfl
        · exact herase
  | pubrec msgId =>
      rw [Ack.handle, handlePubrecs]
      split
      · rfl
      · split_ifs
        · rfl
        · exact Sockets.filter_modifyFirst_other fun x hx => ⟨hother x hx, hother x hx⟩
  | pubcomp msgId =>
      rw [Ack.handle, handlePubcomps]
      split
      · rfl
      · split_ifs
        · rfl
        · exact herase

/-- The message with the id is found. -/
theorem find_of_filter (hm : msgs.filter (·.msgid = m.msgid) = [m]) :
    msgs.find? (·.msgid = m.msgid) = some m := by
  rw [← List.head?_filter, hm]
  rfl

theorem filter_handle_nil (hnone : msgs.filter (·.msgid = msgid) = []) :
    (ack.handle msgs).filter (·.msgid = msgid) = [] := by
  by_cases hid : ack.msgId = msgid
  · subst hid
    have hfind : msgs.find? (·.msgid = ack.msgId) = none := by
      rw [← List.head?_filter, hnone]
      rfl
    have hhandle : ack.handle msgs = msgs := by
      cases ack with
      | puback msgId =>
          change msgs.find? (·.msgid = msgId) = none at hfind
          rw [Ack.handle, handlePubacks, hfind]
      | pubrec msgId =>
          change msgs.find? (·.msgid = msgId) = none at hfind
          rw [Ack.handle, handlePubrecs, hfind]
      | pubcomp msgId =>
          change msgs.find? (·.msgid = msgId) = none at hfind
          rw [Ack.handle, handlePubcomps, hfind]
    rw [hhandle, hnone]
  · rw [filter_handle_other hid, hnone]

/-- What a message does not wait for does nothing to it. -/
theorem filter_handle_unneeded (hm : msgs.filter (·.msgid = m.msgid) = [m])
    (hneeded : m.needed.head? ≠ some ack) :
    (ack.handle msgs).filter (·.msgid = m.msgid) = [m] := by
  by_cases hid : ack.msgId = m.msgid
  · have hfind := find_of_filter hm
    have hhandle : ack.handle msgs = msgs := by
      cases ack with
      | puback msgId =>
          obtain rfl : msgId = m.msgid := hid
          rw [Ack.handle, handlePubacks, hfind]
          refine if_pos fun hqos => hneeded ?_
          rw [needed_of_qos_one hqos]
          rfl
      | pubrec msgId =>
          obtain rfl : msgId = m.msgid := hid
          rw [Ack.handle, handlePubrecs, hfind]
          refine if_pos (or_iff_not_imp_left.mpr fun hqos hnext => hneeded ?_)
          rw [needed_of_pubrec (not_not.mp hqos) hnext]
          rfl
      | pubcomp msgId =>
          obtain rfl : msgId = m.msgid := hid
          rw [Ack.handle, handlePubcomps, hfind]
          refine if_pos (or_iff_not_imp_left.mpr fun hqos hnext => hneeded ?_)
          rw [needed_of_pubcomp (not_not.mp hqos) hnext]
          rfl
    rw [hhandle, hm]
  · rw [filter_handle_other hid, hm]

/-- With what it waits for, a message goes or waits for the rest. -/
theorem filter_handle_needed {rest : List Ack} (hm : msgs.filter (·.msgid = m.msgid) = [m])
    (h : m.IsOutbound) (hneeded : m.needed = ack :: rest) :
    (rest = [] ∧ (ack.handle msgs).filter (·.msgid = m.msgid) = []) ∨
      ∃ m' : Messages, m'.msgid = m.msgid ∧ m'.IsOutbound ∧ m'.needed = rest ∧
        (ack.handle msgs).filter (·.msgid = m.msgid) = [m'] := by
  have hfind := find_of_filter hm
  have herase : (msgs.eraseP (·.msgid = m.msgid)).filter (·.msgid = m.msgid) = [] := by
    rw [Sockets.filter_eraseP, hm]
    rfl
  rcases h with hqos | ⟨hqos, hnext | hnext⟩
  · rw [needed_of_qos_one hqos] at hneeded
    cases hneeded
    refine .inl ⟨rfl, ?_⟩
    rw [Ack.handle, handlePubacks, hfind]
    dsimp only
    rw [if_neg (not_not_intro hqos), herase]
  · rw [needed_of_pubrec hqos hnext] at hneeded
    cases hneeded
    refine .inr ⟨{ m with nextMessageType := PUBCOMP }, rfl, .inr ⟨hqos, .inr rfl⟩,
      needed_of_pubcomp hqos rfl, ?_⟩
    rw [Ack.handle, handlePubrecs, hfind]
    dsimp only
    rw [if_neg (by simp [hqos, hnext])]
    exact Sockets.filter_modifyFirst (fun _ hx => hx) hm
  · rw [needed_of_pubcomp hqos hnext] at hneeded
    cases hneeded
    refine .inl ⟨rfl, ?_⟩
    rw [Ack.handle, handlePubcomps, hfind]
    dsimp only
    rw [if_neg (by simp [hqos, hnext]), herase]

theorem filter_handleAll_nil {acks : List Ack} (hnone : msgs.filter (·.msgid = msgid) = []) :
    (handleAll acks msgs).filter (·.msgid = msgid) = [] := by
  induction acks generalizing msgs with
  | nil => exact hnone
  | cons ack acks ih => exact ih (filter_handle_nil hnone)

theorem filter_handleAll_iff {acks : List Ack} (hm : msgs.filter (·.msgid = m.msgid) = [m])
    (h : m.IsOutbound) :
    (handleAll acks msgs).filter (·.msgid = m.msgid) = [] ↔ m.needed.Sublist acks := by
  induction acks generalizing msgs m with
  | nil =>
      rw [show handleAll [] msgs = msgs from rfl, hm, List.sublist_nil]
      exact iff_of_false (List.cons_ne_nil _ _) needed_ne_nil
  | cons ack acks ih =>
      show (handleAll acks (ack.handle msgs)).filter _ = [] ↔ _
      by_cases hhead : m.needed.head? = some ack
      · obtain ⟨rest, hneeded⟩ := List.head?_eq_some_iff.mp hhead
        rw [hneeded, List.cons_sublist_cons]
        rcases filter_handle_needed hm h hneeded with ⟨rfl, hgone⟩ | ⟨m', hid, hout, hrest, hm'⟩
        · exact iff_of_true (filter_handleAll_nil hgone) (List.nil_sublist acks)
        · rw [← hid] at hm' ⊢
          rw [← hrest]
          exact ih hm' hout
      · rw [ih (filter_handle_unneeded hm hhead) h]
        refine ⟨List.Sublist.cons ack, fun hsub => ?_⟩
        rcases List.sublist_cons_iff.mp hsub with hsub | ⟨rest, hrest, _⟩
        · exact hsub
        · exact absurd (by rw [hrest]; rfl) hhead

/-- **A message goes exactly when the server has sent the acknowledgements that the message still
needs, in their order**, whatever else it has sent, before them, between them and after them. -/
theorem acknowledged_iff {acks : List Ack} (hm : msgs.filter (·.msgid = m.msgid) = [m])
    (h : m.IsOutbound) :
    (∀ x ∈ handleAll acks msgs, x.msgid ≠ m.msgid) ↔ m.needed.Sublist acks := by
  rw [← filter_handleAll_iff hm h, List.filter_eq_nil_iff]
  simp only [decide_eq_true_eq, ne_eq]

theorem acknowledged_iff_createMessage :
    (∀ x ∈ handleAll [.pubcomp 7, .pubrec 7, .puback 7, .pubcomp 7]
        [createMessage ⟨.plain PUBLISH, [97], 7, []⟩ 2 false], x.msgid ≠ 7) ↔
      [Ack.pubrec 7, .pubcomp 7].Sublist [.pubcomp 7, .pubrec 7, .puback 7, .pubcomp 7] :=
  acknowledged_iff (m := createMessage ⟨.plain PUBLISH, [97], 7, []⟩ 2 false) rfl
    (isOutbound_createMessage (by decide) le_rfl)

end Acknowledged

end MQTTPacket
