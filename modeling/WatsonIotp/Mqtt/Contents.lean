import Mathlib.Data.List.TakeWhile
import WatsonIotp.Mqtt.Packet

/-!
# What packets hold

The packets that the client sends and those that it reads. The packets are read out of a
buffer that may be longer than the packet is, so a read behind the packet's data is not noticed
by the code; here it has no value.
-/

namespace MQTTPacket

/-! ### Reading -/

/-- `readInt(pptr)`; `none` where it reads behind the data. -/
def readInt : Bytes → Option (Nat × Bytes)
  | high :: low :: curdata => some (256 * high.toNat + low.toNat, curdata)
  | _ => none

/-- `readChar(pptr)`; `none` where it reads behind the data. -/
def readChar : Bytes → Option (UInt8 × Bytes)
  | c :: curdata => some (c, curdata)
  | [] => none

/-- `readUTFlen(pptr, enddata, len)`; `none` is `NULL`. -/
def readUTFlen (curdata : Bytes) : Option (Bytes × Bytes) :=
  match readInt curdata with
  | none => none
  | some (len, curdata) =>
      if len ≤ curdata.length then some (curdata.take len, curdata.drop len) else none

/-- `Publish`, with the lengths that are those of the topic and the payload. -/
structure Publish where
  header : Header
  topic : Bytes
  msgId : Nat
  payload : Bytes
  deriving DecidableEq

/-- The packets that the client reads. -/
inductive Packet where
  | connack (header : Header) (flags rc : UInt8)
  | publish (pack : Publish)
  | ack (header : Header) (msgId : Nat)
  | suback (header : Header) (msgId : Nat) (qoss : List UInt8)
  | headerOnly (header : Header)
  deriving DecidableEq

/-- A read behind the data has no value. -/
def inside {α : Type} : Option α → Except Failure α
  | some a => .ok a
  | none => .error .undefined

/-- `MQTTPacket_connack(aHeader, data, datalen)`. -/
def connack (aHeader : UInt8) (data : Bytes) : Except Failure Packet := do
  let (flags, curdata) ← inside (readChar data)
  let (rc, _) ← inside (readChar curdata)
  return .connack (.ofByte aHeader) flags rc

/-- `MQTTPacket_publish(aHeader, data, datalen)`. -/
def publish (aHeader : UInt8) (data : Bytes) : Except Failure Packet :=
  match readUTFlen data with
  | none => .error .badPacket
  | some (topic, curdata) => do
      let header := Header.ofByte aHeader
      if 0 < header.qos then
        let (msgId, payload) ← inside (readInt curdata)
        return .publish ⟨header, topic, msgId, payload⟩
      else
        return .publish ⟨header, topic, 0, curdata⟩

/-- `MQTTPacket_ack(aHeader, data, datalen)`. -/
def ack (aHeader : UInt8) (data : Bytes) : Except Failure Packet := do
  let (msgId, _) ← inside (readInt data)
  return .ack (.ofByte aHeader) msgId

/-- `MQTTPacket_suback(aHeader, data, datalen)`. -/
def suback (aHeader : UInt8) (data : Bytes) : Except Failure Packet := do
  let (msgId, qoss) ← inside (readInt data)
  return .suback (.ofByte aHeader) msgId qoss

/-- `MQTTPacket_header_only(aHeader, data, datalen)`. -/
def headerOnly (aHeader : UInt8) (_ : Bytes) : Except Failure Packet :=
  .ok (.headerOnly (.ofByte aHeader))

/-- `new_packets`. -/
def newPackets : List (Option (UInt8 → Bytes → Except Failure Packet)) :=
  [none, none, some connack, some publish, some ack, some ack, some ack, some ack, none,
    some suback, none, some ack, some headerOnly, some headerOnly, some headerOnly]

/-- The part of `MQTTPacket_Factory` that makes the packet; without a packet and without an
error the data is just dropped. -/
def makePacket (byte : UInt8) (data : Bytes) : Except Failure (Option Packet) :=
  let ptype := (Header.ofByte byte).type
  if ptype < CONNECT ∨ DISCONNECT < ptype then .ok none
  else
    match newPackets[ptype.val]? with
    | some (some new) => some <$> new byte data
    | _ => .ok none

/-- `MQTTPacket_Factory(net, error)`. -/
def factory {σ : Type} (getch : σ → Except Failure UInt8 × σ)
    (getdata : Nat → σ → Except Failure Bytes × σ) (net : σ) : Except Failure (Option Packet) × σ :=
  match readPacket getch getdata net with
  | (.error rc, net) => (.error rc, net)
  | (.ok (byte, data), net) => (makePacket byte data, net)

/-! ### Writing -/

/-- `writeInt(pptr, anInt)`. -/
def writeInt (anInt : Nat) : Bytes :=
  [UInt8.ofNat (anInt / 256), UInt8.ofNat (anInt % 256)]

/-- `writeUTF(pptr, string)`. -/
def writeUTF (string : Bytes) : Bytes :=
  writeInt string.length ++ string

/-- The buffers that `MQTTPacket_send(net, header, buffer, buflen, free)` writes. -/
def send (header : Header) (buffer : Bytes) : List Bytes :=
  [header.byte :: encode buffer.length, buffer]

/-- The buffers that `MQTTPacket_sends(net, header, count, buffers, buflens, frees)` writes. -/
def sends (header : Header) (buffers : List Bytes) : List Bytes :=
  (header.byte :: encode (buffers.map List.length).sum) :: buffers

/-- `MQTTPacket_send_publish(pack, dup, qos, retained, net, clientID)`, with a topic that ends
where its NUL is. -/
def sendPublish (pack : Publish) (dup : Bool) (qos : Nat) (retained : Bool) : List Bytes :=
  let header : Header := ⟨retained, Fin.ofNat 4 qos, dup, PUBLISH⟩
  let topic := pack.topic.takeWhile (· ≠ 0)
  if 0 < qos then
    sends header [writeInt topic.length, topic, writeInt pack.msgId, pack.payload]
  else
    sends header [writeInt topic.length, topic, pack.payload]

/-- `MQTTPacket_send_ack(type, msgid, dup, net)`. -/
def sendAck (type : Fin 16) (msgid : Nat) (dup : Bool) : List Bytes :=
  send ⟨false, if type = PUBREL then 1 else 0, dup, type⟩ (writeInt msgid)

/-- The header of a packet without flags. -/
def Header.plain (type : Fin 16) : Header :=
  ⟨false, 0, false, type⟩

/-- The header of a request for or against topics. -/
def Header.request (type : Fin 16) (dup : Bool) : Header :=
  ⟨false, 1, dup, type⟩

/-- `MQTTPacket_send_disconnect` and `MQTTPacket_send_pingreq`. -/
def sendHeader (type : Fin 16) : List Bytes :=
  send (.plain type) []

theorem flatten_send (header : Header) (buffer : Bytes) :
    (send header buffer).flatten = frame header.byte buffer := by
  rw [send, frame, List.flatten_cons, List.flatten_cons, List.flatten_nil, List.append_nil]

theorem flatten_sends (header : Header) (buffers : List Bytes) :
    (sends header buffers).flatten = frame header.byte buffers.flatten := by
  rw [sends, frame, List.flatten_cons, List.length_flatten]

/-! ### Round trips -/

/-- Two bytes are written of every integer. -/
theorem readInt_writeInt (n : Nat) (rest : Bytes) :
    readInt (writeInt n ++ rest) = some (n % 65536, rest) := by
  have hvalue : 256 * (UInt8.ofNat (n / 256)).toNat + (UInt8.ofNat (n % 256)).toNat =
      n % 65536 := by
    rw [UInt8.toNat_ofNat', UInt8.toNat_ofNat']
    omega
  show some (256 * (UInt8.ofNat (n / 256)).toNat + (UInt8.ofNat (n % 256)).toNat, rest) = _
  rw [hvalue]

/-- Of a longer text as many bytes are read as the two bytes of its length say. -/
theorem readUTFlen_writeUTF (string rest : Bytes) :
    readUTFlen (writeUTF string ++ rest) =
      some ((string ++ rest).take (string.length % 65536),
        (string ++ rest).drop (string.length % 65536)) := by
  have henough : string.length % 65536 ≤ (string ++ rest).length := by
    rw [List.length_append]
    omega
  rw [readUTFlen, writeUTF, List.append_assoc, readInt_writeInt]
  simp only [henough, if_true]

theorem readUTFlen_writeUTF_short {string : Bytes} (h : string.length < 65536) (rest : Bytes) :
    readUTFlen (writeUTF string ++ rest) = some (string, rest) := by
  rw [readUTFlen_writeUTF, Nat.mod_eq_of_lt h, List.take_left, List.drop_left]

theorem makePacket_publish {header : Header} (h : header.type = PUBLISH) (data : Bytes) :
    makePacket header.byte data = some <$> publish header.byte data := by
  have hnew : newPackets[PUBLISH.val]? = some (some publish) := rfl
  have htype : ¬ (PUBLISH < CONNECT ∨ DISCONNECT < PUBLISH) := by decide
  simp only [makePacket, Header.ofByte_byte, h, hnew, htype, if_false]

/-- The data of a packet that is sent. -/
def publishData (pack : Publish) (qos : Nat) : Bytes :=
  writeUTF (pack.topic.takeWhile (· ≠ 0)) ++
    ((if 0 < qos then writeInt pack.msgId else []) ++ pack.payload)

theorem flatten_sendPublish (pack : Publish) (dup : Bool) (qos : Nat) (retained : Bool) :
    (sendPublish pack dup qos retained).flatten =
      frame (Header.byte ⟨retained, Fin.ofNat 4 qos, dup, PUBLISH⟩) (publishData pack qos) := by
  simp only [sendPublish, publishData, writeUTF]
  split_ifs <;> simp only [flatten_sends, List.flatten_cons, List.flatten_nil, List.append_nil,
    List.append_assoc, List.nil_append]

theorem readInt_eq_some {data : Bytes} (h : 2 ≤ data.length) :
    ∃ n rest, readInt data = some (n, rest) := by
  match data, h with
  | high :: low :: rest, _ => exact ⟨_, rest, rfl⟩

theorem qos_pos_iff {qos : Nat} (h : qos < 4) : 0 < Fin.ofNat 4 qos ↔ 0 < qos := by
  rw [Fin.lt_def, Fin.val_zero, Fin.val_ofNat, Nat.mod_eq_of_lt h]

/-- A packet is read whatever the topic is. Of its topic there are as many bytes as its length
says, and the rest is right where the topic is. -/
theorem publish_publishData (pack : Publish) {qos : Nat} (header : Header) (hqos : qos < 4)
    (hheader : header.qos = Fin.ofNat 4 qos) :
    ∃ topic msgId payload, publish header.byte (publishData pack qos) =
        .ok (.publish ⟨header, topic, msgId, payload⟩) ∧
      topic.length = (pack.topic.takeWhile (· ≠ 0)).length % 65536 ∧
      ((pack.topic.takeWhile (· ≠ 0)).length < 65536 →
        topic = pack.topic.takeWhile (· ≠ 0) ∧
          msgId = (if 0 < qos then pack.msgId % 65536 else 0) ∧ payload = pack.payload) := by
  generalize hsent : pack.topic.takeWhile (· ≠ 0) = sent
  have hdata : publishData pack qos =
      writeUTF sent ++ ((if 0 < qos then writeInt pack.msgId else []) ++ pack.payload) := by
    rw [publishData, hsent]
  have hlength : ∀ rest, ((sent ++ rest).take (sent.length % 65536)).length =
      sent.length % 65536 := fun rest => by
    rw [List.length_take, List.length_append]
    omega
  simp only [hdata, publish, readUTFlen_writeUTF, Header.ofByte_byte, hheader, qos_pos_iff hqos]
  by_cases hpos : 0 < qos
  · simp only [hpos, if_true]
    by_cases hshort : sent.length < 65536
    · rw [Nat.mod_eq_of_lt hshort, List.take_left, List.drop_left, readInt_writeInt]
      exact ⟨_, _, _, rfl, rfl, fun _ => ⟨rfl, rfl, rfl⟩⟩
    · have hlong : 2 ≤ ((sent ++ (writeInt pack.msgId ++ pack.payload)).drop
          (sent.length % 65536)).length := by
        rw [List.length_drop, List.length_append]
        omega
      obtain ⟨n, rest, hread⟩ := readInt_eq_some hlong
      rw [hread]
      exact ⟨_, _, _, rfl, hlength _, fun h => absurd h hshort⟩
  · simp only [hpos, if_false]
    refine ⟨_, _, _, rfl, hlength _, fun hshort => ?_⟩
    rw [Nat.mod_eq_of_lt hshort, List.nil_append, List.take_left, List.drop_left]
    exact ⟨rfl, rfl, rfl⟩

theorem takeWhile_eq_self_iff_notMem {topic : Bytes} :
    topic.takeWhile (· ≠ 0) = topic ↔ 0 ∉ topic := by
  rw [List.takeWhile_eq_self_iff]
  constructor
  · intro h hmem
    simpa using h 0 hmem
  · intro h c hc
    simpa using fun hzero : c = 0 => h (hzero ▸ hc)

/-- A message that is published is read as it was just if its topic has no NUL and no more bytes
than can be told in two bytes; nothing looks at the length of a topic before it is sent. -/
theorem factory_sendPublish_iff {pack : Publish} {qos : Nat} (hqos : qos < 4)
    (hmsgId : if 0 < qos then pack.msgId < 65536 else pack.msgId = 0)
    (hlength : (publishData pack qos).length < maxLength) (dup retained : Bool) (rest : Bytes) :
    factory Bytes.getch Bytes.getdata ((sendPublish pack dup qos retained).flatten ++ rest) =
        (.ok (some (.publish { pack with
          header := ⟨retained, Fin.ofNat 4 qos, dup, PUBLISH⟩ })), rest) ↔
      0 ∉ pack.topic ∧ pack.topic.length < 65536 := by
  obtain ⟨topic, msgId, payload, hread, htopic, hshort⟩ :=
    publish_publishData pack ⟨retained, Fin.ofNat 4 qos, dup, PUBLISH⟩ hqos rfl
  have hprefix : (pack.topic.takeWhile (· ≠ 0)).length ≤ pack.topic.length :=
    (List.takeWhile_prefix _).length_le
  have hresult : factory Bytes.getch Bytes.getdata
      ((sendPublish pack dup qos retained).flatten ++ rest) = (.ok (some (.publish
        ⟨⟨retained, Fin.ofNat 4 qos, dup, PUBLISH⟩, topic, msgId, payload⟩)), rest) := by
    rw [factory, flatten_sendPublish, readPacket_frame hlength]
    simp only [makePacket_publish, hread]
    rfl
  rw [hresult]
  constructor
  · intro heq
    obtain rfl : topic = pack.topic := by
      simp only [Prod.mk.injEq, Except.ok.injEq, Option.some.injEq, Packet.publish.injEq,
        Publish.mk.injEq] at heq
      exact heq.1.2.1
    have hsmall : pack.topic.length < 65536 := by omega
    exact ⟨takeWhile_eq_self_iff_notMem.mp (hshort (by omega)).1.symm, hsmall⟩
  · rintro ⟨hnul, hsmall⟩
    obtain ⟨htopic, hid, rfl⟩ := hshort (by omega)
    rw [takeWhile_eq_self_iff_notMem.mpr hnul] at htopic
    have hid : msgId = pack.msgId := by
      rw [hid]
      split_ifs at hmsgId ⊢ with hpos
      · exact Nat.mod_eq_of_lt hmsgId
      · exact hmsgId.symm
    rw [htopic, hid]

/-- A message of two bytes with QoS 1. -/
theorem factory_sendPublish_iff_qos1 :
    factory Bytes.getch Bytes.getdata
        ((sendPublish ⟨⟨false, 0, false, 0⟩, [105], 7, [1, 2]⟩ false 1 true).flatten ++ []) =
        (.ok (some (.publish ⟨⟨true, 1, false, PUBLISH⟩, [105], 7, [1, 2]⟩)), []) ↔
      0 ∉ ([105] : Bytes) ∧ ([105] : Bytes).length < 65536 :=
  factory_sendPublish_iff (by decide) (by decide) (by decide) false true []

end MQTTPacket
