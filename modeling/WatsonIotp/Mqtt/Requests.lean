import WatsonIotp.Mqtt.Contents

/-!
# CONNECT, SUBSCRIBE and UNSUBSCRIBE

The length of the buffer of these packets is added up before it is filled. The texts are C
strings, here without their NULs.
-/

namespace MQTTPacket

/-- `willMessages`. -/
structure Will where
  topic : Bytes
  msg : Bytes
  retained : Bool
  qos : Nat
  deriving DecidableEq

/-- `Clients`, as far as a CONNECT packet tells it. -/
structure Clients where
  clientID : Bytes
  cleansession : Bool
  keepAliveInterval : Nat
  will : Option Will
  username : Option Bytes
  password : Option Bytes
  deriving DecidableEq

theorem writeUTF_append_inj {string string' rest rest' : Bytes} (hs : string.length < 65536)
    (hs' : string'.length < 65536) (h : writeUTF string ++ rest = writeUTF string' ++ rest') :
    string = string' ∧ rest = rest' := by
  have hread := readUTFlen_writeUTF_short hs rest
  rw [h, readUTFlen_writeUTF_short hs'] at hread
  simp only [Option.some.injEq, Prod.mk.injEq] at hread
  exact ⟨hread.1.symm, hread.2.symm⟩

/-- The flags that are told of a will. -/
def Will.bits (will : Will) : Nat :=
  8 * (will.qos % 4) + 32 * will.retained.toNat

theorem toNat_inj {b b' : Bool} (h : b.toNat = b'.toNat) : b = b' := by
  cases b <;> cases b' <;> trivial

/-- Everything can be told in the bytes that there are for it. -/
structure Clients.Fits (client : Clients) : Prop where
  clientID : client.clientID.length < 65536
  keepAliveInterval : client.keepAliveInterval < 65536
  will : ∀ will ∈ client.will,
    will.topic.length < 65536 ∧ will.msg.length < 65536 ∧ will.qos < 4
  username : ∀ username ∈ client.username, username.length < 65536
  password : ∀ password ∈ client.password, password.length < 65536

theorem Will.append_inj {will will' : Option Will} {rest rest' : Bytes}
    (hw : ∀ w ∈ will, w.topic.length < 65536 ∧ w.msg.length < 65536 ∧ w.qos < 4)
    (hw' : ∀ w ∈ will', w.topic.length < 65536 ∧ w.msg.length < 65536 ∧ w.qos < 4)
    (hsome : will.isSome = will'.isSome) (hbits : will.elim 0 Will.bits = will'.elim 0 Will.bits)
    (h : (will.elim [] fun w => writeUTF w.topic ++ writeUTF w.msg) ++ rest =
      (will'.elim [] fun w => writeUTF w.topic ++ writeUTF w.msg) ++ rest') :
    will = will' ∧ rest = rest' := by
  cases will with
  | none =>
      cases will' with
      | none => exact ⟨rfl, h⟩
      | some w' => cases hsome
  | some w =>
      cases will' with
      | none => cases hsome
      | some w' =>
          obtain ⟨htopic, hmsg, hqos⟩ := hw w rfl
          obtain ⟨htopic', hmsg', hqos'⟩ := hw' w' rfl
          simp only [Option.elim_some, List.append_assoc, Will.bits] at h hbits
          obtain ⟨htopics, h⟩ := writeUTF_append_inj htopic htopic' h
          obtain ⟨hmsgs, hrest⟩ := writeUTF_append_inj hmsg hmsg' h
          have hretained := w.retained.toNat_lt
          have hretained' := w'.retained.toNat_lt
          have hretaineds : w.retained = w'.retained := toNat_inj (by omega)
          have hqoss : w.qos = w'.qos := by omega
          obtain ⟨topic, msg, retained, qos⟩ := w
          obtain ⟨topic', msg', retained', qos'⟩ := w'
          subst htopics hmsgs hretaineds hqoss
          exact ⟨rfl, hrest⟩

theorem ofNat_inj {n n' : Nat} (hn : n < 256) (hn' : n' < 256)
    (h : UInt8.ofNat n = UInt8.ofNat n') : n = n' := by
  have hvalue := congrArg UInt8.toNat h
  rw [UInt8.toNat_ofNat', UInt8.toNat_ofNat'] at hvalue
  omega

section Told

variable {msgid msgid' : Nat} {dup dup' : Bool}

variable {wanted wanted' : List (Bytes × Nat)}

end Told

end MQTTPacket
