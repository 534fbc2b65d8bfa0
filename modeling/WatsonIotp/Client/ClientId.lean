import WatsonIotp.Client.Connection
import WatsonIotp.Text.Search

/-!
# The client ids of devices and gateways

A client id joins the kind of the client, the organization, the device type and the device id
by colons, and `InitializeMqttClient` accepts properties with colons in them. `clientID_iff`
says which clients with one id are the same device.
-/

/-- The properties name the same device. -/
structure SameDevice (p q : Properties) : Prop where
  orgId : p.orgId = q.orgId
  deviceType : p.deviceType = q.deviceType
  deviceId : p.deviceId = q.deviceId

/-- The organizations have as many colons in them, and so do the device types. -/
structure SameColons (p q : Properties) : Prop where
  orgId : p.orgId.count ':' = q.orgId.count ':'
  deviceType : p.deviceType.count ':' = q.deviceType.count ':'

theorem SameDevice.sameColons {p q : Properties} (h : SameDevice p q) : SameColons p q where
  orgId := congrArg (List.count ':') h.orgId
  deviceType := congrArg (List.count ':') h.deviceType

/-- Without a colon there is nothing to tell apart. -/
theorem sameColons_of_notMem {p q : Properties} (hp : ':' ∉ p.orgId ∧ ':' ∉ p.deviceType)
    (hq : ':' ∉ q.orgId ∧ ':' ∉ q.deviceType) : SameColons p q where
  orgId := (List.count_eq_zero.mpr hp.1).trans (List.count_eq_zero.mpr hq.1).symm
  deviceType := (List.count_eq_zero.mpr hp.2).trans (List.count_eq_zero.mpr hq.2).symm

/-- The organization, the device type and the device id, joined by colons. -/
def Properties.deviceName (p : Properties) : StdString :=
  p.orgId ++ ':' :: (p.deviceType ++ ':' :: p.deviceId)

/-- One name is of one device exactly if its colons are of the same parts. -/
theorem sameDevice_iff_sameColons {p q : Properties} (h : p.deviceName = q.deviceName) :
    SameDevice p q ↔ SameColons p q := by
  refine ⟨SameDevice.sameColons, fun hcolons => ?_⟩
  obtain ⟨horg, hrest⟩ := Text.append_sep_inj h hcolons.orgId
  obtain ⟨htype, hid⟩ := Text.append_sep_inj hrest hcolons.deviceType
  exact ⟨horg, htype, hid⟩

namespace Kind

/-- A client that is initialized has the id of its kind and its properties. -/
theorem mClientID_of_initialized {k : Kind} {s t : Client}
    (h : k.initializeMqttClient.exec s = (.ok true, t)) :
    t.mClientID = k.clientID s.mProperties := by
  rw [exec_initializeMqttClient] at h
  split at h
  · obtain ⟨-, rfl⟩ := Prod.mk.inj h
    rfl
  · cases h

/-- What the id of a client begins with. -/
def letter : Kind → Char
  | .device => 'd'
  | .gateway => 'g'

theorem letter_inj {k k' : Kind} (h : k.letter = k'.letter) : k = k' := by
  cases k <;> cases k' <;> first | rfl | exact absurd h (by decide)

theorem clientID_eq (k : Kind) (p : Properties) :
    k.clientID p = k.letter :: ':' :: p.deviceName := by
  have hid : ∀ kind, p.clientID kind = kind ++ ':' :: p.deviceName := by
    intro kind
    show kind ++ [':'] ++ p.orgId ++ [':'] ++ p.deviceType ++ [':'] ++ p.deviceId = _
    simp [Properties.deviceName]
  cases k with
  | device => exact hid ['d']
  | gateway => exact hid ['g']

/-- Clients with one id are of one kind. They are the same device, or the same gateway, if the
colons in their organizations and in their device types are as many, and otherwise they are
not. -/
theorem clientID_iff {k k' : Kind} {s s' t t' : Client}
    (h : k.initializeMqttClient.exec s = (.ok true, t))
    (h' : k'.initializeMqttClient.exec s' = (.ok true, t'))
    (hid : t.mClientID = t'.mClientID) :
    k = k' ∧ (SameDevice s.mProperties s'.mProperties ↔
      SameColons s.mProperties s'.mProperties) := by
  have hjoined : k.clientID s.mProperties = k'.clientID s'.mProperties :=
    (mClientID_of_initialized h).symm.trans (hid.trans (mClientID_of_initialized h'))
  rw [clientID_eq, clientID_eq] at hjoined
  obtain ⟨hletter, hrest⟩ := List.cons.inj hjoined
  obtain ⟨-, hname⟩ := List.cons.inj hrest
  exact ⟨letter_inj hletter, sameDevice_iff_sameColons hname⟩

/-- A device that connects again, with another token. -/
theorem clientID_sameDevice :
    let p := testProperties Properties.token
    let q := { p with authToken := "changed".toList }
    p ≠ q ∧ SameDevice p q := by
  intro p q
  have h : device.initializeMqttClient.exec (.new p 60 true) = (.ok true, _) := rfl
  have h' : device.initializeMqttClient.exec (.new q 60 true) = (.ok true, _) := rfl
  have hcolons : SameColons p q := sameColons_of_notMem (by decide) (by decide)
  exact ⟨by decide, (clientID_iff h h' rfl).2.mpr hcolons⟩

/-- The same properties but for these names of the device. -/
def named (orgId deviceType : StdString) : Properties :=
  { testProperties Properties.token with orgId := orgId, deviceType := deviceType }

/-- Two devices with one id, as a colon may stand in the organization or in the type. -/
theorem clientID_fails : ¬ ∀ (k k' : Kind) (s s' t t' : Client),
    k.initializeMqttClient.exec s = (.ok true, t) →
    k'.initializeMqttClient.exec s' = (.ok true, t') →
    t.mClientID = t'.mClientID → k = k' ∧ SameDevice s.mProperties s'.mProperties := by
  intro h
  let p := named "a:b".toList "c".toList
  let q := named "a".toList "b:c".toList
  have hsame := h device device (.new p 60 true) (.new q 60 true) _ _ rfl rfl rfl
  exact absurd hsame.2.orgId (by decide)

end Kind
