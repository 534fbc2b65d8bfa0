import WatsonIotp.Client.Configuration
import WatsonIotp.Client.Release

/-!
# The two validations

A configuration is validated twice: when it is read, and by `InitializeMqttClient` when
the client connects. What the reading accepts passes the second validation too
(`initializes_of_accepted`). What it rejects need not fail there: the constructor keeps
the properties that have been set, and the second validation looks at fewer of them
(`connect_of_rejected_iff`).
-/

open Json

namespace Configuration

variable {D : Type} [CxxDouble D]

variable (D) in
/-- There is no file, or its text is no document. -/
def Unparsed (file : Option StdString) : Prop :=
  ∀ content, file = some content → Reader.parse (D := D) (document content) = .ok none

/-- The text of the file is parsed to the value. -/
def Parsed (file : Option StdString) (root : Value D) : Prop :=
  ∃ content, file = some content ∧ Reader.parse (document content) = .ok (some root)

/-- How the reading of a file can end without an exception. -/
theorem initializePropertiesFromFile_cases {file : Option StdString} {rc : Bool} {p : Properties}
    (h : (initializePropertiesFromFile D file).exec .initial = (.ok rc, p)) :
    (Unparsed D file ∧ rc = false ∧ p = .initial) ∨
      ∃ root : Value D, Parsed file root ∧ Readable root ∧ (rc = true ↔ Complete root) ∧
        p = configured root := by
  cases file with
  | none =>
      cases h
      exact .inl ⟨nofun, rfl, rfl⟩
  | some content =>
      obtain ⟨root, t, hexec, hread⟩ := Proc.exec_bind_eq_ok_iff.mp h
      obtain ⟨hparse, rfl⟩ := Proc.exec_ofExcept_eq_ok_iff.mp hexec
      cases root with
      | none =>
          cases hread
          refine .inl ⟨fun content' heq => ?_, rfl, rfl⟩
          cases heq
          exact hparse
      | some root =>
          exact .inr ⟨root, ⟨content, rfl, hparse⟩, initializeFromRoot_eq_ok_iff.mp hread⟩

/-! ### What the second validation finds -/

section Configured

variable (root : Value D)

/-- Whether or not there is a security to set, nothing else is set with it. -/
theorem configured_basics : (configured root).orgId = memberText root "Organization-ID".toList [] ∧
    (configured root).domain = (withBasics root).domain ∧
    (configured root).deviceType = memberText root "Device-Type".toList [] ∧
    (configured root).deviceId = memberText root "Device-ID".toList [] ∧
    (configured root).port = (withBasics root).port := by
  rw [configured, withSecurity]
  split_ifs <;> exact ⟨rfl, rfl, rfl, rfl, rfl⟩

theorem configured_trustStore
    (h : memberText root "Organization-ID".toList [] ≠ quickstart) :
    (configured root).trustStore = memberText root "clientTrustStorePath".toList [] := by
  rw [configured, if_pos h, withSecurity]
  split_ifs <;> rfl

theorem domain_ne_nil : (configured root).domain ≠ [] := by
  rw [(configured_basics root).2.1, withBasics]
  change (if _ then _ else _) ≠ _
  split_ifs with hdomain
  · decide
  · exact hdomain

end Configured

/-- What the second validation misses in a configuration. -/
def Lacks : Kind → Value D → Prop
  | .device, root =>
      memberText root "Organization-ID".toList [] = [] ∨
      memberText root "Device-Type".toList [] = [] ∨ memberText root "Device-ID".toList [] = [] ∨
      (memberText root "Organization-ID".toList [] ≠ quickstart ∧
        memberText root "clientTrustStorePath".toList [] = [])
  | .gateway, root =>
      memberText root "Organization-ID".toList [] = [] ∨
      Gateway.IsQuickstart (memberText root "Organization-ID".toList []) ∨
      memberText root "Device-Type".toList [] = [] ∨ memberText root "Device-ID".toList [] = [] ∨
      memberText root "clientTrustStorePath".toList [] = []

theorem accepts_configured_iff (k : Kind) (root : Value D) :
    k.Accepts (configured root) ↔ ¬ Lacks k root := by
  obtain ⟨horg, -, htype, hid, -⟩ := configured_basics root
  have hdomain := domain_ne_nil root
  have htrust := configured_trustStore root
  cases k with
  | device =>
      rw [Kind.Accepts, Lacks, horg, htype, hid, not_or, not_or, not_or, not_and]
      constructor
      · rintro ⟨horg', -, htype', hid', htrust'⟩
        exact ⟨horg', htype', hid', fun hquick => htrust hquick ▸ htrust' hquick⟩
      · rintro ⟨horg', htype', hid', htrust'⟩
        exact ⟨horg', hdomain, htype', hid', fun hquick => (htrust hquick).symm ▸ htrust' hquick⟩
  | gateway =>
      have hquick : ¬ Gateway.IsQuickstart (memberText root "Organization-ID".toList []) →
          memberText root "Organization-ID".toList [] ≠ quickstart :=
        fun hnot heq => hnot (.inl heq)
      rw [Kind.Accepts, Lacks, horg, htype, hid, not_or, not_or, not_or, not_or]
      constructor
      · rintro ⟨horg', hnot, -, htype', hid', htrust'⟩
        exact ⟨horg', hnot, htype', hid', htrust (hquick hnot) ▸ htrust'⟩
      · rintro ⟨horg', hnot, htype', hid', htrust'⟩
        exact ⟨horg', hnot, hdomain, htype', hid', (htrust (hquick hnot)).symm ▸ htrust'⟩

theorem not_accepts_initial (k : Kind) : ¬ k.Accepts .initial := by
  cases k <;> exact fun h => h.1 rfl

/-! ### Configurations that are rejected -/

/-- A call returns false and asks nobody for a connection. -/
structure Refused (s : Client) (result : Except Failure Bool × Client) : Prop where
  returns : result.1 = .ok false
  silent : result.2.attempts = s.attempts

/-- A call is refused exactly if the checks stop it. -/
theorem refused_iff_not_accepts (k : Kind) (s : Client) (b : Behaviour) :
    Refused s ((k.connect b).exec s) ↔ ¬ k.Accepts s.mProperties := by
  by_cases h : k.Accepts s.mProperties
  · refine iff_of_false (fun hrefused => ?_) (not_not.mpr h)
    have hsilent := hrefused.silent
    rw [Kind.attempts_connect h] at hsilent
    exact List.cons_ne_nil _ _ (List.append_right_eq_self.mp hsilent)
  · rw [Kind.exec_connect_of_not_accepts h]
    exact iff_of_true ⟨rfl, rfl⟩ h

/-- The client of a configuration that has been rejected has what was read of it. -/
theorem ofFile_of_rejected {file : Option StdString} {p : Properties} (uninitialized : Int)
    (h : (initializePropertiesFromFile D file).exec .initial = (.ok false, p)) :
    Client.ofFile D file uninitialized = some (.new p uninitialized false) := by
  rw [Client.ofFile, h]

/-- A client whose configuration has been rejected does not connect if there was no
configuration, or it lacks what the second validation looks at as well. -/
theorem connect_of_rejected_iff {k : Kind} {file : Option StdString} {uninitialized : Int}
    {p : Properties} {c s : Client} {events : List Event}
    (hread : (initializePropertiesFromFile D file).exec .initial = (.ok false, p))
    (hc : Client.ofFile D file uninitialized = some c) (hr : k.machine.Run c events s)
    (b : Behaviour) : Refused s ((k.connect b).exec s) ↔
      Unparsed D file ∨ ∃ root : Value D, Parsed file root ∧ Lacks k root := by
  obtain rfl := Option.some.inj ((ofFile_of_rejected uninitialized hread).symm.trans hc)
  rw [refused_iff_not_accepts, (Kind.lives_of_run hr).mProperties]
  obtain ⟨hunparsed, -, rfl⟩ | ⟨root, hparsed, -, -, rfl⟩ :=
    initializePropertiesFromFile_cases hread
  · exact iff_of_true (not_accepts_initial k) (.inl hunparsed)
  · rw [accepts_configured_iff, not_not]
    constructor
    · exact fun hlacks => .inr ⟨root, hparsed, hlacks⟩
    · obtain ⟨content, rfl, hparse⟩ := hparsed
      rintro (hunparsed | ⟨root', ⟨content', heq, hparse'⟩, hlacks⟩)
      · rw [hunparsed content rfl] at hparse
        cases hparse
      · cases heq
        rw [hparse] at hparse'
        cases hparse'
        exact hlacks

/-- The configuration of a device that has no id. -/
def namelessFile : StdString :=
  "\x7b\"Organization-ID\":\"o\",\"Device-Type\":\"t\",".toList ++
    "\"Authentication-Token\":\"a\",\"clientTrustStorePath\":\"p\"\x7d".toList

def namelessMembers : List (StdString × Value Int) :=
  [("Authentication-Token".toList, .stringValue "a".toList),
    ("Device-Type".toList, .stringValue "t".toList),
    ("Organization-ID".toList, .stringValue "o".toList),
    ("clientTrustStorePath".toList, .stringValue "p".toList)]

theorem parse_namelessFile :
    Reader.parse (document namelessFile) = .ok (some (.objectValue namelessMembers)) :=
  Reader.parse_of_readValue (by decide : 5 ≤ Reader.stackLimit) rfl

/-- A device without an id, which has asked for a connection once already. -/
theorem connect_of_rejected_missing :
    ∃ p s, (initializePropertiesFromFile Int (some namelessFile)).exec .initial = (.ok false, p) ∧
      Kind.device.machine.Run (.new p 0 false) [.connect Kind.granted] s ∧
      Refused s ((Kind.device.connect Kind.granted).exec s) := by
  have hread : (initializePropertiesFromFile Int (some namelessFile)).exec .initial =
      (.ok false, configured (.objectValue namelessMembers)) := by
    rw [initializePropertiesFromFile_eq parse_namelessFile]
    rfl
  have hc := ofFile_of_rejected 0 hread
  have hr : Kind.device.machine.Run (.new (configured (.objectValue namelessMembers)) 0 false)
      [.connect Kind.granted] _ := Machine.Run.exec_iff.mp rfl
  have hlacks : Lacks .device (.objectValue namelessMembers) := .inr (.inr (.inl (by decide)))
  exact ⟨_, _, hread, hr, (connect_of_rejected_iff hread hc hr Kind.granted).mpr
    (.inr ⟨_, ⟨_, rfl, parse_namelessFile⟩, hlacks⟩)⟩

/-- The configuration of a device that has no token. -/
def tokenlessFile : StdString :=
  "\x7b\"Organization-ID\":\"o\",\"Device-Type\":\"t\",".toList ++
    "\"Device-ID\":\"i\",\"clientTrustStorePath\":\"p\"\x7d".toList

def tokenlessMembers : List (StdString × Value Int) :=
  [("Device-ID".toList, .stringValue "i".toList), ("Device-Type".toList, .stringValue "t".toList),
    ("Organization-ID".toList, .stringValue "o".toList),
    ("clientTrustStorePath".toList, .stringValue "p".toList)]

theorem parse_tokenlessFile :
    Reader.parse (document tokenlessFile) = .ok (some (.objectValue tokenlessMembers)) :=
  Reader.parse_of_readValue (by decide : 5 ≤ Reader.stackLimit) rfl

/-- A configuration without a token is rejected, and the client asks for a connection. -/
theorem connect_of_rejected_fails : ¬ ∀ (k : Kind) (file : Option StdString) (uninitialized : Int)
    (p : Properties) (c s : Client) (events : List Event),
    (initializePropertiesFromFile Int file).exec .initial = (.ok false, p) →
    Client.ofFile Int file uninitialized = some c → k.machine.Run c events s →
      ∀ b, Refused s ((k.connect b).exec s) := by
  intro h
  have hread : (initializePropertiesFromFile Int (some tokenlessFile)).exec .initial =
      (.ok false, configured (.objectValue tokenlessMembers)) := by
    rw [initializePropertiesFromFile_eq parse_tokenlessFile]
    rfl
  have hc := ofFile_of_rejected 0 hread
  have hrefused := h .device _ 0 _ _ _ [] hread hc (.nil _) Kind.granted
  rw [refused_iff_not_accepts] at hrefused
  exact hrefused (by decide)

/-! ### Configurations that are accepted -/

/-- The checks are passed, and the client is to connect to the URI. -/
structure Initializes (k : Kind) (s : Client) (serverURI : StdString) : Prop where
  accepted : (k.initializeMqttClient.exec s).1 = .ok true
  serverURI : (k.initializeMqttClient.exec s).2.mServerURI = serverURI

theorem initializes_of_accepts {k : Kind} {s : Client} (h : k.Accepts s.mProperties) :
    Initializes k s (k.serverURI s.mProperties) := by
  have hexec := Kind.exec_initializeMqttClient k s
  rw [if_pos h] at hexec
  exact ⟨congrArg Prod.fst hexec, congrArg (fun r => r.2.mServerURI) hexec⟩

/-- The port of a complete configuration is what its text is converted to. -/
theorem stoi_port {root : Value D} (hreadable : Readable root) (hcomplete : Complete root)
    (hquick : memberText root "Organization-ID".toList [] ≠ quickstart) :
    StdString.stoi (memberText root "Port".toList "8883".toList) =
      .ok (configured root).port := by
  obtain hempty | horg | ⟨port, hport⟩ := hreadable.port
  · exact absurd hempty hcomplete.port
  · exact absurd horg hquick
  · rw [(configured_basics root).2.2.2.2, withBasics, hport]
    change _ = Except.ok (portOf _ _ _)
    rw [portOf, if_neg hcomplete.port, if_neg hquick, hport]

/-- A complete configuration lacks nothing that the second validation looks at, unless it
is for a gateway that sends to "quickstart". -/
theorem not_lacks_of_complete {root : Value D} (h : Complete root) :
    ¬ Lacks .device root ∧
      (¬ Gateway.IsQuickstart (memberText root "Organization-ID".toList []) →
        ¬ Lacks .gateway root) := by
  constructor
  · rintro (horg | htype | hid | ⟨hquick, htrust⟩)
    · exact h.org horg
    · exact h.deviceType htype
    · exact h.deviceId hid
    · exact (h.security hquick).credentials.trustStore htrust
  · intro hnot
    rintro (horg | hquick | htype | hid | htrust)
    · exact h.org horg
    · exact hnot hquick
    · exact h.deviceType htype
    · exact h.deviceId hid
    · have hquick : memberText root "Organization-ID".toList [] ≠ quickstart :=
        fun heq => hnot (.inl heq)
      exact (h.security hquick).credentials.trustStore htrust

theorem deviceURI_of_quickstart {p : Properties} (h : p.orgId = quickstart) :
    Device.serverURI p =
      "tcp://quickstart.messaging.".toList ++ p.domain ++ ":1883".toList := by
  rw [Device.serverURI, if_neg (not_not.mpr h), Properties.serverURI, h,
    List.append_assoc _ ":".toList]
  rfl

/-- A configuration that is accepted passes the second validation, and the URI has the
configured port. -/
theorem initializes_of_accepted {file : Option StdString} {p : Properties} {s : Client}
    (hread : (initializePropertiesFromFile D file).exec .initial = (.ok true, p))
    (hs : s.mProperties = p) :
    (p.orgId = quickstart →
      Initializes .device s ("tcp://quickstart.messaging.".toList ++ p.domain ++ ":1883".toList)) ∧
    (p.orgId ≠ quickstart → ∃ (root : Value D) (port : Int), Parsed file root ∧
      StdString.stoi (memberText root "Port".toList "8883".toList) = .ok port ∧
      let serverURI := "ssl://".toList ++ p.orgId ++ ".messaging.".toList ++ p.domain ++
        ":".toList ++ StdString.ofInt port
      Initializes .device s serverURI ∧
        (¬ Gateway.IsQuickstart p.orgId → Initializes .gateway s serverURI)) := by
  obtain ⟨-, hfalse, -⟩ | ⟨root, hparsed, hreadable, hrc, rfl⟩ :=
    initializePropertiesFromFile_cases hread
  · cases hfalse
  have hcomplete : Complete root := hrc.mp rfl
  obtain ⟨hdevice, hgateway⟩ := not_lacks_of_complete hcomplete
  have horg : (configured root).orgId = memberText root "Organization-ID".toList [] :=
    (configured_basics root).1
  have hinitializes : ∀ k, ¬ Lacks k root → Initializes k s (k.serverURI (configured root)) := by
    intro k hlacks
    have haccepts := (accepts_configured_iff k root).mpr hlacks
    rw [← hs] at haccepts ⊢
    exact initializes_of_accepts haccepts
  constructor
  · intro hquick
    rw [← deviceURI_of_quickstart hquick]
    exact hinitializes .device hdevice
  · intro hquick
    refine ⟨root, (configured root).port, hparsed,
      stoi_port hreadable hcomplete (horg ▸ hquick), ?_, fun hnot => ?_⟩
    · have hURI := hinitializes .device hdevice
      rw [Kind.serverURI, Device.serverURI, if_pos hquick] at hURI
      exact hURI
    · exact hinitializes .gateway (hgateway (horg ▸ hnot))

/-- A device that sends to "quickstart", from its file. -/
theorem initializes_quickstart :
    let p := configured (.objectValue quickstartMembers)
    Initializes .device (Client.ofProperties p)
      "tcp://quickstart.messaging.internetofthings.ibmcloud.com:1883".toList := by
  intro p
  have hread : (initializePropertiesFromFile Int (some quickstartFile)).exec .initial =
      (.ok true, p) := by
    rw [initializePropertiesFromFile_eq parse_quickstartFile]
    rfl
  have hquick : p.orgId = quickstart := rfl
  have hdomain : p.domain = "internetofthings.ibmcloud.com".toList := rfl
  have hinitializes := (initializes_of_accepted (s := Client.ofProperties p) hread rfl).1 hquick
  rw [hdomain] at hinitializes
  exact hinitializes

end Configuration
