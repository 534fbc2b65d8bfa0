import WatsonIotp.Json.Reader
import WatsonIotp.Machine.Proc
import WatsonIotp.Text.Number

/-!
# Properties, and reading them from a file

`InitializePropertiesFromFile` reads a JSON object member by member. A member that has to
be there and is empty makes the result false, but the reading goes on, and whatever has a
text is set. `initializeFromRoot_eq_ok_iff` says what the reading comes to when it does not
throw: whether everything needed is there is `Complete`, and what is set is `configured`.
-/

open Json

/-- `Properties`. -/
structure Properties where
  orgId : StdString
  domain : StdString
  deviceType : StdString
  deviceId : StdString
  authMethod : StdString
  authToken : StdString
  trustStore : StdString
  keyStore : StdString
  privateKey : StdString
  keyPassPhrase : StdString
  port : Int
  useCerts : Bool
  deriving DecidableEq

/-- `Properties()`. -/
def Properties.initial : Properties where
  orgId := []
  domain := "internetofthings.ibmcloud.com".toList
  deviceType := []
  deviceId := []
  authMethod := []
  authToken := []
  trustStore := []
  keyStore := []
  privateKey := []
  keyPassPhrase := []
  port := 8883
  useCerts := false

def quickstart : StdString := "quickstart".toList

namespace Configuration

/-- What reading a configuration can throw. -/
inductive Error where
  | json (e : Json.Error)
  | stoi (e : StdString.StoiError)

variable {D : Type} [CxxDouble D]

/-- `root.get(key, defaultValue).asString()`. -/
def getString (root : Value D) (key defaultValue : StdString) : Except Json.Error StdString :=
  (root.get key (.stringValue defaultValue)).bind Value.asString

/-- Read the text of a member, and do something with it if it is not empty. -/
def readMember (root : Value D) (key defaultValue : StdString)
    (act : StdString → Proc Properties Error Unit) : Proc Properties Error StdString := do
  let text ← Proc.ofExcept .json (getString root key defaultValue)
  if text ≠ [] then act text
  return text

/-- Read a member that has to have a text, and set the property if it has. -/
def readRequired (root : Value D) (key : StdString) (set : StdString → Properties → Properties) :
    Proc Properties Error StdString :=
  readMember root key [] fun text => modify (set text)

def readDomain (root : Value D) : Proc Properties Error StdString :=
  readMember root "Domain".toList [] fun domain => modify fun prop => { prop with domain }

def readPort (root : Value D) : Proc Properties Error StdString :=
  readMember root "Port".toList "8883".toList fun customPort => do
    let prop ← get
    if prop.orgId = quickstart then modify fun prop => { prop with port := 1883 }
    else
      let port ← Proc.ofExcept .stoi (StdString.stoi customPort)
      modify fun prop => { prop with port }

def readUseCerts (root : Value D) : Proc Properties Error StdString :=
  readMember root "useClientCertificates".toList "false".toList fun useCerts =>
    modify fun prop => { prop with useCerts := useCerts = "true".toList }

/-- The part from `if (prop.getuseCerts())` on. -/
def readCertificates (root : Value D) : Proc Properties Error Bool := do
  let prop ← get
  if prop.useCerts then
    let keyStore ←
      readRequired root "clientCertPath".toList fun s prop => { prop with keyStore := s }
    let privateKey ←
      readRequired root "clientKeyPath".toList fun s prop => { prop with privateKey := s }
    let passPhrase ← Proc.ofExcept .json (getString root "clientKeyPassword".toList [])
    modify fun prop => { prop with keyPassPhrase := passPhrase }
    return keyStore ≠ [] ∧ privateKey ≠ []
  else return true

/-- Method, token, trust store and whether to use certificates. -/
def readCredentials (root : Value D) : Proc Properties Error Bool := do
  let username ←
    readRequired root "Authentication-Method".toList fun s prop => { prop with authMethod := s }
  let password ←
    readRequired root "Authentication-Token".toList fun s prop => { prop with authToken := s }
  let trustStore ←
    readRequired root "clientTrustStorePath".toList fun s prop => { prop with trustStore := s }
  let useCerts ← readUseCerts root
  return username ≠ [] ∧ password ≠ [] ∧ trustStore ≠ [] ∧ useCerts ≠ []

/-- The part from `if (org.compare("quickstart") != 0)` on. -/
def readSecurity (root : Value D) (org : StdString) : Proc Properties Error Bool := do
  if org ≠ quickstart then
    let credentials ← readCredentials root
    let certificates ← readCertificates root
    return credentials ∧ certificates
  else return true

/-- `InitializePropertiesFromFile` on the value that has been parsed. The flag `rc` is the
conjunction of what the parts have to say. -/
def initializeFromRoot (root : Value D) : Proc Properties Error Bool := do
  let org ← readRequired root "Organization-ID".toList fun s prop => { prop with orgId := s }
  let _ ← readDomain root
  let deviceType ←
    readRequired root "Device-Type".toList fun s prop => { prop with deviceType := s }
  let deviceId ← readRequired root "Device-ID".toList fun s prop => { prop with deviceId := s }
  let customPort ← readPort root
  let security ← readSecurity root org
  return org ≠ [] ∧ deviceType ≠ [] ∧ deviceId ≠ [] ∧ customPort ≠ [] ∧ security

/-- The document that `Reader::parse` takes from a stream: `std::getline` up to the
character that `EOF` is cast to. -/
def document (content : StdString) : StdString := content.takeWhile (· ≠ '\xff')

/-- `InitializePropertiesFromFile`, on the content of the file if it can be opened. -/
def initializePropertiesFromFile (D : Type) [CxxDouble D] (file : Option StdString) :
    Proc Properties Error Bool :=
  match file with
  | none => return false
  | some content => do
      let root ← Proc.ofExcept .json (Reader.parse (D := D) (document content))
      match root with
      | none => return false
      | some root => initializeFromRoot root

/-! ### What the members say -/

/-- The member can be read as a text: it is no array or object, and there are members. -/
def Legible (root : Value D) (key : StdString) : Prop :=
  root.ObjectLike ∧ (root.memberOr key (.stringValue [])).Textual

/-- The text of a member, or the default where there is none. -/
def memberText (root : Value D) (key defaultValue : StdString) : StdString :=
  match getString root key defaultValue with
  | .ok s => s
  | .error _ => []

theorem getString_eq_ok_iff {root : Value D} {key defaultValue s : StdString} :
    getString root key defaultValue = .ok s ↔
      Legible root key ∧ s = memberText root key defaultValue := by
  have hlegible : (∃ s, getString root key defaultValue = .ok s) ↔ Legible root key := by
    cases root with
    | objectValue members =>
        have htextual : (Value.memberOr (.objectValue members) key (.stringValue [])).Textual ↔
            ((members.lookup key).getD (.stringValue defaultValue)).Textual := by
          rw [Value.memberOr]
          cases members.lookup key with
          | none => exact Iff.rfl
          | some v => exact Iff.rfl
        rw [Legible, htextual, ← Value.asString_isOk_iff]
        exact (and_iff_right trivial).symm
    | nullValue => exact iff_of_true ⟨defaultValue, rfl⟩ ⟨trivial, trivial⟩
    | intValue | uintValue | realValue | stringValue | booleanValue | arrayValue =>
        refine iff_of_false ?_ fun h => h.1
        rintro ⟨s, h⟩
        cases h
  rw [← hlegible, memberText]
  cases getString root key defaultValue <;> simp [eq_comm]

variable {root : Value D} {key text : StdString} {p q : Properties}

theorem readMember_eq_ok_iff {defaultValue : StdString}
    {act : StdString → Proc Properties Error Unit} :
    (readMember root key defaultValue act).exec p = (.ok text, q) ↔
      Legible root key ∧ text = memberText root key defaultValue ∧
        if text = [] then q = p else (act text).exec p = (.ok ⟨⟩, q) := by
  simp only [readMember, Proc.exec_bind_eq_ok_iff, Proc.exec_ofExcept_eq_ok_iff,
    getString_eq_ok_iff]
  constructor
  · rintro ⟨text', t, ⟨⟨hlegible, htext⟩, rfl⟩, hrest⟩
    by_cases hempty : text' = []
    · rw [if_neg (not_not.mpr hempty)] at hrest
      cases hrest
      exact ⟨hlegible, htext, by rw [if_pos hempty]⟩
    · rw [if_pos hempty, Proc.exec_bind_eq_ok_iff] at hrest
      obtain ⟨_, u, hact, hreturn⟩ := hrest
      cases hreturn
      exact ⟨hlegible, htext, by rw [if_neg hempty]; exact hact⟩
  · rintro ⟨hlegible, htext, hrest⟩
    refine ⟨text, p, ⟨⟨hlegible, htext⟩, rfl⟩, ?_⟩
    by_cases hempty : text = []
    · rw [if_pos hempty] at hrest
      rw [if_neg (not_not.mpr hempty), hrest]
      rfl
    · rw [if_neg hempty] at hrest
      rw [if_pos hempty, Proc.exec_bind_ok hrest]
      rfl

/-- A member that only sets a property. -/
theorem readMember_modify_eq_ok_iff {defaultValue : StdString}
    {set : StdString → Properties → Properties} :
    (readMember root key defaultValue fun text => modify (set text)).exec p = (.ok text, q) ↔
      Legible root key ∧ text = memberText root key defaultValue ∧
        q = if text = [] then p else set text p := by
  rw [readMember_eq_ok_iff]
  apply and_congr_right'
  apply and_congr_right'
  split
  · exact Iff.rfl
  · rw [Proc.exec_modify]
    simp [eq_comm]

theorem readRequired_eq_ok_iff {set : StdString → Properties → Properties} (hset : set [] p = p) :
    (readRequired root key set).exec p = (.ok text, q) ↔
      Legible root key ∧ text = memberText root key [] ∧ q = set text p := by
  have hempty : (if text = [] then p else set text p) = set text p := by
    split
    · next h => rw [h, hset]
    · rfl
  rw [readRequired, readMember_modify_eq_ok_iff, hempty]

theorem readDomain_eq_ok_iff : (readDomain root).exec p = (.ok text, q) ↔
    Legible root "Domain".toList ∧ text = memberText root "Domain".toList [] ∧
      q = { p with domain := if text = [] then p.domain else text } := by
  have hset : (if text = [] then p else { p with domain := text }) =
      { p with domain := if text = [] then p.domain else text } := by
    by_cases h : text = [] <;> simp [h]
  rw [readDomain, readMember_modify_eq_ok_iff, hset]

/-- The port that is set for a text in the member. -/
def portOf (org customPort : StdString) (port : Int) : Int :=
  if customPort = [] then port
  else if org = quickstart then 1883
  else
    match StdString.stoi customPort with
    | .ok port' => port'
    | .error _ => port

/-- The text of the port need not be converted, or can be. -/
def Convertible (org customPort : StdString) : Prop :=
  customPort = [] ∨ org = quickstart ∨ ∃ port, StdString.stoi customPort = .ok port

theorem readPort_eq_ok_iff : (readPort root).exec p = (.ok text, q) ↔
    Legible root "Port".toList ∧ text = memberText root "Port".toList "8883".toList ∧
      Convertible p.orgId text ∧ q = { p with port := portOf p.orgId text p.port } := by
  rw [readPort, readMember_eq_ok_iff]
  apply and_congr_right'
  apply and_congr_right'
  rw [Convertible, portOf]
  split
  · next hempty => simp [hempty]
  · next hempty =>
      rw [Proc.exec_bind_ok (Proc.exec_get p)]
      by_cases horg : p.orgId = quickstart
      · rw [if_pos horg, if_pos horg, Proc.exec_modify]
        simp [horg, eq_comm]
      · rw [if_neg horg, if_neg horg, Proc.exec_bind_eq_ok_iff]
        simp only [Proc.exec_ofExcept_eq_ok_iff, Proc.exec_modify, hempty, horg, false_or]
        cases StdString.stoi text with
        | error e => simp
        | ok port => simp [eq_comm]

theorem readUseCerts_eq_ok_iff : (readUseCerts root).exec p = (.ok text, q) ↔
    Legible root "useClientCertificates".toList ∧
      text = memberText root "useClientCertificates".toList "false".toList ∧
      q = { p with useCerts := if text = [] then p.useCerts else text = "true".toList } := by
  have hset : (if text = [] then p else { p with useCerts := text = "true".toList }) =
      { p with useCerts := if text = [] then p.useCerts else text = "true".toList } := by
    by_cases h : text = [] <;> simp [h]
  rw [readUseCerts, readMember_modify_eq_ok_iff, hset]

/-- A result that is true exactly if `a` holds is what decides a condition like `a`. -/
theorem eq_decide_iff {a b : Prop} [Decidable b] {rc : Bool} (h : a ↔ b) :
    (rc = true ↔ a) ↔ rc = decide b := by
  rw [h]
  by_cases hb : b <;> simp [hb]

/-- Every condition has a result that is true exactly if it holds. -/
theorem exists_eq_true_iff (a : Prop) : ∃ rc : Bool, rc = true ↔ a := by
  by_cases h : a
  · exact ⟨true, iff_of_true rfl h⟩
  · exact ⟨false, iff_of_false Bool.false_ne_true h⟩

/-- The members that are read under `if (prop.getuseCerts())`. -/
def certificateKeys : List StdString :=
  ["clientCertPath".toList, "clientKeyPath".toList, "clientKeyPassword".toList]

/-- The properties with what these members say. -/
def withCertificates (root : Value D) (p : Properties) : Properties :=
  { p with
    keyStore := memberText root "clientCertPath".toList []
    privateKey := memberText root "clientKeyPath".toList []
    keyPassPhrase := memberText root "clientKeyPassword".toList [] }

/-- Certificate and key are there. -/
structure Certified (root : Value D) : Prop where
  certPath : memberText root "clientCertPath".toList [] ≠ []
  keyPath : memberText root "clientKeyPath".toList [] ≠ []

/-- Nothing has been set that the members for the security set. -/
structure Blank (p : Properties) : Prop where
  authMethod : p.authMethod = []
  authToken : p.authToken = []
  trustStore : p.trustStore = []
  keyStore : p.keyStore = []
  privateKey : p.privateKey = []
  useCerts : p.useCerts = false

theorem readCertificates_eq_ok_iff {rc : Bool} (hkey : p.keyStore = [])
    (hprivate : p.privateKey = []) : (readCertificates root).exec p = (.ok rc, q) ↔
      (p.useCerts = true → ∀ key ∈ certificateKeys, Legible root key) ∧
        (rc = true ↔ p.useCerts = true → Certified root) ∧
        q = if p.useCerts then withCertificates root p else p := by
  rw [readCertificates, Proc.exec_bind_ok (Proc.exec_get p)]
  by_cases huse : p.useCerts = true
  · have hcertified : Certified root ↔ memberText root "clientCertPath".toList [] ≠ [] ∧
        memberText root "clientKeyPath".toList [] ≠ [] :=
      ⟨fun h => ⟨h.1, h.2⟩, fun h => ⟨h.1, h.2⟩⟩
    simp only [huse, if_true, forall_const, Proc.exec_bind_eq_ok_iff, eq_decide_iff hcertified,
      Proc.exec_ofExcept_eq_ok_iff, getString_eq_ok_iff, Proc.exec_modify, certificateKeys,
      List.forall_mem_cons]
    constructor
    · rintro ⟨keyStore, t, h₁, privateKey, u, h₂, passPhrase, v, ⟨⟨hlegible₃, rfl⟩, rfl⟩, _, _,
        hmodify, hreturn⟩
      rw [readRequired_eq_ok_iff (by rw [← hkey])] at h₁
      obtain ⟨hlegible₁, rfl, rfl⟩ := h₁
      rw [readRequired_eq_ok_iff (by rw [← hprivate])] at h₂
      obtain ⟨hlegible₂, rfl, rfl⟩ := h₂
      cases hmodify
      cases hreturn
      exact ⟨⟨hlegible₁, hlegible₂, hlegible₃, nofun⟩, rfl, rfl⟩
    · rintro ⟨⟨hlegible₁, hlegible₂, hlegible₃, -⟩, rfl, rfl⟩
      refine ⟨_, _, (readRequired_eq_ok_iff (by rw [← hkey])).mpr ⟨hlegible₁, rfl, rfl⟩, ?_⟩
      refine ⟨_, _, (readRequired_eq_ok_iff (by rw [← hprivate])).mpr ⟨hlegible₂, rfl, rfl⟩, ?_⟩
      exact ⟨_, _, ⟨⟨hlegible₃, rfl⟩, rfl⟩, _, _, rfl, rfl⟩
  · rw [if_neg huse, if_neg huse]
    simp [huse, eq_comm]

/-- `useCerts` is to be set. -/
def UsesCertificates (root : Value D) : Prop :=
  memberText root "useClientCertificates".toList "false".toList = "true".toList

instance (root : Value D) : Decidable (UsesCertificates root) :=
  inferInstanceAs (Decidable (_ = _))

/-- The members that are read under `if (org.compare("quickstart") != 0)`. -/
def securityKeys : List StdString :=
  ["Authentication-Method".toList, "Authentication-Token".toList, "clientTrustStorePath".toList,
    "useClientCertificates".toList]

/-- The properties with what these members say, but for the certificates. -/
def withCredentials (root : Value D) (p : Properties) : Properties :=
  { p with
    authMethod := memberText root "Authentication-Method".toList []
    authToken := memberText root "Authentication-Token".toList []
    trustStore := memberText root "clientTrustStorePath".toList []
    useCerts := UsesCertificates root }

/-- The properties with what these members say. -/
def withSecurity (root : Value D) (p : Properties) : Properties :=
  if UsesCertificates root then withCertificates root (withCredentials root p)
  else withCredentials root p

/-- Nothing of this is empty. -/
structure Credentials (root : Value D) : Prop where
  authMethod : memberText root "Authentication-Method".toList [] ≠ []
  authToken : memberText root "Authentication-Token".toList [] ≠ []
  trustStore : memberText root "clientTrustStorePath".toList [] ≠ []
  useCerts : memberText root "useClientCertificates".toList "false".toList ≠ []

/-- What has to be there unless the organization is "quickstart". -/
structure Secured (root : Value D) : Prop where
  credentials : Credentials root
  certificates : UsesCertificates root → Certified root

/-- An empty text leaves `useCerts` as it is, which is false. -/
theorem useCerts_eq (hp : p.useCerts = false) (text : StdString) :
    (if text = [] then p.useCerts else decide (text = "true".toList)) =
      decide (text = "true".toList) := by
  split
  · next hempty => rw [hempty, hp]; rfl
  · rfl

theorem readCredentials_eq_ok_iff {rc : Bool} (hp : Blank p) :
    (readCredentials root).exec p = (.ok rc, q) ↔ (∀ key ∈ securityKeys, Legible root key) ∧
      (rc = true ↔ Credentials root) ∧ q = withCredentials root p := by
  obtain ⟨hmethod, htoken, htrust, -, -, huse⟩ := hp
  have hcredentials : Credentials root ↔ memberText root "Authentication-Method".toList [] ≠ [] ∧
      memberText root "Authentication-Token".toList [] ≠ [] ∧
      memberText root "clientTrustStorePath".toList [] ≠ [] ∧
      memberText root "useClientCertificates".toList "false".toList ≠ [] :=
    ⟨fun h => ⟨h.1, h.2, h.3, h.4⟩, fun ⟨h₁, h₂, h₃, h₄⟩ => ⟨h₁, h₂, h₃, h₄⟩⟩
  rw [eq_decide_iff hcredentials]
  simp only [readCredentials, Proc.exec_bind_eq_ok_iff, securityKeys, List.forall_mem_cons]
  constructor
  · rintro ⟨username, t, h₁, password, u, h₂, trustStore, v, h₃, useCerts, w, h₄, hreturn⟩
    rw [readRequired_eq_ok_iff (by rw [← hmethod])] at h₁
    obtain ⟨hlegible₁, rfl, rfl⟩ := h₁
    rw [readRequired_eq_ok_iff (by rw [← htoken])] at h₂
    obtain ⟨hlegible₂, rfl, rfl⟩ := h₂
    rw [readRequired_eq_ok_iff (by rw [← htrust])] at h₃
    obtain ⟨hlegible₃, rfl, rfl⟩ := h₃
    rw [readUseCerts_eq_ok_iff, useCerts_eq huse] at h₄
    obtain ⟨hlegible₄, rfl, hw⟩ := h₄
    cases hreturn
    exact ⟨⟨hlegible₁, hlegible₂, hlegible₃, hlegible₄, nofun⟩, rfl, hw⟩
  · rintro ⟨⟨hlegible₁, hlegible₂, hlegible₃, hlegible₄, -⟩, rfl, hw⟩
    refine ⟨_, _, (readRequired_eq_ok_iff (by rw [← hmethod])).mpr ⟨hlegible₁, rfl, rfl⟩, ?_⟩
    refine ⟨_, _, (readRequired_eq_ok_iff (by rw [← htoken])).mpr ⟨hlegible₂, rfl, rfl⟩, ?_⟩
    refine ⟨_, _, (readRequired_eq_ok_iff (by rw [← htrust])).mpr ⟨hlegible₃, rfl, rfl⟩, ?_⟩
    refine ⟨_, q, readUseCerts_eq_ok_iff.mpr ⟨hlegible₄, rfl, ?_⟩, rfl⟩
    rw [hw, useCerts_eq huse]
    rfl

theorem readSecurity_eq_ok_iff {org : StdString} {rc : Bool} (hp : Blank p) :
    (readSecurity root org).exec p = (.ok rc, q) ↔
      (org ≠ quickstart → (∀ key ∈ securityKeys, Legible root key) ∧
        (UsesCertificates root → ∀ key ∈ certificateKeys, Legible root key)) ∧
      (rc = true ↔ org ≠ quickstart → Secured root) ∧
      q = if org ≠ quickstart then withSecurity root p else p := by
  rw [readSecurity]
  by_cases horg : org = quickstart
  · simp [horg, eq_comm]
  have hread : ∀ {rc : Bool}, (readCertificates root).exec (withCredentials root p) = (.ok rc, q) ↔
      (UsesCertificates root → ∀ key ∈ certificateKeys, Legible root key) ∧
        (rc = true ↔ UsesCertificates root → Certified root) ∧ q = withSecurity root p := by
    intro rc
    have huse : (withCredentials root p).useCerts = true ↔ UsesCertificates root :=
      decide_eq_true_iff
    have hset : (if (withCredentials root p).useCerts = true then
        withCertificates root (withCredentials root p) else withCredentials root p) =
          withSecurity root p := by
      simp only [huse, withSecurity]
    have hkey : (withCredentials root p).keyStore = [] := hp.keyStore
    rw [readCertificates_eq_ok_iff hkey hp.privateKey, hset, huse]
  have hsecured : Secured root ↔ Credentials root ∧ (UsesCertificates root → Certified root) :=
    ⟨fun h => ⟨h.1, h.2⟩, fun ⟨h₁, h₂⟩ => ⟨h₁, h₂⟩⟩
  simp only [ne_eq, horg, not_false_eq_true, if_true, forall_const, Proc.exec_bind_eq_ok_iff,
    readCredentials_eq_ok_iff hp]
  constructor
  · rintro ⟨credentials, t, ⟨hlegible, hcredentials, rfl⟩, certificates, u, hcert, hreturn⟩
    cases hreturn
    obtain ⟨hlegible', hcertificates, hq⟩ := hread.mp hcert
    refine ⟨⟨hlegible, hlegible'⟩, ?_, hq⟩
    rw [decide_eq_true_eq, hcredentials, hcertificates, hsecured]
  · rintro ⟨⟨hlegible, hlegible'⟩, hrc, hq⟩
    obtain ⟨credentials, hcredentials⟩ := exists_eq_true_iff (Credentials root)
    obtain ⟨certificates, hcertificates⟩ :=
      exists_eq_true_iff (UsesCertificates root → Certified root)
    refine ⟨credentials, _, ⟨hlegible, hcredentials, rfl⟩, certificates, q,
      hread.mpr ⟨hlegible', hcertificates, hq⟩, ?_⟩
    rw [(eq_decide_iff (b := credentials = true ∧ certificates = true) (by
      rw [hsecured, hcredentials, hcertificates])).mp hrc]
    rfl

/-- The members that are read from every configuration. -/
def basicKeys : List StdString :=
  ["Organization-ID".toList, "Domain".toList, "Device-Type".toList, "Device-ID".toList,
    "Port".toList]

/-- Everything that is read has a text, and the port can be converted if it is. -/
structure Readable (root : Value D) : Prop where
  basic : ∀ key ∈ basicKeys, Legible root key
  port : Convertible (memberText root "Organization-ID".toList [])
    (memberText root "Port".toList "8883".toList)
  security : memberText root "Organization-ID".toList [] ≠ quickstart →
    (∀ key ∈ securityKeys, Legible root key) ∧
      (UsesCertificates root → ∀ key ∈ certificateKeys, Legible root key)

/-- Nothing is empty that has to be there. -/
structure Complete (root : Value D) : Prop where
  org : memberText root "Organization-ID".toList [] ≠ []
  deviceType : memberText root "Device-Type".toList [] ≠ []
  deviceId : memberText root "Device-ID".toList [] ≠ []
  port : memberText root "Port".toList "8883".toList ≠ []
  security : memberText root "Organization-ID".toList [] ≠ quickstart → Secured root

/-- The properties with what the members outside the security say. -/
def withBasics (root : Value D) : Properties :=
  let domain := memberText root "Domain".toList []
  let org := memberText root "Organization-ID".toList []
  { Properties.initial with
    orgId := org
    domain := if domain = [] then Properties.initial.domain else domain
    deviceType := memberText root "Device-Type".toList []
    deviceId := memberText root "Device-ID".toList []
    port := portOf org (memberText root "Port".toList "8883".toList) Properties.initial.port }

/-- The properties that a configuration comes to. -/
def configured (root : Value D) : Properties :=
  if memberText root "Organization-ID".toList [] ≠ quickstart then
    withSecurity root (withBasics root)
  else withBasics root

theorem blank_withBasics (root : Value D) : Blank (withBasics root) :=
  ⟨rfl, rfl, rfl, rfl, rfl, rfl⟩

/-- Reading a configuration into the initial properties returns if everything that is read
is legible; then the result tells whether it is complete. -/
theorem initializeFromRoot_eq_ok_iff {rc : Bool} :
    (initializeFromRoot root).exec .initial = (.ok rc, q) ↔
      Readable root ∧ (rc = true ↔ Complete root) ∧ q = configured root := by
  have hcomplete : ∀ {security : Bool}, (security = true ↔
      (memberText root "Organization-ID".toList [] ≠ quickstart → Secured root)) →
        (Complete root ↔ memberText root "Organization-ID".toList [] ≠ [] ∧
          memberText root "Device-Type".toList [] ≠ [] ∧
          memberText root "Device-ID".toList [] ≠ [] ∧
          memberText root "Port".toList "8883".toList ≠ [] ∧ security = true) := by
    intro security hsecurity
    rw [hsecurity]
    exact ⟨fun h => ⟨h.1, h.2, h.3, h.4, h.5⟩, fun ⟨h₁, h₂, h₃, h₄, h₅⟩ => ⟨h₁, h₂, h₃, h₄, h₅⟩⟩
  have hread : ∀ security, (readSecurity root (memberText root "Organization-ID".toList [])).exec
      (withBasics root) = (.ok security, q) ↔ _ :=
    fun _ => readSecurity_eq_ok_iff (blank_withBasics root)
  simp only [initializeFromRoot, Proc.exec_bind_eq_ok_iff]
  constructor
  · rintro ⟨org, t, h₁, domain, u, h₂, deviceType, v, h₃, deviceId, w, h₄, customPort, x, h₅,
      security, y, h₆, hreturn⟩
    rw [readRequired_eq_ok_iff rfl] at h₁
    obtain ⟨hlegible₁, rfl, rfl⟩ := h₁
    rw [readDomain_eq_ok_iff] at h₂
    obtain ⟨hlegible₂, rfl, rfl⟩ := h₂
    rw [readRequired_eq_ok_iff rfl] at h₃
    obtain ⟨hlegible₃, rfl, rfl⟩ := h₃
    rw [readRequired_eq_ok_iff rfl] at h₄
    obtain ⟨hlegible₄, rfl, rfl⟩ := h₄
    rw [readPort_eq_ok_iff] at h₅
    obtain ⟨hlegible₅, rfl, hport, hx⟩ := h₅
    obtain rfl : x = withBasics root := hx
    cases hreturn
    obtain ⟨hlegible₆, hsecurity, hq⟩ := (hread _).mp h₆
    refine ⟨⟨?_, hport, hlegible₆⟩, ?_, hq⟩
    · simp only [basicKeys, List.forall_mem_cons]
      exact ⟨hlegible₁, hlegible₂, hlegible₃, hlegible₄, hlegible₅, nofun⟩
    · rw [decide_eq_true_eq, hcomplete hsecurity]
  · rintro ⟨⟨hbasic, hport, hlegible⟩, hrc, hq⟩
    simp only [basicKeys, List.forall_mem_cons] at hbasic
    obtain ⟨hlegible₁, hlegible₂, hlegible₃, hlegible₄, hlegible₅, -⟩ := hbasic
    obtain ⟨security, hsecurity⟩ := exists_eq_true_iff
      (memberText root "Organization-ID".toList [] ≠ quickstart → Secured root)
    refine ⟨_, _, (readRequired_eq_ok_iff rfl).mpr ⟨hlegible₁, rfl, rfl⟩, ?_⟩
    refine ⟨_, _, readDomain_eq_ok_iff.mpr ⟨hlegible₂, rfl, rfl⟩, ?_⟩
    refine ⟨_, _, (readRequired_eq_ok_iff rfl).mpr ⟨hlegible₃, rfl, rfl⟩, ?_⟩
    refine ⟨_, _, (readRequired_eq_ok_iff rfl).mpr ⟨hlegible₄, rfl, rfl⟩, ?_⟩
    refine ⟨_, withBasics root, readPort_eq_ok_iff.mpr ⟨hlegible₅, rfl, hport, rfl⟩, ?_⟩
    refine ⟨security, q, (hread _).mpr ⟨hlegible, hsecurity, hq⟩, ?_⟩
    rw [(eq_decide_iff (hcomplete hsecurity)).mp hrc]
    rfl

end Configuration
