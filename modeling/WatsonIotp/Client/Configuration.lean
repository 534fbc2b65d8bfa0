import WatsonIotp.Client.Properties
import WatsonIotp.Json.Progress

/-!
# Which configurations are accepted

A configuration whose members are strings, integers or booleans is to be accepted if
everything needed is there and the port is one, and then the properties are what the
members say. The port is converted by `std::stoi`, which throws where there is no number
and does not mind a number that is no port. `acceptedExactly_iff` says for which members
this makes no difference.
-/

open Json

namespace Configuration

variable {D : Type} [CxxDouble D]

/-- A string, an integer or a boolean. -/
def Flat : Value D → Prop
  | .stringValue _ | .intValue _ | .uintValue _ | .booleanValue _ => True
  | .nullValue | .realValue _ | .arrayValue _ | .objectValue _ => False

/-- What such a value says. -/
def textOf : Value D → StdString
  | .stringValue s => s
  | .intValue i => StdString.ofInt i
  | .uintValue n => StdString.ofNat n
  | .booleanValue b => if b then "true".toList else "false".toList
  | .nullValue | .realValue _ | .arrayValue _ | .objectValue _ => []

section Members

variable (members : List (StdString × Value D)) (key : StdString)

/-- The text of a member, if it is present. -/
def member? : Option StdString := (members.lookup key).map textOf

/-- The text of a member, if it is present and not empty. -/
def given? : Option StdString := (member? members key).filter (· ≠ [])

/-- The member is present and not empty. -/
def Given : Prop := ∃ text, given? members key = some text

/-- The member is not empty if it is present. -/
def Intact : Prop := member? members key ≠ some []

/-- The organization is "quickstart". -/
def OfQuickstart : Prop := given? members "Organization-ID".toList = some quickstart

instance : Decidable (OfQuickstart members) := inferInstanceAs (Decidable (_ = _))

/-- Certificates are asked for, by the text or by the boolean. -/
def AsksForCertificates : Prop :=
  given? members "useClientCertificates".toList = some "true".toList

instance : Decidable (AsksForCertificates members) := inferInstanceAs (Decidable (_ = _))

/-- What is needed unless the organization is "quickstart". -/
structure SecuritySupplied : Prop where
  authMethod : Given members "Authentication-Method".toList
  authToken : Given members "Authentication-Token".toList
  trustStore : Given members "clientTrustStorePath".toList
  useCerts : Intact members "useClientCertificates".toList
  certificates : AsksForCertificates members →
    Given members "clientCertPath".toList ∧ Given members "clientKeyPath".toList

/-- Everything needed is there; what the port says does not matter. -/
structure Supplied : Prop where
  org : Given members "Organization-ID".toList
  deviceType : Given members "Device-Type".toList
  deviceId : Given members "Device-ID".toList
  port : Intact members "Port".toList
  security : ¬ OfQuickstart members → SecuritySupplied members

end Members

/-- A decimal integer from 1 to 65535. -/
def IsPort (text : StdString) : Prop :=
  text.IsDecimal ∧ 1 ≤ Nat.ofDigitChars 10 text 0 ∧ Nat.ofDigitChars 10 text 0 ≤ 65535

instance (text : StdString) : Decidable (IsPort text) := inferInstanceAs (Decidable (_ ∧ _))

/-- The configuration is to be accepted. -/
structure Acceptable (members : List (StdString × Value D)) : Prop where
  supplied : Supplied members
  port : ¬ OfQuickstart members → ∀ text, member? members "Port".toList = some text → IsPort text

/-- The port after a configuration has been accepted. -/
def expectedPort (members : List (StdString × Value D)) : Int :=
  if OfQuickstart members then 1883
  else Nat.ofDigitChars 10 ((given? members "Port".toList).getD "8883".toList) 0

/-- The properties after a configuration has been accepted: what the members say, or
the defaults. -/
def expected (members : List (StdString × Value D)) : Properties :=
  let text key defaultValue := (given? members key).getD defaultValue
  let secured key := if OfQuickstart members then [] else text key []
  let certified key := if AsksForCertificates members then secured key else []
  { orgId := text "Organization-ID".toList []
    domain := text "Domain".toList Properties.initial.domain
    deviceType := text "Device-Type".toList []
    deviceId := text "Device-ID".toList []
    authMethod := secured "Authentication-Method".toList
    authToken := secured "Authentication-Token".toList
    trustStore := secured "clientTrustStorePath".toList
    keyStore := certified "clientCertPath".toList
    privateKey := certified "clientKeyPath".toList
    keyPassPhrase := certified "clientKeyPassword".toList
    port := expectedPort members
    useCerts := ¬ OfQuickstart members ∧ AsksForCertificates members }

/-- Reading the configuration returns, accepts what is to be accepted, and then leaves the
properties as expected. -/
def AcceptedExactly (members : List (StdString × Value D))
    (outcome : Except Error Bool × Properties) : Prop :=
  ∃ rc p, outcome = (.ok rc, p) ∧ (rc = true ↔ Acceptable members) ∧
    (rc = true → p = expected members)

/-! ### What is read of flat members -/

theorem asString_of_flat {v : Value D} (h : Flat v) : v.asString = .ok (textOf v) := by
  cases v <;> first | rfl | exact h.elim

section Flat

variable {members : List (StdString × Value D)} (hflat : ∀ m ∈ members, Flat m.2)

include hflat

theorem getString_eq (key defaultValue : StdString) :
    getString (.objectValue members) key defaultValue =
      .ok ((member? members key).getD defaultValue) := by
  change Value.asString ((members.lookup key).getD (.stringValue defaultValue)) = _
  rw [member?]
  cases hlookup : members.lookup key with
  | none => rfl
  | some v =>
      obtain ⟨front, back, hmembers, -⟩ := List.lookup_eq_some_iff.mp hlookup
      have hmem : (key, v) ∈ members := by simp [hmembers]
      exact asString_of_flat (hflat _ hmem)

theorem legible (key : StdString) : Legible (.objectValue members) key :=
  (getString_eq_ok_iff.mp (getString_eq hflat key [])).1

theorem memberText_eq (key defaultValue : StdString) :
    memberText (.objectValue members) key defaultValue =
      (member? members key).getD defaultValue := by
  rw [memberText, getString_eq hflat]

theorem memberText_eq_given (key : StdString) :
    memberText (.objectValue members) key [] = (given? members key).getD [] := by
  rw [memberText_eq hflat, given?]
  cases member? members key with
  | none => rfl
  | some text =>
      rw [Option.filter_some]
      split
      · rfl
      · next h => simpa using h

/-- A text that is not empty is read exactly if it is given, unless it is the default. -/
theorem memberText_eq_iff {key defaultValue text : StdString} (htext : text ≠ [])
    (hdefault : defaultValue ≠ text) :
    memberText (.objectValue members) key defaultValue = text ↔
      given? members key = some text := by
  rw [memberText_eq hflat, given?]
  cases member? members key with
  | none => simp [hdefault]
  | some text' =>
      simp only [Option.getD_some, Option.filter_eq_some_iff, Option.some.injEq]
      exact ⟨fun h => ⟨h, by simpa using htext⟩, fun h => h.1⟩

theorem ofQuickstart_iff :
    memberText (.objectValue members) "Organization-ID".toList [] = quickstart ↔
      OfQuickstart members :=
  memberText_eq_iff hflat (by decide) (by decide)

theorem asksForCertificates_iff :
    UsesCertificates (.objectValue members) ↔ AsksForCertificates members :=
  memberText_eq_iff hflat (by decide) (by decide)

theorem given_iff {key : StdString} :
    memberText (.objectValue members) key [] ≠ [] ↔ Given members key := by
  rw [memberText_eq hflat, Given, given?]
  cases member? members key with
  | none => simp
  | some text => simp [Option.filter_eq_some_iff]

theorem intact_iff {key defaultValue : StdString} (hdefault : defaultValue ≠ []) :
    memberText (.objectValue members) key defaultValue ≠ [] ↔ Intact members key := by
  rw [memberText_eq hflat, Intact]
  cases member? members key with
  | none => simp [hdefault]
  | some text => simp

theorem secured_iff : Secured (.objectValue members) ↔ SecuritySupplied members := by
  have huse := asksForCertificates_iff hflat
  constructor
  · rintro ⟨⟨hmethod, htoken, htrust, hcerts⟩, hcertified⟩
    refine ⟨(given_iff hflat).mp hmethod, (given_iff hflat).mp htoken,
      (given_iff hflat).mp htrust, (intact_iff hflat (by decide)).mp hcerts, fun hasks => ?_⟩
    obtain ⟨hpath, hkey⟩ := hcertified (huse.mpr hasks)
    exact ⟨(given_iff hflat).mp hpath, (given_iff hflat).mp hkey⟩
  · rintro ⟨hmethod, htoken, htrust, hcerts, hcertified⟩
    refine ⟨⟨(given_iff hflat).mpr hmethod, (given_iff hflat).mpr htoken,
      (given_iff hflat).mpr htrust, (intact_iff hflat (by decide)).mpr hcerts⟩, fun huses => ?_⟩
    obtain ⟨hpath, hkey⟩ := hcertified (huse.mp huses)
    exact ⟨(given_iff hflat).mpr hpath, (given_iff hflat).mpr hkey⟩

/-- The reading finds complete what has everything needed. -/
theorem complete_iff : Complete (.objectValue members) ↔ Supplied members := by
  have hsecurity := imp_congr (not_congr (ofQuickstart_iff hflat)) (secured_iff hflat)
  constructor
  · rintro ⟨horg, htype, hid, hport, hsecured⟩
    exact ⟨(given_iff hflat).mp horg, (given_iff hflat).mp htype, (given_iff hflat).mp hid,
      (intact_iff hflat (by decide)).mp hport, hsecurity.mp hsecured⟩
  · rintro ⟨horg, htype, hid, hport, hsecured⟩
    exact ⟨(given_iff hflat).mpr horg, (given_iff hflat).mpr htype, (given_iff hflat).mpr hid,
      (intact_iff hflat (by decide)).mpr hport, hsecurity.mpr hsecured⟩

/-- Only the conversion of the port can keep the reading from returning. -/
theorem readable_iff : Readable (.objectValue members) ↔
    Convertible (memberText (.objectValue members) "Organization-ID".toList [])
      (memberText (.objectValue members) "Port".toList "8883".toList) := by
  refine ⟨fun h => h.port, fun hport => ⟨fun key _ => legible hflat key, hport, fun _ => ?_⟩⟩
  exact ⟨fun key _ => legible hflat key, fun _ key _ => legible hflat key⟩

end Flat

/-- A port is converted to its number. -/
theorem IsPort.stoi {text : StdString} (h : IsPort text) :
    StdString.stoi text = .ok (Nat.ofDigitChars 10 text 0 : Nat) := by
  obtain ⟨hdecimal, -, hle⟩ := h
  rw [StdString.stoi_of_isDecimal hdecimal, StdString.toInt, if_pos (by omega)]

/-- The default is a port. -/
theorem isPort_default : IsPort "8883".toList := by
  have hvalue : Nat.ofDigitChars 10 "8883".toList 0 = 8883 := rfl
  rw [IsPort, hvalue]
  exact ⟨by decide, by omega, by omega⟩

section Flat

variable {members : List (StdString × Value D)} (hflat : ∀ m ∈ members, Flat m.2)

include hflat

/-- The text of the port, with its default, where it is not empty. -/
theorem given_port (hintact : Intact members "Port".toList) :
    (given? members "Port".toList).getD "8883".toList =
      memberText (.objectValue members) "Port".toList "8883".toList := by
  rw [Intact] at hintact
  rw [memberText_eq hflat, given?]
  cases hmember : member? members "Port".toList with
  | none => rfl
  | some text =>
      have htext : text ≠ [] := by
        rintro rfl
        exact hintact hmember
      rw [Option.filter_some, if_pos (by simpa using htext)]

/-- The port that is set for an acceptable configuration. -/
theorem portOf_eq (hacceptable : Acceptable members) :
    portOf (memberText (.objectValue members) "Organization-ID".toList [])
        (memberText (.objectValue members) "Port".toList "8883".toList) Properties.initial.port =
      expectedPort members := by
  obtain ⟨hsupplied, hport⟩ := hacceptable
  have hne : memberText (.objectValue members) "Port".toList "8883".toList ≠ [] :=
    (intact_iff hflat (by decide)).mpr hsupplied.port
  rw [portOf, if_neg hne, expectedPort]
  by_cases hquick : OfQuickstart members
  · rw [if_pos ((ofQuickstart_iff hflat).mpr hquick), if_pos hquick]
  · rw [if_neg fun h => hquick ((ofQuickstart_iff hflat).mp h), if_neg hquick,
      given_port hflat hsupplied.port]
    have hisPort : IsPort (memberText (.objectValue members) "Port".toList "8883".toList) := by
      rw [memberText_eq hflat]
      cases hmember : member? members "Port".toList with
      | none => exact isPort_default
      | some text => exact hport hquick text hmember
    rw [hisPort.stoi]

/-- What is set for an acceptable configuration is what is expected. -/
theorem configured_eq (hacceptable : Acceptable members) :
    configured (.objectValue members) = expected members := by
  have hport := portOf_eq hflat hacceptable
  have hdomain : (if memberText (.objectValue members) "Domain".toList [] = [] then
      Properties.initial.domain else memberText (.objectValue members) "Domain".toList []) =
        (given? members "Domain".toList).getD Properties.initial.domain := by
    rw [memberText_eq hflat, given?]
    cases member? members "Domain".toList with
    | none => rfl
    | some text => by_cases htext : text = [] <;> simp [Option.filter_some, htext]
  have hbasics : withBasics (.objectValue members) = { Properties.initial with
      orgId := (given? members "Organization-ID".toList).getD []
      domain := (given? members "Domain".toList).getD Properties.initial.domain
      deviceType := (given? members "Device-Type".toList).getD []
      deviceId := (given? members "Device-ID".toList).getD []
      port := expectedPort members } := by
    simp only [withBasics, hdomain, hport]
    simp only [memberText_eq_given hflat]
  rw [configured, hbasics]
  by_cases hquick : OfQuickstart members
  · rw [if_neg (not_not.mpr ((ofQuickstart_iff hflat).mpr hquick))]
    simp [expected, hquick, Properties.initial]
  · rw [if_pos fun h => hquick ((ofQuickstart_iff hflat).mp h), withSecurity]
    by_cases hasks : AsksForCertificates members
    · rw [if_pos ((asksForCertificates_iff hflat).mpr hasks)]
      simp [expected, hquick, hasks, withCertificates, withCredentials, memberText_eq_given hflat,
        asksForCertificates_iff hflat]
    · rw [if_neg fun h => hasks ((asksForCertificates_iff hflat).mp h)]
      simp [expected, hquick, hasks, withCredentials, memberText_eq_given hflat,
        asksForCertificates_iff hflat, Properties.initial]

end Flat

/-- Reading a file is reading the value that its text is parsed to. -/
theorem initializePropertiesFromFile_eq {content : StdString} {root : Value D}
    (hparse : Reader.parse (document content) = .ok (some root)) (p : Properties) :
    (initializePropertiesFromFile D (some content)).exec p = (initializeFromRoot root).exec p := by
  have hexec : (Proc.ofExcept Error.json (Reader.parse (D := D) (document content))).exec p =
      (.ok (some root), p) := Proc.exec_ofExcept_eq_ok_iff.mpr ⟨hparse, rfl⟩
  rw [initializePropertiesFromFile, Proc.exec_bind_ok hexec]

/-- The reading accepts exactly what it should if it returns, and the port of a
configuration that is complete otherwise is one. -/
theorem acceptedExactly_iff_readable {content : StdString} {members : List (StdString × Value D)}
    (hparse : Reader.parse (document content) = .ok (some (.objectValue members)))
    (hflat : ∀ m ∈ members, Flat m.2) :
    AcceptedExactly members ((initializePropertiesFromFile D (some content)).exec .initial) ↔
      Readable (.objectValue members) ∧ (Supplied members → Acceptable members) := by
  rw [initializePropertiesFromFile_eq hparse]
  constructor
  · rintro ⟨rc, p, hexec, hrc, -⟩
    obtain ⟨hreadable, hcomplete, -⟩ := initializeFromRoot_eq_ok_iff.mp hexec
    rw [complete_iff hflat] at hcomplete
    exact ⟨hreadable, fun hsupplied => hrc.mp (hcomplete.mpr hsupplied)⟩
  · rintro ⟨hreadable, hport⟩
    obtain ⟨rc, hrc⟩ := exists_eq_true_iff (Supplied members)
    have hacceptable : rc = true ↔ Acceptable members :=
      hrc.trans ⟨hport, fun h => h.supplied⟩
    refine ⟨rc, _, initializeFromRoot_eq_ok_iff.mpr ⟨hreadable, ?_, rfl⟩, hacceptable, fun h => ?_⟩
    · rw [hrc, complete_iff hflat]
    · exact configured_eq hflat (hacceptable.mp h)

/-- Reading the members accepts exactly what it should if the port is one, or is not
looked at, or is some other number in a configuration that is rejected anyway. -/
theorem acceptedExactly_iff {content : StdString} {members : List (StdString × Value D)}
    (hparse : Reader.parse (document content) = .ok (some (.objectValue members)))
    (hflat : ∀ m ∈ members, Flat m.2) :
    AcceptedExactly members ((initializePropertiesFromFile D (some content)).exec .initial) ↔
      OfQuickstart members ∨
        (∀ text, member? members "Port".toList = some text → text = [] ∨ IsPort text) ∨
        (∃ text port, member? members "Port".toList = some text ∧ StdString.stoi text = .ok port) ∧
          ¬ Supplied members := by
  rw [acceptedExactly_iff_readable hparse hflat, readable_iff hflat, Convertible,
    ofQuickstart_iff hflat, memberText_eq hflat]
  by_cases hquick : OfQuickstart members
  · exact iff_of_true ⟨.inr (.inl hquick), fun h => ⟨h, fun hnot => absurd hquick hnot⟩⟩
      (.inl hquick)
  have hport : Acceptable members ↔ Supplied members ∧
      ∀ text, member? members "Port".toList = some text → IsPort text :=
    ⟨fun h => ⟨h.supplied, h.port hquick⟩, fun h => ⟨h.1, fun _ => h.2⟩⟩
  simp only [hquick, false_or, hport]
  cases hmember : member? members "Port".toList with
  | none =>
      have hconvertible := isPort_default.stoi
      exact iff_of_true ⟨.inr ⟨_, hconvertible⟩, fun h => ⟨h, by simp⟩⟩ (.inl (by simp))
  | some text =>
      simp only [Option.getD_some, Option.some.injEq, forall_eq']
      by_cases hempty : text = []
      · have hnot : ¬ Supplied members := fun h => h.port (hempty ▸ hmember)
        exact iff_of_true ⟨.inl hempty, fun h => absurd h hnot⟩ (.inl (.inl hempty))
      by_cases hisPort : IsPort text
      · exact iff_of_true ⟨.inr ⟨_, hisPort.stoi⟩, fun h => ⟨h, hisPort⟩⟩ (.inl (.inr hisPort))
      · simp [hempty, hisPort]

/-- The configuration of a device that sends to "quickstart". -/
def quickstartFile : StdString :=
  "\x7b\"Organization-ID\":\"quickstart\",".toList ++
    "\"Device-Type\":\"type\",\"Device-ID\":\"id\"\x7d".toList

def quickstartMembers : List (StdString × Value Int) :=
  [("Device-ID".toList, .stringValue "id".toList),
    ("Device-Type".toList, .stringValue "type".toList),
    ("Organization-ID".toList, .stringValue "quickstart".toList)]

theorem parse_quickstartFile :
    Reader.parse (document quickstartFile) = .ok (some (.objectValue quickstartMembers)) :=
  Reader.parse_of_readValue (by decide : 4 ≤ Reader.stackLimit) rfl

theorem flat_quickstartMembers : ∀ m ∈ quickstartMembers, Flat m.2 := by
  simp [quickstartMembers, Flat]

/-- It is accepted as it should be. -/
theorem acceptedExactly_quickstart : AcceptedExactly quickstartMembers
    ((initializePropertiesFromFile Int (some quickstartFile)).exec .initial) :=
  (acceptedExactly_iff parse_quickstartFile flat_quickstartMembers).mpr (.inl (by decide))

/-- A port that is no number makes the reading throw. -/
theorem acceptedExactly_fails :
    ¬ ∀ (content : StdString) (members : List (StdString × Value Int)),
      Reader.parse (document content) = .ok (some (.objectValue members)) →
      (∀ m ∈ members, Flat m.2) → AcceptedExactly members
        ((initializePropertiesFromFile Int (some content)).exec .initial) := by
  intro h
  let members : List (StdString × Value Int) := [("Port".toList, .stringValue "abc".toList)]
  have hparse : Reader.parse (document "\x7b\"Port\":\"abc\"\x7d".toList) =
      .ok (some (.objectValue members)) :=
    Reader.parse_of_readValue (by decide : 2 ≤ Reader.stackLimit) rfl
  have hflat : ∀ m ∈ members, Flat m.2 := by simp [members, Flat]
  have hreadable := ((acceptedExactly_iff_readable hparse hflat).mp (h _ members hparse hflat)).1
  obtain hempty | horg | ⟨port, hport⟩ := hreadable.port
  · revert hempty
    decide
  · revert horg
    decide
  · have hthrow : StdString.stoi (memberText (.objectValue members) "Port".toList "8883".toList) =
        .error .invalidArgument := rfl
    rw [hthrow] at hport
    cases hport

end Configuration
