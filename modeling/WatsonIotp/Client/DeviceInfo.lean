import WatsonIotp.Handler.Update
import WatsonIotp.Json.Object
import WatsonIotp.Machine.Basic

/-!
# Information about a device

`manage` sends an `IOTP_DeviceInfo` as JSON. Its constructors and its encoder each have
the eight names in a list of their own. `json_new` says which members eight texts make,
`exec_remakes` that an information that is rebuilt of its JSON text or copied stays what it
is, and `json_ofJson` what remains of a JSON object that an information is made of.
-/

open Json Value

variable {D : Type}

/-- `IOTP_DeviceInfo`. -/
structure DeviceInfo (D : Type) where
  mSerialNumber : StdString
  mManufacturer : StdString
  mModel : StdString
  mDeviceClass : StdString
  mDescription : StdString
  mFwVersion : StdString
  mHwVersion : StdString
  mDescriptiveLocation : StdString
  json : Value D

namespace DeviceInfo

def setJsonValue (p : DeviceInfo D) : DeviceInfo D :=
  let assignText (json : Value D) (key text : StdString) : Value D :=
    if text = [] then json else json.assign key (.stringValue text)
  let json := assignText p.json "serialNumber".toList p.mSerialNumber
  let json := assignText json "manufacturer".toList p.mManufacturer
  let json := assignText json "model".toList p.mModel
  let json := assignText json "deviceClass".toList p.mDeviceClass
  let json := assignText json "description".toList p.mDescription
  let json := assignText json "fwVersion".toList p.mFwVersion
  let json := assignText json "hwVersion".toList p.mHwVersion
  let json := assignText json "descriptiveLocation".toList p.mDescriptiveLocation
  { p with json }

/-- The constructor of eight pointers; `none` is the null pointer. -/
def new (serialNumber manufacturer model deviceClass description fwVersion hwVersion
    descriptiveLocation : Option StdString) : DeviceInfo D :=
  setJsonValue
    { mSerialNumber := serialNumber.getD []
      mManufacturer := manufacturer.getD []
      mModel := model.getD []
      mDeviceClass := deviceClass.getD []
      mDescription := description.getD []
      mFwVersion := fwVersion.getD []
      mHwVersion := hwVersion.getD []
      mDescriptiveLocation := descriptiveLocation.getD []
      json := .nullValue }

/-- The constructor of a JSON value. -/
def ofJson [CxxDouble D] (value : Value D) : Except Error (DeviceInfo D) := do
  let mSerialNumber ← (value.get "serialNumber".toList (.stringValue [])).bind Value.asString
  let mManufacturer ← (value.get "manufacturer".toList (.stringValue [])).bind Value.asString
  let mModel ← (value.get "model".toList (.stringValue [])).bind Value.asString
  let mDeviceClass ← (value.get "deviceClass".toList (.stringValue [])).bind Value.asString
  let mDescription ← (value.get "description".toList (.stringValue [])).bind Value.asString
  let mFwVersion ← (value.get "fwVersion".toList (.stringValue [])).bind Value.asString
  let mHwVersion ← (value.get "hwVersion".toList (.stringValue [])).bind Value.asString
  let mDescriptiveLocation ←
    (value.get "descriptiveLocation".toList (.stringValue [])).bind Value.asString
  return setJsonValue
    { mSerialNumber, mManufacturer, mModel, mDeviceClass, mDescription, mFwVersion, mHwVersion,
      mDescriptiveLocation, json := .nullValue }

/-- The copy constructor. -/
def copy (src : DeviceInfo D) : DeviceInfo D :=
  setJsonValue
    { mSerialNumber := src.mSerialNumber
      mManufacturer := src.mManufacturer
      mModel := src.mModel
      mDeviceClass := src.mDeviceClass
      mDescription := src.mDescription
      mFwVersion := src.mFwVersion
      mHwVersion := src.mHwVersion
      mDescriptiveLocation := src.mDescriptiveLocation
      json := .nullValue }

/-! ### The members of the JSON text -/

/-- The names, in the order of the encoder. -/
def keys : List StdString :=
  ["serialNumber".toList, "manufacturer".toList, "model".toList, "deviceClass".toList,
    "description".toList, "fwVersion".toList, "hwVersion".toList, "descriptiveLocation".toList]

/-- The field under each name. -/
def fields (p : DeviceInfo D) : List (StdString × StdString) :=
  keys.zip [p.mSerialNumber, p.mManufacturer, p.mModel, p.mDeviceClass, p.mDescription,
    p.mFwVersion, p.mHwVersion, p.mDescriptiveLocation]

/-- The members that the fields make. -/
def table (p : DeviceInfo D) : List (StdString × Option (Value D)) :=
  p.fields.map fun field => (field.1, ofText field.2)

theorem keys_nodup : keys.Nodup := by decide

theorem table_names (p : DeviceInfo D) : (p.table.map Prod.fst).Nodup := keys_nodup

/-- The fields with another JSON text. -/
def withJson (p : DeviceInfo D) (json : Value D) : DeviceInfo D := { p with json }

theorem setJsonValue_eq (p : DeviceInfo D) :
    p.setJsonValue = p.withJson (p.json.putAll p.table) := by
  simp only [setJsonValue, ite_assign_eq_put]
  rfl

/-- An information as its constructors leave it. -/
def WellFormed (p : DeviceInfo D) : Prop := p.json.Has (tabled p.table)

theorem wellFormed_setJsonValue {p : DeviceInfo D} (h : p.json = .nullValue) :
    WellFormed p.setJsonValue := by
  rw [setJsonValue_eq, h]
  exact has_putAll_nullValue p.table_names

/-- The fields of an information determine its JSON text. -/
theorem WellFormed.setJsonValue_withJson {p : DeviceInfo D} (h : WellFormed p) :
    (p.withJson .nullValue).setJsonValue = p := by
  have hjson : (nullValue : Value D).putAll p.table = p.json :=
    (has_putAll_nullValue p.table_names).ext h
  calc (p.withJson .nullValue).setJsonValue
      = p.withJson ((nullValue : Value D).putAll p.table) := setJsonValue_eq _
    _ = p.withJson p.json := congrArg p.withJson hjson
    _ = p := rfl

/-! ### Rebuilding and copying -/

section

variable [CxxDouble D]

/-- The fields that are read from a JSON value. -/
def ofTexts (value : Value D) : DeviceInfo D where
  mSerialNumber := value.textUnder "serialNumber".toList
  mManufacturer := value.textUnder "manufacturer".toList
  mModel := value.textUnder "model".toList
  mDeviceClass := value.textUnder "deviceClass".toList
  mDescription := value.textUnder "description".toList
  mFwVersion := value.textUnder "fwVersion".toList
  mHwVersion := value.textUnder "hwVersion".toList
  mDescriptiveLocation := value.textUnder "descriptiveLocation".toList
  json := .nullValue

theorem ofJson_eq {value : Value D} (hobject : value.ObjectLike)
    (htext : ∀ key ∈ keys, (value.memberOr key (.stringValue [])).Textual) :
    ofJson value = .ok (ofTexts value).setJsonValue := by
  have hread : ∀ key ∈ keys, (value.memberOr key (.stringValue [])).asString =
      .ok (value.textUnder key) := fun key hkey => asString_eq_text (htext key hkey)
  rw [ofJson, member_bind_eq hobject (hread _ (by decide)),
    member_bind_eq hobject (hread _ (by decide)), member_bind_eq hobject (hread _ (by decide)),
    member_bind_eq hobject (hread _ (by decide)), member_bind_eq hobject (hread _ (by decide)),
    member_bind_eq hobject (hread _ (by decide)), member_bind_eq hobject (hread _ (by decide)),
    member_bind_eq hobject (hread _ (by decide))]
  rfl

omit [CxxDouble D] in
/-- Under each name the JSON text has its field, and under others nothing. -/
theorem WellFormed.memberOr {p : DeviceInfo D} (h : WellFormed p) (key : StdString) :
    p.json.memberOr key (.stringValue []) = .stringValue ((p.fields.lookup key).getD []) := by
  rw [Has.memberOr h, table, tabled_ofText]
  cases p.fields.lookup key with
  | none => rfl
  | some s => exact getD_ofText s

theorem WellFormed.ofTexts_eq {p : DeviceInfo D} (h : WellFormed p) :
    ofTexts p.json = p.withJson .nullValue := by
  simp only [ofTexts, textUnder, h.memberOr]
  rfl

theorem WellFormed.ofJson_json {p : DeviceInfo D} (h : WellFormed p) : ofJson p.json = .ok p := by
  have htext : ∀ key ∈ keys, (p.json.memberOr key (.stringValue [])).Textual := by
    intro key _
    rw [h.memberOr]
    trivial
  rw [ofJson_eq (Has.objectLike h) htext, h.ofTexts_eq, h.setJsonValue_withJson]

omit [CxxDouble D] in
theorem WellFormed.copy_eq {p : DeviceInfo D} (h : WellFormed p) : p.copy = p :=
  h.setJsonValue_withJson

omit [CxxDouble D] in
theorem WellFormed.json_eq_nullValue {p : DeviceInfo D} (h : WellFormed p)
    (hempty : ∀ field ∈ p.fields, field.2 = []) : p.json = .nullValue := by
  refine Has.ext (h.congr fun key => ?_) has_nullValue
  rw [table, tabled_ofText]
  cases hlookup : p.fields.lookup key with
  | none => rfl
  | some s =>
      obtain ⟨front, back, hfields, -⟩ := List.lookup_eq_some_iff.mp hlookup
      have hs : s = [] := hempty (key, s) (by simp [hfields])
      rw [hs]
      rfl

/-- What makes another information of one. -/
inductive Remake where
  /-- `IOTP_DeviceInfo(info.toJsonValue())`. -/
  | rebuild
  /-- `IOTP_DeviceInfo(info)`. -/
  | copy

/-- An information that is made of another, again and again. -/
def machine : Machine (DeviceInfo D) Remake where
  step p
    | .rebuild => (ofJson p.json).toOption
    | .copy => some p.copy

/-- The run lemma: whatever is made of an information is the same. -/
theorem WellFormed.exec_remakes {p : DeviceInfo D} (h : WellFormed p) (remakes : List Remake) :
    machine.exec p remakes = some p := by
  have hstep : ∀ remake, machine.step p remake = some p := by
    intro remake
    cases remake with
    | rebuild =>
        change (ofJson p.json).toOption = some p
        rw [h.ofJson_json]
        rfl
    | copy => exact congrArg some h.copy_eq
  induction remakes with
  | nil => rfl
  | cons remake remakes ih =>
      rw [Machine.exec, hstep]
      exact ih

/-! ### What is made of an object -/

omit [CxxDouble D] in
/-- The value is the empty text. -/
def isEmptyText : Value D → Bool
  | .stringValue [] => true
  | _ => false

omit [CxxDouble D] in
/-- The members under the eight names that are not empty. -/
def restrict (members : List (StdString × Value D)) : Value D :=
  Value.ofMembers (members.filter fun m => keys.contains m.1 && !isEmptyText m.2)

omit [CxxDouble D] in
/-- The members under the eight names are texts, where they are there. -/
def HasTexts (members : List (StdString × Value D)) : Prop :=
  ∀ key ∈ keys, members.lookup key = none ∨ ∃ s, members.lookup key = some (.stringValue s)

theorem HasTexts.memberOr {members : List (StdString × Value D)} (h : HasTexts members)
    {key : StdString} (hkey : key ∈ keys) :
    (Value.objectValue members).memberOr key (.stringValue []) =
      .stringValue ((Value.objectValue members).textUnder key) := by
  change (members.lookup key).getD _ = .stringValue (text ((members.lookup key).getD _))
  obtain hnone | ⟨s, hs⟩ := h key hkey
  · rw [hnone]
    rfl
  · rw [hs]
    rfl

/-- The texts under the eight names are the members with these names that are not empty. -/
theorem HasTexts.lookup_eq {members : List (StdString × Value D)} (h : HasTexts members)
    (key : StdString) : ((ofTexts (.objectValue members)).fields.lookup key).bind ofText =
      (members.lookup key).filter fun value => keys.contains key && !isEmptyText value := by
  have hfields : (ofTexts (.objectValue members)).fields =
      keys.map fun name => (name, (Value.objectValue members).textUnder name) := rfl
  rw [hfields, lookup_map_self]
  by_cases hkey : keys.contains key = true
  · have hmember := h.memberOr (List.contains_iff_mem.mp hkey)
    rw [if_pos hkey, hkey, Option.bind_some]
    change (members.lookup key).getD _ = _ at hmember
    obtain hnone | ⟨s, hs⟩ := h key (List.contains_iff_mem.mp hkey)
    · rw [hnone] at hmember ⊢
      rw [← stringValue.inj hmember]
      rfl
    · rw [hs] at hmember ⊢
      rw [← stringValue.inj hmember]
      cases s <;> rfl
  · rw [if_neg hkey, Bool.eq_false_iff.mpr hkey]
    cases members.lookup key <;> rfl

theorem json_ofJson {members : List (StdString × Value D)} (hordered : Ordered members)
    (h : HasTexts members) : (ofJson (.objectValue members)).map json = .ok (restrict members) := by
  have hobject : (Value.objectValue members).ObjectLike := trivial
  have htextual : ∀ key ∈ keys,
      ((Value.objectValue members).memberOr key (.stringValue [])).Textual := by
    intro key hkey
    rw [h.memberOr hkey]
    trivial
  rw [ofJson_eq hobject htextual]
  apply congrArg Except.ok
  refine (wellFormed_setJsonValue rfl).ext ((has_ofMembers (hordered.filter _)).congr ?_)
  intro key
  rw [hordered.lookup_filter]
  exact (h.lookup_eq key).symm.trans (tabled_ofText _ key).symm

omit [CxxDouble D] in
/-- The eight texts as members, in the order of their names. -/
def textMembers (serialNumber manufacturer model deviceClass description fwVersion hwVersion
    descriptiveLocation : StdString) : List (StdString × Value D) :=
  [("description".toList, .stringValue description),
    ("descriptiveLocation".toList, .stringValue descriptiveLocation),
    ("deviceClass".toList, .stringValue deviceClass),
    ("fwVersion".toList, .stringValue fwVersion),
    ("hwVersion".toList, .stringValue hwVersion),
    ("manufacturer".toList, .stringValue manufacturer),
    ("model".toList, .stringValue model),
    ("serialNumber".toList, .stringValue serialNumber)]

/-- The constructor of eight texts gives the information that would be read from them. -/
theorem json_new (serialNumber manufacturer model deviceClass description fwVersion hwVersion
    descriptiveLocation : Option StdString) :
    (new serialNumber manufacturer model deviceClass description fwVersion hwVersion
      descriptiveLocation : DeviceInfo D).json = restrict (textMembers (serialNumber.getD [])
        (manufacturer.getD []) (model.getD []) (deviceClass.getD []) (description.getD [])
        (fwVersion.getD []) (hwVersion.getD []) (descriptiveLocation.getD [])) := by
  let p : DeviceInfo D := new serialNumber manufacturer model deviceClass description fwVersion
    hwVersion descriptiveLocation
  let members : List (StdString × Value D) := textMembers (serialNumber.getD [])
    (manufacturer.getD []) (model.getD []) (deviceClass.getD []) (description.getD [])
    (fwVersion.getD []) (hwVersion.getD []) (descriptiveLocation.getD [])
  have hordered : Ordered members := by
    apply (List.pairwise_map (f := Prod.fst) (R := (· < ·))).mp
    change List.Pairwise (· < ·) ["description".toList, "descriptiveLocation".toList,
      "deviceClass".toList, "fwVersion".toList, "hwVersion".toList, "manufacturer".toList,
      "model".toList, "serialNumber".toList]
    decide
  have htexts : ∀ key ∈ keys, ∃ s, members.lookup key = some (.stringValue s) := by
    intro key hkey
    simp only [keys, List.mem_cons, List.not_mem_nil, or_false] at hkey
    obtain rfl | rfl | rfl | rfl | rfl | rfl | rfl | rfl := hkey <;> exact ⟨_, rfl⟩
  have hmake : ofJson (.objectValue members) = .ok p := by
    refine ofJson_eq trivial fun key hkey => ?_
    obtain ⟨s, hs⟩ := htexts key hkey
    change ((members.lookup key).getD _).Textual
    rw [hs]
    trivial
  have hjson := json_ofJson hordered fun key hkey => .inr (htexts key hkey)
  rw [hmake] at hjson
  exact Except.ok.inj hjson

/-- An information that is made of eight texts has them, and in JSON those that are not empty.
It goes through JSON and back, and copies of it are the same; an object with texts goes
through an information and back, but for other members and empty ones. -/
theorem roundTrips :
    (∀ (serialNumber manufacturer model deviceClass description fwVersion hwVersion
        descriptiveLocation : Option StdString) (remakes : List Remake),
      let p : DeviceInfo D := new serialNumber manufacturer model deviceClass description
        fwVersion hwVersion descriptiveLocation
      p =
        { mSerialNumber := serialNumber.getD []
          mManufacturer := manufacturer.getD []
          mModel := model.getD []
          mDeviceClass := deviceClass.getD []
          mDescription := description.getD []
          mFwVersion := fwVersion.getD []
          mHwVersion := hwVersion.getD []
          mDescriptiveLocation := descriptiveLocation.getD []
          json := restrict (textMembers (serialNumber.getD []) (manufacturer.getD [])
            (model.getD []) (deviceClass.getD []) (description.getD []) (fwVersion.getD [])
            (hwVersion.getD []) (descriptiveLocation.getD [])) } ∧
      machine.exec p remakes = some p ∧
        ((∀ field ∈ p.fields, field.2 = []) → p.json = .nullValue)) ∧
    ∀ members : List (StdString × Value D), Ordered members → HasTexts members →
      (ofJson (.objectValue members)).map json = .ok (restrict members) := by
  constructor
  · intro serialNumber manufacturer model deviceClass description fwVersion hwVersion
      descriptiveLocation remakes p
    have hp : WellFormed p := wellFormed_setJsonValue rfl
    refine ⟨?_, hp.exec_remakes remakes, hp.json_eq_nullValue⟩
    rw [← json_new]
    rfl
  · intro members hordered h
    exact json_ofJson hordered h

end

/-- An object with an empty member and one of another name. -/
theorem roundTrips_model :
    (ofJson (.objectValue [("hwVersion".toList, .stringValue []), ("model".toList,
        .stringValue "rpi".toList), ("state".toList, .intValue 0)] : Value Int)).map json =
      .ok (.objectValue [("model".toList, .stringValue "rpi".toList)]) := by
  refine roundTrips.2 _ ?_ ?_
  · exact (List.pairwise_map (f := Prod.fst) (R := (· < ·))).mp (by decide)
  · intro key hkey
    simp only [keys, List.mem_cons, List.not_mem_nil, or_false] at hkey
    obtain rfl | rfl | rfl | rfl | rfl | rfl | rfl | rfl := hkey
    · exact .inl rfl
    · exact .inl rfl
    · exact .inr ⟨_, rfl⟩
    · exact .inl rfl
    · exact .inl rfl
    · exact .inl rfl
    · exact .inr ⟨_, rfl⟩
    · exact .inl rfl

end DeviceInfo
