import WatsonIotp.Handler.Update
import Mathlib.Data.List.TakeWhile

/-!
# Locations as JSON

`IOTP_DeviceLocation(const Json::Value&)` copies the time of a location into a buffer of
21 bytes, however long it is, and reads it into the object that `gmtime` owns; the member
`measuredDateTime`, which it means to set, keeps the value that the memory had.
`decodes_iff` says when a location comes back from its JSON text all the same. The handler
of update requests does not use this constructor but reads three of the five members
(`delivers_iff`).
-/

open Json

variable {D : Type}

/-- The bytes of a C string: those before the first zero. -/
def StdString.cString (s : StdString) : StdString := s.takeWhile (· ≠ Char.ofNat 0)

/-- What `strcpy` puts into a buffer of this size; `none` where it writes beyond it. -/
def StdString.strcpy (size : Nat) (s : StdString) : Option StdString :=
  if s.cString.length + 1 ≤ size then some s.cString else none

namespace Json.Value

/-- The member of an object, if there is one. -/
def member (v : Value D) (key : StdString) : Option (Value D) :=
  match v with
  | .objectValue members => members.lookup key
  | _ => none

theorem memberOr_eq {v x defaultValue : Value D} {key : StdString} (h : v.member key = some x) :
    v.memberOr key defaultValue = x := by
  cases v with
  | objectValue members => exact congrArg (Option.getD · defaultValue) h
  | _ => cases h

theorem objectLike_of_member {v x : Value D} {key : StdString} (h : v.member key = some x) :
    v.ObjectLike := by
  cases v with
  | objectValue members => trivial
  | _ => cases h

/-- The value is written as a number. -/
def IsNumber : Value D → Prop
  | .intValue _ | .uintValue _ | .realValue _ => True
  | _ => False

theorem IsNumber.numeric {v : Value D} (h : v.IsNumber) : v.Numeric := by
  cases v <;> trivial

end Json.Value

namespace DeviceLocation

/-- The JSON text of a location with these values. -/
def object (latitude longitude elevation accuracy : D) (measuredDateTime : StdString) : Value D :=
  .objectValue [("accuracy".toList, .realValue accuracy),
    ("elevation".toList, .realValue elevation), ("latitude".toList, .realValue latitude),
    ("longitude".toList, .realValue longitude),
    ("measuredDateTime".toList, .stringValue measuredDateTime)]

theorem setJsonValue_of_null {p : DeviceLocation D} (h : p.json = .nullValue) :
    p.setJsonValue = { p with json := p.jsonValue } := by
  rw [setJsonValue, h]
  rfl

/-- `sizeof "YYYY-MM-DDTHH:MM:SSZ"`. -/
def bufferSize : Nat := 21

variable [CxxDouble D]

/-- The number of bytes that the constructor copies, with that of the terminator. -/
def bytesCopied (value : Value D) : Except Error Nat := do
  let text ← (value.get "measuredDateTime".toList (.stringValue [])).bind Value.asString
  return text.cString.length + 1

/-- The constructor of a JSON value. The member `measuredDateTime` has a value before,
whichever it is. The result is `none` where the copy does not fit the buffer. -/
def ofJson (measuredDateTime now : Int) (value : Value D) :
    Except Error (Option (DeviceLocation D)) := do
  let zero : D := CxxDouble.ofInt 0
  let mLatitude ← (value.get "latitude".toList (.realValue zero)).bind Value.asDouble
  let mLongitude ← (value.get "longitude".toList (.realValue zero)).bind Value.asDouble
  let mElevation ← (value.get "elevation".toList (.realValue zero)).bind Value.asDouble
  let mAccuracy ← (value.get "accuracy".toList (.realValue zero)).bind Value.asDouble
  let text ← (value.get "measuredDateTime".toList (.stringValue [])).bind Value.asString
  match text.strcpy bufferSize with
  | some measuredDateTimeBuf =>
      -- `strptime` reads the buffer into the result of `gmtime`, which nobody looks at
      let measuredDateTime := if measuredDateTimeBuf ≠ [] then measuredDateTime else now
      return some (setJsonValue
        ⟨mLatitude, mLongitude, mElevation, mAccuracy, measuredDateTime, .nullValue⟩)
  | none => return none

/-- The values that the constructor accepts. -/
structure Accepted (value : Value D) : Prop extends value.HasLocation where
  accuracy : (value.memberOr "accuracy".toList (.realValue (CxxDouble.ofInt 0))).Numeric
  measuredDateTime : (value.memberOr "measuredDateTime".toList (.stringValue [])).Textual

theorem ofJson_isOk_iff {measuredDateTime now : Int} {value : Value D} :
    (∃ p, ofJson measuredDateTime now value = .ok p) ↔ Accepted value := by
  have hcopy : ∀ (text : StdString) (p : StdString → DeviceLocation D),
      ∃ b : Option (DeviceLocation D), (match text.strcpy bufferSize with
        | some buf => return some (p buf)
        | none => return none : Except Error (Option (DeviceLocation D))) = .ok b := by
    intro text p
    split <;> exact ⟨_, rfl⟩
  refine Iff.trans (member_bind_isOk_iff fun latitude => member_bind_isOk_iff fun longitude =>
    member_bind_isOk_iff fun elevation => member_bind_isOk_iff fun accuracy =>
      member_bind_isOk_iff fun text => iff_true_intro (hcopy text _)) ?_
  simp only [Value.asDouble_isOk_iff, Value.asString_isOk_iff, and_true]
  constructor
  · rintro ⟨hobject, hlatitude, -, hlongitude, -, helevation, -, haccuracy, -, hmeasured⟩
    exact ⟨⟨hobject, hlatitude, hlongitude, helevation⟩, haccuracy, hmeasured⟩
  · rintro ⟨⟨hobject, hlatitude, hlongitude, helevation⟩, haccuracy, hmeasured⟩
    exact ⟨hobject, hlatitude, hobject, hlongitude, hobject, helevation, hobject, haccuracy,
      hobject, hmeasured⟩

end DeviceLocation

/-- The members of a location's JSON text. -/
structure LocationMembers (D : Type) where
  latitude : Value D
  longitude : Value D
  elevation : Value D
  accuracy : Value D
  measuredDateTime : StdString

namespace LocationMembers

variable [CxxDouble D]

/-- The object has these members, and the first four are numbers. -/
structure Of (m : LocationMembers D) (v : Value D) : Prop where
  latitude : v.member "latitude".toList = some m.latitude
  longitude : v.member "longitude".toList = some m.longitude
  elevation : v.member "elevation".toList = some m.elevation
  accuracy : v.member "accuracy".toList = some m.accuracy
  measuredDateTime : v.member "measuredDateTime".toList = some (.stringValue m.measuredDateTime)
  numbers : m.latitude.IsNumber ∧ m.longitude.IsNumber ∧ m.elevation.IsNumber ∧
    m.accuracy.IsNumber

/-- The members with their values, and no others. -/
def object (m : LocationMembers D) : Value D :=
  DeviceLocation.object m.latitude.number m.longitude.number m.elevation.number m.accuracy.number
    m.measuredDateTime

end LocationMembers

/-! ### Decoding and encoding -/

namespace DeviceLocation

variable [CxxDouble D]

/-- The location that the constructor makes of these members. -/
def ofMembers (m : LocationMembers D) (measuredDateTime : Int) : DeviceLocation D :=
  ⟨m.latitude.number, m.longitude.number, m.elevation.number, m.accuracy.number,
    measuredDateTime, .nullValue⟩

theorem ofJson_eq {v : Value D} {m : LocationMembers D} (h : m.Of v) (measuredDateTime now : Int) :
    ofJson measuredDateTime now v = .ok ((m.measuredDateTime.strcpy bufferSize).map fun buf =>
      (ofMembers m (if buf ≠ [] then measuredDateTime else now)).setJsonValue) := by
  obtain ⟨hlatitude, hlongitude, helevation, haccuracy⟩ := h.numbers
  have hobject : v.ObjectLike := Value.objectLike_of_member h.latitude
  have hnumber : ∀ {key : StdString} {x defaultValue : Value D}, v.member key = some x →
      x.IsNumber → (v.memberOr key defaultValue).asDouble = .ok x.number := by
    intro key x defaultValue hmember hx
    rw [Value.memberOr_eq hmember]
    exact Value.asDouble_eq_number hx.numeric
  have htext : (v.memberOr "measuredDateTime".toList (.stringValue [])).asString =
      .ok m.measuredDateTime := by
    rw [Value.memberOr_eq h.measuredDateTime]
    rfl
  rw [ofJson, member_bind_eq hobject (hnumber h.latitude hlatitude),
    member_bind_eq hobject (hnumber h.longitude hlongitude),
    member_bind_eq hobject (hnumber h.elevation helevation),
    member_bind_eq hobject (hnumber h.accuracy haccuracy), member_bind_eq hobject htext]
  cases m.measuredDateTime.strcpy bufferSize <;> rfl

theorem bytesCopied_eq {v : Value D} {m : LocationMembers D} (h : m.Of v) :
    bytesCopied v = .ok (m.measuredDateTime.cString.length + 1) := by
  have htext : (v.memberOr "measuredDateTime".toList (.stringValue [])).asString =
      .ok m.measuredDateTime := by
    rw [Value.memberOr_eq h.measuredDateTime]
    rfl
  exact member_bind_eq (Value.objectLike_of_member h.latitude) htext

/-- The JSON text that a location is constructed of is its own. -/
def RoundTrips (measuredDateTime now : Int) (v : Value D) (m : LocationMembers D) : Prop :=
  ∃ p, ofJson measuredDateTime now v = .ok (some p) ∧ p.json = m.object

/-- What the constructor copies fits the buffer. -/
def InBounds (v : Value D) : Prop := ∀ n, bytesCopied v = .ok n → n ≤ bufferSize

theorem inBounds_iff {v : Value D} {m : LocationMembers D} (h : m.Of v) :
    InBounds v ↔ m.measuredDateTime.cString.length ≤ 20 := by
  rw [InBounds, bytesCopied_eq h]
  constructor
  · intro hle
    exact Nat.le_of_succ_le_succ (hle _ rfl)
  · rintro hle n hn
    obtain rfl := Except.ok.inj hn
    exact Nat.succ_le_succ hle

omit [CxxDouble D] in
theorem object_eq_iff {latitude longitude elevation accuracy accuracy' : D} {s t : StdString} :
    object latitude longitude elevation accuracy s =
      object latitude longitude elevation accuracy' t ↔ accuracy = accuracy' ∧ s = t := by
  simp only [object, Value.objectValue.injEq, List.cons.injEq, Prod.mk.injEq,
    Value.stringValue.injEq, Value.realValue.injEq, true_and, and_true]

/-- A canonical time comes back if it is that of the value that the memory had. -/
theorem roundTrips_iff {v : Value D} {m : LocationMembers D} (h : m.Of v)
    (hcanonical : DateTime.Canonical m.measuredDateTime) (measuredDateTime now : Int) :
    RoundTrips measuredDateTime now v m ↔
      DateTime.text measuredDateTime = m.measuredDateTime := by
  have hcString : m.measuredDateTime.cString = m.measuredDateTime := by
    apply List.takeWhile_eq_self_iff.mpr
    intro c hc
    apply decide_eq_true
    rintro rfl
    exact hcanonical.nul_notMem hc
  have hne : m.measuredDateTime ≠ [] := by
    intro hnil
    have hlength := hcanonical.length_eq
    rw [hnil] at hlength
    cases hlength
  have hcopy : m.measuredDateTime.strcpy bufferSize = some m.measuredDateTime := by
    rw [StdString.strcpy, hcString, hcanonical.length_eq, if_pos (by decide)]
  rw [RoundTrips, ofJson_eq h, hcopy, Option.map_some, if_pos hne, setJsonValue_of_null rfl]
  constructor
  · rintro ⟨p, hp, hjson⟩
    obtain rfl := Option.some.inj (Except.ok.inj hp)
    exact (object_eq_iff.mp hjson).2
  · intro htext
    refine ⟨_, rfl, ?_⟩
    exact congrArg (object _ _ _ _) htext

/-- The constructor decodes a location as it should exactly if the time is no longer than
the buffer and, where it is canonical, the memory happened to have it. -/
theorem decodes_iff {v : Value D} {m : LocationMembers D} (h : m.Of v)
    (measuredDateTime now : Int) :
    ((DateTime.Canonical m.measuredDateTime → RoundTrips measuredDateTime now v m) ∧
        InBounds v) ↔
      (DateTime.Canonical m.measuredDateTime →
          DateTime.text measuredDateTime = m.measuredDateTime) ∧
        m.measuredDateTime.cString.length ≤ 20 := by
  apply and_congr
  · exact forall_congr' fun hcanonical => roundTrips_iff h hcanonical measuredDateTime now
  · exact inBounds_iff h

/-- The members of a location that has been measured on a leap day. -/
def leapDay : LocationMembers Int :=
  ⟨.intValue 52, .intValue 13, .intValue 34, .realValue 5, "2000-02-29T12:00:00Z".toList⟩

/-- They as a JSON object. -/
def leapDayText : Value Int := .objectValue
  [("accuracy".toList, .realValue 5), ("elevation".toList, .intValue 34),
    ("latitude".toList, .intValue 52), ("longitude".toList, .intValue 13),
    ("measuredDateTime".toList, .stringValue "2000-02-29T12:00:00Z".toList)]

theorem leapDay_of : leapDay.Of leapDayText :=
  ⟨rfl, rfl, rfl, rfl, rfl, trivial, trivial, trivial, trivial⟩

theorem leapDay_canonical : DateTime.Canonical leapDay.measuredDateTime :=
  ⟨2000, 2, 29, 12, 0, 0, by decide, by decide, by decide, by decide, by decide, by decide,
    by decide, by decide, rfl⟩

/-- A location that the memory has left over from itself. -/
theorem decodes_leapDay :
    ((DateTime.Canonical leapDay.measuredDateTime → RoundTrips 951825600 0 leapDayText leapDay) ∧
        InBounds leapDayText) ↔
      (DateTime.Canonical leapDay.measuredDateTime →
          DateTime.text 951825600 = leapDay.measuredDateTime) ∧
        leapDay.measuredDateTime.cString.length ≤ 20 :=
  decodes_iff leapDay_of 951825600 0

/-- The memory had a zero, and the time comes back as that of the epoch. -/
theorem decodes_fails : ¬ ∀ (v : Value Int) (m : LocationMembers Int)
    (measuredDateTime now : Int), m.Of v →
      (DateTime.Canonical m.measuredDateTime → RoundTrips measuredDateTime now v m) ∧
        InBounds v := by
  intro h
  have hround := (h _ _ 0 0 leapDay_of).1 leapDay_canonical
  rw [roundTrips_iff leapDay_of leapDay_canonical] at hround
  exact absurd hround (by decide)

end DeviceLocation

/-! ### Locations in update requests -/

namespace Json.Value

theorem objectLike_of_memberOr_ne {v defaultValue : Value D} {key : StdString}
    (h : v.memberOr key defaultValue ≠ defaultValue) : v.ObjectLike := by
  cases v with
  | objectValue members => trivial
  | nullValue => trivial
  | _ => exact absurd rfl h

theorem arrayLike_of_elementOr_ne {v defaultValue : Value D} {index : Nat}
    (h : v.elementOr index defaultValue ≠ defaultValue) : v.ArrayLike := by
  cases v with
  | arrayValue elements => trivial
  | nullValue => trivial
  | _ => exact absurd rfl h

variable [CxxDouble D]

/-- A first field that has a name can be reached. -/
theorem hasField_of_isNamed {v : Value D} {name : StdString} (hne : name ≠ [])
    (h : v.firstField.IsNamed name) : v.HasField := by
  have hname : v.firstField.memberOr "field".toList .nullValue ≠ .nullValue := by
    intro hnull
    rw [IsNamed, fieldName, hnull] at h
    exact hne (Except.ok.inj h).symm
  have hfield : v.firstField ≠ .nullValue := by
    intro hnull
    rw [hnull] at hname
    exact hname rfl
  have hfields : (v.memberOr "d".toList .nullValue).memberOr "fields".toList .nullValue ≠
      .nullValue := by
    intro hnull
    rw [firstField, hnull] at hfield
    exact hfield rfl
  have hd : v.memberOr "d".toList .nullValue ≠ .nullValue := by
    intro hnull
    rw [hnull] at hfields
    exact hfields rfl
  constructor
  · exact objectLike_of_memberOr_ne hd
  · exact objectLike_of_memberOr_ne hfields
  · exact arrayLike_of_elementOr_ne hfield
  · exact objectLike_of_memberOr_ne hname
  · exact asString_isOk_iff.mp ⟨name, h⟩

end Json.Value

namespace AttributeHandler

variable [CxxDouble D]

/-- The location that a request hands to `UpdateLocation`. -/
theorem updates_of_named {now : Int} {v : Value D} {p : DeviceLocation D}
    (hnamed : v.firstField.IsNamed "location".toList)
    (hlocation : v.firstField.fieldValue.HasLocation) :
    Updates now v p ↔ p = (Coordinates.ofField v.firstField).located now := by
  have hreadable : Readable v := ⟨Value.hasField_of_isNamed (by decide) hnamed, fun _ => hlocation⟩
  have hexec : ∀ locations, ((messageArrived now serverUpdateTopic v).exec locations).2 =
      (Coordinates.ofField v.firstField).located now :: locations := by
    intro locations
    rw [exec_messageArrived, if_pos rfl, requestedLocation_eq hreadable, if_pos hnamed]
  constructor
  · intro hupdates
    have hhead := (hupdates []).symm.trans (hexec [])
    exact (List.cons.inj hhead).1
  · rintro rfl locations
    exact hexec locations

/-- The location is that of the value, member by member. -/
def Delivered (value : Value D) (p : DeviceLocation D) : Prop :=
  p.json = DeviceLocation.object (value.numberUnder "latitude".toList)
    (value.numberUnder "longitude".toList) (value.numberUnder "elevation".toList)
    (value.numberUnder "accuracy".toList) (value.textUnder "measuredDateTime".toList)

/-- Of a location, the handler delivers everything exactly if the accuracy is zero and the
time is that of the clock. -/
theorem delivers_iff (measuredDateTime : Int) {now : Int} {v : Value D}
    (hnamed : v.firstField.IsNamed "location".toList)
    (haccepted : ∃ p, DeviceLocation.ofJson measuredDateTime now v.firstField.fieldValue = .ok p) :
    (∃ p, Updates now v p ∧ Delivered v.firstField.fieldValue p) ↔
      v.firstField.fieldValue.numberUnder "accuracy".toList = CxxDouble.ofInt 0 ∧
        v.firstField.fieldValue.textUnder "measuredDateTime".toList = DateTime.text now := by
  have hlocation := (DeviceLocation.ofJson_isOk_iff.mp haccepted).toHasLocation
  have hjson : ((Coordinates.ofField v.firstField).located now).json = DeviceLocation.object
      (v.firstField.fieldValue.numberUnder "latitude".toList)
      (v.firstField.fieldValue.numberUnder "longitude".toList)
      (v.firstField.fieldValue.numberUnder "elevation".toList) (CxxDouble.ofInt 0)
      (DateTime.text now) := by
    rw [Coordinates.located_eq, DeviceLocation.new_eq]
    rfl
  simp only [updates_of_named hnamed hlocation, exists_eq_left, Delivered, hjson]
  rw [DeviceLocation.object_eq_iff]
  exact and_congr eq_comm eq_comm

/-- A location field, as a test of the handler has it. -/
def locationField (value : Value Int) : Value Int := .objectValue
  [("field".toList, .stringValue "location".toList), ("value".toList, value)]

/-- A location without an accuracy, measured just now. -/
theorem delivers_now :
    let value : Value Int := .objectValue [("latitude".toList, .intValue 52),
      ("measuredDateTime".toList, .stringValue "2000-02-29T12:00:00Z".toList)]
    let v : Value Int := .updateOf [locationField value]
    (∃ p, Updates 951825600 v p ∧ Delivered v.firstField.fieldValue p) ↔
      v.firstField.fieldValue.numberUnder "accuracy".toList = CxxDouble.ofInt 0 ∧
        v.firstField.fieldValue.textUnder "measuredDateTime".toList =
          DateTime.text 951825600 := by
  intro value v
  exact delivers_iff 0 rfl ⟨_, rfl⟩

/-- Neither the accuracy nor the time of the leap day is delivered. -/
theorem delivers_fails : ¬ ∀ (measuredDateTime now : Int) (v : Value Int),
    v.firstField.IsNamed "location".toList →
      (∃ p, DeviceLocation.ofJson measuredDateTime now v.firstField.fieldValue = .ok p) →
        (∃ accuracy, v.firstField.fieldValue.member "accuracy".toList = some accuracy) →
          DateTime.Canonical (v.firstField.fieldValue.textUnder "measuredDateTime".toList) →
            ∃ p, Updates now v p ∧ Delivered v.firstField.fieldValue p := by
  intro h
  let v : Value Int := .updateOf [locationField DeviceLocation.leapDayText]
  have hnamed : v.firstField.IsNamed "location".toList := rfl
  have haccepted : ∃ p, DeviceLocation.ofJson 0 0 v.firstField.fieldValue = .ok p :=
    ⟨_, DeviceLocation.ofJson_eq DeviceLocation.leapDay_of 0 0⟩
  obtain ⟨p, hp, hdelivered⟩ :=
    h 0 0 v hnamed haccepted ⟨.realValue 5, rfl⟩ DeviceLocation.leapDay_canonical
  have hlocation := (DeviceLocation.ofJson_isOk_iff.mp haccepted).toHasLocation
  obtain rfl := (updates_of_named hnamed hlocation).mp hp
  rw [Coordinates.located_eq] at hdelivered
  have haccuracy := (DeviceLocation.object_eq_iff.mp hdelivered).1
  cases haccuracy

end AttributeHandler
