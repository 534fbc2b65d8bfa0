import WatsonIotp.Handler.Basic
import WatsonIotp.Machine.Proc
import WatsonIotp.Text.DateTime

/-!
# The attribute handler

`IOTP_DeviceAttributeHandler` hands a new location of the device to the derived
class. Neither overload of its `message_arrived` returns a value on all its ways.
-/

open Json

variable {D : Type} [CxxDouble D]

/-- `IOTP_DeviceLocation`. -/
structure DeviceLocation (D : Type) where
  mLatitude : D
  mLongitude : D
  mElevation : D
  mAccuracy : D
  measuredDateTime : Int
  json : Value D

namespace DeviceLocation

omit [CxxDouble D] in
/-- The time is taken to be one that `strftime` has room for in the buffer. -/
def setJsonValue (p : DeviceLocation D) : DeviceLocation D :=
  let json := p.json.assign "latitude".toList (.realValue p.mLatitude)
  let json := json.assign "longitude".toList (.realValue p.mLongitude)
  let json := json.assign "elevation".toList (.realValue p.mElevation)
  let json := json.assign "accuracy".toList (.realValue p.mAccuracy)
  let json := json.assign "measuredDateTime".toList
    (.stringValue (DateTime.text p.measuredDateTime))
  { p with json }

/-- The constructor without an accuracy; `now` is the reading of the clock. -/
def new (latitude longitude elevation : D) (now : Int) : DeviceLocation D :=
  setJsonValue ⟨latitude, longitude, elevation, CxxDouble.ofInt 0, now, .nullValue⟩

omit [CxxDouble D] in
def setLocation (p : DeviceLocation D) (latitude longitude elevation : D) (now : Int) :
    DeviceLocation D :=
  setJsonValue { p with
    mLatitude := latitude
    mLongitude := longitude
    mElevation := elevation
    measuredDateTime := now }

omit [CxxDouble D] in
def setLatitude (p : DeviceLocation D) (latitude : D) (now : Int) : DeviceLocation D :=
  p.setLocation latitude p.mLongitude p.mElevation now

omit [CxxDouble D] in
def setLongitude (p : DeviceLocation D) (longitude : D) (now : Int) : DeviceLocation D :=
  p.setLocation p.mLatitude longitude p.mElevation now

omit [CxxDouble D] in
def setElevation (p : DeviceLocation D) (elevation : D) (now : Int) : DeviceLocation D :=
  p.setLocation p.mLatitude p.mLongitude elevation now

end DeviceLocation

namespace AttributeHandler

/-- The location in the first field of an update request, or the default one. -/
def requestedLocation (now : Int) (payload : Value D) : Except Error (DeviceLocation D) := do
  let zero : D := CxxDouble.ofInt 0
  let p := DeviceLocation.new zero zero zero now
  let field ← firstField payload
  let name ← fieldName field
  if name = "location".toList then
    let value ← field.get "value".toList .nullValue
    let latitude ← (value.get "latitude".toList (.realValue zero)).bind Value.asDouble
    let longitude ← (value.get "longitude".toList (.realValue zero)).bind Value.asDouble
    let elevation ← (value.get "elevation".toList (.realValue zero)).bind Value.asDouble
    return ((p.setLatitude latitude now).setLongitude longitude now).setElevation elevation now
  else return p

/-- `message_arrived` on a JSON payload. The state keeps the locations that have been
handed to `UpdateLocation`, latest first; its answer is dropped. -/
def messageArrived (now : Int) (topic : StdString) (jsonPayload : Value D) :
    Proc (List (DeviceLocation D)) Fault (Option (ReplyMessage D)) := do
  if topic = serverUpdateTopic then
    let p ← Proc.ofExcept .json (requestedLocation now jsonPayload)
    modify (p :: ·)
    return none
  else throw .missingReturn

omit [CxxDouble D] in
/-- `message_arrived` on a payload that the callback could not parse: it is empty. -/
def textArrived : Proc (List (DeviceLocation D)) Fault (Option (ReplyMessage D)) :=
  throw .missingReturn

theorem exec_messageArrived (now : Int) (topic : StdString) (jsonPayload : Value D)
    (locations : List (DeviceLocation D)) :
    (messageArrived now topic jsonPayload).exec locations =
      if topic = serverUpdateTopic then
        match requestedLocation now jsonPayload with
        | .ok p => (.ok none, p :: locations)
        | .error e => (.error (.json e), locations)
      else (.error .missingReturn, locations) := by
  rw [messageArrived, Proc.exec_ite]
  by_cases htopic : topic = serverUpdateTopic
  · rw [if_pos htopic, if_pos htopic, Proc.exec_bind, Proc.exec_ofExcept]
    cases requestedLocation now jsonPayload <;> rfl
  · rw [if_neg htopic, if_neg htopic]
    rfl

end AttributeHandler
