import WatsonIotp.Client.Definitions
import WatsonIotp.Json.Value

/-!
# Messages, replies and faults of the handlers
-/

open Json

/-- How a function of the client can fail to return to its caller. -/
inductive Fault where
  /-- An exception of jsoncpp. -/
  | json (e : Json.Error)
  /-- `mqtt::exception`. -/
  | mqtt
  /-- `std::out_of_range`. -/
  | outOfRange
  /-- A null pointer is dereferenced. -/
  | nullPointer
  /-- A function that has to return a value ends without doing so. -/
  | missingReturn
  /-- What has not been given a value is read. -/
  | indeterminate
  /-- A `std::thread` is assigned while its old thread is joinable: `std::terminate`. -/
  | terminate
  deriving DecidableEq

/-- `IOTP_DeviceActionResponse` and `IOTP_FirmwareActionResponse`, the answers of
the hooks of derived classes. -/
structure Response where
  rc : Int
  message : StdString := []
  deriving DecidableEq

/-- `IOTP_ReplyMessage`. -/
structure ReplyMessage (D : Type) where
  topic : StdString
  payload : Value D
  qos : Int := 1

variable {D : Type}

/-- The payload of the reply to a request. -/
def replyPayload (rsp : Response) (reqId : StdString) : Value D :=
  let payload := (Value.nullValue : Value D).assign "rc".toList (.intValue rsp.rc)
  let payload :=
    if rsp.message = [] then payload
    else payload.assign "message".toList (.stringValue rsp.message)
  payload.assign "reqId".toList (.stringValue reqId)

theorem replyPayload_eq (rsp : Response) (reqId : StdString) :
    (replyPayload rsp reqId : Value D) = .objectValue
      ((if rsp.message = [] then [] else [("message".toList, .stringValue rsp.message)]) ++
        [("rc".toList, .intValue rsp.rc), ("reqId".toList, .stringValue reqId)]) := by
  unfold replyPayload
  split <;> rfl

/-- `jsonPayload.get("d", v).get("fields", v).get(0, v)`. -/
def firstField (payload : Value D) : Except Error (Value D) := do
  let d ← payload.get "d".toList .nullValue
  let fields ← d.get "fields".toList .nullValue
  fields.getIndex 0 .nullValue

section Accessors

variable [CxxDouble D]

/-- `field.get("field", v).asString()`. -/
def fieldName (field : Value D) : Except Error StdString :=
  (field.get "field".toList .nullValue).bind Value.asString

/-- `jsonPayload.get("reqId", "").asString()`. -/
def reqId (payload : Value D) : Except Error StdString :=
  (payload.get "reqId".toList (.stringValue [])).bind Value.asString

/-- `res.get("rc", -1).asInt()`. -/
def rc (res : Value D) : Except Error Int :=
  (res.get "rc".toList (.intValue (-1))).bind Value.asInt

@[simp] theorem reqId_nullValue : reqId (.nullValue : Value D) = .ok [] := rfl

@[simp] theorem rc_nullValue : rc (.nullValue : Value D) = .ok (-1) := rfl

/-- A payload with a request id is not null. -/
theorem ne_nullValue_of_reqId {payload : Value D} {r : StdString}
    (h : reqId payload = .ok r) (hr : r ≠ []) : payload ≠ .nullValue := by
  rintro rfl
  rw [reqId_nullValue, Except.ok.injEq] at h
  exact hr h.symm

end Accessors
