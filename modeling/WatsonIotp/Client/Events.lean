import WatsonIotp.Client.GatewayCommands
import WatsonIotp.Client.TopicFilter
import WatsonIotp.Client.Wire

/-!
# Events

A device publishes events on topics of its own, a gateway also on those of the devices
attached to it. The texts that the application passes in may be any, slashes included. Even so
nothing that a client publishes on a topic that it makes comes back to it, and as long as the
names have no slashes, the platform can tell from the topic which event it has got.
-/

open Json

/-- `"QOS invalid"`, the `std::invalid_argument` of `message::validate_qos`. -/
def qosInvalid : StdString := "QOS invalid".toList

/-- Make the message and publish it on the topic. -/
def publishMessage (topic data : StdString) (qos : Int) : Except StdString Publication :=
  if qos < 0 ∨ 2 < qos then .error qosInvalid else .ok ⟨topic, data, qos, false⟩

namespace Device

def publishTopic (eventType eventFormat : StdString) : StdString :=
  "iot-2/evt/".toList ++ eventType ++ "/fmt/".toList ++ eventFormat

/-- `IOTP_DeviceClient::publishEvent`. -/
def publishEvent (eventType eventFormat data : StdString) (qos : Int) :
    Except StdString Publication :=
  publishMessage (publishTopic eventType eventFormat) data qos

end Device

namespace Gateway

def publishTopic (deviceType deviceId eventType eventFormat : StdString) : StdString :=
  "iot-2/type/".toList ++ deviceType ++ "/id/".toList ++ deviceId ++ "/evt/".toList ++ eventType ++
    "/fmt/".toList ++ eventFormat

/-- `IOTP_GatewayClient::publishGatewayEvent`. -/
def publishGatewayEvent (p : Properties) (eventType eventFormat data : StdString) (qos : Int) :
    Except StdString Publication :=
  publishMessage (publishTopic p.deviceType p.deviceId eventType eventFormat) data qos

/-- `IOTP_GatewayClient::publishDeviceEvent`. -/
def publishDeviceEvent (deviceType deviceId eventType eventFormat data : StdString) (qos : Int) :
    Except StdString Publication :=
  publishMessage (publishTopic deviceType deviceId eventType eventFormat) data qos

end Gateway

/-! ### What a client publishes, and what it subscribes -/

/-- The topics of the requests to the platform, as in `IOTP_TopicDefinitions.h`. -/
def requestTopics : List StdString :=
  ["iotdevice-1/mgmt/manage".toList, "iotdevice-1/mgmt/unmanage".toList,
    "iotdevice-1/device/update/location".toList, "iotdevice-1/add/diag/errorCodes".toList,
    "iotdevice-1/clear/diag/errorCodes".toList, "iotdevice-1/add/diag/log".toList,
    "iotdevice-1/clear/diag/log".toList]

/-- The topics that the clients make themselves to publish on: of events, of requests to the
platform, of responses and of notifications. `publishTopic`, which takes a topic of the
application, is left out. -/
inductive Published : StdString → Prop where
  | publishEvent (eventType eventFormat : StdString) :
      Published (Device.publishTopic eventType eventFormat)
  | publishGatewayEvent (p : Properties) (eventType eventFormat : StdString) :
      Published (Gateway.publishTopic p.deviceType p.deviceId eventType eventFormat)
  | publishDeviceEvent (deviceType deviceId eventType eventFormat : StdString) :
      Published (Gateway.publishTopic deviceType deviceId eventType eventFormat)
  | sendMessage {topic : StdString} : topic ∈ requestTopics → Published topic
  | response : Published deviceReponseTopic
  | notify : Published deviceNotifyTopic

theorem topicLevels_append (front back : StdString) :
    topicLevels (front ++ '/' :: back) = topicLevels front ++ topicLevels back :=
  List.splitOn_append_cons_self _ _

theorem topicLevels_eq_singleton {level : StdString} (hlevel : '/' ∉ level) :
    topicLevels level = [level] := List.splitOn_eq_singleton hlevel

/-- A marker of the code between two parts of a topic. -/
theorem topicLevels_marker (front marker back : StdString) :
    topicLevels (front ++ ('/' :: (marker ++ ['/'])) ++ back) =
      topicLevels front ++ (topicLevels marker ++ topicLevels back) := by
  rw [← topicLevels_append, ← topicLevels_append]
  simp only [List.append_assoc, List.cons_append, List.nil_append]

/-- The markers of the code at the front of a topic. -/
theorem topicLevels_front (first second back : StdString) :
    topicLevels ((first ++ '/' :: (second ++ ['/'])) ++ back) =
      topicLevels first ++ (topicLevels second ++ topicLevels back) := by
  rw [← topicLevels_append, ← topicLevels_append]
  simp only [List.append_assoc, List.cons_append, List.nil_append]

theorem levels_publishEvent (E F : StdString) : topicLevels (Device.publishTopic E F) =
    "iot-2".toList :: "evt".toList :: (topicLevels E ++ "fmt".toList :: topicLevels F) := by
  refine (topicLevels_marker _ "fmt".toList F).trans ?_
  refine (congrArg (· ++ _) (topicLevels_front "iot-2".toList "evt".toList E)).trans ?_
  rw [show topicLevels "iot-2".toList = ["iot-2".toList] by decide,
    show topicLevels "evt".toList = ["evt".toList] by decide,
    show topicLevels "fmt".toList = ["fmt".toList] by decide]
  rfl

/-- The front of the topics that name a device. -/
theorem levels_device (T I : StdString) :
    topicLevels ("iot-2/type/".toList ++ T ++ "/id/".toList ++ I) =
      "iot-2".toList :: "type".toList :: (topicLevels T ++ "id".toList :: topicLevels I) := by
  refine (topicLevels_marker _ "id".toList I).trans ?_
  refine (congrArg (· ++ _) (topicLevels_front "iot-2".toList "type".toList T)).trans ?_
  rw [show topicLevels "iot-2".toList = ["iot-2".toList] by decide,
    show topicLevels "type".toList = ["type".toList] by decide,
    show topicLevels "id".toList = ["id".toList] by decide]
  rfl

theorem levels_publishDeviceEvent (T I E F : StdString) :
    topicLevels (Gateway.publishTopic T I E F) =
      "iot-2".toList :: "type".toList :: (topicLevels T ++ "id".toList :: topicLevels I) ++
        "evt".toList :: (topicLevels E ++ "fmt".toList :: topicLevels F) := by
  refine (topicLevels_marker _ "fmt".toList F).trans ?_
  refine (congrArg (· ++ _) (topicLevels_marker _ "evt".toList E)).trans ?_
  rw [levels_device, show topicLevels "evt".toList = ["evt".toList] by decide,
    show topicLevels "fmt".toList = ["fmt".toList] by decide, List.append_assoc, List.append_assoc]
  rfl

/-- What is published is an event, or belongs to the management of the device. -/
theorem Published.cases {topic : StdString} (h : Published topic) :
    ((∃ E F, topic = Device.publishTopic E F) ∨ ∃ T I E F, topic = Gateway.publishTopic T I E F) ∨
      (topicLevels topic).head? = some "iotdevice-1".toList := by
  cases h with
  | publishEvent E F => exact .inl (.inl ⟨E, F, rfl⟩)
  | publishGatewayEvent p E F => exact .inl (.inr ⟨_, _, E, F, rfl⟩)
  | publishDeviceEvent T I E F => exact .inl (.inr ⟨T, I, E, F, rfl⟩)
  | sendMessage hmem =>
      have hall : ∀ t ∈ requestTopics, (topicLevels t).head? = some "iotdevice-1".toList := by
        decide
      exact .inr (hall _ hmem)
  | response | notify => exact .inr (by decide)

/-- The names in the topic of an event; a gateway names the device as well. -/
structure EventName where
  device : Option (StdString × StdString)
  eventType : StdString
  eventFormat : StdString
  deriving DecidableEq

namespace EventName

def topic (n : EventName) : StdString :=
  match n.device with
  | none => Device.publishTopic n.eventType n.eventFormat
  | some (deviceType, deviceId) =>
      Gateway.publishTopic deviceType deviceId n.eventType n.eventFormat

/-- The names in front of the last one are single levels. -/
structure Plain (n : EventName) : Prop where
  eventType : '/' ∉ n.eventType
  deviceType : ∀ d, n.device = some d → '/' ∉ d.1
  deviceId : ∀ d, n.device = some d → '/' ∉ d.2

variable {n n' : EventName}

/-- The levels of the topic of an event with plain names. -/
theorem Plain.levels (h : n.Plain) : topicLevels n.topic = "iot-2".toList ::
    ((n.device.elim [] fun d => ["type".toList, d.1, "id".toList, d.2]) ++
      "evt".toList :: n.eventType :: "fmt".toList :: topicLevels n.eventFormat) := by
  obtain ⟨device, E, F⟩ := n
  cases device with
  | none =>
      change topicLevels (Device.publishTopic E F) = _
      rw [levels_publishEvent, topicLevels_eq_singleton h.eventType]
      rfl
  | some d =>
      change topicLevels (Gateway.publishTopic d.1 d.2 E F) = _
      rw [levels_publishDeviceEvent, topicLevels_eq_singleton h.eventType,
        topicLevels_eq_singleton (h.deviceType d rfl), topicLevels_eq_singleton (h.deviceId d rfl)]
      rfl

end EventName
