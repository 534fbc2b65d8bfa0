import WatsonIotp.Handler.Basic
import WatsonIotp.Json.Reader
import WatsonIotp.Machine.Proc

/-!
# The action handler

`IOTP_DeviceActionHandler` answers a reboot or a factory reset with what the hook
of the derived class returns. Unlike the firmware handler it puts its reply on the
client's queue itself, when it knows the client, and hands none back.
-/

open Json

variable {D : Type}

/-- `IOTF_send_reply`, seen from the thread that calls it: a copy of the reply is
put on the queue. -/
def sendReply (reply : ReplyMessage D) : Proc (List (ReplyMessage D)) Fault Unit :=
  modify (· ++ [{ topic := reply.topic, payload := reply.payload, qos := reply.qos }])

/-- The answers of the hooks of a class derived from `IOTP_DeviceActionHandler`. -/
structure ActionHooks where
  reboot : Option Response
  factoryReset : Option Response

namespace ActionHandler

/-- The response of the hook that the topic calls. -/
def answer (hooks : ActionHooks) (topic : StdString) : Option Response :=
  if topic = serverDeviceRebootTopic then hooks.reboot
  else if topic = serverFactoryResetTopic then hooks.factoryReset
  else none

variable [CxxDouble D]

/-- `message_arrived` on a JSON payload. The request id is read once for the output
on the console and once for the reply. -/
def messageArrived (mClient : Bool) (hooks : ActionHooks) (topic : StdString)
    (jsonPayload : Value D) :
    Proc (List (ReplyMessage D)) Fault (Option (ReplyMessage D)) := do
  let rsp ← Proc.ofOption (answer hooks topic) .nullPointer
  let _ ← Proc.ofExcept .json (reqId jsonPayload)
  let reqId ← Proc.ofExcept .json (reqId jsonPayload)
  let reply := { topic := deviceReponseTopic, payload := replyPayload rsp reqId }
  if mClient then
    sendReply reply
    return none
  else return some reply

/-- `message_arrived` on a payload that the callback could not parse. -/
def textArrived (mClient : Bool) (hooks : ActionHooks) (topic payload : StdString) :
    Proc (List (ReplyMessage D)) Fault (Option (ReplyMessage D)) := do
  let jsonPayload ← Proc.ofExcept .json (Reader.parse payload)
  match jsonPayload with
  | some jsonPayload =>
      let _ ← messageArrived mClient hooks topic jsonPayload
      return none
  | none => return none

theorem exec_messageArrived {mClient : Bool} {hooks : ActionHooks} {topic : StdString}
    {jsonPayload : Value D} {rsp : Response} {r : StdString}
    (hrsp : answer hooks topic = some rsp) (hid : reqId jsonPayload = .ok r)
    (replies : List (ReplyMessage D)) :
    (messageArrived mClient hooks topic jsonPayload).exec replies =
      let reply := { topic := deviceReponseTopic, payload := replyPayload rsp r }
      if mClient then (.ok none, replies ++ [reply]) else (.ok (some reply), replies) := by
  rw [messageArrived, hrsp, hid, Proc.exec_bind_ok (Proc.exec_ofOption _ _ _),
    Proc.exec_bind_ok (Proc.exec_ofExcept _ _ _), Proc.exec_bind_ok (Proc.exec_ofExcept _ _ _)]
  cases mClient <;> rfl

theorem exec_textArrived_of_none {mClient : Bool} {hooks : ActionHooks}
    {topic payload : StdString} (hparse : Reader.parse (D := D) payload = .ok none)
    (replies : List (ReplyMessage D)) :
    (textArrived mClient hooks topic payload).exec replies = (.ok none, replies) := by
  rw [textArrived, hparse]
  rfl

theorem messageArrived_returns_iff {mClient : Bool} {hooks : ActionHooks} {topic : StdString}
    {jsonPayload : Value D} {replies : List (ReplyMessage D)} :
    (messageArrived mClient hooks topic jsonPayload).Returns replies ↔
      (answer hooks topic).isSome ∧ ∃ r, reqId jsonPayload = .ok r := by
  cases hrsp : answer hooks topic with
  | none => simp [Proc.Returns, messageArrived, Proc.exec_bind, hrsp]
  | some rsp =>
      cases hid : reqId jsonPayload with
      | error e => simp [Proc.Returns, messageArrived, Proc.exec_bind, hrsp, hid, Except.mapError]
      | ok r =>
          rw [Proc.Returns, exec_messageArrived hrsp hid]
          cases mClient <;> simp

end ActionHandler
