import WatsonIotp.Handler.Basic
import WatsonIotp.Json.Reader
import WatsonIotp.Machine.Proc
import Mathlib.Data.List.AList

/-!
# The response handler

`IOTP_ResponseHandler` keeps the responses of the server under their request
ids until the threads that wait for them come to take them. This file has what
it does inside its critical sections; who holds the lock when, and who is
notified, is the matter of the machine that runs them.
-/

open Json

variable {D : Type} [CxxDouble D]

namespace ResponseHandler

/-- `mResponseMessages`. -/
abbrev ResponseMessages (D : Type) := AList fun _ : StdString => Value D

/-- The critical section of `message_arrived`. -/
def store (messages : ResponseMessages D) (payload : Value D) :
    Except Error (ResponseMessages D) :=
  (reqId payload).map fun r => if r = [] then messages else messages.insert r payload

omit [CxxDouble D] in
/-- The part of `wait_for_response` behind the wait: find, copy and erase. -/
def take (messages : ResponseMessages D) (r : StdString) : Value D × ResponseMessages D :=
  match messages.lookup r with
  | some jsonPayload => (jsonPayload, messages.erase r)
  | none => (.nullValue, messages)

/-- `message_arrived` on a JSON payload; there is never a reply. -/
def messageArrived (jsonPayload : Value D) :
    Proc (ResponseMessages D) Fault (Option (ReplyMessage D)) := do
  let messages ← get
  let messages ← Proc.ofExcept .json (store messages jsonPayload)
  set messages
  return none

/-- `message_arrived` on a payload that the callback could not parse. -/
def textArrived (payload : StdString) :
    Proc (ResponseMessages D) Fault (Option (ReplyMessage D)) := do
  let jsonPayload ← Proc.ofExcept .json (Reader.parse payload)
  match jsonPayload with
  | some jsonPayload =>
      let _ ← messageArrived jsonPayload
      return none
  | none => return none

theorem exec_messageArrived (jsonPayload : Value D) (messages : ResponseMessages D) :
    (messageArrived jsonPayload).exec messages =
      match store messages jsonPayload with
      | .ok messages => (.ok none, messages)
      | .error e => (.error (.json e), messages) := by
  rw [messageArrived, Proc.exec_bind_ok (Proc.exec_get _), Proc.exec_bind, Proc.exec_ofExcept]
  cases store messages jsonPayload <;> rfl

theorem exec_textArrived_of_none {payload : StdString}
    (hparse : Reader.parse (D := D) payload = .ok none) (messages : ResponseMessages D) :
    (textArrived payload).exec messages = (.ok none, messages) := by
  rw [textArrived, hparse]
  rfl

end ResponseHandler
