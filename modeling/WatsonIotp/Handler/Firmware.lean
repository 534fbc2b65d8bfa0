import WatsonIotp.Handler.Basic
import WatsonIotp.Json.Reader
import WatsonIotp.Machine.Proc
import WatsonIotp.Text.DateTime

/-!
# The firmware handler

A firmware update takes several requests of the server: the details on
`iotdm-1/device/update`, an observation, the download and the update. The handler
calls a hook of the derived class for each and answers with what the hook returns.
Hooks are functions of the information they are given; a null response is `none`.
-/

open Json

variable {D : Type}

/-- `IOTP_FirmwareInfo`. `undefined` says that a buffer has been read with nothing defined
in it. -/
structure FirmwareInfo (D : Type) where
  mName : StdString
  mVersion : StdString
  mURI : StdString
  mVerifier : StdString
  mState : Int
  mUpdateStatus : Int
  mUpdatedDateTime : Int
  json : Value D
  undefined : Bool

namespace FirmwareInfo

def setJsonValue (p : FirmwareInfo D) : FirmwareInfo D :=
  let json := if p.mName = [] then p.json else p.json.assign "name".toList (.stringValue p.mName)
  let json :=
    if p.mVersion = [] then json else json.assign "version".toList (.stringValue p.mVersion)
  let json := if p.mURI = [] then json else json.assign "url".toList (.stringValue p.mURI)
  let json :=
    if p.mVerifier = [] then json else json.assign "verifier".toList (.stringValue p.mVerifier)
  let json := json.assign "state".toList (.intValue p.mState)
  let json :=
    if p.mUpdateStatus = -1 then json
    else json.assign "updateStatus".toList (.intValue p.mUpdateStatus)
  -- the buffer has room for "YYYY-MM-DDTHH:MM:SSZ", and is used whatever `strftime` returns
  let updatedDateTimeBuf := DateTime.strftime 21 p.mUpdatedDateTime
  let json :=
    if p.mUpdatedDateTime = -1 then json
    else updatedDateTimeBuf.elim json fun updatedDateTime =>
      json.assign "updatedDateTime".toList (.stringValue updatedDateTime)
  { p with
    json
    undefined := p.undefined || (p.mUpdatedDateTime ≠ -1 && updatedDateTimeBuf.isNone) }

/-- The constructor without a state; a null pointer stands for the empty string. -/
def new (name version uri verifier : StdString) : FirmwareInfo D :=
  setJsonValue ⟨name, version, uri, verifier, 0, -1, -1, .nullValue, false⟩

def setName (p : FirmwareInfo D) (name : StdString) : FirmwareInfo D := { p with mName := name }

def setVersion (p : FirmwareInfo D) (version : StdString) : FirmwareInfo D :=
  { p with mVersion := version }

def setUri (p : FirmwareInfo D) (uri : StdString) : FirmwareInfo D := { p with mURI := uri }

def setVerifier (p : FirmwareInfo D) (verifier : StdString) : FirmwareInfo D :=
  { p with mVerifier := verifier }

def setState (p : FirmwareInfo D) (state : Int) : FirmwareInfo D :=
  setJsonValue { p with mState := state }

def setUpdateStatus (p : FirmwareInfo D) (updateStatus : Int) : FirmwareInfo D :=
  setJsonValue { p with mUpdateStatus := updateStatus }

def setUpdatedDateTime (p : FirmwareInfo D) (updatedDateTime : Int) : FirmwareInfo D :=
  setJsonValue { p with mUpdatedDateTime := updatedDateTime }

end FirmwareInfo

/-- The details of a firmware that a request of the server carries. -/
structure FirmwareDetails where
  name : StdString
  version : StdString
  uri : StdString
  verifier : StdString
  deriving DecidableEq

namespace FirmwareDetails

/-- No details. -/
def empty : FirmwareDetails := ⟨[], [], [], []⟩

def ofInfo (p : FirmwareInfo D) : FirmwareDetails := ⟨p.mName, p.mVersion, p.mURI, p.mVerifier⟩

end FirmwareDetails

/-- The hooks of a class derived from `IOTP_DeviceFirmwareHandler`. -/
structure FirmwareHooks (D : Type) where
  verify : FirmwareInfo D → Option Response
  isReadyForDownload : FirmwareInfo D → Option Response
  download : FirmwareInfo D → Option Response
  update : FirmwareInfo D → Option Response

inductive FirmwareHook where
  | verify | isReadyForDownload | download | update
  deriving DecidableEq

/-- The answer of one of the hooks. -/
def FirmwareHooks.answer (hooks : FirmwareHooks D) : FirmwareHook → FirmwareInfo D → Option Response
  | .verify => hooks.verify
  | .isReadyForDownload => hooks.isReadyForDownload
  | .download => hooks.download
  | .update => hooks.update

/-- A call of a hook: for which message, with what information, and its answer. -/
structure FirmwareCall (D : Type) where
  payload : Value D
  hook : FirmwareHook
  info : FirmwareInfo D
  rsp : Option Response

/-- `IOTP_DeviceFirmwareHandler`. Of its threads only this matters: whether they
are joinable, as they are from the first time one is started. -/
structure FirmwareHandler (D : Type) where
  fwinfo : FirmwareInfo D
  mDownloadProgress : Bool
  mUpdateProgress : Bool
  /-- The calls of the hooks so far, latest first. -/
  calls : List (FirmwareCall D)

namespace FirmwareHandler

def new : FirmwareHandler D := ⟨.new [] [] [] [], false, false, []⟩

/-- Call a hook and keep a record of it. -/
def callHook (hooks : FirmwareHooks D) (payload : Value D) (hook : FirmwareHook)
    (p : FirmwareInfo D) : Proc (FirmwareHandler D) Fault (Option Response) := do
  modify fun s => { s with calls := ⟨payload, hook, p, hooks.answer hook p⟩ :: s.calls }
  return hooks.answer hook p

/-- Whether the thread that reports on a hook's work is joinable. -/
def joinable (s : FirmwareHandler D) : FirmwareHook → Bool
  | .download => s.mDownloadProgress
  | .update => s.mUpdateProgress
  | _ => false

/-- The thread that reports on a hook's work is started. -/
def start (s : FirmwareHandler D) : FirmwareHook → FirmwareHandler D
  | .download => { s with mDownloadProgress := true }
  | .update => { s with mUpdateProgress := true }
  | _ => s

/-- `if (rsp->get_rc() == 202)`, and the assignment of a new `std::thread`. Assigning
to a joinable one ends the process, if `terminating` does not assume that away. -/
def startProgress (terminating : Bool) (hook : FirmwareHook) (rsp : Option Response) :
    Proc (FirmwareHandler D) Fault (Option Response) := do
  let rsp ← Proc.ofOption rsp .nullPointer
  if rsp.rc = 202 then
    let s ← get
    if terminating = true ∧ s.joinable hook = true then throw .terminate
    else
      set (s.start hook)
      return some rsp
  else return some rsp

/-- `mDownloadProgress = std::thread(...)`. -/
def startDownloadProgress (terminating : Bool) (rsp : Option Response) :
    Proc (FirmwareHandler D) Fault (Option Response) :=
  startProgress terminating .download rsp

/-- `mUpdateProgress = std::thread(...)`. -/
def startUpdateProgress (terminating : Bool) (rsp : Option Response) :
    Proc (FirmwareHandler D) Fault (Option Response) :=
  startProgress terminating .update rsp

variable [CxxDouble D]

/-- The details in the first field of an update request, if it is about firmware. -/
def requestedDetails (payload : Value D) : Except Error (Option FirmwareDetails) := do
  let field ← firstField payload
  let name ← fieldName field
  if name = "mgmt.firmware".toList then
    let value ← field.get "value".toList .nullValue
    let version ← (value.get "version".toList (.stringValue [])).bind Value.asString
    let name ← (value.get "name".toList (.stringValue [])).bind Value.asString
    let uri ← (value.get "uri".toList (.stringValue [])).bind Value.asString
    let verifier ← (value.get "verifier".toList (.stringValue [])).bind Value.asString
    return some ⟨name, version, uri, verifier⟩
  else return none

/-- The information with the details that the request brings. -/
def received (p : FirmwareInfo D) : Option FirmwareDetails → FirmwareInfo D
  | some d => (((p.setVersion d.version).setName d.name).setUri d.uri).setVerifier d.verifier
  | none => p

/-- The part of `message_arrived` that depends on the topic. -/
def respond (terminating : Bool) (hooks : FirmwareHooks D) (topic : StdString)
    (jsonPayload : Value D) : Proc (FirmwareHandler D) Fault (Option Response) := do
  let s ← get
  if topic = serverUpdateTopic then
    let details ← Proc.ofExcept .json (requestedDetails jsonPayload)
    callHook hooks jsonPayload .verify (received s.fwinfo details)
  else if topic = serverObserveTopic then
    callHook hooks jsonPayload .isReadyForDownload s.fwinfo
  else if topic = serverFirmwareDownloadTopic then
    let rsp ← callHook hooks jsonPayload .download s.fwinfo
    startDownloadProgress terminating rsp
  else if topic = serverFirmwareUpdateTopic then
    let rsp ← callHook hooks jsonPayload .update s.fwinfo
    startUpdateProgress terminating rsp
  else if topic = serverCancelTopic then return some { rc := 200 }
  else return none

/-- `message_arrived` on a JSON payload. -/
def messageArrived (terminating : Bool) (hooks : FirmwareHooks D) (topic : StdString)
    (jsonPayload : Value D) : Proc (FirmwareHandler D) Fault (ReplyMessage D) := do
  let rsp ← respond terminating hooks topic jsonPayload
  let rsp ← Proc.ofOption rsp .nullPointer
  let reqId ← Proc.ofExcept .json (reqId jsonPayload)
  return { topic := deviceReponseTopic, payload := replyPayload rsp reqId }

/-- `message_arrived` on a payload that the callback could not parse. -/
def textArrived (terminating : Bool) (hooks : FirmwareHooks D) (topic payload : StdString) :
    Proc (FirmwareHandler D) Fault (Option (ReplyMessage D)) := do
  let jsonPayload ← Proc.ofExcept .json (Reader.parse payload)
  match jsonPayload with
  | some jsonPayload => some <$> messageArrived terminating hooks topic jsonPayload
  | none => return none

end FirmwareHandler

namespace FirmwareHandler

/-! ### What a message does -/

/-- The hook that a topic calls. -/
def hookOf (topic : StdString) : Option FirmwareHook :=
  if topic = serverUpdateTopic then some .verify
  else if topic = serverObserveTopic then some .isReadyForDownload
  else if topic = serverFirmwareDownloadTopic then some .download
  else if topic = serverFirmwareUpdateTopic then some .update
  else none

def record (s : FirmwareHandler D) (call : FirmwareCall D) : FirmwareHandler D :=
  { s with calls := call :: s.calls }

@[simp] theorem start_calls (s : FirmwareHandler D) (hook : FirmwareHook) :
    (s.start hook).calls = s.calls := by
  cases hook <;> rfl

@[simp] theorem start_fwinfo (s : FirmwareHandler D) (hook : FirmwareHook) :
    (s.start hook).fwinfo = s.fwinfo := by
  cases hook <;> rfl

@[simp] theorem record_calls (s : FirmwareHandler D) (call : FirmwareCall D) :
    (s.record call).calls = call :: s.calls := rfl

@[simp] theorem record_joinable (s : FirmwareHandler D) (call : FirmwareCall D)
    (hook : FirmwareHook) : (s.record call).joinable hook = s.joinable hook := by
  cases hook <;> rfl

theorem exec_callHook (hooks : FirmwareHooks D) (payload : Value D) (hook : FirmwareHook)
    (p : FirmwareInfo D) (s : FirmwareHandler D) : (callHook hooks payload hook p).exec s =
      (.ok (hooks.answer hook p), s.record ⟨payload, hook, p, hooks.answer hook p⟩) := rfl

variable [CxxDouble D]

/-- The information for the hook: the handler's own, with the details of the
request on the update topic. -/
def infoFor (s : FirmwareHandler D) (topic : StdString) (payload : Value D) :
    Except Error (FirmwareInfo D) :=
  if topic = serverUpdateTopic then (requestedDetails payload).map (received s.fwinfo)
  else .ok s.fwinfo

/-- The response to an answer of a hook, and the thread that it starts. -/
def answered (terminating : Bool) (hook : FirmwareHook) (rsp : Option Response)
    (s : FirmwareHandler D) : Except Fault Response × FirmwareHandler D :=
  match rsp with
  | none => (.error .nullPointer, s)
  | some rsp =>
      if rsp.rc = 202 then
        if terminating = true ∧ s.joinable hook = true then (.error .terminate, s)
        else (.ok rsp, s.start hook)
      else (.ok rsp, s)

omit [CxxDouble D] in
theorem exec_startProgress (terminating : Bool) (hook : FirmwareHook) (rsp : Option Response)
    (s : FirmwareHandler D) : (startProgress terminating hook rsp).exec s =
      ((answered terminating hook rsp s).1.map some, (answered terminating hook rsp s).2) := by
  cases rsp with
  | none => rfl
  | some rsp =>
      rw [startProgress, Proc.exec_bind_ok (Proc.exec_ofOption _ _ s), answered]
      by_cases hrc : rsp.rc = 202
      · rw [if_pos hrc, if_pos hrc, Proc.exec_bind_ok (Proc.exec_get s)]
        by_cases hjoin : terminating = true ∧ s.joinable hook = true
        · rw [if_pos hjoin, if_pos hjoin]
          rfl
        · rw [if_neg hjoin, if_neg hjoin]
          rfl
      · rw [if_neg hrc, if_neg hrc]
        rfl

omit [CxxDouble D] in
/-- The hooks that start no thread answer as they are. -/
theorem answered_of_not_polling {terminating : Bool} {hook : FirmwareHook}
    (hhook : hook = .verify ∨ hook = .isReadyForDownload) (rsp : Option Response)
    (s : FirmwareHandler D) : answered terminating hook rsp s =
      (rsp.elim (.error .nullPointer) .ok, s) := by
  obtain rfl | rfl := hhook <;> cases rsp <;> simp [answered, joinable, start]

omit [CxxDouble D] in
/-- Apart from its threads, the handler stays as it is. -/
theorem answered_calls (terminating : Bool) (hook : FirmwareHook) (rsp : Option Response)
    (s : FirmwareHandler D) : (answered terminating hook rsp s).2.calls = s.calls ∧
      (answered terminating hook rsp s).2.fwinfo = s.fwinfo := by
  unfold answered
  split
  · exact ⟨rfl, rfl⟩
  · split_ifs <;> simp

/-- The hooks behind `verify` get the handler's own information. -/
theorem infoFor_of_ne {s : FirmwareHandler D} {topic : StdString} {payload : Value D}
    {hook : FirmwareHook} (htopic : hookOf topic = some hook) (hne : hook ≠ .verify) :
    s.infoFor topic payload = .ok s.fwinfo := by
  rw [infoFor, if_neg]
  rintro rfl
  rw [hookOf, if_pos rfl] at htopic
  cases htopic
  exact hne rfl

/-- The response to a message, with the hook's answer in it, and the state after. -/
def outcome (terminating : Bool) (hooks : FirmwareHooks D) (topic : StdString)
    (payload : Value D) (s : FirmwareHandler D) : Except Fault Response × FirmwareHandler D :=
  match hookOf topic with
  | some hook =>
      match s.infoFor topic payload with
      | .error e => (.error (.json e), s)
      | .ok p => answered terminating hook (hooks.answer hook p)
          (s.record ⟨payload, hook, p, hooks.answer hook p⟩)
  | none => if topic = serverCancelTopic then (.ok { rc := 200 }, s) else (.error .nullPointer, s)

/-- No message writes to the information that the handler hands out. -/
theorem outcome_fwinfo (terminating : Bool) (hooks : FirmwareHooks D) (topic : StdString)
    (payload : Value D) (s : FirmwareHandler D) :
    (outcome terminating hooks topic payload s).2.fwinfo = s.fwinfo := by
  rw [outcome]
  split
  · split
    · rfl
    · exact (answered_calls _ _ _ _).2
  · split <;> rfl

omit [CxxDouble D] in
theorem exec_bind_ofOption {x : Proc (FirmwareHandler D) Fault (Option Response)}
    {s t : FirmwareHandler D} {rsp : Except Fault Response}
    (h : x.exec s = (rsp.map some, t)) :
    (x >>= (Proc.ofOption · .nullPointer)).exec s = (rsp, t) := by
  cases rsp with
  | error e => rw [Proc.exec_bind_error h]
  | ok rsp => rw [Proc.exec_bind_ok h, Proc.exec_ofOption, Option.elim_some]

theorem exec_respond (terminating : Bool) (hooks : FirmwareHooks D) (topic : StdString)
    (payload : Value D) (s : FirmwareHandler D) :
    (respond terminating hooks topic payload >>= (Proc.ofOption · .nullPointer)).exec s =
      outcome terminating hooks topic payload s := by
  rw [outcome, hookOf, infoFor, respond]
  by_cases hupdate : topic = serverUpdateTopic
  · simp only [if_pos hupdate, Proc.exec_bind, Proc.exec_get, Proc.exec_ofExcept]
    cases requestedDetails payload with
    | error e => rfl
    | ok details =>
        change (Proc.ofOption _ _).exec _ = _
        rw [Proc.exec_ofOption]
        exact (answered_of_not_polling (.inl rfl) _ _).symm
  by_cases hobserve : topic = serverObserveTopic
  · simp only [if_neg hupdate, if_pos hobserve, Proc.exec_bind, Proc.exec_get, exec_callHook,
      Proc.exec_ofOption]
    exact (answered_of_not_polling (.inr rfl) _ _).symm
  by_cases hdownload : topic = serverFirmwareDownloadTopic
  · simp only [if_neg hupdate, if_neg hobserve, if_pos hdownload]
    apply exec_bind_ofOption
    exact exec_startProgress terminating .download _ _
  by_cases hfirmware : topic = serverFirmwareUpdateTopic
  · simp only [if_neg hupdate, if_neg hobserve, if_neg hdownload, if_pos hfirmware]
    apply exec_bind_ofOption
    exact exec_startProgress terminating .update _ _
  by_cases hcancel : topic = serverCancelTopic
  · simp only [if_neg hupdate, if_neg hobserve, if_neg hdownload, if_neg hfirmware, if_pos hcancel]
    rfl
  · simp only [if_neg hupdate, if_neg hobserve, if_neg hdownload, if_neg hfirmware, if_neg hcancel]
    rfl

/-- The reply to a request that was answered with `rsp`. -/
def replyTo (payload : Value D) (rsp : Response) : Except Fault (ReplyMessage D) :=
  (reqId payload).mapError .json |>.map fun reqId =>
    { topic := deviceReponseTopic, payload := replyPayload rsp reqId }

/-- What `message_arrived` comes to. -/
theorem exec_messageArrived (terminating : Bool) (hooks : FirmwareHooks D) (topic : StdString)
    (payload : Value D) (s : FirmwareHandler D) :
    (messageArrived terminating hooks topic payload).exec s =
      ((outcome terminating hooks topic payload s).1.bind (replyTo payload),
        (outcome terminating hooks topic payload s).2) := by
  rw [messageArrived, ← bind_assoc, Proc.exec_bind, exec_respond]
  cases outcome terminating hooks topic payload s with
  | mk rsp t =>
      cases rsp with
      | error e => rfl
      | ok rsp =>
          simp only [Proc.exec_bind, Proc.exec_ofExcept, replyTo, Except.bind]
          cases reqId payload <;> rfl

theorem exec_textArrived_of_none {terminating : Bool} {hooks : FirmwareHooks D}
    {topic payload : StdString} (hparse : Reader.parse (D := D) payload = .ok none)
    (s : FirmwareHandler D) :
    (textArrived terminating hooks topic payload).exec s = (.ok none, s) := by
  rw [textArrived, hparse]
  rfl

end FirmwareHandler
