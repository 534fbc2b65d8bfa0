import WatsonIotp.Handler.Firmware

/-!
# Polling for progress

A download or an update that is under way has a thread that asks the derived class for
its progress, ten times at most, and notifies the platform of each answer. The thread
has a copy of the firmware information, which the hook writes to by its setters.
-/

open Json

variable {D : Type}

/-- The calls by which a hook writes to the information it is given. -/
inductive FirmwareSetter where
  | name (name : StdString)
  | version (version : StdString)
  | uri (uri : StdString)
  | verifier (verifier : StdString)
  | state (state : Int)
  | updateStatus (updateStatus : Int)
  | updatedDateTime (updatedDateTime : Int)
  deriving DecidableEq

def FirmwareSetter.apply (p : FirmwareInfo D) : FirmwareSetter → FirmwareInfo D
  | .name value => p.setName value
  | .version value => p.setVersion value
  | .uri value => p.setUri value
  | .verifier value => p.setVerifier value
  | .state value => p.setState value
  | .updateStatus value => p.setUpdateStatus value
  | .updatedDateTime value => p.setUpdatedDateTime value

/-- `FIRMWARE_INFO_STATE_DOWNLOADED`. -/
def stateDownloaded : Int := 2

/-- `FIRMWARE_INFO_UPDATE_STATUS_SUCCESS`. -/
def updateStatusSuccess : Int := 0

/-- `FIRMWARE_INFO_UPDATE_STATUS_IN_PROGRESS`. -/
def updateStatusInProgress : Int := 1

/-- The notification with the value of `field1`. -/
def notification (value : Value D) : ReplyMessage D :=
  let field1 := (Value.nullValue.assign "field".toList (.stringValue "mgmt.firmware".toList)).assign
    "value".toList value
  { topic := deviceNotifyTopic
    payload := Value.nullValue.assign "d".toList
      (Value.nullValue.assign "fields".toList (.arrayValue [field1])) }

/-- What distinguishes the two functions: the value that they report and when they stop. -/
structure ProgressLoop (D : Type) where
  value : FirmwareInfo D → Except Error (Value D)
  ended : FirmwareInfo D → Bool

/-- `check_download_progress`. -/
def checkDownloadProgress : ProgressLoop D where
  value p := .ok (Value.nullValue.assign "state".toList (.intValue p.mState))
  ended p := p.mState = stateDownloaded

/-- `check_update_progress`. -/
def checkUpdateProgress [CxxDouble D] : ProgressLoop D where
  value p := do
    let value := (Value.nullValue.assign "state".toList (.intValue p.mState)).assign
      "updateStatus".toList (.intValue p.mUpdateStatus)
    if p.mUpdateStatus = updateStatusSuccess then
      let updatedDateTime ←
        (p.json.get "updatedDateTime".toList (.stringValue [])).bind Value.asString
      return value.assign "updatedDateTime".toList (.stringValue updatedDateTime)
    else return value
  ended p := p.mUpdateStatus ≠ updateStatusInProgress

/-- Where a polling thread is. -/
inductive PollPhase where
  /-- At the start of the function. -/
  | starting
  /-- In `sleep_for`. -/
  | sleeping
  /-- Behind the hook. -/
  | notifying
  /-- Behind the loop. -/
  | finished
  /-- An exception has left the function. -/
  | failed
  deriving DecidableEq

/-- A polling thread: the hook whose work it reports on, its copy of the information
and the number of passes through its loop. -/
structure Poll (D : Type) where
  hook : FirmwareHook
  p : FirmwareInfo D
  i : Nat
  phase : PollPhase

namespace Poll

/-- A thread that has just been started. -/
def new (hook : FirmwareHook) : Poll D := ⟨hook, .new [] [] [] [], 0, .starting⟩

/-- The thread is behind its function. -/
def Ended (t : Poll D) : Prop := t.phase = .finished ∨ t.phase = .failed

instance (t : Poll D) : Decidable t.Ended := inferInstanceAs (Decidable (_ ∨ _))

/-- The function of the thread; only downloads and updates have one. -/
def loop [CxxDouble D] (t : Poll D) : ProgressLoop D :=
  match t.hook with
  | .update => checkUpdateProgress
  | _ => checkDownloadProgress

/-- The thread copies `fwinfo` and computes its sleep interval. -/
def enter (t : Poll D) (fwinfo : FirmwareInfo D) : Option (Poll D) :=
  if t.phase = .starting then some { t with p := fwinfo, phase := .sleeping } else none

/-- The sleep is over and the hook reports the progress. -/
def report (t : Poll D) (setters : List FirmwareSetter) : Option (Poll D) :=
  if t.phase = .sleeping then
    some { t with p := setters.foldl FirmwareSetter.apply t.p, phase := .notifying }
  else none

/-- The rest of the pass: the notification, and the thread after it. -/
def notify [CxxDouble D] (t : Poll D) : Option (Option (ReplyMessage D) × Poll D) :=
  if t.phase = .notifying then
    match t.loop.value t.p with
    | .ok value =>
        let ends := t.loop.ended t.p = true ∨ t.i + 1 = 10
        some (some (notification value),
          { t with i := t.i + 1, phase := if ends then .finished else .sleeping })
    | .error _ => some (none, { t with phase := .failed })
  else none

theorem enter_eq_some {t u : Poll D} {fwinfo : FirmwareInfo D} (h : t.enter fwinfo = some u) :
    t.phase = .starting ∧ u = { t with p := fwinfo, phase := .sleeping } := by
  simp only [enter, Option.ite_none_right_eq_some, Option.some.injEq] at h
  exact ⟨h.1, h.2.symm⟩

theorem report_eq_some {t u : Poll D} {setters : List FirmwareSetter}
    (h : t.report setters = some u) : t.phase = .sleeping ∧
      u = { t with p := setters.foldl FirmwareSetter.apply t.p, phase := .notifying } := by
  simp only [report, Option.ite_none_right_eq_some, Option.some.injEq] at h
  exact ⟨h.1, h.2.symm⟩

/-- Whatever comes of the notification, the thread goes on to its next place. -/
theorem notify_eq_some [CxxDouble D] {t u : Poll D} {reply : Option (ReplyMessage D)}
    (h : t.notify = some (reply, u)) : t.phase = .notifying ∧ u.hook = t.hook := by
  rw [notify] at h
  split at h
  · next hphase =>
      refine ⟨hphase, ?_⟩
      split at h <;> cases h <;> rfl
  · cases h

end Poll
