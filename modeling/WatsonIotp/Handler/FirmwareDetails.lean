import WatsonIotp.Handler.Firmware
import WatsonIotp.Machine.Basic

/-!
# Firmware details across messages

The details of a firmware come with one request, and the hooks that need them are
called for later ones. Each message works on its own copy of `fwinfo` and nothing
writes the details back, so the later hooks get empty details whatever has been
accepted. `passesDetails_iff` says in which runs that does not matter.
-/

open Json

namespace FirmwareHandler

variable {D : Type} [CxxDouble D]

/-- An inbound message with the hooks as they are when it arrives: a JSON payload
for the one overload of `message_arrived` or the bytes for the other. -/
inductive Message (D : Type) where
  | json (hooks : FirmwareHooks D) (topic : StdString) (payload : Value D)
  | text (hooks : FirmwareHooks D) (topic payload : StdString)

namespace Message

omit [CxxDouble D] in
def hooks : Message D → FirmwareHooks D
  | .json hooks _ _ | .text hooks _ _ => hooks

omit [CxxDouble D] in
def topic : Message D → StdString
  | .json _ topic _ | .text _ topic _ => topic

/-- The JSON value of the message, if it has one. -/
def value : Message D → Option (Value D)
  | .json _ _ payload => some payload
  | .text _ _ payload => (Reader.parse payload).toOption.join

/-- The state of the handler after the message, whatever comes of it. -/
def deliver (m : Message D) (s : FirmwareHandler D) : FirmwareHandler D :=
  match m with
  | .json hooks topic payload => ((messageArrived true hooks topic payload).exec s).2
  | .text hooks topic payload => ((textArrived true hooks topic payload).exec s).2

/-- What the handler makes of the message: the reply or the exception, and the handler
after it. -/
def handle (m : Message D) (s : FirmwareHandler D) :
    Except Fault (Option (ReplyMessage D)) × FirmwareHandler D :=
  match m with
  | .json hooks topic payload => (some <$> messageArrived true hooks topic payload).exec s
  | .text hooks topic payload => (textArrived true hooks topic payload).exec s

theorem deliver_eq_handle (m : Message D) (s : FirmwareHandler D) :
    m.deliver s = (m.handle s).2 := by
  cases m with
  | json hooks topic payload => rw [deliver, handle, Proc.exec_map]
  | text hooks topic bytes => rfl

theorem handle_of_some {m : Message D} {payload : Value D} (h : m.value = some payload)
    (s : FirmwareHandler D) : m.handle s =
      (((outcome true m.hooks m.topic payload s).1.bind (replyTo payload)).map some,
        (outcome true m.hooks m.topic payload s).2) := by
  cases m with
  | json hooks topic payload' =>
      cases h
      rw [handle, Proc.exec_map, exec_messageArrived]
      rfl
  | text hooks topic bytes =>
      have hparse : Reader.parse bytes = .ok (some payload) := by
        simp only [value] at h
        cases hp : Reader.parse (D := D) bytes with
        | error e => simp [hp, Except.toOption] at h
        | ok v =>
            simp only [hp, Except.toOption, Option.join_some] at h
            rw [h]
      simp only [handle, textArrived, Proc.exec_bind, Proc.exec_ofExcept, hparse, Except.mapError,
        Proc.exec_map, exec_messageArrived]
      rfl

/-- A text that is no JSON is left alone. -/
theorem handle_of_none {m : Message D} (h : m.value = none) (s : FirmwareHandler D) :
    (m.handle s).2 = s ∧ (m.handle s).1 ≠ .error .terminate := by
  cases m with
  | json hooks topic payload => cases h
  | text hooks topic bytes =>
      simp only [value] at h
      simp only [handle, textArrived, Proc.exec_bind, Proc.exec_ofExcept]
      cases hp : Reader.parse (D := D) bytes with
      | error e => exact ⟨rfl, fun h => by cases h⟩
      | ok v =>
          cases v with
          | none => exact ⟨rfl, fun h => by cases h⟩
          | some v => simp [hp, Except.toOption] at h

end Message

def machine : Machine (FirmwareHandler D) (Message D) := ⟨fun s m => some (m.deliver s)⟩

/-- The details of a request that `verify` has answered with 204. -/
def accepted (call : FirmwareCall D) : Option FirmwareDetails :=
  match call.hook, requestedDetails call.payload, call.rsp with
  | .verify, .ok (some details), some rsp => if rsp.rc = 204 then some details else none
  | _, _, _ => none

/-- The details that were accepted last. -/
def acceptedDetails : List (FirmwareCall D) → FirmwareDetails
  | [] => .empty
  | call :: older => (accepted call).getD (acceptedDetails older)

/-- Every hook behind `verify` has been called with the details accepted last. -/
def PassesDetails (calls : List (FirmwareCall D)) : Prop :=
  ∀ newer call older, calls = newer ++ call :: older → call.hook ≠ .verify →
    FirmwareDetails.ofInfo call.info = acceptedDetails older

theorem passesDetails_cons {call : FirmwareCall D} {calls : List (FirmwareCall D)} :
    PassesDetails (call :: calls) ↔
      (call.hook ≠ .verify → FirmwareDetails.ofInfo call.info = acceptedDetails calls) ∧
        PassesDetails calls := by
  constructor
  · intro h
    refine ⟨h [] call calls rfl, fun newer call' older heq => ?_⟩
    exact h (call :: newer) call' older (by rw [heq]; rfl)
  · rintro ⟨hhead, htail⟩ newer call' older heq
    cases newer with
    | nil =>
        cases heq
        exact hhead
    | cons c newer =>
        cases heq
        exact htail newer call' older rfl

/-- A message that calls a later hook arrives only while the details accepted last
are all empty. -/
def NothingToPass (s : FirmwareHandler D) (m : Message D) : Prop :=
  ∀ hook, hookOf m.topic = some hook → hook ≠ .verify → m.value ≠ none →
    acceptedDetails s.calls = .empty

/-- The information that the handler hands out never gets any details. -/
def Blank (s : FirmwareHandler D) : Prop := FirmwareDetails.ofInfo s.fwinfo = .empty

omit [CxxDouble D] in
theorem blank_new : Blank (FirmwareHandler.new : FirmwareHandler D) := rfl

/-- The state in which a payload leaves the handler: as before, if its topic calls
no hook but `verify`, or with one more call. -/
theorem outcome_state (terminating : Bool) (hooks : FirmwareHooks D) (topic : StdString)
    (payload : Value D) (s : FirmwareHandler D) :
    ((∀ hook, hookOf topic = some hook → hook = .verify) ∧
        (outcome terminating hooks topic payload s).2 = s) ∨
      ∃ hook p rsp, hookOf topic = some hook ∧ s.infoFor topic payload = .ok p ∧
        (outcome terminating hooks topic payload s).2.calls = ⟨payload, hook, p, rsp⟩ :: s.calls ∧
        (outcome terminating hooks topic payload s).2.fwinfo = s.fwinfo := by
  rw [outcome]
  cases hhook : hookOf topic with
  | none =>
      refine .inl ⟨by simp, ?_⟩
      by_cases hcancel : topic = serverCancelTopic
      · simp only [if_pos hcancel]
      · simp only [if_neg hcancel]
  | some hook =>
      cases hinfo : s.infoFor topic payload with
      | error e =>
          refine .inl ⟨fun hook' hhook' => ?_, rfl⟩
          cases hhook'
          by_contra hne
          rw [infoFor_of_ne hhook hne] at hinfo
          cases hinfo
      | ok p =>
          obtain ⟨hcalls, hfwinfo⟩ := answered_calls terminating hook (hooks.answer hook p)
            (s.record ⟨payload, hook, p, hooks.answer hook p⟩)
          exact .inr ⟨hook, p, hooks.answer hook p, rfl, rfl, hcalls, hfwinfo⟩

theorem Message.deliver_json {m : Message D} {payload : Value D} (h : m.value = some payload)
    (s : FirmwareHandler D) : m.deliver s = (outcome true m.hooks m.topic payload s).2 := by
  rw [deliver_eq_handle, handle_of_some h]

theorem Message.deliver_none {m : Message D} (h : m.value = none) (s : FirmwareHandler D) :
    m.deliver s = s := by
  rw [deliver_eq_handle, (handle_of_none h s).1]

/-- What a message does to the record of calls. -/
theorem Message.deliver_cases (m : Message D) (s : FirmwareHandler D) :
    ((∀ hook, hookOf m.topic = some hook → hook ≠ .verify → m.value = none) ∧
        m.deliver s = s) ∨
      ∃ payload hook p rsp, m.value = some payload ∧ hookOf m.topic = some hook ∧
        s.infoFor m.topic payload = .ok p ∧
        (m.deliver s).calls = ⟨payload, hook, p, rsp⟩ :: s.calls ∧
        (m.deliver s).fwinfo = s.fwinfo := by
  cases hvalue : m.value with
  | none => exact .inl ⟨fun _ _ _ => rfl, deliver_none hvalue s⟩
  | some payload =>
      rw [deliver_json hvalue]
      obtain ⟨hverify, hsame⟩ | ⟨hook, p, rsp, hhook, hinfo, hcalls, hfwinfo⟩ :=
        outcome_state true m.hooks m.topic payload s
      · exact .inl ⟨fun hook hhook hne => absurd (hverify hook hhook) hne, hsame⟩
      · exact .inr ⟨payload, hook, p, rsp, rfl, hhook, hinfo, hcalls, hfwinfo⟩

theorem Blank.deliver {s : FirmwareHandler D} (hs : Blank s) (m : Message D) :
    Blank (m.deliver s) := by
  obtain ⟨-, hsame⟩ | ⟨-, -, -, -, -, -, -, -, hfwinfo⟩ := m.deliver_cases s
  · rwa [hsame]
  · rwa [Blank, hfwinfo]

/-- The step lemma: a message keeps the property exactly if there is nothing to pass. -/
theorem passesDetails_deliver_iff {s : FirmwareHandler D} (hs : Blank s)
    (hp : PassesDetails s.calls) (m : Message D) :
    PassesDetails (m.deliver s).calls ↔ NothingToPass s m := by
  obtain ⟨hnone, hsame⟩ | ⟨payload, hook, p, rsp, hvalue, hhook, hinfo, hcalls, -⟩ :=
    m.deliver_cases s
  · rw [hsame]
    apply iff_of_true hp
    intro hook hhook hne hvalue
    exact absurd (hnone hook hhook hne) hvalue
  · rw [hcalls, passesDetails_cons]
    constructor
    · rintro ⟨hhead, -⟩ hook' hhook' hne -
      rw [hhook] at hhook'
      cases hhook'
      rw [infoFor_of_ne hhook hne] at hinfo
      cases hinfo
      exact (hhead hne).symm.trans hs
    · intro hnothing
      refine ⟨fun hne => ?_, hp⟩
      change hook ≠ .verify at hne
      rw [infoFor_of_ne hhook hne] at hinfo
      cases hinfo
      rw [hnothing hook hhook hne (by simp [hvalue])]
      exact hs

/-- In a run of one handler, all hooks behind `verify` are called with the details
accepted last exactly if each message that calls one arrives while these are empty. -/
theorem passesDetails_iff {msgs : List (Message D)} {s : FirmwareHandler D}
    (hr : machine.Run FirmwareHandler.new msgs s) :
    PassesDetails s.calls ↔ machine.Along NothingToPass FirmwareHandler.new msgs := by
  apply hr.final_iff (B := fun _ => True) (I := Blank) (P := fun s => PassesDetails s.calls)
  · exact fun _ _ _ _ h => h
  · rintro s m t - ⟨⟩ ht
    obtain ⟨-, hsame⟩ | ⟨_, _, _, _, -, -, -, hcalls, -⟩ := m.deliver_cases s
    · rwa [hsame] at ht
    · rw [hcalls, passesDetails_cons] at ht
      exact ht.2
  · rintro s m t hs ⟨⟩ -
    exact hs.deliver m
  · rintro s m t hs hp ⟨⟩ -
    exact passesDetails_deliver_iff hs hp m
  · trivial
  · exact blank_new
  · intro newer call older heq
    simp [FirmwareHandler.new] at heq

/-- A derived class that answers 204, 200 and 202. -/
def agreeableHooks : FirmwareHooks Int where
  verify _ := some { rc := 204 }
  isReadyForDownload _ := some { rc := 200 }
  download _ := some { rc := 202 }
  update _ := some { rc := 202 }

/-- An update request for the firmware with this version. -/
def versionUpdate (version : StdString) : Value Int :=
  .objectValue [("d".toList, .objectValue [("fields".toList, .arrayValue [.objectValue
    [("field".toList, .stringValue "mgmt.firmware".toList),
      ("value".toList, .objectValue [("version".toList, .stringValue version)])]])])]

/-- An update request for the firmware with the version "2". -/
def versionTwo : Value Int := versionUpdate "2".toList

/-- An observation ahead of the request, and a download behind another one without a version. -/
theorem passesDetails_accepted :
    let msgs : List (Message Int) :=
      [.json agreeableHooks serverObserveTopic (.objectValue []),
        .json agreeableHooks serverUpdateTopic versionTwo,
        .json agreeableHooks serverUpdateTopic (versionUpdate []),
        .json agreeableHooks serverFirmwareDownloadTopic (.objectValue [])]
    ∃ s, machine.Run FirmwareHandler.new msgs s ∧ s.calls.length = 4 ∧
      (PassesDetails s.calls ↔ machine.Along NothingToPass FirmwareHandler.new msgs) := by
  intro msgs
  have hr : machine.Run FirmwareHandler.new msgs _ := Machine.Run.exec_iff.mp rfl
  exact ⟨_, hr, rfl, passesDetails_iff hr⟩

/-- The observation that follows the accepted request gets empty details. -/
theorem passesDetails_fails : ¬ ∀ (msgs : List (Message Int)) (s : FirmwareHandler Int),
    machine.Run FirmwareHandler.new msgs s → PassesDetails s.calls := by
  intro h
  have hr : machine.Run (FirmwareHandler.new : FirmwareHandler Int)
      [.json agreeableHooks serverUpdateTopic versionTwo,
        .json agreeableHooks serverObserveTopic (.objectValue [])] _ :=
    Machine.Run.exec_iff.mp rfl
  have hpass := h _ _ hr [] _ _ rfl (by decide)
  exact absurd hpass (by decide)

end FirmwareHandler
