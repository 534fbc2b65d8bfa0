import WatsonIotp.Handler.Action
import WatsonIotp.Handler.Attribute
import WatsonIotp.Handler.Firmware
import WatsonIotp.Handler.Response

/-!
# Messages that a handler accepts

The handlers read a payload by chains of `get`, each of which throws on a value
of the wrong type. `HasReqId` and the predicates behind it say of a payload,
without running any chain, whether a chain comes to its end on it. A member that
is missing is never the reason for an exception, since its default has the type
that the next accessor wants.

`Accepts` puts together, for each class of handlers, what else has to be the case
for `message_arrived` to return.
-/

open Json

variable {D : Type}

namespace Json.Value

/-- The first element of `fields` in `d`, or null where there is none. -/
def firstField (v : Value D) : Value D :=
  ((v.memberOr "d".toList .nullValue).memberOr "fields".toList .nullValue).elementOr 0 .nullValue

/-- The name and the value of a field. -/
def fieldName (field : Value D) : Value D := field.memberOr "field".toList .nullValue

def fieldValue (field : Value D) : Value D := field.memberOr "value".toList .nullValue

/-- The request id is missing or a text. -/
structure HasReqId (v : Value D) : Prop where
  object : v.ObjectLike
  reqId : (v.memberOr "reqId".toList (.stringValue [])).Textual

/-- The first field can be reached, and it is missing or has a name. -/
structure HasField (v : Value D) : Prop where
  object : v.ObjectLike
  d : (v.memberOr "d".toList .nullValue).ObjectLike
  fields : ((v.memberOr "d".toList .nullValue).memberOr "fields".toList .nullValue).ArrayLike
  field : v.firstField.ObjectLike
  name : v.firstField.fieldName.Textual

/-- The value of a firmware field: its details are missing or texts. -/
structure HasDetails (value : Value D) : Prop where
  object : value.ObjectLike
  version : (value.memberOr "version".toList (.stringValue [])).Textual
  name : (value.memberOr "name".toList (.stringValue [])).Textual
  uri : (value.memberOr "uri".toList (.stringValue [])).Textual
  verifier : (value.memberOr "verifier".toList (.stringValue [])).Textual

variable [CxxDouble D]

/-- The value of a location field: its coordinates are missing or numbers. -/
structure HasLocation (value : Value D) : Prop where
  object : value.ObjectLike
  latitude : (value.memberOr "latitude".toList (.realValue (CxxDouble.ofInt 0))).Numeric
  longitude : (value.memberOr "longitude".toList (.realValue (CxxDouble.ofInt 0))).Numeric
  elevation : (value.memberOr "elevation".toList (.realValue (CxxDouble.ofInt 0))).Numeric

/-- The field has this name. -/
def IsNamed (field : Value D) (name : StdString) : Prop := field.fieldName.asString = .ok name

end Json.Value

/-! ### The chains -/

section Chains

variable {α β : Type}

theorem get_bind_eq_ok_iff {v defaultValue : Value D} {key : StdString}
    {f : Value D → Except Error α} {a : α} : (v.get key defaultValue >>= f) = .ok a ↔
      v.ObjectLike ∧ f (v.memberOr key defaultValue) = .ok a := by
  cases v <;> simp [Value.get, Value.ObjectLike, bind, Except.bind]

theorem bind_isOk_iff {x : Except Error α} {f : α → Except Error β} :
    (∃ b, (x >>= f) = .ok b) ↔ ∃ a, x = .ok a ∧ ∃ b, f a = .ok b := by
  cases x <;> simp [bind, Except.bind]

theorem get_bind_isOk_iff {v defaultValue : Value D} {key : StdString}
    {f : Value D → Except Error α} : (∃ a, (v.get key defaultValue >>= f) = .ok a) ↔
      v.ObjectLike ∧ ∃ a, f (v.memberOr key defaultValue) = .ok a := by
  simp only [get_bind_eq_ok_iff, exists_and_left]

/-- Conversions of members in a row come to an end if each of them does. -/
theorem member_bind_isOk_iff {v defaultValue : Value D} {key : StdString}
    {convert : Value D → Except Error α} {f : α → Except Error β} {P : Prop}
    (hf : ∀ a, (∃ b, f a = .ok b) ↔ P) :
    (∃ b, ((v.get key defaultValue).bind convert >>= f) = .ok b) ↔
      v.ObjectLike ∧ (∃ a, convert (v.memberOr key defaultValue) = .ok a) ∧ P := by
  have hmember : ∀ a, (v.get key defaultValue).bind convert = .ok a ↔
      v.ObjectLike ∧ convert (v.memberOr key defaultValue) = .ok a :=
    fun a => get_bind_eq_ok_iff
  rw [bind_isOk_iff]
  simp only [hmember, hf, and_assoc, exists_and_left, exists_and_right]

end Chains

theorem firstField_eq_ok_iff {v field : Value D} : firstField v = .ok field ↔
    v.ObjectLike ∧ (v.memberOr "d".toList .nullValue).ObjectLike ∧
      ((v.memberOr "d".toList .nullValue).memberOr "fields".toList .nullValue).ArrayLike ∧
      field = v.firstField := by
  rw [firstField, get_bind_eq_ok_iff, get_bind_eq_ok_iff, Value.getIndex_eq_ok_iff]
  rfl

variable [CxxDouble D]

theorem fieldName_eq_ok_iff {field : Value D} {name : StdString} :
    fieldName field = .ok name ↔ field.ObjectLike ∧ field.IsNamed name :=
  get_bind_eq_ok_iff

theorem reqId_isOk_iff {v : Value D} : (∃ r, reqId v = .ok r) ↔ v.HasReqId := by
  have hreqId : ∀ r, reqId v = .ok r ↔
      v.ObjectLike ∧ (v.memberOr "reqId".toList (.stringValue [])).asString = .ok r :=
    fun r => get_bind_eq_ok_iff
  simp only [hreqId, exists_and_left, Value.asString_isOk_iff]
  exact ⟨fun h => ⟨h.1, h.2⟩, fun h => ⟨h.object, h.reqId⟩⟩

/-- The reading that the firmware and the attribute handler have in common: the value
of the first field is read when the field has a certain name. -/
theorem namedField_isOk_iff {α : Type} {v : Value D} {name : StdString} {P : Prop}
    {read : Value D → Except Error α} {otherwise : α}
    (hread : (∃ a, read v.firstField.fieldValue = .ok a) ↔ P) :
    (∃ a, (do
      let field ← firstField v
      let name' ← fieldName field
      if name' = name then
        let value ← field.get "value".toList .nullValue
        read value
      else pure otherwise) = .ok a) ↔
      v.HasField ∧ (v.firstField.IsNamed name → P) := by
  rw [bind_isOk_iff]
  simp only [bind_isOk_iff, firstField_eq_ok_iff, fieldName_eq_ok_iff]
  constructor
  · rintro ⟨field, ⟨hv, hd, hfields, rfl⟩, name', ⟨hfield, hname⟩, h⟩
    refine ⟨⟨hv, hd, hfields, hfield, Value.asString_isOk_iff.mp ⟨name', hname⟩⟩, fun hnamed => ?_⟩
    have heq : name' = name := Except.ok.inj (hname.symm.trans hnamed)
    rw [if_pos heq, get_bind_isOk_iff] at h
    exact hread.mp h.2
  · rintro ⟨⟨hv, hd, hfields, hfield, hname⟩, hP⟩
    obtain ⟨name', hname'⟩ := Value.asString_isOk_iff.mpr hname
    refine ⟨_, ⟨hv, hd, hfields, rfl⟩, name', ⟨hfield, hname'⟩, ?_⟩
    by_cases heq : name' = name
    · rw [if_pos heq, get_bind_isOk_iff]
      exact ⟨hfield, hread.mpr (hP (heq ▸ hname'))⟩
    · rw [if_neg heq]
      exact ⟨otherwise, rfl⟩

/-- The hooks return responses, not null pointers. -/
def FirmwareHooks.NonNull (hooks : FirmwareHooks D) : Prop :=
  ∀ hook p, (hooks.answer hook p).isSome

namespace FirmwareHandler

/-- `message_arrived` can read the request on the update topic. -/
structure Readable (v : Value D) : Prop where
  field : v.HasField
  details : v.firstField.IsNamed "mgmt.firmware".toList → v.firstField.fieldValue.HasDetails

theorem requestedDetails_isOk_iff {v : Value D} :
    (∃ details, requestedDetails v = .ok details) ↔ Readable v := by
  refine Iff.trans (namedField_isOk_iff ?_) ⟨fun h => ⟨h.1, h.2⟩, fun h => ⟨h.field, h.details⟩⟩
  refine Iff.trans (member_bind_isOk_iff fun version => member_bind_isOk_iff fun name =>
    member_bind_isOk_iff fun uri => member_bind_isOk_iff fun verifier =>
      iff_true_intro ⟨_, rfl⟩) ?_
  simp only [Value.asString_isOk_iff, and_true]
  constructor
  · rintro ⟨hobject, hversion, -, hname, -, huri, -, hverifier⟩
    exact ⟨hobject, hversion, hname, huri, hverifier⟩
  · rintro ⟨hobject, hversion, hname, huri, hverifier⟩
    exact ⟨hobject, hversion, hobject, hname, hobject, huri, hobject, hverifier⟩

/-- A message on the topic starts the thread that reports on the hook's work. -/
structure Starts (hooks : FirmwareHooks D) (topic : StdString) (p : FirmwareInfo D)
    (hook : FirmwareHook) : Prop where
  calls : hookOf topic = some hook
  polling : hook = .download ∨ hook = .update
  answer : (hooks.answer hook p).map Response.rc = some 202

/-- The hook that a message calls does not answer it with a null pointer. -/
def Answers (hooks : FirmwareHooks D) (topic : StdString) (v : Value D)
    (s : FirmwareHandler D) : Prop :=
  ∀ hook p, hookOf topic = some hook → s.infoFor topic v = .ok p → (hooks.answer hook p).isSome

/-- What `message_arrived` wants of a message in order to return. -/
structure Accepts (topic : StdString) (v : Value D) : Prop where
  served : (hookOf topic).isSome ∨ topic = serverCancelTopic
  readable : topic = serverUpdateTopic → Readable v
  reqId : v.HasReqId

omit [CxxDouble D] in
theorem answered_isOk_iff {hook : FirmwareHook} {rsp : Response} {s : FirmwareHandler D} :
    (∃ r, (answered true hook (some rsp) s).1 = .ok r) ↔
      (rsp.rc = 202 → s.joinable hook = false) := by
  rw [answered]
  by_cases hrc : rsp.rc = 202
  · cases s.joinable hook <;> simp [hrc]
  · simp [hrc]

omit [CxxDouble D] in
/-- Only the hooks that do work leave a thread behind. -/
theorem polling_of_joinable {hook : FirmwareHook} {s : FirmwareHandler D}
    (h : s.joinable hook = true) : hook = .download ∨ hook = .update := by
  cases hook with
  | verify => cases h
  | isReadyForDownload => cases h
  | download => exact .inl rfl
  | update => exact .inr rfl

theorem infoFor_isOk_iff {topic : StdString} {v : Value D} {s : FirmwareHandler D} :
    (∃ p, s.infoFor topic v = .ok p) ↔ (topic = serverUpdateTopic → Readable v) := by
  rw [infoFor]
  by_cases htopic : topic = serverUpdateTopic
  · rw [if_pos htopic, ← requestedDetails_isOk_iff]
    cases requestedDetails v <;> simp [htopic, Except.map]
  · rw [if_neg htopic]
    exact iff_of_true ⟨_, rfl⟩ fun h => absurd h htopic

theorem starts_iff {hooks : FirmwareHooks D} {topic : StdString} {v : Value D}
    {s : FirmwareHandler D} {hook hook' : FirmwareHook} {p : FirmwareInfo D} {rsp : Response}
    (hhook : hookOf topic = some hook) (hinfo : s.infoFor topic v = .ok p)
    (hrsp : hooks.answer hook p = some rsp) : Starts hooks topic s.fwinfo hook' ↔
      hook' = hook ∧ (hook = .download ∨ hook = .update) ∧ rsp.rc = 202 := by
  have hp : hook = .download ∨ hook = .update → p = s.fwinfo := by
    intro hpolling
    have hne : hook ≠ .verify := by
      rintro rfl
      simp at hpolling
    exact Except.ok.inj (hinfo.symm.trans (infoFor_of_ne hhook hne))
  constructor
  · rintro ⟨hcalls, hpolling, hanswer⟩
    obtain rfl : hook' = hook := Option.some.inj (hcalls.symm.trans hhook)
    rw [← hp hpolling, hrsp] at hanswer
    exact ⟨rfl, hpolling, Option.some.inj hanswer⟩
  · rintro ⟨rfl, hpolling, hrc⟩
    refine ⟨hhook, hpolling, ?_⟩
    rw [← hp hpolling, hrsp, Option.map_some, hrc]

theorem outcome_isOk_iff {hooks : FirmwareHooks D} {topic : StdString} {v : Value D}
    {s : FirmwareHandler D} : (∃ rsp, (outcome true hooks topic v s).1 = .ok rsp) ↔
      ((hookOf topic).isSome ∨ topic = serverCancelTopic) ∧
      (topic = serverUpdateTopic → Readable v) ∧
      (∀ hook, Starts hooks topic s.fwinfo hook → s.joinable hook = false) ∧
      Answers hooks topic v s := by
  rw [outcome, ← @infoFor_isOk_iff D _ topic v s]
  cases hhook : hookOf topic with
  | none =>
      have htopic : topic ≠ serverUpdateTopic := by
        rintro rfl
        cases hhook
      have hinfo : s.infoFor topic v = .ok s.fwinfo := by rw [infoFor, if_neg htopic]
      have hidle : ∀ hook, Starts hooks topic s.fwinfo hook → s.joinable hook = false :=
        fun hook hstarts => by cases hhook.symm.trans hstarts.calls
      have hanswers : Answers hooks topic v s :=
        fun hook p hcalls => by cases hhook.symm.trans hcalls
      by_cases hcancel : topic = serverCancelTopic
      · exact iff_of_true ⟨{ rc := 200 }, by rw [if_pos hcancel]⟩
          ⟨.inr hcancel, ⟨_, hinfo⟩, hidle, hanswers⟩
      · simp [hcancel]
  | some hook =>
      cases hinfo : s.infoFor topic v with
      | error e => simp
      | ok p =>
          have hanswers : Answers hooks topic v s ↔ (hooks.answer hook p).isSome := by
            simp [Answers, hhook, hinfo]
          cases hrsp : hooks.answer hook p with
          | none =>
              rw [hanswers, hrsp]
              exact iff_of_false (by simp [answered, hrsp]) (by simp)
          | some rsp =>
              simp only [hrsp, answered_isOk_iff, record_joinable]
              constructor
              · intro h
                refine ⟨.inl rfl, ⟨p, rfl⟩, fun hook' hstarts => ?_, ?_⟩
                · obtain ⟨rfl, -, hrc⟩ := (starts_iff hhook hinfo hrsp).mp hstarts
                  exact h hrc
                · rw [hanswers, hrsp]
                  rfl
              · rintro ⟨-, -, hidle, -⟩ hrc
                rw [← Bool.not_eq_true]
                intro hjoin
                have hstarts := (starts_iff hhook hinfo hrsp).mpr
                  ⟨rfl, polling_of_joinable hjoin, hrc⟩
                rw [hidle hook hstarts] at hjoin
                cases hjoin

omit [CxxDouble D] in
theorem start_joinable_iff {s : FirmwareHandler D} {hook hook' : FirmwareHook} :
    (s.start hook).joinable hook' = true ↔ s.joinable hook' = true ∨
      hook' = hook ∧ (hook = .download ∨ hook = .update) := by
  cases hook <;> cases hook' <;> simp [start, joinable]

theorem messageArrived_returns_iff {hooks : FirmwareHooks D} {topic : StdString} {v : Value D}
    {s : FirmwareHandler D} : (messageArrived true hooks topic v).Returns s ↔
      (Accepts topic v ∧ ∀ hook, Starts hooks topic s.fwinfo hook → s.joinable hook = false) ∧
        Answers hooks topic v s := by
  have hreply : ∀ rsp, (∃ reply, replyTo v rsp = .ok reply) ↔ v.HasReqId := by
    intro rsp
    rw [← reqId_isOk_iff, replyTo]
    cases reqId v <;> simp [Except.mapError, Except.map]
  have hreturns : (messageArrived true hooks topic v).Returns s ↔
      (∃ rsp, (outcome true hooks topic v s).1 = .ok rsp) ∧ v.HasReqId := by
    rw [Proc.Returns, exec_messageArrived]
    cases (outcome true hooks topic v s).1 with
    | error e => simp [Except.bind]
    | ok rsp => simp [Except.bind, hreply]
  rw [hreturns, outcome_isOk_iff]
  constructor
  · rintro ⟨⟨hserved, hreadable, hidle, hanswers⟩, hreqId⟩
    exact ⟨⟨⟨hserved, hreadable, hreqId⟩, hidle⟩, hanswers⟩
  · rintro ⟨⟨⟨hserved, hreadable, hreqId⟩, hidle⟩, hanswers⟩
    exact ⟨⟨hserved, hreadable, hidle, hanswers⟩, hreqId⟩

omit [CxxDouble D] in
theorem answered_joinable_iff {hook hook' : FirmwareHook} {rsp r : Response}
    {s : FirmwareHandler D} (h : (answered true hook (some rsp) s).1 = .ok r) :
    (answered true hook (some rsp) s).2.joinable hook' = true ↔ s.joinable hook' = true ∨
      hook' = hook ∧ (hook = .download ∨ hook = .update) ∧ rsp.rc = 202 := by
  rw [answered] at h ⊢
  by_cases hrc : rsp.rc = 202
  · simp only [if_pos hrc] at h ⊢
    split at h
    · cases h
    · next hjoin => simp only [if_neg hjoin, start_joinable_iff, hrc, and_true]
  · simp [hrc]

/-- A message that is answered leaves a thread behind where it starts one. -/
theorem outcome_joinable_iff {hooks : FirmwareHooks D} {topic : StdString} {v : Value D}
    {s : FirmwareHandler D} {rsp : Response}
    (h : (outcome true hooks topic v s).1 = .ok rsp) (hook' : FirmwareHook) :
    (outcome true hooks topic v s).2.joinable hook' = true ↔
      s.joinable hook' = true ∨ Starts hooks topic s.fwinfo hook' := by
  rw [outcome] at h ⊢
  cases hhook : hookOf topic with
  | none =>
      have hstarts : ¬ Starts hooks topic s.fwinfo hook' := by
        intro hstarts
        cases hhook.symm.trans hstarts.calls
      rw [or_iff_left hstarts]
      by_cases hcancel : topic = serverCancelTopic <;> simp only [hcancel, if_true, if_false]
  | some hook =>
      simp only [hhook] at h ⊢
      cases hinfo : s.infoFor topic v with
      | error e =>
          rw [hinfo] at h
          cases h
      | ok p =>
          cases hr : hooks.answer hook p with
          | none =>
              simp only [hinfo, hr] at h
              cases h
          | some r =>
              simp only [hinfo, hr] at h ⊢
              rw [starts_iff hhook hinfo hr, answered_joinable_iff h, record_joinable]

theorem messageArrived_joinable_iff {hooks : FirmwareHooks D} {topic : StdString} {v : Value D}
    {s : FirmwareHandler D}
    (h : (messageArrived true hooks topic v).Returns s) (hook : FirmwareHook) :
    ((messageArrived true hooks topic v).exec s).2.joinable hook = true ↔
      s.joinable hook = true ∨ Starts hooks topic s.fwinfo hook := by
  obtain ⟨reply, hreply⟩ := h
  rw [exec_messageArrived] at hreply ⊢
  cases hrsp : (outcome true hooks topic v s).1 with
  | error e =>
      rw [hrsp] at hreply
      cases hreply
  | ok rsp => exact outcome_joinable_iff hrsp hook

end FirmwareHandler

namespace AttributeHandler

/-- `message_arrived` can read the request on the update topic. -/
structure Readable (v : Value D) : Prop where
  field : v.HasField
  location : v.firstField.IsNamed "location".toList → v.firstField.fieldValue.HasLocation

theorem requestedLocation_isOk_iff {now : Int} {v : Value D} :
    (∃ p, requestedLocation now v = .ok p) ↔ Readable v := by
  refine Iff.trans (namedField_isOk_iff ?_) ⟨fun h => ⟨h.1, h.2⟩, fun h => ⟨h.field, h.location⟩⟩
  refine Iff.trans (member_bind_isOk_iff fun latitude => member_bind_isOk_iff fun longitude =>
    member_bind_isOk_iff fun elevation => iff_true_intro ⟨_, rfl⟩) ?_
  simp only [Value.asDouble_isOk_iff, and_true]
  constructor
  · rintro ⟨hobject, hlatitude, -, hlongitude, -, helevation⟩
    exact ⟨hobject, hlatitude, hlongitude, helevation⟩
  · rintro ⟨hobject, hlatitude, hlongitude, helevation⟩
    exact ⟨hobject, hlatitude, hobject, hlongitude, hobject, helevation⟩

theorem messageArrived_returns_iff {now : Int} {topic : StdString} {v : Value D}
    {locations : List (DeviceLocation D)} :
    (messageArrived now topic v).Returns locations ↔ topic = serverUpdateTopic ∧ Readable v := by
  rw [Proc.Returns, exec_messageArrived, ← requestedLocation_isOk_iff ]
  by_cases htopic : topic = serverUpdateTopic
  · rw [if_pos htopic]
    cases requestedLocation now v <;> simp [htopic]
  · simp [htopic]

end AttributeHandler

namespace ResponseHandler

theorem messageArrived_returns_iff {v : Value D} {messages : ResponseMessages D} :
    (messageArrived v).Returns messages ↔ v.HasReqId := by
  rw [Proc.Returns, exec_messageArrived, ← reqId_isOk_iff, store]
  cases reqId v <;> simp [Except.map]

end ResponseHandler

/-- The hooks return responses, not null pointers. -/
def ActionHooks.NonNull (hooks : ActionHooks) : Prop :=
  hooks.reboot.isSome ∧ hooks.factoryReset.isSome

namespace ActionHandler

/-- The topics that a message is answered on. -/
def Served (topic : StdString) : Prop :=
  topic = serverDeviceRebootTopic ∨ topic = serverFactoryResetTopic

/-- The hook that a message calls does not answer it with a null pointer. -/
def Answers (hooks : ActionHooks) (topic : StdString) : Prop :=
  Served topic → (answer hooks topic).isSome

omit [CxxDouble D] in
theorem answer_isSome_iff {hooks : ActionHooks} {topic : StdString} :
    (answer hooks topic).isSome ↔ Served topic ∧ Answers hooks topic := by
  refine ⟨fun h => ?_, fun h => h.2 h.1⟩
  refine ⟨?_, fun _ => h⟩
  rw [answer] at h
  split_ifs at h with hreboot hreset
  · exact .inl hreboot
  · exact .inr hreset
  · cases h

omit [CxxDouble D] in
theorem answers_of_nonNull {hooks : ActionHooks} (hnull : hooks.NonNull) (topic : StdString) :
    Answers hooks topic := by
  rintro (rfl | rfl)
  · exact hnull.1
  · exact hnull.2

end ActionHandler
