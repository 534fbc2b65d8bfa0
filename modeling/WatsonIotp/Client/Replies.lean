import WatsonIotp.Client.Dispatch
import WatsonIotp.Json.Progress

/-!
# The replies to requests

A firmware handler hands its reply back, an action handler that knows its client
enqueues it itself, and the callback enqueues what is handed back. In both ways a
request gets one reply from each of these handlers, in the order of registration
(`one_reply_each_iff`), unless an attribute handler stands on its topic that ends
without a value there: what the callback takes for its reply is then undefined.
-/

open Json

variable {ι D : Type} [CxxDouble D]

/-- The topics on which the server sends requests and responses. -/
def managementTopics : List StdString :=
  [serverResponseTopic, serverUpdateTopic, serverObserveTopic, serverCancelTopic,
    serverFirmwareDownloadTopic, serverFirmwareUpdateTopic, serverDeviceRebootTopic,
    serverFactoryResetTopic]

/-- A message on a management topic that is a JSON object with a request id. -/
structure Request (ι D : Type) [CxxDouble D] extends Arrival ι D where
  members : List (StdString × Value D)
  reqId : StdString
  management : topic ∈ managementTopics
  parses : Reader.parse payload = .ok (some (.objectValue members))
  hasReqId : members.lookup "reqId".toList = some (.stringValue reqId)

theorem reqId_members (r : Request ι D) : reqId (.objectValue r.members) = .ok r.reqId := by
  have hget : reqId (.objectValue r.members) =
      ((r.members.lookup "reqId".toList).getD (.stringValue [])).asString := rfl
  rw [hget, r.hasReqId]
  rfl

omit [CxxDouble D] in
/-- The fault is an exception, not undefined behaviour. -/
def Fault.Thrown : Fault → Prop
  | .json _ | .mqtt | .outOfRange => True
  | _ => False

/-- The reply with a response to the request of that id. -/
def Response.reply (reqId : StdString) (rsp : Response) : ReplyMessage D where
  topic := deviceReponseTopic
  payload := .objectValue
    ((if rsp.message = [] then [] else [("message".toList, .stringValue rsp.message)]) ++
      [("rc".toList, .intValue rsp.rc), ("reqId".toList, .stringValue reqId)])

omit [CxxDouble D] in
theorem replyPayload_eq_reply (rsp : Response) (r : StdString) :
    ({ topic := deviceReponseTopic, payload := replyPayload rsp r } : ReplyMessage D) =
      rsp.reply r := by
  rw [replyPayload_eq]
  rfl

namespace FirmwareHandler

theorem replyTo_eq {v : Value D} {r : StdString} (hid : reqId v = .ok r) (rsp : Response) :
    replyTo v rsp = .ok (rsp.reply r) := by
  rw [replyTo, hid, ← replyPayload_eq_reply]
  rfl

/-- The response to a message: what the hook of its topic answers, or 200 to a cancellation. -/
def responseTo (hooks : FirmwareHooks D) (topic : StdString) (v : Value D)
    (s : FirmwareHandler D) : Option Response :=
  if topic = serverCancelTopic then some { rc := 200 }
  else (hookOf topic).bind fun hook => (s.infoFor topic v).toOption.bind (hooks.answer hook)

omit [CxxDouble D] in
/-- A response goes through `answered` as it is. -/
theorem answered_eq_ok {terminating : Bool} {hook : FirmwareHook} {o : Option Response}
    {s : FirmwareHandler D} {rsp : Response} (h : (answered terminating hook o s).1 = .ok rsp) :
    o = some rsp := by
  cases o with
  | none => cases h
  | some r =>
      rw [answered] at h
      split_ifs at h <;> cases h <;> rfl

omit [CxxDouble D] in
theorem answered_ne_error (hook : FirmwareHook) (rsp : Response) (s : FirmwareHandler D)
    (e : Fault) : (answered false hook (some rsp) s).1 ≠ .error e := by
  intro h
  rw [answered] at h
  split_ifs at h with _ hjoin
  cases hjoin.1

theorem responseTo_of_outcome {terminating : Bool} {hooks : FirmwareHooks D} {topic : StdString}
    {v : Value D} {s : FirmwareHandler D} {rsp : Response}
    (h : (outcome terminating hooks topic v s).1 = .ok rsp) :
    s.responseTo hooks topic v = some rsp := by
  rw [outcome] at h
  rw [responseTo]
  cases hhook : hookOf topic with
  | none =>
      simp only [hhook] at h
      split at h
      · next hcancel =>
        rw [if_pos hcancel]
        cases h
        rfl
      · cases h
  | some hook =>
      have hcancel : topic ≠ serverCancelTopic := by
        rintro rfl
        cases hhook
      rw [if_neg hcancel]
      cases hinfo : s.infoFor topic v with
      | error e =>
          simp only [hhook, hinfo] at h
          cases h
      | ok p =>
          simp only [hhook, hinfo] at h
          exact answered_eq_ok h

/-- Where a message is served and hooks answer, only an exception stands in the way. -/
theorem thrown_of_outcome {hooks : FirmwareHooks D} (hnull : hooks.NonNull) {topic : StdString}
    (hserved : (hookOf topic).isSome ∨ topic = serverCancelTopic) {v : Value D}
    {s : FirmwareHandler D} {e : Fault} (h : (outcome false hooks topic v s).1 = .error e) :
    e.Thrown := by
  rw [outcome] at h
  cases hhook : hookOf topic with
  | none =>
      have hcancel : topic = serverCancelTopic := by
        rw [hhook] at hserved
        exact hserved.resolve_left (by decide)
      simp only [hhook, if_pos hcancel] at h
      cases h
  | some hook =>
      cases hinfo : s.infoFor topic v with
      | error e' =>
          simp only [hhook, hinfo] at h
          cases h
          trivial
      | ok p =>
          obtain ⟨rsp, hrsp⟩ := Option.isSome_iff_exists.mp (hnull hook p)
          simp only [hhook, hinfo, hrsp] at h
          exact absurd h (answered_ne_error _ _ _ _)

end FirmwareHandler

omit [CxxDouble D] in
/-- `manage` registers handlers of this class on the topic, if it is one that replies. -/
def Role.Managed (topic : StdString) : Role D → Prop
  | .firmware _ => topic ∈ [serverUpdateTopic, serverObserveTopic, serverCancelTopic,
      serverFirmwareDownloadTopic, serverFirmwareUpdateTopic]
  | .action => topic ∈ [serverDeviceRebootTopic, serverFactoryResetTopic]
  | _ => True

namespace Handler

/-- The replies that a handler owes to a request: one if it is a firmware or an action
handler, none otherwise. -/
def owed (hooks : Hooks D) (topic : StdString) (v : Value D) (reqId : StdString) :
    Handler D → List (Option (ReplyMessage D))
  | .firmware s => [(s.responseTo hooks.firmware topic v).map (Response.reply reqId)]
  | .action => [(ActionHandler.answer hooks.action topic).map (Response.reply reqId)]
  | .response _ | .devAttribute _ => []

variable {mClient : Bool} {now : Int} {hooks : Hooks D} {topic : StdString} {v : Value D}
  {h h' : Handler D} {replies : List (ReplyMessage D)} {r : StdString}

/-- What a handler owes is a matter of its role. -/
theorem owed_congr (hrole : h.role = h'.role) :
    h.owed hooks topic v r = h'.owed hooks topic v r := by
  cases h with
  | firmware s =>
      cases h' with
      | firmware s' =>
          have hinfo : s.fwinfo = s'.fwinfo := Role.firmware.inj hrole
          simp only [owed, FirmwareHandler.responseTo, FirmwareHandler.infoFor, hinfo]
      | _ => cases hrole
  | response _ =>
      cases h' with
      | response _ => rfl
      | _ => cases hrole
  | action =>
      cases h' with
      | action => rfl
      | _ => cases hrole
  | devAttribute _ =>
      cases h' with
      | devAttribute _ => rfl
      | _ => cases hrole

/-- Handed back or enqueued directly, a handler's reply ends up on the queue. -/
theorem replies_messageArrived (hid : reqId v = .ok r) {reply : Option (ReplyMessage D)}
    (hok : ((messageArrived false mClient now hooks topic v).exec (h, replies)).1 = .ok reply) :
    (((messageArrived false mClient now hooks topic v).exec (h, replies)).2.2 ++
        reply.toList).map some = replies.map some ++ h.owed hooks topic v r := by
  cases h with
  | response m =>
      rw [exec_response, ResponseHandler.exec_messageArrived, ResponseHandler.store, hid] at hok
      cases hok
      simp [owed, exec_response]
  | firmware s =>
      rw [exec_firmware, FirmwareHandler.exec_messageArrived] at hok
      cases hrsp : (FirmwareHandler.outcome false hooks.firmware topic v s).1 with
      | error e =>
          rw [hrsp] at hok
          cases hok
      | ok rsp =>
          rw [hrsp] at hok
          simp only [Except.bind, FirmwareHandler.replyTo_eq hid] at hok
          cases hok
          rw [owed, FirmwareHandler.responseTo_of_outcome hrsp, exec_firmware]
          simp
  | action =>
      cases hrsp : ActionHandler.answer hooks.action topic with
      | none =>
          rw [exec_action, ActionHandler.messageArrived, hrsp] at hok
          cases hok
      | some rsp =>
          simp only [exec_action, ActionHandler.exec_messageArrived hrsp hid,
            replyPayload_eq_reply] at hok ⊢
          rw [owed, hrsp]
          cases mClient <;> cases hok <;> simp
  | devAttribute locations =>
      rw [exec_devAttribute, AttributeHandler.exec_messageArrived] at hok
      split_ifs at hok
      split at hok
      · cases hok
        simp [owed, exec_devAttribute]
      · cases hok

/-- Off its topic, an attribute handler ends without a value. -/
theorem messageArrived_of_stray (hrole : h.role = .devAttribute)
    (htopic : topic ≠ serverUpdateTopic) :
    ((messageArrived false mClient now hooks topic v).exec (h, replies)).1 =
      .error .missingReturn := by
  cases h with
  | devAttribute locations =>
      rw [exec_devAttribute, AttributeHandler.exec_messageArrived, if_neg htopic]
  | _ => cases hrole

/-- Nothing else keeps a handler from returning but exceptions. -/
theorem thrown_of_messageArrived (hnull : hooks.NonNull) (hmanaged : h.role.Managed topic)
    (hid : reqId v = .ok r) {e : Fault}
    (herror : ((messageArrived false mClient now hooks topic v).exec (h, replies)).1 = .error e) :
    e.Thrown ∨ h.role = .devAttribute ∧ topic ≠ serverUpdateTopic := by
  cases h with
  | response m =>
      rw [exec_response, ResponseHandler.exec_messageArrived, ResponseHandler.store, hid] at herror
      cases herror
  | firmware s =>
      have hserved : (FirmwareHandler.hookOf topic).isSome ∨ topic = serverCancelTopic := by
        simp only [role, Role.Managed, List.mem_cons, List.not_mem_nil, or_false] at hmanaged
        obtain rfl | rfl | rfl | rfl | rfl := hmanaged <;> decide
      rw [exec_firmware, FirmwareHandler.exec_messageArrived] at herror
      cases hrsp : (FirmwareHandler.outcome false hooks.firmware topic v s).1 with
      | error e' =>
          rw [hrsp] at herror
          cases herror
          exact .inl (FirmwareHandler.thrown_of_outcome hnull.firmware hserved hrsp)
      | ok rsp =>
          rw [hrsp] at herror
          simp only [Except.bind, FirmwareHandler.replyTo_eq hid] at herror
          cases herror
  | action =>
      have hanswer : topic = serverDeviceRebootTopic ∨ topic = serverFactoryResetTopic := by
        simpa [Role.Managed, role] using hmanaged
      obtain ⟨rsp, hrsp⟩ := Option.isSome_iff_exists.mp
        (ActionHandler.answers_of_nonNull hnull.action topic hanswer)
      simp only [exec_action, ActionHandler.exec_messageArrived hrsp hid] at herror
      cases mClient <;> cases herror
  | devAttribute locations =>
      rw [exec_devAttribute, AttributeHandler.exec_messageArrived] at herror
      split_ifs at herror with htopic
      · split at herror
        · cases herror
        · cases herror
          exact .inl trivial
      · exact .inr ⟨rfl, htopic⟩

end Handler

namespace Callback

/-- The registry holds no pair twice, and handlers that reply only where `manage` puts them. -/
structure Registered (s : Callback ι D) : Prop where
  nodup : s.mHandlers.Nodup
  managed : ∀ topic i, (topic, i) ∈ s.mHandlers → (s.handler i).role.Managed topic

/-- The replies that a handler owes for one call. -/
def owedBy (s : Callback ι D) (r : Request ι D) (call : ι × Hooks D) :
    List (Option (ReplyMessage D)) :=
  (s.handler call.1).owed call.2 r.topic (.objectValue r.members) r.reqId

/-- The replies owed to a request, in the order of registration. -/
def owed (s : Callback ι D) (r : Request ι D) : List (Option (ReplyMessage D)) :=
  (s.calls r.toArrival).flatMap (s.owedBy r)

/-- An attribute handler is registered on the topic of the request, which is not its own. -/
def Stray (s : Callback ι D) (r : Request ι D) : Prop :=
  r.topic ≠ serverUpdateTopic ∧
    ∃ i, (r.topic, i) ∈ s.mHandlers ∧ (s.handler i).role = .devAttribute

/-- Requests have put the replies on the queue, and changed no handler's role. -/
structure Answers (s t : Callback ι D) (owed : List (Option (ReplyMessage D))) : Prop where
  mHandlers : t.mHandlers = s.mHandlers
  role : ∀ i, (t.handler i).role = (s.handler i).role
  replies : t.replies.map some = s.replies.map some ++ owed

namespace Answers

variable {s t u : Callback ι D} {owed owed' : List (Option (ReplyMessage D))}

omit [CxxDouble D] in
theorem refl (s : Callback ι D) : Answers s s [] := ⟨rfl, fun _ => rfl, by rw [List.append_nil]⟩

omit [CxxDouble D] in
theorem trans (h : Answers s t owed) (h' : Answers t u owed') : Answers s u (owed ++ owed') where
  mHandlers := h'.mHandlers.trans h.mHandlers
  role i := (h'.role i).trans (h.role i)
  replies := by rw [h'.replies, h.replies, List.append_assoc]

/-- What is owed from now on is what was owed before. -/
theorem owedBy_eq (h : Answers s t owed) (r : Request ι D) : t.owedBy r = s.owedBy r :=
  funext fun call => Handler.owed_congr (h.role call.1)

theorem owed_eq (h : Answers s t owed) (r : Request ι D) : t.owed r = s.owed r := by
  rw [Callback.owed, h.owedBy_eq r, calls, equalRange, h.mHandlers]
  rfl

theorem stray_iff (h : Answers s t owed) (r : Request ι D) : t.Stray r ↔ s.Stray r := by
  simp only [Stray, h.mHandlers, h.role]

omit [CxxDouble D] in
theorem registered (h : Answers s t owed) (hs : s.Registered) : t.Registered where
  nodup := h.mHandlers ▸ hs.nodup
  managed topic i hmem := by
    rw [h.role i]
    exact hs.managed topic i (h.mHandlers ▸ hmem)

end Answers

variable [DecidableEq ι] {s t : Callback ι D} {r : Request ι D} {call : ι × Hooks D}

/-- The callback gets the requests one after the other. A thread that is started is assumed
not to end the process. -/
def receive (requests : List (Request ι D)) : Proc (Callback ι D) Fault Unit :=
  forM requests fun r => messageArrived false r.toArrival

theorem answers_pass (h : (pass false r.toArrival call).exec s = (.ok ⟨⟩, t)) :
    Answers s t (s.owedBy r call) := by
  obtain ⟨hhandlers, reply, hreply, hreplies⟩ := pass_ok r.parses h
  obtain rfl : ((pass false r.toArrival call).exec s).2 = t := congrArg Prod.snd h
  refine ⟨hhandlers, role_pass r.parses, ?_⟩
  rw [hreplies]
  exact Handler.replies_messageArrived (reqId_members r) hreply

theorem thrown_of_pass (hnull : call.2.NonNull)
    (hmanaged : (s.handler call.1).role.Managed r.topic) {e : Fault}
    (h : (pass false r.toArrival call).exec s = (.error e, t)) :
    e.Thrown ∨ (s.handler call.1).role = .devAttribute ∧ r.topic ≠ serverUpdateTopic :=
  Handler.thrown_of_messageArrived hnull hmanaged (reqId_members r) (pass_error r.parses h)

theorem not_stray_of_pass (h : (pass false r.toArrival call).exec s = (.ok ⟨⟩, t)) :
    ¬ ((s.handler call.1).role = .devAttribute ∧ r.topic ≠ serverUpdateTopic) := by
  rintro ⟨hrole, htopic⟩
  obtain ⟨-, reply, hreply, -⟩ := pass_ok r.parses h
  rw [Handler.messageArrived_of_stray hrole htopic] at hreply
  cases hreply

/-- What is known after the passes over some handlers of the topic. -/
def Passed (s : Callback ι D) (r : Request ι D) (done : List (ι × Hooks D))
    (t : Callback ι D) : Prop :=
  Answers s t (done.flatMap (s.owedBy r)) ∧
    ∀ call ∈ done, ¬ ((s.handler call.1).role = .devAttribute ∧ r.topic ≠ serverUpdateTopic)

theorem Passed.pass {done : List (ι × Hooks D)} {u : Callback ι D} (h : Passed s r done t)
    (hexec : (pass false r.toArrival call).exec t = (.ok ⟨⟩, u)) :
    Passed s r (done ++ [call]) u := by
  have hstray := not_stray_of_pass hexec
  rw [h.1.role] at hstray
  refine ⟨?_, fun call' hcall' => ?_⟩
  · have hpass := answers_pass hexec
    rw [h.1.owedBy_eq] at hpass
    rw [List.flatMap_append, List.flatMap_singleton]
    exact h.1.trans hpass
  · obtain hdone | hlast := List.mem_append.mp hcall'
    · exact h.2 call' hdone
    · exact List.mem_singleton.mp hlast ▸ hstray

omit [DecidableEq ι] in
theorem passed_counted (s : Callback ι D) (r : Request ι D) :
    Passed s r [] s.counted :=
  ⟨⟨rfl, fun _ => rfl, (List.append_nil _).symm⟩, fun _ h => absurd h List.not_mem_nil⟩

/-- A command adds nothing to the queue. -/
theorem answers_of_no_handler (hrange : s.equalRange r.topic = [])
    (h : (messageArrived false r.toArrival).exec s = (.ok ⟨⟩, t)) : Answers s t [] := by
  rw [exec_messageArrived_of_no_handler hrange, exec_processCommand] at h
  split_ifs at h
  · split at h
    · cases h
      exact ⟨rfl, fun _ => rfl, (List.append_nil _).symm⟩
    · cases h
  · cases h
    exact ⟨rfl, fun _ => rfl, (List.append_nil _).symm⟩

/-- The handlers of the topic put on the queue what they owe. -/
theorem answers_messageArrived (h : (messageArrived false r.toArrival).exec s = (.ok ⟨⟩, t)) :
    Answers s t (s.owed r) ∧ ¬ s.Stray r := by
  by_cases hrange : s.equalRange r.topic = []
  · have howed : s.owed r = [] := by rw [owed, calls_eq_nil_iff.mpr hrange, List.flatMap_nil]
    refine ⟨?_, fun ⟨_, i, hi, _⟩ => ?_⟩
    · rw [howed]
      exact answers_of_no_handler hrange h
    · rw [← mem_equalRange, hrange] at hi
      cases hi
  · rw [exec_messageArrived_of_handlers hrange] at h
    have hpassed := Proc.forM_ok (fun done call t u hp hexec => hp.pass hexec) _
      (passed_counted s r) h
    refine ⟨hpassed.1, ?_⟩
    rintro ⟨htopic, i, hi, hrole⟩
    obtain ⟨call, hcall, rfl⟩ := exists_mem_calls hi
    exact hpassed.2 call hcall ⟨hrole, htopic⟩

theorem thrown_of_messageArrived (hreg : s.Registered) (hnull : ∀ k, (r.hooks k).NonNull)
    {e : Fault} (h : (messageArrived false r.toArrival).exec s = (.error e, t)) :
    e.Thrown ∨ s.Stray r := by
  by_cases hrange : s.equalRange r.topic = []
  · rw [exec_messageArrived_of_no_handler hrange, exec_processCommand] at h
    split_ifs at h
    · split at h
      · cases h
      · cases h
        exact .inl trivial
    · cases h
  · rw [exec_messageArrived_of_handlers hrange] at h
    obtain ⟨done, u, call, hcall, hpassed, hthrow⟩ := Proc.forM_error
      (fun done call t u hp hexec => Passed.pass hp hexec) _ (passed_counted s r) h
    obtain ⟨hmem, k, hk⟩ := of_mem_calls hcall
    have hmanaged : (u.handler call.1).role.Managed r.topic :=
      (hpassed.1.registered hreg).managed _ _ (hpassed.1.mHandlers ▸ hmem)
    obtain hthrown | ⟨hrole, htopic⟩ := thrown_of_pass (hk ▸ hnull k) hmanaged hthrow
    · exact .inl hthrown
    · exact .inr ⟨htopic, call.1, hmem, (hpassed.1.role call.1).symm.trans hrole⟩

/-- What is known after some of the requests. -/
def Received (s : Callback ι D) (done : List (Request ι D)) (t : Callback ι D) : Prop :=
  Answers s t (done.flatMap s.owed) ∧ ∀ r ∈ done, ¬ s.Stray r

theorem Received.messageArrived {done : List (Request ι D)} {u : Callback ι D}
    (h : Received s done t) (hexec : (messageArrived false r.toArrival).exec t = (.ok ⟨⟩, u)) :
    Received s (done ++ [r]) u := by
  obtain ⟨hanswers, hstray⟩ := answers_messageArrived hexec
  rw [h.1.owed_eq] at hanswers
  rw [h.1.stray_iff] at hstray
  refine ⟨?_, fun r' hr' => ?_⟩
  · rw [List.flatMap_append, List.flatMap_singleton]
    exact h.1.trans hanswers
  · obtain hdone | hlast := List.mem_append.mp hr'
    · exact h.2 r' hdone
    · exact List.mem_singleton.mp hlast ▸ hstray

omit [DecidableEq ι] in
theorem received_nil (s : Callback ι D) : Received s [] s :=
  ⟨.refl s, fun _ h => absurd h List.not_mem_nil⟩

/-- Every firmware or action handler on the topic of a request adds one reply to the queue,
and no other handler does, exactly if no attribute handler is on a topic that is not its own. -/
theorem one_reply_each_iff (s : Callback ι D) (requests : List (Request ι D))
    (hreg : s.Registered) (hnull : ∀ r ∈ requests, ∀ k, (r.hooks k).NonNull)
    (hnothrow : ∀ e, ((receive requests).exec s).1 = .error e → ¬ e.Thrown) :
    (∃ t, (receive requests).exec s = (.ok ⟨⟩, t) ∧
        t.replies.map some = s.replies.map some ++ requests.flatMap s.owed) ↔
      ∀ r ∈ requests, ¬ s.Stray r := by
  constructor
  · rintro ⟨t, hexec, -⟩
    exact (Proc.forM_ok (fun done r t u hdone h => Received.messageArrived hdone h) _
      (received_nil s) hexec).2
  · intro hstray
    cases hexec : (receive requests).exec s with
    | mk outcome t =>
        cases outcome with
        | ok _ =>
            have hreceived := Proc.forM_ok
              (fun done r t u hdone h => Received.messageArrived hdone h) _ (received_nil s) hexec
            exact ⟨t, rfl, hreceived.1.replies⟩
        | error e =>
            obtain ⟨done, u, r, hr, hreceived, hthrow⟩ := Proc.forM_error
              (fun done r t u hdone h => Received.messageArrived hdone h) _ (received_nil s) hexec
            obtain hthrown | hstray' :=
              thrown_of_messageArrived (hreceived.1.registered hreg) (hnull r hr) hthrow
            · exact absurd hthrown (hnothrow e (by rw [hexec]))
            · exact absurd ((hreceived.1.stray_iff r).mp hstray') (hstray r hr)

/-- A request without any details. -/
def bareRequest (topic : StdString) (h : topic ∈ managementTopics) : Request Unit Int where
  toArrival := .agreeable topic "\x7b\"reqId\":\"1\"\x7d".toList
  members := [("reqId".toList, .stringValue "1".toList)]
  reqId := "1".toList
  management := h
  parses := Reader.parse_of_readValue (by decide : 2 ≤ Reader.stackLimit) rfl
  hasReqId := rfl

/-- The outcome of a request to a client with one handler is that of the handler. -/
theorem receive_bareRequest {topic : StdString} (htopic : topic ∈ managementTopics)
    (h : Handler Int) : ((receive [bareRequest topic htopic]).exec (single topic h)).1 =
      ((Handler.messageArrived false false 0 ((Arrival.agreeable topic []).hooks 0) topic
        (.objectValue [("reqId".toList, .stringValue "1".toList)])).exec (h, [])).1.map
          fun _ => ⟨⟩ := by
  let r := bareRequest topic htopic
  have hrange : (single topic h).equalRange topic = [()] := by simp [equalRange, single]
  have hcalls : (single topic h).calls r.toArrival = [((), r.hooks 0)] := by
    change ((single topic h).equalRange topic).mapIdx _ = _
    rw [hrange]
    rfl
  have hne : (single topic h).equalRange r.topic ≠ [] := by
    intro hnil
    cases hrange.symm.trans hnil
  rw [receive, List.forM_cons, List.forM_nil, bind_pure_unit]
  change ((messageArrived false r.toArrival).exec _).1 = _
  rw [exec_messageArrived_of_handlers hne, hcalls, List.forM_cons, List.forM_nil, bind_pure_unit,
    exec_pass_of_some r.parses]
  rfl

/-- An observation of the firmware gets its reply. -/
theorem one_reply_each_observation : ∃ t,
    (receive [bareRequest serverObserveTopic (by decide)]).exec
        (single serverObserveTopic (.firmware .new)) = (.ok ⟨⟩, t) ∧
      t.replies.map some = [some (Response.reply "1".toList ⟨200, []⟩)] := by
  have hok : ((receive [bareRequest serverObserveTopic (by decide)]).exec
      (single serverObserveTopic (.firmware .new))).1 = .ok ⟨⟩ := receive_bareRequest _ _
  have hreplies := one_reply_each_iff (single serverObserveTopic (.firmware .new))
    [bareRequest serverObserveTopic (by decide)]
    ⟨List.nodup_singleton _, fun topic i hmem => by
      cases List.mem_singleton.mp hmem
      exact List.mem_of_elem_eq_true rfl⟩
    (fun r hr k => List.mem_singleton.mp hr ▸ Arrival.agreeable_nonNull _ _ k)
    (fun e he => by
      cases hok.symm.trans he)
  apply hreplies.mpr
  intro r hr hstray
  cases List.mem_singleton.mp hr
  obtain ⟨-, i, -, hrole⟩ := hstray
  cases hrole

/-- An attribute handler on the topic of the observations has no value to end with. -/
theorem one_reply_each_fails : ¬ ∀ (s : Callback Unit Int) (requests : List (Request Unit Int)),
    s.Registered → (∀ r ∈ requests, ∀ k, (r.hooks k).NonNull) →
    (∀ e, ((receive requests).exec s).1 = .error e → ¬ e.Thrown) →
    ∃ t, (receive requests).exec s = (.ok ⟨⟩, t) ∧
      t.replies.map some = s.replies.map some ++ requests.flatMap s.owed := by
  intro h
  have hexec : ((receive [bareRequest serverObserveTopic (by decide)]).exec
      (single serverObserveTopic (.devAttribute []))).1 = .error .missingReturn :=
    receive_bareRequest _ _
  obtain ⟨t, hok, -⟩ := h (single serverObserveTopic (.devAttribute []))
    [bareRequest serverObserveTopic (by decide)]
    ⟨List.nodup_singleton _, fun topic i hmem => trivial⟩
    (fun r hr k => List.mem_singleton.mp hr ▸ Arrival.agreeable_nonNull _ _ k)
    (fun e he => by
      cases hexec.symm.trans he
      exact id)
  rw [hok] at hexec
  cases hexec

end Callback
