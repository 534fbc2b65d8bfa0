import WatsonIotp.Client.Replies
import WatsonIotp.Json.Accepted

/-!
# Messages on the wire

What the client puts on the wire is text. A reply goes out under the id of its request, and
the id that the platform reads from the text is, byte for byte, the one that it sent.
-/

open Json

variable {ι D : Type} [CxxDouble D]

/-- What the client hands to `publish`. -/
structure Publication where
  topic : StdString
  payload : StdString
  qos : Int
  retained : Bool

/-- The call of `publish` in `_send_reply`. -/
def ReplyMessage.publication (reply : ReplyMessage D) : Publication :=
  ⟨reply.topic, jsonValueToString reply.payload, reply.qos, false⟩

/-- The request id that a receiver reads from a text. -/
def readReqId (D : Type) [CxxDouble D] (text : StdString) : Option StdString :=
  match (Reader.parse text : Except Error (Option (Value D))) with
  | .ok (some v) => (reqId v).toOption
  | _ => none

/-- `int` holds the code. -/
def Response.IntCode (rsp : Response) : Prop := minInt ≤ rsp.rc ∧ rsp.rc ≤ maxInt

namespace Response

variable {rsp : Response} (hcode : rsp.IntCode) (r : StdString)

include hcode

omit [CxxDouble D] in
theorem smallestType_rc : SmallestType (.intValue rsp.rc : Value D) := by
  obtain ⟨hlow, hhigh⟩ := hcode
  refine ⟨?_, hhigh⟩
  unfold minInt at hlow
  omega

theorem wellFormed_reply : WellFormed (rsp.reply r : ReplyMessage D).payload := by
  have hrc := (smallestType_rc (D := D) hcode).wellFormed
  apply WellFormed.objectValue
  · apply List.pairwise_map.mp
    split
    · change (["rc".toList, "reqId".toList] : List StdString).Pairwise (· < ·)
      decide
    · change (["message".toList, "rc".toList, "reqId".toList] : List StdString).Pairwise (· < ·)
      decide
  · have htail : ∀ m ∈ [("rc".toList, Value.intValue rsp.rc), ("reqId".toList, .stringValue r)],
        WellFormed (D := D) m.2 :=
      List.forall_mem_cons.mpr ⟨hrc, List.forall_mem_singleton.mpr (.stringValue r)⟩
    split
    · exact htail
    · exact List.forall_mem_cons.mpr ⟨.stringValue _, htail⟩

/-- No reply is changed on its way. -/
theorem reread_reply : reread (rsp.reply r : ReplyMessage D).payload =
    (rsp.reply r : ReplyMessage D).payload := by
  have hrc := (smallestType_rc (D := D) hcode).reread_eq
  unfold reply
  rw [reread, rereadMembers_eq_map]
  split
  · exact congrArg (fun rc : Value D => Value.objectValue
      [("rc".toList, rc), ("reqId".toList, .stringValue r)]) hrc
  · exact congrArg (fun rc : Value D => Value.objectValue
      [("message".toList, .stringValue rsp.message), ("rc".toList, rc),
        ("reqId".toList, .stringValue r)]) hrc

/-- The text of a reply is read as its payload. -/
theorem parse_reply : Reader.parse (rsp.reply r : ReplyMessage D).publication.payload =
    .ok (some (rsp.reply r : ReplyMessage D).payload) := by
  have hnesting : nesting (rsp.reply r : ReplyMessage D).payload = 2 := by
    unfold reply
    split <;> rfl
  refine (parse_jsonValueToString (wellFormed_reply hcode r)).trans ?_
  rw [if_pos (hnesting ▸ by decide), reread_reply hcode]

/-- The receiver of a reply finds the id of its request. -/
theorem readReqId_reply :
    readReqId D (rsp.reply r : ReplyMessage D).publication.payload = some r := by
  have hid : reqId (rsp.reply r : ReplyMessage D).payload = .ok r := by
    unfold reply
    split <;> rfl
  rw [readReqId, parse_reply hcode]
  simp only [hid]
  rfl

end Response

/-- The hooks answer with codes that are of type `int`. -/
structure Hooks.IntCodes (hooks : Hooks D) : Prop where
  firmware : ∀ hook p rsp, hooks.firmware.answer hook p = some rsp → rsp.IntCode
  action : ∀ topic rsp, ActionHandler.answer hooks.action topic = some rsp → rsp.IntCode

theorem Arrival.agreeable_intCodes (topic payload : StdString) (k : Nat) :
    ((Arrival.agreeable topic payload).hooks k).IntCodes where
  firmware hook p rsp h := by
    cases hook <;> cases h <;> exact ⟨by decide, by decide⟩
  action topic' rsp h := by
    unfold ActionHandler.answer at h
    split_ifs at h <;> cases h <;> exact ⟨by decide, by decide⟩

/-- What a handler owes is the reply with a response to the request of that id. -/
theorem Handler.reply_of_owed {hooks : Hooks D} (hcodes : hooks.IntCodes) {topic : StdString}
    {v : Value D} {r : StdString} {h : Handler D} {reply : ReplyMessage D}
    (hmem : some reply ∈ h.owed hooks topic v r) :
    ∃ rsp : Response, rsp.IntCode ∧ reply = rsp.reply r := by
  cases h with
  | firmware s =>
      obtain ⟨rsp, hrsp, rfl⟩ := Option.map_eq_some_iff.mp (List.mem_singleton.mp hmem).symm
      refine ⟨rsp, ?_, rfl⟩
      unfold FirmwareHandler.responseTo at hrsp
      split_ifs at hrsp
      · cases hrsp
        exact ⟨by decide, by decide⟩
      · obtain ⟨hook, -, hinfo⟩ := Option.bind_eq_some_iff.mp hrsp
        obtain ⟨p, -, hanswer⟩ := Option.bind_eq_some_iff.mp hinfo
        exact hcodes.firmware hook p rsp hanswer
  | action =>
      obtain ⟨rsp, hrsp, rfl⟩ := Option.map_eq_some_iff.mp (List.mem_singleton.mp hmem).symm
      exact ⟨rsp, hcodes.action topic rsp hrsp, rfl⟩
  | response m => cases hmem
  | devAttribute locations => cases hmem

namespace Callback

theorem reply_of_owed {s : Callback ι D} {r : Request ι D} (hcodes : ∀ k, (r.hooks k).IntCodes)
    {reply : ReplyMessage D} (hmem : some reply ∈ s.owed r) :
    ∃ rsp : Response, rsp.IntCode ∧ reply = rsp.reply r.reqId := by
  obtain ⟨call, hcall, howed⟩ := List.mem_flatMap.mp hmem
  obtain ⟨-, k, hk⟩ := of_mem_calls hcall
  exact Handler.reply_of_owed (hk ▸ hcodes k) howed

/-- However many requests come in, the texts of the replies that they leave on the queue are
read as these replies, and the ids in them are those of the requests, each as often as
handlers owe it a reply and in the order of the requests. -/
theorem replies_readable [DecidableEq ι] {s t : Callback ι D} {requests : List (Request ι D)}
    (hcodes : ∀ r ∈ requests, ∀ k, (r.hooks k).IntCodes)
    (h : (receive requests).exec s = (.ok ⟨⟩, t)) :
    ∃ new : List (ReplyMessage D), t.replies = s.replies ++ new ∧
      (∀ reply ∈ new, Reader.parse reply.publication.payload = .ok (some reply.payload)) ∧
      new.map (fun reply => readReqId D reply.publication.payload) =
        requests.flatMap fun r => (s.owed r).map fun _ => some r.reqId := by
  have hanswers := (Proc.forM_ok (fun done r t u hdone h => Received.messageArrived hdone h) _
    (received_nil s) h).1.replies
  obtain ⟨old, new, hreplies, hold, hnew⟩ := List.map_eq_append_iff.mp hanswers
  obtain rfl : old = s.replies := List.map_injective_iff.mpr (Option.some_injective _) hold
  -- every reply that is owed is on the queue, so none of them is missing
  have hreply : ∀ r ∈ requests, ∀ o ∈ s.owed r,
      ∃ rsp : Response, rsp.IntCode ∧ o = some (rsp.reply r.reqId) := by
    intro r hr o ho
    have hmem : o ∈ new.map some := hnew ▸ List.mem_flatMap.mpr ⟨r, hr, ho⟩
    obtain ⟨reply, -, rfl⟩ := List.mem_map.mp hmem
    obtain ⟨rsp, hcode, rfl⟩ := reply_of_owed (hcodes r hr) ho
    exact ⟨rsp, hcode, rfl⟩
  refine ⟨new, hreplies, fun reply hmem => ?_, ?_⟩
  · have howed : some reply ∈ requests.flatMap s.owed := hnew ▸ List.mem_map_of_mem hmem
    obtain ⟨r, hr, ho⟩ := List.mem_flatMap.mp howed
    obtain ⟨rsp, hcode, heq⟩ := hreply r hr _ ho
    rw [Option.some.inj heq]
    exact Response.parse_reply hcode r.reqId
  · let read : Option (ReplyMessage D) → Option StdString :=
      fun o => o.bind fun reply => readReqId D reply.publication.payload
    have hread : new.map (fun reply => readReqId D reply.publication.payload) =
        (new.map some).map read := by
      rw [List.map_map]
      rfl
    rw [hread, hnew, List.map_flatMap]
    apply List.flatMap_congr
    intro r hr
    apply List.map_congr_left
    intro o ho
    obtain ⟨rsp, hcode, rfl⟩ := hreply r hr o ho
    exact Response.readReqId_reply hcode r.reqId

end Callback

/-- The platform gets its own id back from an observation. -/
theorem replies_readable_observation :
    ∃ new : List (ReplyMessage Int),
      (∀ reply ∈ new, Reader.parse reply.publication.payload = .ok (some reply.payload)) ∧
      new.map (fun reply => readReqId Int reply.publication.payload) = [some "1".toList] := by
  have hok : ((Callback.receive [Callback.bareRequest serverObserveTopic (by decide)]).exec
      (.single serverObserveTopic (.firmware .new))).1 = .ok ⟨⟩ :=
    Callback.receive_bareRequest _ _
  cases hexec : (Callback.receive [Callback.bareRequest serverObserveTopic (by decide)]).exec
      (.single serverObserveTopic (.firmware .new)) with
  | mk outcome t =>
      rw [hexec] at hok
      cases hok
      obtain ⟨new, -, hparse, hids⟩ := Callback.replies_readable
        (fun r hr k => List.mem_singleton.mp hr ▸ Arrival.agreeable_intCodes _ _ k) hexec
      exact ⟨new, hparse, hids⟩

/-! ### Requests of the client -/

/-- The payload that `send_message` forms. -/
def requestPayload (data : Value D) (reqId : StdString) : Value D :=
  let payload := if data.isNull = false then Value.nullValue.assign "d".toList data else .nullValue
  payload.assign "reqId".toList (.stringValue reqId)

omit [CxxDouble D] in
theorem requestPayload_eq (data : Value D) (r : StdString) : requestPayload data r = .objectValue
    ((if data.isNull then [] else [("d".toList, data)]) ++ [("reqId".toList, .stringValue r)]) := by
  cases data <;> rfl

omit [CxxDouble D] in
theorem nesting_requestPayload (data : Value D) (r : StdString) :
    nesting (requestPayload data r) = 1 + nesting data := by
  have hpos := nesting_pos data
  rw [requestPayload_eq]
  split_ifs with hnull
  · rw [Value.isNull_iff.mp hnull]
    rfl
  · change 1 + max (nesting data) (max 1 0) = 1 + nesting data
    omega

theorem wellFormed_requestPayload {data : Value D} (hdata : WellFormed data) (r : StdString) :
    WellFormed (requestPayload data r) := by
  rw [requestPayload_eq]
  apply WellFormed.objectValue
  · apply List.pairwise_map.mp
    split
    · exact List.pairwise_singleton _ _
    · change (["d".toList, "reqId".toList] : List StdString).Pairwise (· < ·)
      decide
  · split
    · exact List.forall_mem_singleton.mpr (.stringValue r)
    · exact List.forall_mem_cons.mpr ⟨hdata, List.forall_mem_singleton.mpr (.stringValue r)⟩

/-- The platform reads from a request the data and the id under which it has to answer, as long
as one level of nesting is left for the envelope. -/
theorem request_readable {data : Value D} (hdata : WellFormed data) (r : StdString) :
    if nesting data < Reader.stackLimit then
      ∃ v : Value D, Reader.parse (jsonValueToString (requestPayload data r)) = .ok (some v) ∧
        reqId v = .ok r ∧ v.memberOr "d".toList .nullValue = reread data
    else Reader.parse (jsonValueToString (requestPayload data r)) =
      (.error stackError : Except Error (Option (Value D))) := by
  have hparse := parse_jsonValueToString (wellFormed_requestPayload hdata r)
  rw [nesting_requestPayload] at hparse
  split_ifs with hnesting
  · rw [if_pos (by omega)] at hparse
    refine ⟨_, hparse, ?_⟩
    rw [requestPayload_eq, reread, rereadMembers_eq_map]
    split_ifs with hnull
    · rw [Value.isNull_iff.mp hnull]
      exact ⟨rfl, rfl⟩
    · exact ⟨rfl, rfl⟩
  · rw [if_neg (by omega)] at hparse
    exact hparse

theorem request_readable_data :
    ∃ v : Value Int, Reader.parse (jsonValueToString (D := Int)
      (requestPayload (.arrayValue [.booleanValue true]) "7".toList)) = .ok (some v) ∧
        reqId v = .ok "7".toList ∧
          v.memberOr "d".toList .nullValue = .arrayValue [.booleanValue true] := by
  have hdata : WellFormed (D := Int) (.arrayValue [.booleanValue true]) :=
    .arrayValue fun v hv => List.mem_singleton.mp hv ▸ .booleanValue true
  have h := request_readable hdata "7".toList
  rwa [if_pos (by decide)] at h
