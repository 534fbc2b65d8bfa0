import WatsonIotp.Client.Command
import WatsonIotp.Handler.Accepts
import Mathlib.Logic.Function.Basic

/-!
# Dispatch of inbound messages

`IOTF_Callback::message_arrived` passes a message to every handler registered on
its topic, in the order of registration, and puts the replies that it gets back on
the client's queue. The payload is parsed anew for each handler. A message that no
handler is registered for is parsed as a command instead.

Handlers are objects of four classes, reached through pointers: the same one may
be registered on several topics.
-/

open Json

/-- A handler, with what its messages change of it. -/
inductive Handler (D : Type) where
  | response (mResponseMessages : ResponseHandler.ResponseMessages D)
  | firmware (s : FirmwareHandler D)
  | action
  | devAttribute (locations : List (DeviceLocation D))

/-- The answers of a derived class to one call. -/
structure Hooks (D : Type) where
  firmware : FirmwareHooks D
  action : ActionHooks

/-- The hooks return responses, not null pointers. -/
structure Hooks.NonNull (hooks : Hooks D) : Prop where
  firmware : hooks.firmware.NonNull
  action : hooks.action.NonNull

/-- A message and what it finds: the answers of the hooks, one for each handler that
it is passed to, the handlers that have their `mClient` set, and the clock. -/
structure Arrival (ι D : Type) where
  topic : StdString
  payload : StdString
  hooks : Nat → Hooks D
  mClient : ι → Bool
  now : Int

variable {ι D : Type}

namespace Handler

variable [CxxDouble D]

/-- The virtual `message_arrived` on a JSON payload, with the client's queue. -/
def messageArrived (terminating mClient : Bool) (now : Int) (hooks : Hooks D) (topic : StdString)
    (jsonPayload : Value D) :
    Proc (Handler D × List (ReplyMessage D)) Fault (Option (ReplyMessage D)) := do
  match (← get).1 with
  | .response m =>
      Proc.zoom (fun _ => m) (fun m s => (.response m, s.2))
        (ResponseHandler.messageArrived jsonPayload)
  | .firmware h =>
      Proc.zoom (fun _ => h) (fun h s => (.firmware h, s.2))
        (some <$> FirmwareHandler.messageArrived terminating hooks.firmware topic jsonPayload)
  | .action =>
      Proc.zoom (·.2) (fun replies s => (s.1, replies))
        (ActionHandler.messageArrived mClient hooks.action topic jsonPayload)
  | .devAttribute locations =>
      Proc.zoom (fun _ => locations) (fun locations s => (.devAttribute locations, s.2))
        (AttributeHandler.messageArrived now topic jsonPayload)

/-- The virtual `message_arrived` on a payload that the callback could not parse. -/
def textArrived (terminating mClient : Bool) (hooks : Hooks D) (topic payload : StdString) :
    Proc (Handler D × List (ReplyMessage D)) Fault (Option (ReplyMessage D)) := do
  match (← get).1 with
  | .response m =>
      Proc.zoom (fun _ => m) (fun m s => (.response m, s.2))
        (ResponseHandler.textArrived payload)
  | .firmware h =>
      Proc.zoom (fun _ => h) (fun h s => (.firmware h, s.2))
        (FirmwareHandler.textArrived terminating hooks.firmware topic payload)
  | .action =>
      Proc.zoom (·.2) (fun replies s => (s.1, replies))
        (ActionHandler.textArrived mClient hooks.action topic payload)
  | .devAttribute locations =>
      Proc.zoom (fun _ => locations) (fun locations s => (.devAttribute locations, s.2))
        AttributeHandler.textArrived

end Handler

/-- `IOTF_Callback`, with the handlers that it reaches and the queue of its client. -/
structure Callback (ι D : Type) where
  mArrivedMessages : Nat
  /-- The multimap, in the order of insertion. -/
  mHandlers : List (StdString × ι)
  /-- Whether `user_callback` is set. -/
  userCallback : Bool
  handler : ι → Handler D
  replies : List (ReplyMessage D)
  /-- The commands passed to `processCommand` so far. -/
  commands : List Command

namespace Callback

/-- `mHandlers.equal_range(topic)`. -/
def equalRange (s : Callback ι D) (topic : StdString) : List ι :=
  (s.mHandlers.filter (·.1 = topic)).map Prod.snd

/-- The handlers that a message is passed to, with what their hooks will answer. -/
def calls (s : Callback ι D) (m : Arrival ι D) : List (ι × Hooks D) :=
  (s.equalRange m.topic).mapIdx fun k i => (i, m.hooks k)

variable [DecidableEq ι]

/-- `check_subscription(topic, handler)`. -/
def checkSubscription (s : Callback ι D) (topic : StdString) (i : ι) : Bool :=
  s.mHandlers.any fun p => p.1 = topic ∧ p.2 = i

/-- Run a procedure on a handler and the queue. -/
def onHandler {α : Type} (i : ι) (x : Proc (Handler D × List (ReplyMessage D)) Fault α) :
    Proc (Callback ι D) Fault α :=
  Proc.zoom (fun s => (s.handler i, s.replies))
    (fun p s => { s with handler := Function.update s.handler i p.1, replies := p.2 }) x

/-- `mClient->IOTF_send_reply(reply)`, if there is a reply. -/
def enqueue (reply : Option (ReplyMessage D)) : Proc (Callback ι D) Fault Unit :=
  match reply with
  | some reply => Proc.zoom replies (fun replies s => { s with replies }) (sendReply reply)
  | none => return

/-- `processCommand` on the command that is parsed from the topic. -/
def processCommand (topic payload : StdString) : Proc (Callback ι D) Fault Unit := do
  let cmd ← Proc.ofOption (Command.parse topic payload) .outOfRange
  modify fun s => { s with commands := s.commands ++ [cmd] }

variable [CxxDouble D]

/-- One pass of the loop over the handlers of a topic. -/
def pass (terminating : Bool) (m : Arrival ι D) (call : ι × Hooks D) :
    Proc (Callback ι D) Fault Unit := do
  let jsonPayload ← Proc.ofExcept .json (Reader.parse m.payload)
  let reply ← onHandler call.1 <|
    match jsonPayload with
    | some v => Handler.messageArrived terminating (m.mClient call.1) m.now call.2 m.topic v
    | none => Handler.textArrived terminating (m.mClient call.1) call.2 m.topic m.payload
  enqueue reply

/-- One more message has arrived. -/
def counted (s : Callback ι D) : Callback ι D :=
  { s with mArrivedMessages := s.mArrivedMessages + 1 }

/-- `message_arrived`. -/
def messageArrived (terminating : Bool) (m : Arrival ι D) : Proc (Callback ι D) Fault Unit := do
  modify counted
  let s ← get
  forM (s.calls m) (pass terminating m)
  if s.equalRange m.topic = [] ∧ s.userCallback = true then processCommand m.topic m.payload

end Callback

/-! ### What a handler does with a message -/

/-- What a handler is, apart from what messages change of it. -/
inductive Role (D : Type) where
  | response
  | firmware (fwinfo : FirmwareInfo D)
  | action
  | devAttribute

namespace Handler

def role : Handler D → Role D
  | .response _ => .response
  | .firmware h => .firmware h.fwinfo
  | .action => .action
  | .devAttribute _ => .devAttribute

variable [CxxDouble D] {terminating mClient : Bool} {now : Int} {hooks : Hooks D}
  {topic payload : StdString} {v : Value D}

theorem exec_response (m : ResponseHandler.ResponseMessages D)
    (replies : List (ReplyMessage D)) :
    (messageArrived terminating mClient now hooks topic v).exec (.response m, replies) =
      (((ResponseHandler.messageArrived v).exec m).1,
        .response ((ResponseHandler.messageArrived v).exec m).2, replies) := rfl

theorem exec_firmware (s : FirmwareHandler D) (replies : List (ReplyMessage D)) :
    (messageArrived terminating mClient now hooks topic v).exec (.firmware s, replies) =
      (((FirmwareHandler.messageArrived terminating hooks.firmware topic v).exec s).1.map some,
        .firmware ((FirmwareHandler.messageArrived terminating hooks.firmware topic v).exec s).2,
        replies) := by
  rw [messageArrived, Proc.exec_bind_ok (Proc.exec_get _)]
  change (Proc.zoom _ _ _).exec _ = _
  rw [Proc.exec_zoom, Proc.exec_map]

theorem exec_action (replies : List (ReplyMessage D)) :
    (messageArrived terminating mClient now hooks topic v).exec (.action, replies) =
      (((ActionHandler.messageArrived mClient hooks.action topic v).exec replies).1, .action,
        ((ActionHandler.messageArrived mClient hooks.action topic v).exec replies).2) := rfl

theorem exec_devAttribute (locations : List (DeviceLocation D))
    (replies : List (ReplyMessage D)) :
    (messageArrived terminating mClient now hooks topic v).exec (.devAttribute locations, replies) =
      (((AttributeHandler.messageArrived now topic v).exec locations).1,
        .devAttribute ((AttributeHandler.messageArrived now topic v).exec locations).2,
        replies) := rfl

/-- Messages change neither the class of a handler nor what it tells its hooks. -/
theorem role_messageArrived (h : Handler D) (replies : List (ReplyMessage D)) :
    ((messageArrived terminating mClient now hooks topic v).exec (h, replies)).2.1.role =
      h.role := by
  cases h with
  | response m => rw [exec_response]; rfl
  | firmware s =>
      rw [exec_firmware, FirmwareHandler.exec_messageArrived]
      exact congrArg Role.firmware (FirmwareHandler.outcome_fwinfo _ _ _ _ _)
  | action => rw [exec_action]
  | devAttribute locations => rw [exec_devAttribute]; rfl

/-- On a payload that is no JSON text, the attribute handler ends without a value. -/
theorem exec_textArrived (hparse : Reader.parse (D := D) payload = .ok none) (h : Handler D)
    (replies : List (ReplyMessage D)) :
    (textArrived terminating mClient hooks topic payload).exec (h, replies) =
      (match h.role with | .devAttribute => .error .missingReturn | _ => .ok none, h, replies) := by
  rw [textArrived, Proc.exec_bind_ok (Proc.exec_get _)]
  cases h with
  | response m =>
      rw [Proc.exec_zoom, ResponseHandler.exec_textArrived_of_none hparse]
      rfl
  | firmware s =>
      rw [Proc.exec_zoom, FirmwareHandler.exec_textArrived_of_none hparse]
      rfl
  | action =>
      rw [Proc.exec_zoom, ActionHandler.exec_textArrived_of_none hparse]
      rfl
  | devAttribute locations => rfl

end Handler

namespace Callback

/-! ### What one pass does -/

theorem exec_enqueue (reply : Option (ReplyMessage D)) (s : Callback ι D) :
    (enqueue reply).exec s = (.ok ⟨⟩, { s with replies := s.replies ++ reply.toList }) := by
  cases reply with
  | none => simp [enqueue]
  | some reply => rfl

theorem exec_processCommand (topic payload : StdString) (s : Callback ι D) :
    (processCommand topic payload).exec s =
      match Command.parse topic payload with
      | some cmd => (.ok ⟨⟩, { s with commands := s.commands ++ [cmd] })
      | none => (.error .outOfRange, s) := by
  rw [processCommand]
  cases Command.parse topic payload <;> rfl

variable [DecidableEq ι] [CxxDouble D] {terminating : Bool} {m : Arrival ι D} {call : ι × Hooks D}
  {s t : Callback ι D}

theorem exec_pass_of_thrown {e : Error} (hparse : Reader.parse (D := D) m.payload = .error e) :
    (pass terminating m call).exec s = (.error (.json e), s) := by
  rw [pass, hparse]
  rfl

theorem exec_pass_of_none (hparse : Reader.parse (D := D) m.payload = .ok none) :
    (pass terminating m call).exec s =
      (match (s.handler call.1).role with
        | .devAttribute => .error .missingReturn
        | _ => .ok ⟨⟩, s) := by
  have hhandler : (onHandler call.1 (Handler.textArrived terminating (m.mClient call.1) call.2
      m.topic m.payload)).exec s =
        (match (s.handler call.1).role with
          | .devAttribute => .error .missingReturn
          | _ => .ok none, s) := by
    rw [onHandler, Proc.exec_zoom, Handler.exec_textArrived hparse, Function.update_eq_self]
  rw [pass, hparse, Proc.exec_bind_ok (Proc.exec_ofExcept _ _ _), Proc.exec_bind, hhandler]
  cases (s.handler call.1).role <;> rfl

theorem exec_pass_of_some {v : Value D} (hparse : Reader.parse m.payload = .ok (some v)) :
    (pass terminating m call).exec s =
      let run := (Handler.messageArrived terminating (m.mClient call.1) m.now call.2 m.topic v).exec
        (s.handler call.1, s.replies)
      (run.1.map fun _ => ⟨⟩, { s with
        handler := Function.update s.handler call.1 run.2.1
        replies := run.2.2 ++ run.1.toOption.join.toList }) := by
  rw [pass, hparse, Proc.exec_bind_ok (Proc.exec_ofExcept _ _ _), Proc.exec_bind, onHandler,
    Proc.exec_zoom]
  dsimp only
  cases ((Handler.messageArrived terminating (m.mClient call.1) m.now call.2 m.topic v).exec
    (s.handler call.1, s.replies)).1 with
  | error e =>
      simp [Except.map, Except.toOption]
  | ok reply => exact exec_enqueue _ _

/-- No handler changes its role in a pass. -/
theorem role_pass {v : Value D}
    (hparse : Reader.parse m.payload = .ok (some v)) (i : ι) :
    (((pass terminating m call).exec s).2.handler i).role = (s.handler i).role := by
  rw [exec_pass_of_some hparse]
  by_cases hi : i = call.1
  · subst hi
    simp only [Function.update_self, Handler.role_messageArrived]
  · simp only [Function.update_of_ne hi]

/-- A pass returns as the handler does, with the handler's reply on the queue. -/
theorem pass_ok {v : Value D} (hparse : Reader.parse m.payload = .ok (some v))
    (h : (pass terminating m call).exec s = (.ok ⟨⟩, t)) :
    let run := (Handler.messageArrived terminating (m.mClient call.1) m.now call.2 m.topic v).exec
      (s.handler call.1, s.replies)
    t.mHandlers = s.mHandlers ∧
      ∃ reply, run.1 = .ok reply ∧ t.replies = run.2.2 ++ reply.toList := by
  intro run
  have hexec : (pass terminating m call).exec s = (run.1.map fun _ => ⟨⟩, { s with
      handler := Function.update s.handler call.1 run.2.1
      replies := run.2.2 ++ run.1.toOption.join.toList }) := exec_pass_of_some hparse
  rw [h] at hexec
  cases hrun : run.1 with
  | error e =>
      rw [hrun] at hexec
      cases hexec
  | ok reply =>
      rw [hrun] at hexec
      cases hexec
      exact ⟨rfl, reply, rfl, rfl⟩

/-- A pass throws as the handler does. -/
theorem pass_error {v : Value D} (hparse : Reader.parse m.payload = .ok (some v)) {e : Fault}
    (h : (pass terminating m call).exec s = (.error e, t)) :
    ((Handler.messageArrived terminating (m.mClient call.1) m.now call.2 m.topic v).exec
      (s.handler call.1, s.replies)).1 = .error e := by
  have hexec := congrArg Prod.fst h
  rw [exec_pass_of_some hparse] at hexec
  cases hrun : ((Handler.messageArrived terminating (m.mClient call.1) m.now call.2 m.topic v).exec
      (s.handler call.1, s.replies)).1 with
  | error e' =>
      simp only [hrun] at hexec
      cases hexec
      rfl
  | ok reply =>
      simp only [hrun] at hexec
      cases hexec

/-- A pass changes handlers and the queue, and nothing else. -/
theorem exists_pass_eq (s : Callback ι D) : ∃ handler replies,
    ((pass terminating m call).exec s).2 = { s with handler := handler, replies := replies } := by
  cases hparse : Reader.parse (D := D) m.payload with
  | error e => exact ⟨s.handler, s.replies, by rw [exec_pass_of_thrown hparse]⟩
  | ok v =>
      cases v with
      | none => exact ⟨s.handler, s.replies, by rw [exec_pass_of_none hparse]⟩
      | some v => exact ⟨_, _, by rw [exec_pass_of_some hparse]⟩

/-! ### What a message does -/

omit [DecidableEq ι] [CxxDouble D] in
theorem mem_equalRange {topic : StdString} {i : ι} :
    i ∈ s.equalRange topic ↔ (topic, i) ∈ s.mHandlers := by
  simp only [equalRange, List.mem_map, List.mem_filter, decide_eq_true_eq]
  constructor
  · rintro ⟨⟨_, i⟩, ⟨hmem, rfl⟩, rfl⟩
    exact hmem
  · intro hmem
    exact ⟨(topic, i), ⟨hmem, rfl⟩, rfl⟩

omit [CxxDouble D] in
theorem checkSubscription_iff {topic : StdString} {i : ι} :
    s.checkSubscription topic i = true ↔ (topic, i) ∈ s.mHandlers := by
  simp only [checkSubscription, List.any_eq_true, decide_eq_true_eq]
  constructor
  · rintro ⟨⟨_, i⟩, hmem, rfl, rfl⟩
    exact hmem
  · exact fun hmem => ⟨(topic, i), hmem, rfl, rfl⟩

omit [DecidableEq ι] [CxxDouble D] in
/-- A call goes to a handler of the topic, with hooks that the message finds. -/
theorem of_mem_calls (h : call ∈ s.calls m) :
    (m.topic, call.1) ∈ s.mHandlers ∧ ∃ k, call.2 = m.hooks k := by
  obtain ⟨k, hk, rfl⟩ := List.mem_mapIdx.mp h
  exact ⟨mem_equalRange.mp (List.getElem_mem hk), k, rfl⟩

omit [DecidableEq ι] [CxxDouble D] in
theorem exists_mem_calls {i : ι} (h : (m.topic, i) ∈ s.mHandlers) :
    ∃ call ∈ s.calls m, call.1 = i := by
  obtain ⟨k, hk, rfl⟩ := List.mem_iff_getElem.mp (mem_equalRange.mpr h)
  exact ⟨_, List.mem_mapIdx.mpr ⟨k, hk, rfl⟩, rfl⟩

omit [DecidableEq ι] [CxxDouble D] in
theorem calls_eq_nil_iff : s.calls m = [] ↔ s.equalRange m.topic = [] := by
  rw [calls, List.mapIdx_eq_nil_iff]

/-- On a topic with handlers, a message comes to the passes over them. -/
theorem exec_messageArrived_of_handlers (hrange : s.equalRange m.topic ≠ []) :
    (messageArrived terminating m).exec s =
      (forM (s.calls m) (pass terminating m)).exec s.counted := by
  have hexec : (messageArrived terminating m).exec s = (do
      forM (s.calls m) (pass terminating m)
      if s.equalRange m.topic = [] ∧ s.userCallback = true then
        processCommand m.topic m.payload).exec s.counted := rfl
  rw [hexec, if_neg fun h => hrange h.1, bind_pure_unit]

/-- On a topic without handlers, it comes to a command. -/
theorem exec_messageArrived_of_no_handler (hrange : s.equalRange m.topic = []) :
    (messageArrived terminating m).exec s =
      if s.userCallback = true then (processCommand m.topic m.payload).exec s.counted
      else (.ok ⟨⟩, s.counted) := by
  have hexec : (messageArrived terminating m).exec s = (do
      forM (s.calls m) (pass terminating m)
      if s.equalRange m.topic = [] ∧ s.userCallback = true then
        processCommand m.topic m.payload).exec s.counted := rfl
  rw [hexec, calls_eq_nil_iff.mpr hrange, List.forM_nil, pure_bind]
  by_cases huser : s.userCallback = true
  · rw [if_pos ⟨hrange, huser⟩, if_pos huser]
  · rw [if_neg fun h => huser h.2, if_neg huser]
    rfl

/-- A message changes handlers, the queue and the commands, the last of these only where
no handler is. -/
theorem exists_messageArrived_eq (terminating : Bool) (s : Callback ι D) (m : Arrival ι D) :
    ∃ handler replies commands, ((messageArrived terminating m).exec s).2 =
        { s.counted with handler := handler, replies := replies, commands := commands } ∧
      (s.equalRange m.topic ≠ [] → commands = s.commands) := by
  by_cases hrange : s.equalRange m.topic = []
  · rw [exec_messageArrived_of_no_handler hrange]
    split
    · rw [exec_processCommand]
      cases Command.parse m.topic m.payload with
      | none => exact ⟨s.handler, s.replies, s.commands, rfl, fun _ => rfl⟩
      | some cmd => exact ⟨s.handler, s.replies, _, rfl, fun h => absurd hrange h⟩
    · exact ⟨s.handler, s.replies, s.commands, rfl, fun _ => rfl⟩
  · rw [exec_messageArrived_of_handlers hrange]
    have hpasses : ∃ handler replies,
        ((forM (s.calls m) (pass terminating m)).exec s.counted).2 =
          { s.counted with handler := handler, replies := replies } := by
      refine Proc.forM_related (s := s.counted)
        (R := fun s t => ∃ handler replies, t = { s with handler := handler, replies := replies })
        ?_ ?_ ?_
      · exact fun s => ⟨s.handler, s.replies, rfl⟩
      · rintro s _ _ ⟨_, _, rfl⟩ ⟨handler, replies, rfl⟩
        exact ⟨handler, replies, rfl⟩
      · exact fun _ _ _ u _ _ => exists_pass_eq u
    obtain ⟨handler, replies, heq⟩ := hpasses
    exact ⟨handler, replies, s.commands, heq, fun _ => rfl⟩

end Callback

/-! ### A client with one handler -/

/-- A message that finds hooks without complaints. -/
def Arrival.agreeable (topic payload : StdString) : Arrival Unit Int where
  topic := topic
  payload := payload
  hooks _ :=
    { firmware := ⟨fun _ => some ⟨204, []⟩, fun _ => some ⟨200, []⟩, fun _ => some ⟨202, []⟩,
        fun _ => some ⟨202, []⟩⟩
      action := ⟨some ⟨202, []⟩, some ⟨202, []⟩⟩ }
  mClient _ := false
  now := 0

theorem Arrival.agreeable_nonNull (topic payload : StdString) (k : Nat) :
    ((Arrival.agreeable topic payload).hooks k).NonNull :=
  ⟨fun hook _ => by cases hook <;> rfl, rfl, rfl⟩

/-- A client with a handler that is registered on one topic. -/
def Callback.single (topic : StdString) (h : Handler Int) : Callback Unit Int where
  mArrivedMessages := 0
  mHandlers := [(topic, ())]
  userCallback := false
  handler _ := h
  replies := []
  commands := []
