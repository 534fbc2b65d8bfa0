import WatsonIotp.Client.Dispatch
import WatsonIotp.Json.Progress

/-!
# Messages that the client survives

Nothing between the broker and the handlers checks a message, so an exception, a
null response or a missing return value ends the callback. `messageArrived_survives_iff`
says of which messages that does not happen: the payload has the shape that each handler on
the topic reads, each handler serves the topic, and no handler starts a thread that
it has started before.
-/

open Json

variable {ι D : Type} [CxxDouble D]

namespace Role

/-- What a handler wants of a JSON message in order to return. -/
def Accepts (topic : StdString) (v : Value D) : Role D → Prop
  | .response => v.HasReqId
  | .firmware _ => FirmwareHandler.Accepts topic v
  | .action => (topic = serverDeviceRebootTopic ∨ topic = serverFactoryResetTopic) ∧ v.HasReqId
  | .devAttribute => topic = serverUpdateTopic ∧ AttributeHandler.Readable v

/-- A message on the topic makes the handler start the thread of a hook. -/
def Starts (hooks : Hooks D) (topic : StdString) (hook : FirmwareHook) : Role D → Prop
  | .firmware p => FirmwareHandler.Starts hooks.firmware topic p hook
  | _ => False

end Role

namespace Handler

omit [CxxDouble D] in
/-- The handler has a joinable thread for the hook. -/
def joinable (hook : FirmwareHook) : Handler D → Bool
  | .firmware h => h.joinable hook
  | _ => false

/-- The handler accepts the message and has joined the threads that it would start. -/
def Accepts (hooks : Hooks D) (topic : StdString) (v : Value D) (h : Handler D) : Prop :=
  h.role.Accepts topic v ∧ ∀ hook, h.role.Starts hooks topic hook → h.joinable hook = false

/-- The hook that the message calls does not answer it with a null pointer. -/
def Answers (hooks : Hooks D) (topic : StdString) (v : Value D) : Handler D → Prop
  | .firmware s => FirmwareHandler.Answers hooks.firmware topic v s
  | .action => ActionHandler.Answers hooks.action topic
  | .response _ | .devAttribute _ => True

variable {mClient : Bool} {now : Int} {hooks : Hooks D} {topic : StdString} {v : Value D}
  {h : Handler D} {replies : List (ReplyMessage D)}

theorem answers_of_nonNull (hnull : hooks.NonNull) : h.Answers hooks topic v := by
  cases h with
  | firmware s => exact fun hook p _ _ => hnull.firmware hook p
  | action => exact ActionHandler.answers_of_nonNull hnull.action topic
  | response | devAttribute => trivial

/-- What the hooks are told depends on the role of the handler alone. -/
theorem answers_congr {h' : Handler D} (hrole : h'.role = h.role) :
    h'.Answers hooks topic v ↔ h.Answers hooks topic v := by
  cases h' with
  | firmware s' =>
      cases h with
      | firmware s =>
          have hinfo : s'.infoFor topic v = s.infoFor topic v := by
            rw [FirmwareHandler.infoFor, Role.firmware.inj hrole]
            rfl
          simp only [Answers, FirmwareHandler.Answers, hinfo]
      | response | action | devAttribute => cases hrole
  | response | action | devAttribute => cases h <;> first | exact Iff.rfl | cases hrole

theorem messageArrived_returns_iff :
    (messageArrived true mClient now hooks topic v).Returns (h, replies) ↔
      h.Accepts hooks topic v ∧ h.Answers hooks topic v := by
  rw [Proc.Returns]
  cases h with
  | response m =>
      rw [exec_response, Answers, and_true]
      exact ResponseHandler.messageArrived_returns_iff.trans (and_iff_left fun _ h => h.elim).symm
  | firmware s =>
      rw [exec_firmware]
      exact Proc.map_isOk_iff.trans FirmwareHandler.messageArrived_returns_iff
  | action =>
      rw [exec_action]
      apply ActionHandler.messageArrived_returns_iff.trans
      rw [ActionHandler.answer_isSome_iff, reqId_isOk_iff, and_right_comm]
      exact and_congr_left fun _ => (and_iff_left fun _ h => h.elim).symm
  | devAttribute locations =>
      rw [exec_devAttribute, Answers, and_true]
      exact AttributeHandler.messageArrived_returns_iff.trans (and_iff_left fun _ h => h.elim).symm

/-- A message that is returned from leaves a thread behind where it starts one. -/
theorem joinable_messageArrived
    (hreturns : (messageArrived true mClient now hooks topic v).Returns (h, replies))
    (hook : FirmwareHook) :
    ((messageArrived true mClient now hooks topic v).exec (h, replies)).2.1.joinable hook = true ↔
      h.joinable hook = true ∨ h.role.Starts hooks topic hook := by
  cases h with
  | response m => exact (or_iff_left id).symm
  | firmware s =>
      rw [Proc.Returns, exec_firmware] at hreturns
      rw [exec_firmware]
      exact FirmwareHandler.messageArrived_joinable_iff (Proc.map_isOk_iff.mp hreturns) hook
  | action => exact (or_iff_left id).symm
  | devAttribute locations => exact (or_iff_left id).symm

end Handler

namespace Callback

/-- Both calls go to one handler, which starts the same thread in both. -/
def Clash (s : Callback ι D) (m : Arrival ι D) (call call' : ι × Hooks D) : Prop :=
  call.1 = call'.1 ∧ ∃ hook, (s.handler call.1).role.Starts call.2 m.topic hook ∧
    (s.handler call'.1).role.Starts call'.2 m.topic hook

/-- What the handlers of the topic want of the message. -/
def HandlersAccept (s : Callback ι D) (m : Arrival ι D) : Prop :=
  match Reader.parse m.payload with
  | .error _ => False
  | .ok none => ∀ call ∈ s.calls m, (s.handler call.1).role ≠ .devAttribute
  | .ok (some v) =>
      (∀ call ∈ s.calls m, (s.handler call.1).Accepts call.2 m.topic v) ∧
        (s.calls m).Pairwise fun call call' => ¬ s.Clash m call call'

/-- What `message_arrived` wants of a message in order to return. -/
def Accepts (s : Callback ι D) (m : Arrival ι D) : Prop :=
  if s.equalRange m.topic = [] then s.userCallback = true → 4 ≤ m.topic.length
  else s.HandlersAccept m

theorem handlersAccept_iff {s : Callback ι D} {m : Arrival ι D} {v : Value D}
    (hparse : Reader.parse m.payload = .ok (some v)) : s.HandlersAccept m ↔
      (∀ call ∈ s.calls m, (s.handler call.1).Accepts call.2 m.topic v) ∧
        (s.calls m).Pairwise fun call call' => ¬ s.Clash m call call' := by
  rw [HandlersAccept, hparse]

variable [DecidableEq ι] {s t : Callback ι D} {m : Arrival ι D} {call : ι × Hooks D}

theorem pass_returns_iff {v : Value D} (hparse : Reader.parse m.payload = .ok (some v)) :
    (pass true m call).Returns s ↔ (s.handler call.1).Accepts call.2 m.topic v ∧
      (s.handler call.1).Answers call.2 m.topic v := by
  rw [← Handler.messageArrived_returns_iff, Proc.Returns, exec_pass_of_some hparse]
  exact Proc.map_isOk_iff

theorem joinable_pass_iff {v : Value D} (hparse : Reader.parse m.payload = .ok (some v))
    (hreturns : (pass true m call).Returns s) (i : ι)
    (hook : FirmwareHook) :
    (((pass true m call).exec s).2.handler i).joinable hook = true ↔
      (s.handler i).joinable hook = true ∨
        call.1 = i ∧ (s.handler call.1).role.Starts call.2 m.topic hook := by
  rw [exec_pass_of_some hparse]
  by_cases hi : call.1 = i
  · subst hi
    rw [pass_returns_iff hparse, ← Handler.messageArrived_returns_iff] at hreturns
    simp only [Function.update_self, true_and]
    exact Handler.joinable_messageArrived hreturns hook
  · simp only [Function.update_of_ne (Ne.symm hi), hi, false_and, or_false]

/-- After a pass that returns, a handler accepts what it accepted before, unless that
starts a thread that the pass has started. -/
theorem accepts_pass_iff {v : Value D} (hparse : Reader.parse m.payload = .ok (some v))
    (hexec : (pass true m call).exec s = (.ok ⟨⟩, t))
    (call' : ι × Hooks D) : (t.handler call'.1).Accepts call'.2 m.topic v ↔
      (s.handler call'.1).Accepts call'.2 m.topic v ∧ ¬ s.Clash m call call' := by
  have hjoin := joinable_pass_iff hparse ⟨⟨⟩, congrArg Prod.fst hexec⟩ call'.1
  obtain rfl : ((pass true m call).exec s).2 = t := congrArg Prod.snd hexec
  have hrole : (((pass true m call).exec s).2.handler call'.1).role = _ := role_pass hparse call'.1
  rw [Handler.Accepts, Handler.Accepts, hrole, and_assoc, Clash]
  apply and_congr_right
  intro _
  constructor
  · intro hidle
    have hfresh : ∀ hook, (s.handler call'.1).role.Starts call'.2 m.topic hook →
        (s.handler call'.1).joinable hook ≠ true ∧
          ¬ (call.1 = call'.1 ∧ (s.handler call.1).role.Starts call.2 m.topic hook) := by
      intro hook hstarts
      have := hidle hook hstarts
      rwa [← Bool.not_eq_true, hjoin, not_or] at this
    refine ⟨fun hook hstarts => Bool.not_eq_true _ ▸ (hfresh hook hstarts).1, ?_⟩
    rintro ⟨heq, hook, hcall, hcall'⟩
    exact (hfresh hook hcall').2 ⟨heq, hcall⟩
  · rintro ⟨hidle, hclash⟩ hook hstarts
    rw [← Bool.not_eq_true, hjoin, not_or, Bool.not_eq_true]
    exact ⟨hidle hook hstarts, fun ⟨heq, hcall⟩ => hclash ⟨heq, hook, hcall, hstarts⟩⟩

/-- The loop over the handlers returns for the messages that they accept. -/
theorem loop_returns_iff {l : List (ι × Hooks D)} (hne : l ≠ []) :
    (forM l (pass true m)).Returns s ↔
      match Reader.parse m.payload with
      | .error _ => False
      | .ok none => ∀ call ∈ l, (s.handler call.1).role ≠ .devAttribute
      | .ok (some v) =>
          (∀ call ∈ l, (s.handler call.1).Accepts call.2 m.topic v ∧
              (s.handler call.1).Answers call.2 m.topic v) ∧
            l.Pairwise fun call call' => ¬ s.Clash m call call' := by
  cases hparse : Reader.parse (D := D) m.payload with
  | error e =>
      obtain ⟨call, l, rfl⟩ := List.exists_cons_of_ne_nil hne
      rw [List.forM_cons, Proc.Returns, Proc.exec_bind_error (exec_pass_of_thrown hparse)]
      simp
  | ok v =>
      cases v with
      | none =>
          have hpass : ∀ call, (pass true m call).Returns s ↔
              (s.handler call.1).role ≠ .devAttribute := by
            intro call
            rw [Proc.Returns, exec_pass_of_none hparse]
            cases (s.handler call.1).role <;> simp
          have hloop : (forM l (pass true m)).Returns s ↔
              (∀ call ∈ l, (s.handler call.1).role ≠ .devAttribute) ∧
                l.Pairwise fun _ _ => True := by
            apply Proc.returns_forM_iff (I := (· = s))
            · rintro t call - rfl
              exact hpass call
            · rintro t u call - rfl hexec
              rw [exec_pass_of_none hparse] at hexec
              obtain rfl : t = u := congrArg Prod.snd hexec
              exact ⟨rfl, fun call' => (and_iff_left trivial).symm⟩
            · rfl
          rw [hloop]
          exact and_iff_left (List.pairwise_of_forall fun _ _ => trivial)
      | some v =>
          have hclash : ∀ t : Callback ι D, (∀ i, (t.handler i).role = (s.handler i).role) →
              ∀ call call', t.Clash m call call' ↔ s.Clash m call call' := by
            intro t ht call call'
            rw [Clash, Clash, ht, ht]
          refine Proc.returns_forM_iff
            (I := fun t : Callback ι D => ∀ i, (t.handler i).role = (s.handler i).role)
            (fun t call _ _ => pass_returns_iff hparse) ?_ fun _ => rfl
          intro t u call hcall ht hexec
          constructor
          · intro i
            obtain rfl : ((pass true m call).exec t).2 = u := congrArg Prod.snd hexec
            exact (role_pass hparse i).trans (ht i)
          · intro call'
            have hrole : (u.handler call'.1).role = (t.handler call'.1).role := by
              obtain rfl : ((pass true m call).exec t).2 = u := congrArg Prod.snd hexec
              exact role_pass hparse call'.1
            rw [accepts_pass_iff hparse hexec, hclash t ht, Handler.answers_congr hrole,
              and_right_comm]

omit [CxxDouble D] [DecidableEq ι] in
/-- A topic without handlers is parsed, which takes a topic of some length. -/
theorem processCommand_returns_iff {topic payload : StdString} :
    (processCommand topic payload).Returns s ↔ 4 ≤ topic.length := by
  rw [← @Command.parse_isSome_iff topic payload, Proc.Returns, exec_processCommand]
  cases Command.parse topic payload <;> simp

/-- A topic with handlers is a matter of its handlers. -/
theorem returns_of_handlers (hrange : s.equalRange m.topic ≠ [])
    (hnull : ∀ k, (m.hooks k).NonNull) :
    (messageArrived true m).Returns s ↔ s.HandlersAccept m := by
  have hcalls : s.calls m ≠ [] := fun h => hrange (calls_eq_nil_iff.mp h)
  have hanswers : ∀ v, ∀ call ∈ s.calls m, (s.handler call.1).Answers call.2 m.topic v := by
    intro v call hcall
    obtain ⟨-, k, hk⟩ := of_mem_calls hcall
    exact Handler.answers_of_nonNull (hk ▸ hnull k)
  have hloop : (forM (s.calls m) (pass true m)).Returns s.counted ↔ s.HandlersAccept m := by
    rw [loop_returns_iff hcalls, HandlersAccept]
    cases Reader.parse (D := D) m.payload with
    | error e => rfl
    | ok v =>
        cases v with
        | none => rfl
        | some v =>
            exact and_congr_left fun _ => forall₂_congr fun call hcall =>
              and_iff_left (hanswers v call hcall)
  rw [← hloop, Proc.Returns, exec_messageArrived_of_handlers hrange]
  rfl

/-- A topic without handlers is a matter of the command parsing. -/
theorem returns_of_no_handler (hrange : s.equalRange m.topic = []) :
    (messageArrived true m).Returns s ↔ (s.userCallback = true → 4 ≤ m.topic.length) := by
  rw [Proc.Returns, exec_messageArrived_of_no_handler hrange]
  by_cases huser : s.userCallback = true
  · rw [if_pos huser]
    exact processCommand_returns_iff.trans (imp_iff_right huser).symm
  · rw [if_neg huser]
    exact iff_of_true ⟨⟨⟩, rfl⟩ fun h => absurd h huser

/-- `message_arrived` returns from the messages that everything on their way accepts. -/
theorem messageArrived_survives_iff (s : Callback ι D) (m : Arrival ι D)
    (hnull : ∀ k, (m.hooks k).NonNull) : (messageArrived true m).Returns s ↔ s.Accepts m := by
  rw [Accepts]
  by_cases hrange : s.equalRange m.topic = []
  · rw [if_pos hrange, returns_of_no_handler hrange]
  · rw [if_neg hrange, returns_of_handlers hrange hnull]

/-- A response on its topic is survived. -/
theorem messageArrived_survives_response :
    (messageArrived true (.agreeable serverResponseTopic "\x7b\"reqId\":\"1\"\x7d".toList)).Returns
      (single serverResponseTopic (.response ∅)) := by
  have hparse : Reader.parse "\x7b\"reqId\":\"1\"\x7d".toList =
      .ok (some (Value.objectValue [("reqId".toList, .stringValue "1".toList)] : Value Int)) :=
    Reader.parse_of_readValue (by decide : 2 ≤ Reader.stackLimit) rfl
  apply (messageArrived_survives_iff _ _ (Arrival.agreeable_nonNull _ _)).mpr
  rw [Accepts, if_neg (by decide), handlersAccept_iff hparse]
  refine ⟨fun call hcall => ?_, List.pairwise_singleton _ _⟩
  obtain rfl := List.mem_singleton.mp hcall
  exact ⟨⟨trivial, trivial⟩, fun hook hstarts => hstarts.elim⟩

/-- An array on the topic of the responses has no request id to get. -/
theorem messageArrived_survives_fails : ¬ ∀ (s : Callback Unit Int) (m : Arrival Unit Int),
    (∀ k, (m.hooks k).NonNull) → (messageArrived true m).Returns s := by
  intro h
  have hreturns := h (single serverResponseTopic (.response ∅))
    (.agreeable serverResponseTopic "[]".toList) (Arrival.agreeable_nonNull _ _)
  have hparse : Reader.parse "[]".toList = .ok (some (Value.arrayValue [] : Value Int)) :=
    Reader.parse_of_readValue (by decide : 2 ≤ Reader.stackLimit) rfl
  rw [returns_of_handlers (by decide) (Arrival.agreeable_nonNull _ _),
    handlersAccept_iff hparse] at hreturns
  exact (hreturns.1 _ List.mem_cons_self).1.object

end Callback
