import WatsonIotp.Client.Passes
import WatsonIotp.Handler.Update
import WatsonIotp.Json.Progress

/-!
# Updates and whom they are for

Firmware handlers and attribute handlers both listen on `iotdm-1/device/update`,
so each sees the updates that are meant for the other. Each calls its hook all the
same, whatever fields the update has. `onlyAddressed_iff` says when that does not show:
when every handler that the message gets to finds its own field in it.
-/

open Json

/-- The hooks that updates are for. -/
inductive UpdateHook where
  | updateLocation | verify
  deriving DecidableEq

/-- The field that a hook is for. -/
def UpdateHook.field : UpdateHook → StdString
  | .updateLocation => "location".toList
  | .verify => "mgmt.firmware".toList

variable {ι D : Type}

/-- The classes of handlers that have the hook. -/
def Role.HasHook : UpdateHook → Role D → Prop
  | .updateLocation, .devAttribute => True
  | .verify, .firmware _ => True
  | _, _ => False

instance (hook : UpdateHook) (role : Role D) : Decidable (role.HasHook hook) := by
  cases hook <;> cases role <;> unfold Role.HasHook <;> infer_instance

/-- The number of times that a hook of the handler has been called. -/
def Handler.hookCalls : UpdateHook → Handler D → Nat
  | .updateLocation, .devAttribute locations => locations.length
  | .verify, .firmware h => h.calls.countP fun call => call.hook = .verify
  | _, _ => 0

variable [CxxDouble D]

/-- An update is a call of the hook to each handler that has one. -/
theorem Handler.hookCalls_update {hooks : Hooks D} {mClient : Bool} {now : Int} {v : Value D}
    (h : v.IsUpdate) (hook : UpdateHook) (handler : Handler D) (replies : List (ReplyMessage D)) :
    ((messageArrived true mClient now hooks serverUpdateTopic v).exec
        (handler, replies)).2.1.hookCalls hook =
      handler.hookCalls hook + if handler.role.HasHook hook then 1 else 0 := by
  cases handler with
  | response m => cases hook <;> rfl
  | firmware s =>
      rw [exec_firmware]
      cases hook with
      | updateLocation => rfl
      | verify =>
          simp only [hookCalls, FirmwareHandler.calls_update h, List.countP_cons, decide_true]
          rfl
  | action =>
      rw [exec_action]
      cases hook <;> rfl
  | devAttribute locations =>
      rw [exec_devAttribute, AttributeHandler.locations_update h]
      cases hook <;> rfl

namespace Callback

/-- Between `s` and `t`, no hook of a handler has been called that the update has no
field for. -/
def OnlyAddressed (v : Value D) (s t : Callback ι D) : Prop :=
  ∀ i hook, (t.handler i).hookCalls hook ≠ (s.handler i).hookCalls hook → v.Addresses hook.field

variable [DecidableEq ι] {s : Callback ι D} {m : Arrival ι D} {v : Value D}

theorem hookCalls_pass (hparse : Reader.parse m.payload = .ok (some v))
    (htopic : m.topic = serverUpdateTopic) (h : v.IsUpdate) (call : ι × Hooks D) (i : ι)
    (hook : UpdateHook) :
    (((pass true m call).exec s).2.handler i).hookCalls hook =
      (s.handler i).hookCalls hook +
        if i = call.1 ∧ (s.handler i).role.HasHook hook then 1 else 0 := by
  rw [exec_pass_of_some hparse, htopic]
  by_cases hi : i = call.1
  · subst hi
    simp only [Function.update_self, Handler.hookCalls_update h, true_and]
  · simp only [Function.update_of_ne hi, hi, false_and, if_false, Nat.add_zero]

/-- Over the passes of a loop, no hook call is forgotten and no handler changes its role. -/
theorem loop_mono (hparse : Reader.parse m.payload = .ok (some v))
    (htopic : m.topic = serverUpdateTopic) (h : v.IsUpdate) (l : List (ι × Hooks D)) (i : ι) :
    let t := ((forM l (pass true m)).exec s).2
    (∀ hook, (s.handler i).hookCalls hook ≤ (t.handler i).hookCalls hook) ∧
      (t.handler i).role = (s.handler i).role := by
  refine Proc.forM_related (R := fun s t : Callback ι D =>
    (∀ hook, (s.handler i).hookCalls hook ≤ (t.handler i).hookCalls hook) ∧
      (t.handler i).role = (s.handler i).role) ?_ ?_ ?_
  · exact fun s => ⟨fun hook => Nat.le_refl _, rfl⟩
  · rintro s t u ⟨hst, hrole⟩ ⟨htu, hrole'⟩
    exact ⟨fun hook => (hst hook).trans (htu hook), hrole'.trans hrole⟩
  · intro front call back u _ _
    refine ⟨fun hook => ?_, role_pass hparse i⟩
    rw [hookCalls_pass hparse htopic h]
    exact Nat.le_add_right _ _

/-- A handler that the message gets to has its hook called. -/
theorem hookCalls_lt_of_passedTo (hparse : Reader.parse m.payload = .ok (some v))
    (htopic : m.topic = serverUpdateTopic) (h : v.IsUpdate) {i : ι} {hook : UpdateHook}
    (hpassed : s.PassedTo m i) (hhook : (s.handler i).role.HasHook hook) :
    (s.handler i).hookCalls hook <
      (((messageArrived true m).exec s).2.handler i).hookCalls hook := by
  obtain ⟨front, call, back, hcalls, hi, ⟨_, hreturns⟩, -⟩ := hpassed
  have hrange : s.equalRange m.topic ≠ [] := by
    rw [ne_eq, ← calls_eq_nil_iff, hcalls]
    simp
  rw [exec_messageArrived_of_handlers hrange, hcalls, Proc.exec_forM_append]
  have hfront := loop_mono (s := s.counted) hparse htopic h front i
  cases hexec : (forM front (pass true m)).exec s.counted with
  | mk outcome u =>
      rw [hexec] at hreturns hfront
      cases hreturns
      have hpass : (s.handler i).hookCalls hook <
          (((pass true m call).exec u).2.handler i).hookCalls hook := by
        have hrole : (u.handler i).role.HasHook hook := by rwa [hfront.2]
        rw [hookCalls_pass hparse htopic h, if_pos ⟨hi.symm, hrole⟩]
        exact Nat.lt_succ_of_le (hfront.1 hook)
      dsimp only
      rw [List.forM_cons]
      cases hpassed : (pass true m call).exec u with
      | mk outcome w =>
          rw [hpassed] at hpass
          cases outcome with
          | error e => rwa [Proc.exec_bind_error hpassed]
          | ok _ =>
              rw [Proc.exec_bind_ok hpassed]
              exact hpass.trans_le ((loop_mono hparse htopic h back i).1 hook)

/-- A hook is called only of a handler that the message gets to and that has it. -/
theorem passedTo_of_hookCalls_ne (hparse : Reader.parse m.payload = .ok (some v))
    (htopic : m.topic = serverUpdateTopic) (h : v.IsUpdate) {i : ι} {hook : UpdateHook}
    (hne : (((messageArrived true m).exec s).2.handler i).hookCalls hook ≠
      (s.handler i).hookCalls hook) :
    s.PassedTo m i ∧ (s.handler i).role.HasHook hook := by
  by_contra hnot
  apply hne
  by_cases hrange : s.equalRange m.topic = []
  · rw [exec_messageArrived_of_no_handler hrange]
    by_cases huser : s.userCallback = true
    · rw [if_pos huser, exec_processCommand]
      cases Command.parse m.topic m.payload <;> rfl
    · rw [if_neg huser]
      rfl
  · rw [exec_messageArrived_of_handlers hrange]
    refine Proc.forM_related (s := s.counted)
      (R := fun s t => (t.handler i).hookCalls hook = (s.handler i).hookCalls hook) ?_ ?_ ?_
    · exact fun _ => rfl
    · exact fun hst htu => htu.trans hst
    · intro front call back u hcalls hfront
      rw [hookCalls_pass hparse htopic h, if_neg, Nat.add_zero]
      rintro ⟨hi, hhook⟩
      have hrole := (loop_mono (s := s.counted) hparse htopic h front i).2
      rw [hfront] at hrole
      refine hnot ⟨⟨front, call, back, hcalls, hi.symm, ⟨⟨⟩, by rw [hfront]⟩, _, hparse⟩, ?_⟩
      exact hrole ▸ hhook

/-- A well-shaped update calls only the hooks that it has a field for exactly if it has a
field for each handler on the topic that has nothing in its way. -/
theorem onlyAddressed_iff (s : Callback ι D) (m : Arrival ι D) (v : Value D)
    (hparse : Reader.parse m.payload = .ok (some v)) (htopic : m.topic = serverUpdateTopic)
    (h : v.IsUpdate) :
    OnlyAddressed v s ((messageArrived true m).exec s).2 ↔
      ∀ i hook, (serverUpdateTopic, i) ∈ s.mHandlers → s.Unobstructed m i →
        (s.handler i).role.HasHook hook → v.Addresses hook.field := by
  constructor
  · intro honly i hook hmem hfree hhook
    have hpassed : s.PassedTo m i := passedTo_iff.mpr ⟨htopic ▸ hmem, hfree⟩
    exact honly i hook (hookCalls_lt_of_passedTo hparse htopic h hpassed hhook).ne'
  · intro hall i hook hne
    obtain ⟨hpassed, hhook⟩ := passedTo_of_hookCalls_ne hparse htopic h hne
    obtain ⟨hmem, hfree⟩ := passedTo_iff.mp hpassed
    exact hall i hook (htopic ▸ hmem) hfree hhook

/-- An update of the version of the firmware, as a text. -/
def versionUpdate : StdString :=
  "\x7b\"d\":\x7b\"fields\":[\x7b\"field\":\"mgmt.firmware\",".toList ++
    "\"value\":\x7b\"version\":\"2\"\x7d\x7d]\x7d\x7d".toList

theorem parse_versionUpdate :
    Reader.parse versionUpdate = .ok (some (.updateOf [versionField "2".toList])) :=
  Reader.parse_of_readValue (by decide : 8 ≤ Reader.stackLimit) rfl

theorem versionUpdate_isUpdate : (Value.updateOf [versionField "2".toList]).IsUpdate := by
  apply Value.isUpdate_updateOf
  intro field hfield
  obtain rfl := List.mem_singleton.mp hfield
  exact versionField_isField _

/-- A firmware handler gets an update of the firmware. -/
theorem onlyAddressed_firmware :
    let s := single serverUpdateTopic (.firmware .new)
    let m := Arrival.agreeable serverUpdateTopic versionUpdate
    let v := Value.updateOf [versionField "2".toList]
    OnlyAddressed v s ((messageArrived true m).exec s).2 ↔
      ∀ i hook, (serverUpdateTopic, i) ∈ s.mHandlers → s.Unobstructed m i →
        (s.handler i).role.HasHook hook → v.Addresses hook.field :=
  onlyAddressed_iff _ _ _ parse_versionUpdate rfl versionUpdate_isUpdate

/-- An attribute handler gets an update of the firmware, and hands out a location. -/
theorem onlyAddressed_fails : ¬ ∀ (s : Callback Unit Int) (m : Arrival Unit Int) (v : Value Int),
    Reader.parse m.payload = .ok (some v) → m.topic = serverUpdateTopic → v.IsUpdate →
      OnlyAddressed v s ((messageArrived true m).exec s).2 := by
  intro h
  let s := single serverUpdateTopic (.devAttribute [])
  let m := Arrival.agreeable serverUpdateTopic versionUpdate
  have honly := h s m _ parse_versionUpdate rfl versionUpdate_isUpdate
  have hpassed : s.PassedTo m () :=
    ⟨[], _, [], rfl, rfl, ⟨⟨⟩, rfl⟩, _, parse_versionUpdate⟩
  have hlt : (s.handler ()).hookCalls .updateLocation < _ :=
    hookCalls_lt_of_passedTo parse_versionUpdate rfl versionUpdate_isUpdate hpassed trivial
  obtain ⟨field, hfield, hnamed⟩ := honly () .updateLocation hlt.ne'
  obtain rfl := List.mem_singleton.mp hfield
  exact absurd (Except.ok.inj hnamed) (by decide : "mgmt.firmware".toList ≠ "location".toList)

end Callback
