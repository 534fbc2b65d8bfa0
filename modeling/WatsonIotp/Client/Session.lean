import WatsonIotp.Client.Acceptance
import WatsonIotp.Machine.Basic

/-!
# Sessions and the command callback

The application's command callback is a member of the `IOTF_Callback` object. Every
`connect` makes a new one of these, in which no callback is set, and the old one goes
with its handlers and with the callback that was set in it.

`commandCallback_iff` says which callback a command reaches after any sequence of
calls: the one set last, if it has been set since the last `connect`.
-/

open Json

namespace Session

variable {κ ι D : Type}

/-- A client, with the object behind `callback_ptr`; `κ` are the callbacks of the
application. -/
structure State (κ ι D : Type) where
  /-- The object, with the handlers and the queue of the client. -/
  object : Callback ι D
  /-- Whether `callback_ptr` is set. -/
  installed : Bool
  /-- The member `user_callback`. -/
  userCallback : Option κ
  userCallback_isSome : userCallback.isSome = object.userCallback
  connected : Bool
  /-- The calls of `processCommand` so far. -/
  processed : List (κ × Command)

inductive Action (κ ι D : Type) where
  /-- `connect` succeeds. -/
  | connect
  | setCommandHandler (cb : κ)
  /-- `callback_ptr->add_subscription(topic, handler)`. -/
  | addSubscription (topic : StdString) (handler : ι)
  | disconnect
  /-- A message arrives. -/
  | arrive (m : Arrival ι D)

/-- A client that has not connected yet, with its handlers. -/
def State.initial (handler : ι → Handler D) : State κ ι D where
  object := ⟨0, [], false, handler, [], []⟩
  installed := false
  userCallback := none
  userCallback_isSome := rfl
  connected := false
  processed := []

/-- `callback_ptr = set_callback()`: a new object, of the same client. -/
def State.connect (s : State κ ι D) : State κ ι D where
  object := { s.object with mArrivedMessages := 0, mHandlers := [], userCallback := false }
  installed := true
  userCallback := none
  userCallback_isSome := rfl
  connected := true
  processed := s.processed

/-- `callback_ptr->set_callback(cb)`. -/
def State.setCommandHandler (s : State κ ι D) (cb : κ) : State κ ι D where
  object := { s.object with userCallback := true }
  installed := s.installed
  userCallback := some cb
  userCallback_isSome := rfl
  connected := s.connected
  processed := s.processed

def State.addSubscription (s : State κ ι D) (topic : StdString) (handler : ι) : State κ ι D :=
  { s with object := { s.object with mHandlers := s.object.mHandlers ++ [(topic, handler)] } }

def State.disconnect (s : State κ ι D) : State κ ι D := { s with connected := false }

variable [DecidableEq ι] [CxxDouble D]

/-- Messages do not set or clear the user callback. -/
theorem userCallback_messageArrived (object : Callback ι D) (m : Arrival ι D) :
    ((Callback.messageArrived true m).exec object).2.userCallback = object.userCallback := by
  obtain ⟨handler, replies, commands, heq, -⟩ :=
    Callback.exists_messageArrived_eq true object m
  rw [heq]
  rfl

/-- `message_arrived` on the object; what it passes to `processCommand` goes to the
user callback. -/
def State.arrive (s : State κ ι D) (m : Arrival ι D) : State κ ι D :=
  let object := ((Callback.messageArrived true m).exec s.object).2
  { s with
    object := object
    userCallback_isSome := by rw [userCallback_messageArrived, s.userCallback_isSome]
    processed := s.processed ++ s.userCallback.toList.flatMap fun cb =>
      (object.commands.drop s.object.commands.length).map (cb, ·) }

/-- Before the first `connect` there is no object to set a callback in, and messages
arrive in a session only. -/
def step (s : State κ ι D) : Action κ ι D → Option (State κ ι D)
  | .connect => some s.connect
  | .setCommandHandler cb => if s.installed then some (s.setCommandHandler cb) else none
  | .addSubscription topic handler =>
      if s.installed then some (s.addSubscription topic handler) else none
  | .disconnect => some s.disconnect
  | .arrive m => if s.connected then some (s.arrive m) else none

def machine : Machine (State κ ι D) (Action κ ι D) := ⟨step⟩

/-! ### Histories of calls -/

/-- The calls since the last `connect`. -/
def sinceConnect (acts : List (Action κ ι D)) : List (Action κ ι D) :=
  acts.foldl (fun since a => match a with | .connect => [] | a => since ++ [a]) []

/-- The callback that has been set last. -/
def lastSet (acts : List (Action κ ι D)) : Option κ :=
  acts.foldl (fun last a => match a with | .setCommandHandler cb => some cb | _ => last) none

/-- The message is passed to `processCommand` of the callback. -/
def PassedTo (cb : κ) (s : State κ ι D) (m : Arrival ι D) : Prop :=
  ∃ cmd, Command.parse m.topic m.payload = some cmd ∧
    (s.arrive m).processed = s.processed ++ [(cb, cmd)]

omit [DecidableEq ι] [CxxDouble D] in
@[simp] theorem sinceConnect_append (acts : List (Action κ ι D)) (a : Action κ ι D) :
    sinceConnect (acts ++ [a]) = match a with | .connect => [] | a => sinceConnect acts ++ [a] :=
  List.foldl_append

omit [DecidableEq ι] [CxxDouble D] in
@[simp] theorem lastSet_append (acts : List (Action κ ι D)) (a : Action κ ι D) :
    lastSet (acts ++ [a]) = match a with | .setCommandHandler cb => some cb | _ => lastSet acts :=
  List.foldl_append

omit [DecidableEq ι] [CxxDouble D] in
/-- A callback has been set last if one has been set at all. -/
theorem lastSet_isSome_iff {acts : List (Action κ ι D)} :
    (lastSet acts).isSome ↔ ∃ cb, .setCommandHandler cb ∈ acts := by
  induction acts using List.reverseRecOn with
  | nil => simp [lastSet]
  | append_singleton acts a ih =>
      rw [lastSet_append]
      cases a with
      | setCommandHandler cb => simp
      | _ => simpa using ih

omit [DecidableEq ι] [CxxDouble D] in
/-- What has been set last since the last `connect` has been set last at all. -/
theorem lastSet_of_sinceConnect {acts : List (Action κ ι D)} {cb : κ}
    (h : lastSet (sinceConnect acts) = some cb) : lastSet acts = some cb := by
  induction acts using List.reverseRecOn with
  | nil => exact h
  | append_singleton acts a ih =>
      cases a with
      | connect => simp [lastSet] at h
      | setCommandHandler cb' => simpa using h
      | _ => exact (lastSet_append _ _).trans (ih (by simpa using h))

/-- The user callback is what has been set last since the last `connect`. -/
theorem userCallback_eq {handler : ι → Handler D} {acts : List (Action κ ι D)} {s : State κ ι D}
    (hr : machine.Run (.initial handler) acts s) :
    s.userCallback = lastSet (sinceConnect acts) := by
  let I : State κ ι D → List (Action κ ι D) → Prop := fun s past =>
    s.userCallback = lastSet (sinceConnect past)
  have hstep : ∀ s past a t, I s past → machine.step s a = some t → I t (past ++ [a]) := by
    intro s past a t hs h
    simp only [I] at hs ⊢
    cases a with
    | connect =>
        cases h
        simp [State.connect, lastSet]
    | setCommandHandler cb =>
        simp only [machine, step, Option.ite_none_right_eq_some, Option.some.injEq] at h
        obtain ⟨-, rfl⟩ := h
        simp [State.setCommandHandler]
    | addSubscription topic handler =>
        simp only [machine, step, Option.ite_none_right_eq_some, Option.some.injEq] at h
        obtain ⟨-, rfl⟩ := h
        simpa [State.addSubscription] using hs
    | disconnect =>
        cases h
        simpa [State.disconnect] using hs
    | arrive m =>
        simp only [machine, step, Option.ite_none_right_eq_some, Option.some.injEq] at h
        obtain ⟨-, rfl⟩ := h
        simpa [State.arrive] using hs
  have hinitial : I (.initial handler) [] := rfl
  exact hr.schedule_invariant hstep hinitial

/-- What a message on a topic without handlers does to the calls of `processCommand`. -/
theorem processed_arrive {s : State κ ι D} {m : Arrival ι D}
    (hrange : s.object.equalRange m.topic = []) :
    (s.arrive m).processed = s.processed ++ s.userCallback.toList.flatMap fun cb =>
      (Command.parse m.topic m.payload).toList.map (cb, ·) := by
  cases hcb : s.userCallback with
  | none => simp [State.arrive, hcb]
  | some cb =>
      have huser : s.object.userCallback = true := by
        rw [← s.userCallback_isSome, hcb]
        rfl
      simp only [State.arrive, hcb, Callback.exec_messageArrived_of_no_handler hrange, huser,
        if_true, Callback.exec_processCommand]
      cases Command.parse m.topic m.payload with
      | none => simp [Callback.counted]
      | some cmd => simp [Callback.counted]

/-- In a run, a message on a topic without handlers is passed to the callback set last
exactly if one has been set since the last `connect` and the topic has four characters. -/
theorem commandCallback_iff {handler : ι → Handler D} {acts : List (Action κ ι D)}
    {s : State κ ι D} {cb : κ} (hr : machine.Run (.initial handler) acts s)
    (hlast : lastSet acts = some cb) (m : Arrival ι D)
    (hrange : s.object.equalRange m.topic = []) :
    PassedTo cb s m ↔
      (∃ cb', .setCommandHandler cb' ∈ sinceConnect acts) ∧ 4 ≤ m.topic.length := by
  rw [PassedTo, processed_arrive hrange, userCallback_eq hr, ← lastSet_isSome_iff,
    ← @Command.parse_isSome_iff m.topic m.payload]
  cases hsince : lastSet (sinceConnect acts) with
  | none => simp
  | some cb' =>
      obtain rfl : cb' = cb :=
        Option.some.inj ((lastSet_of_sinceConnect hsince).symm.trans hlast)
      cases Command.parse m.topic m.payload <;> simp

/-- A handler of commands, as a device client gets it, in its first session. -/
theorem commandCallback_first :
    let acts : List (Action Nat Unit Int) := [.connect, .setCommandHandler 1]
    let m := Arrival.agreeable "iot-2/cmd/on/fmt/json".toList "\x7b\x7d".toList
    ∃ s, machine.Run (.initial fun _ => .action) acts s ∧
      (PassedTo 1 s m ↔
        (∃ cb', .setCommandHandler cb' ∈ sinceConnect acts) ∧ 4 ≤ m.topic.length) := by
  intro acts m
  have hr : machine.Run (.initial fun _ => .action) acts _ := Machine.Run.exec_iff.mp rfl
  exact ⟨_, hr, commandCallback_iff hr rfl m rfl⟩

/-- After a second `connect`, commands are passed to nobody. -/
theorem commandCallback_fails : ¬ ∀ (acts : List (Action Nat Unit Int)) (s : State Nat Unit Int)
    (cb : Nat) (m : Arrival Unit Int), machine.Run (.initial fun _ => .action) acts s →
      (∃ front back t, acts = front ++ .setCommandHandler cb :: back ∧
        machine.Run (.initial fun _ => .action) front t ∧ t.connected = true) →
      lastSet acts = some cb → s.connected = true → s.object.equalRange m.topic = [] →
      PassedTo cb s m := by
  intro h
  let acts : List (Action Nat Unit Int) :=
    [.connect, .setCommandHandler 1, .disconnect, .connect]
  have hr : machine.Run (.initial fun _ => .action) acts _ := Machine.Run.exec_iff.mp rfl
  have hset : ∃ front back t, acts = front ++ .setCommandHandler 1 :: back ∧
      machine.Run (.initial fun _ => .action) front t ∧ t.connected = true :=
    ⟨[.connect], [.disconnect, .connect], _, rfl, Machine.Run.exec_iff.mp rfl, rfl⟩
  have hpassed := h acts _ 1 (.agreeable "iot-2/cmd/on/fmt/json".toList "\x7b\x7d".toList) hr hset
    rfl rfl rfl
  obtain ⟨⟨cb', hmem⟩, -⟩ := (commandCallback_iff hr rfl _ rfl).mp hpassed
  simp [acts, sinceConnect] at hmem

end Session
