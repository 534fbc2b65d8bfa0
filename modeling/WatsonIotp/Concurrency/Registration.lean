import WatsonIotp.Client.Passes
import WatsonIotp.Machine.Basic

/-!
# Registration of handlers while messages arrive

`subscribeCommandHandler` subscribes first and registers the handler when the broker
has acknowledged that. The broker may send messages as soon as it has granted the
subscription. `allKept_iff` says that what arrives before `add_subscription` is what
the handler misses, besides what another handler keeps from it.

The application calls from one thread, the messages arrive on another one. A call of
`message_arrived` is one step, as is each step of the call between two of them.
-/

open Json

namespace Registration

variable {ι D : Type}

/-- Where the application is in `subscribeCommandHandler(topic, handler)`. -/
inductive Place (ι : Type) where
  | outside
  /-- In `wait_for_completion`; the broker has the request. -/
  | subscribing (topic : StdString) (handler : ι)
  /-- In `wait_for_completion`; the broker has granted the subscription. -/
  | granted (topic : StdString) (handler : ι)
  /-- The token is complete. -/
  | acknowledged (topic : StdString) (handler : ι)
  /-- `add_subscription` has returned. -/
  | added (topic : StdString) (handler : ι)

structure State (ι D : Type) where
  object : Callback ι D
  /-- Whether `handler->mClient` is set. -/
  mClient : ι → Bool
  place : Place ι
  /-- The subscriptions granted so far, with the handlers that they are for. -/
  granted : List (StdString × ι)
  /-- The calls that have timed out, unless a later one has registered the handler. -/
  abandoned : List (StdString × ι)

inductive Action (ι D : Type) where
  /-- `check_subscription` and, if it finds nothing, `subscribe`. -/
  | call (topic : StdString) (handler : ι)
  /-- The broker grants the subscription that the application waits for. -/
  | grant
  /-- The broker refuses it, and `wait_for_completion` throws. -/
  | refuse
  /-- The broker grants one of the subscriptions that the application has given up. -/
  | grantLate (k : Nat)
  /-- The acknowledgement arrives, and `wait_for_completion` returns. -/
  | acknowledge
  /-- `wait_for_completion` throws because no acknowledgement has arrived. -/
  | timeout
  | addSubscription
  /-- `handler->mClient = this`, and the return. -/
  | bind
  /-- A message arrives. -/
  | deliver (m : Arrival ι D)

/-- Nothing has been subscribed yet; handlers may have been registered otherwise. -/
def State.initial (object : Callback ι D) : State ι D where
  object := object
  mClient _ := false
  place := .outside
  granted := []
  abandoned := []

/-- The message, which finds the handlers that have their `mClient` set. -/
def State.arrival (s : State ι D) (m : Arrival ι D) : Arrival ι D :=
  { m with mClient := s.mClient }

variable [DecidableEq ι] [CxxDouble D]

/-- `callback_ptr->add_subscription(topic, handler)`. -/
def State.addSubscription (s : State ι D) (topic : StdString) (handler : ι) : State ι D :=
  { s with
    object := { s.object with mHandlers := s.object.mHandlers ++ [(topic, handler)] }
    place := .added topic handler
    abandoned := s.abandoned.filter (· ≠ (topic, handler)) }

/-- `message_arrived`. -/
def State.deliver (s : State ι D) (m : Arrival ι D) : State ι D :=
  { s with object := ((Callback.messageArrived true (s.arrival m)).exec s.object).2 }

def step (s : State ι D) : Action ι D → Option (State ι D)
  | .call topic handler =>
      match s.place with
      | .outside =>
          if s.object.checkSubscription topic handler then some s
          else some { s with place := .subscribing topic handler }
      | _ => none
  | .grant =>
      match s.place with
      | .subscribing topic handler => some { s with
          place := .granted topic handler, granted := s.granted ++ [(topic, handler)] }
      | _ => none
  | .refuse =>
      match s.place with
      | .subscribing _ _ => some { s with place := .outside }
      | _ => none
  | .grantLate k => s.abandoned[k]?.map fun p => { s with granted := s.granted ++ [p] }
  | .acknowledge =>
      match s.place with
      | .granted topic handler => some { s with place := .acknowledged topic handler }
      | _ => none
  | .timeout =>
      match s.place with
      | .subscribing topic handler | .granted topic handler => some { s with
          place := .outside, abandoned := s.abandoned ++ [(topic, handler)] }
      | _ => none
  | .addSubscription =>
      match s.place with
      | .acknowledged topic handler => some (s.addSubscription topic handler)
      | _ => none
  | .bind =>
      match s.place with
      | .added _ handler => some { s with
          mClient := Function.update s.mClient handler true, place := .outside }
      | _ => none
  | .deliver m => some (s.deliver m)

def machine : Machine (State ι D) (Action ι D) := ⟨step⟩

/-- A message on a topic that the broker has granted is passed to the handler, and
not to the user callback. -/
def Kept (s : State ι D) : Action ι D → Prop
  | .deliver m => ∀ handler, (m.topic, handler) ∈ s.granted →
      s.object.PassedTo (s.arrival m) handler ∧ (s.deliver m).object.commands = s.object.commands
  | _ => True

/-- The application is between the grant and `add_subscription`. -/
def Place.Between (topic : StdString) (handler : ι) (place : Place ι) : Prop :=
  place = .granted topic handler ∨ place = .acknowledged topic handler

/-- No message arrives between the grant and `add_subscription`, nor after a timeout,
and none is kept from the handler by those that are registered ahead of it. -/
def Settled (s : State ι D) : Action ι D → Prop
  | .deliver m => ∀ handler, (m.topic, handler) ∈ s.granted →
      ¬ s.place.Between m.topic handler ∧ (m.topic, handler) ∉ s.abandoned ∧
        s.object.Unobstructed (s.arrival m) handler
  | _ => True

/-- The call will register the handler, and has not yet. -/
def Place.Pending (topic : StdString) (handler : ι) (place : Place ι) : Prop :=
  place = .subscribing topic handler ∨ place.Between topic handler

/-- What is granted is registered, unless the call is under way or was given up. -/
structure Invariant (s : State ι D) : Prop where
  pending : ∀ topic handler, s.place.Pending topic handler →
    (topic, handler) ∉ s.object.mHandlers
  abandoned : ∀ p ∈ s.abandoned, p ∉ s.object.mHandlers
  granted : ∀ p ∈ s.granted,
    p ∈ s.object.mHandlers ∨ s.place.Between p.1 p.2 ∨ p ∈ s.abandoned

/-! ### What the steps do -/

/-- The steps, with where they are taken. -/
inductive Steps (s : State ι D) : Action ι D → State ι D → Prop where
  | found {topic handler} (hplace : s.place = .outside)
      (hmem : (topic, handler) ∈ s.object.mHandlers) : Steps s (.call topic handler) s
  | called {topic handler} (hplace : s.place = .outside)
      (hmem : (topic, handler) ∉ s.object.mHandlers) :
      Steps s (.call topic handler) { s with place := .subscribing topic handler }
  | granted {topic handler} (hplace : s.place = .subscribing topic handler) :
      Steps s .grant { s with
        place := .granted topic handler, granted := s.granted ++ [(topic, handler)] }
  | refused {topic handler} (hplace : s.place = .subscribing topic handler) :
      Steps s .refuse { s with place := .outside }
  | grantedLate {k p} (hmem : p ∈ s.abandoned) :
      Steps s (.grantLate k) { s with granted := s.granted ++ [p] }
  | acknowledged {topic handler} (hplace : s.place = .granted topic handler) :
      Steps s .acknowledge { s with place := .acknowledged topic handler }
  | timedOut {topic handler}
      (hplace : s.place = .subscribing topic handler ∨ s.place = .granted topic handler) :
      Steps s .timeout { s with
        place := .outside, abandoned := s.abandoned ++ [(topic, handler)] }
  | added {topic handler} (hplace : s.place = .acknowledged topic handler) :
      Steps s .addSubscription (s.addSubscription topic handler)
  | bound {topic handler} (hplace : s.place = .added topic handler) :
      Steps s .bind { s with
        mClient := Function.update s.mClient handler true, place := .outside }
  | delivered (m : Arrival ι D) : Steps s (.deliver m) (s.deliver m)

theorem steps_of_step {s t : State ι D} {a : Action ι D} (h : machine.step s a = some t) :
    Steps s a t := by
  cases a with
  | call topic handler =>
      simp only [machine, step] at h
      split at h
      · next hplace =>
          split at h
          · next hmem =>
              cases h
              exact .found hplace (Callback.checkSubscription_iff.mp hmem)
          · next hmem =>
              cases h
              exact .called hplace (hmem ∘ Callback.checkSubscription_iff.mpr)
      · cases h
  | grant =>
      simp only [machine, step] at h
      split at h
      · next hplace =>
          cases h
          exact .granted hplace
      · cases h
  | refuse =>
      simp only [machine, step] at h
      split at h
      · next hplace =>
          cases h
          exact .refused hplace
      · cases h
  | grantLate k =>
      simp only [machine, step, Option.map_eq_some_iff] at h
      obtain ⟨p, hp, rfl⟩ := h
      exact .grantedLate (List.mem_of_getElem? hp)
  | acknowledge =>
      simp only [machine, step] at h
      split at h
      · next hplace =>
          cases h
          exact .acknowledged hplace
      · cases h
  | timeout =>
      simp only [machine, step] at h
      split at h
      · next hplace =>
          cases h
          exact .timedOut (.inl hplace)
      · next hplace =>
          cases h
          exact .timedOut (.inr hplace)
      · cases h
  | addSubscription =>
      simp only [machine, step] at h
      split at h
      · next hplace =>
          cases h
          exact .added hplace
      · cases h
  | bind =>
      simp only [machine, step] at h
      split at h
      · next hplace =>
          cases h
          exact .bound hplace
      · cases h
  | deliver m =>
      cases h
      exact .delivered m

/-- Messages register no handler. -/
theorem mHandlers_deliver (s : State ι D) (m : Arrival ι D) :
    (s.deliver m).object.mHandlers = s.object.mHandlers := by
  obtain ⟨handler, replies, commands, heq, -⟩ :=
    Callback.exists_messageArrived_eq true s.object (s.arrival m)
  rw [State.deliver, heq]
  rfl

/-- What is passed to a handler is not passed to the user callback. -/
theorem commands_deliver {s : State ι D} {m : Arrival ι D} {handler : ι}
    (h : s.object.PassedTo (s.arrival m) handler) :
    (s.deliver m).object.commands = s.object.commands := by
  have hrange : s.object.equalRange (s.arrival m).topic ≠ [] :=
    List.ne_nil_of_mem (Callback.mem_equalRange.mpr (Callback.passedTo_iff.mp h).1)
  obtain ⟨_, _, commands, heq, hcommands⟩ :=
    Callback.exists_messageArrived_eq true s.object (s.arrival m)
  rw [State.deliver, heq]
  exact hcommands hrange

omit [DecidableEq ι] [CxxDouble D] in
theorem invariant_initial (object : Callback ι D) : Invariant (State.initial object) where
  pending := by simp [State.initial, Place.Pending, Place.Between]
  abandoned := fun _ h => absurd h List.not_mem_nil
  granted := fun _ h => absurd h List.not_mem_nil

omit [DecidableEq ι] [CxxDouble D] in
/-- A step of the call with which nothing is granted, registered or given up. -/
theorem Invariant.move {s : State ι D} (hs : Invariant s) {mClient : ι → Bool} {place : Place ι}
    (hpending : ∀ topic handler, place.Pending topic handler →
      s.place.Pending topic handler ∨ (topic, handler) ∉ s.object.mHandlers)
    (hbetween : ∀ topic handler, s.place.Between topic handler → place.Between topic handler) :
    Invariant { s with mClient := mClient, place := place } where
  pending := fun topic handler h => (hpending topic handler h).elim (hs.pending topic handler) id
  abandoned := hs.abandoned
  granted := fun p hp => (hs.granted p hp).imp_right (.imp_left (hbetween p.1 p.2))

theorem Invariant.step {s t : State ι D} {a : Action ι D} (hs : Invariant s)
    (h : machine.step s a = some t) : Invariant t := by
  cases steps_of_step h with
  | found => exact hs
  | @called topic handler hplace hmem =>
      refine hs.move (fun topic' handler' h => .inr ?_) (by simp [hplace, Place.Between])
      simp only [Place.Pending, Place.Between, Place.subscribing.injEq, reduceCtorEq,
        or_false] at h
      obtain ⟨rfl, rfl⟩ := h
      exact hmem
  | @granted topic handler hplace =>
      refine ⟨?_, hs.abandoned, fun p hp => ?_⟩
      · simp only [Place.Pending, Place.Between, Place.granted.injEq, reduceCtorEq, or_false,
          false_or]
        rintro _ _ ⟨rfl, rfl⟩
        exact hs.pending _ _ (.inl hplace)
      · rcases List.mem_append.mp hp with hp | hp
        · have hold := hs.granted p hp
          simp only [hplace, Place.Between, reduceCtorEq, or_self, false_or] at hold
          exact hold.imp_right .inr
        · obtain rfl := List.mem_singleton.mp hp
          exact .inr (.inl (.inl rfl))
  | refused hplace | bound hplace =>
      exact hs.move (by simp [Place.Pending, Place.Between]) (by simp [hplace, Place.Between])
  | grantedLate hmem =>
      refine ⟨hs.pending, hs.abandoned, fun p hp => ?_⟩
      rcases List.mem_append.mp hp with hp | hp
      · exact hs.granted p hp
      · obtain rfl := List.mem_singleton.mp hp
        exact .inr (.inr hmem)
  | @acknowledged topic handler hplace =>
      exact hs.move (by simp [hplace, Place.Pending, Place.Between])
        (by simp [hplace, Place.Between])
  | @timedOut topic handler hplace =>
      have hpending : (topic, handler) ∉ s.object.mHandlers :=
        hs.pending _ _ (hplace.imp_right .inl)
      refine ⟨by simp [Place.Pending, Place.Between], fun p hp => ?_, fun p hp => ?_⟩
      · rcases List.mem_append.mp hp with hp | hp
        · exact hs.abandoned p hp
        · obtain rfl := List.mem_singleton.mp hp
          exact hpending
      · -- What was between the grant and `add_subscription` has been given up now.
        have habandoned : s.place.Between p.1 p.2 → p = (topic, handler) := by
          rcases hplace with hplace | hplace <;> simp [hplace, Place.Between, Prod.ext_iff, eq_comm]
        rcases hs.granted p hp with hmem | hbetween | hmem
        · exact .inl hmem
        · exact .inr (.inr (by simp [habandoned hbetween]))
        · exact .inr (.inr (List.mem_append_left _ hmem))
  | @added topic handler hplace =>
      refine ⟨by simp [State.addSubscription, Place.Pending, Place.Between], ?_, fun p hp => ?_⟩
      · intro p hp
        obtain ⟨hmem, hne⟩ := List.mem_filter.mp hp
        have hold := hs.abandoned p hmem
        simpa [State.addSubscription, hold] using hne
      · have hbetween : s.place.Between p.1 p.2 → p = (topic, handler) := by
          simp [hplace, Place.Between, Prod.ext_iff, eq_comm]
        by_cases heq : p = (topic, handler)
        · exact .inl (List.mem_append_right _ (List.mem_singleton.mpr heq))
        · rcases hs.granted p hp with hmem | hold | hmem
          · exact .inl (List.mem_append_left _ hmem)
          · exact absurd (hbetween hold) heq
          · exact .inr (.inr (List.mem_filter.mpr ⟨hmem, by simpa using heq⟩))
  | delivered m =>
      have hhandlers := mHandlers_deliver s m
      exact ⟨fun topic handler hpending => hhandlers ▸ hs.pending topic handler hpending,
        fun p hp => hhandlers ▸ hs.abandoned p hp, fun p hp => hhandlers ▸ hs.granted p hp⟩

omit [DecidableEq ι] [CxxDouble D] in
/-- Of the granted subscriptions, those are registered whose call is neither under way
nor given up. -/
theorem Invariant.registered_iff {s : State ι D} (hs : Invariant s) {topic : StdString}
    {handler : ι} (hgranted : (topic, handler) ∈ s.granted) :
    (topic, handler) ∈ s.object.mHandlers ↔
      ¬ s.place.Between topic handler ∧ (topic, handler) ∉ s.abandoned := by
  constructor
  · intro hmem
    exact ⟨fun hbetween => hs.pending _ _ (.inr hbetween) hmem,
      fun habandoned => hs.abandoned _ habandoned hmem⟩
  · rintro ⟨hbetween, habandoned⟩
    rcases hs.granted _ hgranted with hmem | h | h
    · exact hmem
    · exact absurd h hbetween
    · exact absurd h habandoned

/-- A message is kept for its handlers exactly if they are registered and none of those
ahead is in its way. -/
theorem kept_iff_settled {s : State ι D} (hs : Invariant s) (a : Action ι D) :
    Kept s a ↔ Settled s a := by
  cases a with
  | deliver m =>
      apply forall_congr'
      intro handler
      apply forall_congr'
      intro hgranted
      rw [and_iff_left_of_imp commands_deliver, Callback.passedTo_iff, ← and_assoc,
        ← hs.registered_iff hgranted]
      rfl
  | _ => exact Iff.rfl

/-- In a run, every message on a granted topic is passed to the handler, and none to the
user callback, exactly if each of them arrives when its handler has been registered and
the handlers ahead return from it. -/
theorem allKept_iff {object : Callback ι D} {acts : List (Action ι D)} {s : State ι D}
    (hr : machine.Run (.initial object) acts s) :
    machine.Along Kept (.initial object) acts ↔ machine.Along Settled (.initial object) acts :=
  hr.along_congr (fun _ _ _ hs h => hs.step h) (fun _ a hs => kept_iff_settled hs a)
    (invariant_initial object)

/-- A client with a user callback and without handlers. -/
def withUserCallback : Callback Unit Int where
  mArrivedMessages := 0
  mHandlers := []
  userCallback := true
  handler _ := .action
  replies := []
  commands := []

/-- A command that arrives right after the registration. -/
theorem allKept_registered :
    let topic := "iot-2/cmd/on/fmt/json".toList
    let acts : List (Action Unit Int) := [.call topic (), .grant, .acknowledge, .addSubscription,
      .deliver (.agreeable topic "{}".toList), .bind]
    ∃ s, machine.Run (.initial withUserCallback) acts s ∧
      (machine.Along Kept (.initial withUserCallback) acts ↔
        machine.Along Settled (.initial withUserCallback) acts) := by
  intro topic acts
  have hr : machine.Run (.initial withUserCallback) acts _ := Machine.Run.exec_iff.mp rfl
  exact ⟨_, hr, allKept_iff hr⟩

/-- A command that arrives when the subscription has been granted, and before the
handler is registered, is not passed to the handler. -/
theorem allKept_fails : ¬ ∀ (object : Callback Unit Int) (acts : List (Action Unit Int))
    (s : State Unit Int), machine.Run (.initial object) acts s →
      machine.Along Kept (.initial object) acts := by
  intro h
  let topic := "iot-2/cmd/on/fmt/json".toList
  let m := Arrival.agreeable topic "{}".toList
  have hr : machine.Run (.initial withUserCallback)
      [.call topic (), .grant, .deliver m, .acknowledge, .addSubscription, .bind] _ :=
    Machine.Run.exec_iff.mp rfl
  have hkept := h _ _ _ hr
  iterate 2 rw [Machine.along_cons rfl] at hkept; replace hkept := hkept.2
  have hpassed := (hkept.1 () List.mem_cons_self).1
  have hmem : (topic, ()) ∈ withUserCallback.mHandlers := (Callback.passedTo_iff.mp hpassed).1
  exact absurd hmem List.not_mem_nil

end Registration
