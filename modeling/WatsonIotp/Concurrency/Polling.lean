import WatsonIotp.Handler.Accepts
import WatsonIotp.Handler.FirmwareDetails
import WatsonIotp.Handler.Polling

/-!
# Requests, polling threads and lifetimes

A firmware handler lives with the threads that it starts, the client that it is bound
to and the application, which derives a class from it. A thread is started for each
request that is answered with 202, and nothing but the base destructor joins one. The
handler is destroyed from the derived class to the base class. The client may be
destroyed before or after it.

`soundThreads_iff` is about the requests: a second download, or a second update, that
is accepted in the life of a handler assigns to a `std::thread` that is joinable.
-/

open Json

namespace Polling

variable {D : Type}

/-- How far the destruction of the handler has come. -/
inductive Lifetime where
  | alive
  /-- The derived destructor has completed, and the base destructor is running. -/
  | derivedDestroyed
  /-- The base destructor is behind the join of `mDownloadProgress`. -/
  | downloadJoined
  | destroyed
  deriving DecidableEq

structure State (D : Type) where
  handler : FirmwareHandler D
  /-- Whether `mClient` is set. -/
  mClient : Bool
  /-- The threads started so far, in order. -/
  polls : List (Poll D)
  /-- What has come to the queue of the client. -/
  replies : List (ReplyMessage D)
  /-- Whether a joinable `std::thread` has been assigned to: the end of the process. -/
  terminated : Bool
  object : Lifetime
  clientAlive : Bool

inductive Action (D : Type) where
  /-- `handler->mClient = this`. -/
  | bind
  /-- A message arrives. -/
  | request (m : FirmwareHandler.Message D)
  /-- A thread begins. -/
  | enter (k : Nat)
  /-- A thread wakes up and calls its hook. -/
  | report (k : Nat) (setters : List FirmwareSetter)
  /-- A thread sends its notification. -/
  | notify (k : Nat)
  /-- The destructor of the derived class completes. -/
  | destroyDerived
  /-- `mDownloadProgress.join()` returns, if it is called. -/
  | joinDownload
  /-- `mUpdateProgress.join()` returns, if it is called, and the handler is gone. -/
  | joinUpdate
  /-- The destructor of the client. -/
  | destroyClient

def State.initial : State D := ⟨.new, false, [], [], false, .alive, true⟩

/-- A thread goes on. -/
def State.setPoll (s : State D) (k : Nat) (t : Poll D) : State D :=
  { s with polls := s.polls.set k t }

/-- The threads that a message has started: those that are joinable after it only. -/
def launched (before after : FirmwareHandler D) : List (Poll D) :=
  ([.download, .update].filter fun hook =>
    before.joinable hook = false ∧ after.joinable hook = true).map .new

/-- The threads of the hook have ended. -/
def State.Joined (s : State D) (hook : FirmwareHook) : Prop :=
  ∀ t ∈ s.polls, t.hook = hook → t.Ended

instance (s : State D) (hook : FirmwareHook) : Decidable (s.Joined hook) :=
  inferInstanceAs (Decidable (∀ t ∈ s.polls, t.hook = hook → t.Ended))

variable [CxxDouble D]

/-- `std::terminate` has been called. -/
def isTerminate {α : Type} : Except Fault α → Bool
  | .error .terminate => true
  | _ => false

/-- After a message; its reply, if any, is put on the queue. -/
def State.requested (s : State D) (m : FirmwareHandler.Message D) : State D :=
  let run := m.handle s.handler
  { s with
    handler := run.2
    polls := s.polls ++ launched s.handler run.2
    replies := s.replies ++ run.1.toOption.join.toList
    terminated := isTerminate run.1 }

/-- `if (mClient != nullptr) mClient->IOTF_send_reply(replyPtr)`. -/
def State.notified (s : State D) (k : Nat) (reply : Option (ReplyMessage D)) (t : Poll D) :
    State D :=
  { s.setPoll k t with
    replies := if s.mClient then s.replies ++ reply.toList else s.replies }

def step (s : State D) (a : Action D) : Option (State D) :=
  if s.terminated then none
  else match a with
    | .bind => if s.clientAlive then some { s with mClient := true } else none
    | .request m =>
        if s.object = .alive ∧ s.clientAlive = true then some (s.requested m) else none
    | .enter k => do
        let t ← s.polls[k]?
        let t ← t.enter s.handler.fwinfo
        return s.setPoll k t
    | .report k setters => do
        let t ← s.polls[k]?
        let t ← t.report setters
        return s.setPoll k t
    | .notify k => do
        let t ← s.polls[k]?
        let (reply, t) ← t.notify
        return s.notified k reply t
    | .destroyDerived =>
        if s.object = .alive then some { s with object := .derivedDestroyed } else none
    | .joinDownload =>
        if s.object = .derivedDestroyed ∧ s.Joined .download then
          some { s with object := .downloadJoined }
        else none
    | .joinUpdate =>
        if s.object = .downloadJoined ∧ s.Joined .update then
          some { s with object := .destroyed }
        else none
    | .destroyClient => if s.clientAlive then some { s with clientAlive := false } else none

def machine : Machine (State D) (Action D) := ⟨step⟩

/-- The steps, one constructor for each thing that can happen. -/
inductive Steps (s : State D) : Action D → State D → Prop where
  | bound (hclient : s.clientAlive = true) : Steps s .bind { s with mClient := true }
  | requested {m} (hobject : s.object = .alive) (hclient : s.clientAlive = true) :
      Steps s (.request m) (s.requested m)
  | entered {k t} (hpoll : s.polls[k]? = some t) (hphase : t.phase = .starting) :
      Steps s (.enter k)
        (s.setPoll k { t with p := s.handler.fwinfo, phase := .sleeping })
  | reported {k t setters} (hpoll : s.polls[k]? = some t) (hphase : t.phase = .sleeping) :
      Steps s (.report k setters)
        (s.setPoll k { t with p := setters.foldl FirmwareSetter.apply t.p, phase := .notifying })
  | notified {k t u reply} (hpoll : s.polls[k]? = some t)
      (hnotify : t.notify = some (reply, u)) : Steps s (.notify k) (s.notified k reply u)
  | derivedDestroyed (hobject : s.object = .alive) :
      Steps s .destroyDerived { s with object := .derivedDestroyed }
  | downloadJoined (hobject : s.object = .derivedDestroyed) (hjoined : s.Joined .download) :
      Steps s .joinDownload { s with object := .downloadJoined }
  | updateJoined (hobject : s.object = .downloadJoined) (hjoined : s.Joined .update) :
      Steps s .joinUpdate { s with object := .destroyed }
  | clientDestroyed (hclient : s.clientAlive = true) :
      Steps s .destroyClient { s with clientAlive := false }

/-- Everything a step can do, in a process that has not ended. -/
theorem steps_of_step {s u : State D} {a : Action D} (h : machine.step s a = some u) :
    s.terminated = false ∧ Steps s a u := by
  simp only [machine, step] at h
  split at h
  · cases h
  · next hterminated =>
      refine ⟨Bool.not_eq_true _ ▸ hterminated, ?_⟩
      cases a with
      | bind =>
          simp only [Option.ite_none_right_eq_some, Option.some.injEq] at h
          obtain ⟨hclient, rfl⟩ := h
          exact .bound hclient
      | request m =>
          simp only [Option.ite_none_right_eq_some, Option.some.injEq] at h
          obtain ⟨⟨hobject, hclient⟩, rfl⟩ := h
          exact .requested hobject hclient
      | enter k =>
          obtain ⟨t, hpoll, h⟩ := Option.bind_eq_some_iff.mp h
          obtain ⟨t', henter, h⟩ := Option.bind_eq_some_iff.mp h
          obtain ⟨hphase, rfl⟩ := Poll.enter_eq_some henter
          cases h
          exact .entered hpoll hphase
      | report k setters =>
          obtain ⟨t, hpoll, h⟩ := Option.bind_eq_some_iff.mp h
          obtain ⟨t', hreport, h⟩ := Option.bind_eq_some_iff.mp h
          obtain ⟨hphase, rfl⟩ := Poll.report_eq_some hreport
          cases h
          exact .reported hpoll hphase
      | notify k =>
          obtain ⟨t, hpoll, h⟩ := Option.bind_eq_some_iff.mp h
          obtain ⟨⟨reply, u⟩, hnotify, h⟩ := Option.bind_eq_some_iff.mp h
          cases h
          exact .notified hpoll hnotify
      | destroyDerived =>
          simp only [Option.ite_none_right_eq_some, Option.some.injEq] at h
          obtain ⟨hobject, rfl⟩ := h
          exact .derivedDestroyed hobject
      | joinDownload =>
          simp only [Option.ite_none_right_eq_some, Option.some.injEq] at h
          obtain ⟨⟨hobject, hjoined⟩, rfl⟩ := h
          exact .downloadJoined hobject hjoined
      | joinUpdate =>
          simp only [Option.ite_none_right_eq_some, Option.some.injEq] at h
          obtain ⟨⟨hobject, hjoined⟩, rfl⟩ := h
          exact .updateJoined hobject hjoined
      | destroyClient =>
          simp only [Option.ite_none_right_eq_some, Option.some.injEq] at h
          obtain ⟨hclient, rfl⟩ := h
          exact .clientDestroyed hclient

/-! ### What a message does to the threads -/

/-- The message is a request that the hook answers with 202. -/
def Accepted (m : FirmwareHandler.Message D) (s : FirmwareHandler D) (hook : FirmwareHook) :
    Prop :=
  m.value ≠ none ∧ FirmwareHandler.Starts m.hooks m.topic s.fwinfo hook

omit [CxxDouble D] in
/-- The number of requests that the hook has answered with 202. -/
def acceptedCount (s : FirmwareHandler D) (hook : FirmwareHook) : Nat :=
  s.calls.countP fun call => call.hook = hook ∧ call.rsp.map Response.rc = some 202

/-- The hooks that have a thread. -/
def IsPolling (hook : FirmwareHook) : Prop := hook = .download ∨ hook = .update

omit [CxxDouble D] in
theorem isTerminate_eq_false {r : Except Fault (Option (ReplyMessage D))}
    (h : r ≠ .error .terminate) : isTerminate r = false := by
  cases r with
  | ok reply => rfl
  | error e =>
      cases e with
      | terminate => exact absurd rfl h
      | _ => rfl

/-- The reply to a request that is answered does not end the process. -/
theorem isTerminate_bind_replyTo (rsp : Except Fault Response) (payload : Value D) :
    isTerminate ((rsp.bind (FirmwareHandler.replyTo payload)).map some) = isTerminate rsp := by
  cases rsp with
  | error e => cases e <;> rfl
  | ok rsp =>
      simp only [Except.bind, FirmwareHandler.replyTo]
      cases reqId payload <;> rfl

omit [CxxDouble D] in
theorem acceptedCount_answered (s : FirmwareHandler D) (call : FirmwareCall D)
    (hook : FirmwareHook) :
    acceptedCount (FirmwareHandler.answered true call.hook call.rsp (s.record call)).2 hook =
      acceptedCount s hook +
        if call.hook = hook ∧ call.rsp.map Response.rc = some 202 then 1 else 0 := by
  rw [acceptedCount, (FirmwareHandler.answered_calls _ _ _ _).1, FirmwareHandler.record_calls,
    List.countP_cons, acceptedCount]
  simp only [decide_eq_true_eq]

omit [CxxDouble D] in
/-- An answer other than 202, or of a hook without a thread, leaves the threads alone. -/
theorem answered_idle (s : FirmwareHandler D) {call : FirmwareCall D}
    (h : ¬ (IsPolling call.hook ∧ call.rsp.map Response.rc = some 202)) :
    let run := FirmwareHandler.answered true call.hook call.rsp (s.record call)
    isTerminate run.1 = false ∧ ∀ hook, run.2.joinable hook = s.joinable hook := by
  by_cases hpolling : IsPolling call.hook
  · have hrc : call.rsp.map Response.rc ≠ some 202 := fun hrc => h ⟨hpolling, hrc⟩
    cases hrsp : call.rsp with
    | none => exact ⟨rfl, FirmwareHandler.record_joinable _ _⟩
    | some rsp =>
        rw [hrsp, Option.map_some, ne_eq, Option.some.injEq] at hrc
        simp only [FirmwareHandler.answered, if_neg hrc]
        exact ⟨rfl, FirmwareHandler.record_joinable _ _⟩
  · have hhook : call.hook = .verify ∨ call.hook = .isReadyForDownload := by
      revert hpolling
      cases call.hook <;> simp [IsPolling]
    rw [FirmwareHandler.answered_of_not_polling hhook]
    refine ⟨?_, FirmwareHandler.record_joinable _ _⟩
    cases call.rsp <;> rfl

omit [CxxDouble D] in
/-- An answer of 202 starts the thread of the hook, or ends the process. -/
theorem answered_accepted (s : FirmwareHandler D) {call : FirmwareCall D}
    (hpolling : IsPolling call.hook) (hrc : call.rsp.map Response.rc = some 202) :
    let run := FirmwareHandler.answered true call.hook call.rsp (s.record call)
    isTerminate run.1 = s.joinable call.hook ∧
      ∀ hook, run.2.joinable hook = true ↔ s.joinable hook = true ∨ hook = call.hook := by
  obtain ⟨rsp, hrsp, hrsp202⟩ := Option.map_eq_some_iff.mp hrc
  rw [hrsp, FirmwareHandler.answered]
  dsimp only
  rw [if_pos hrsp202, FirmwareHandler.record_joinable]
  cases hjoin : s.joinable call.hook with
  | true =>
      rw [if_pos ⟨rfl, rfl⟩]
      refine ⟨rfl, fun hook => ?_⟩
      rw [FirmwareHandler.record_joinable]
      exact (or_iff_left_of_imp fun heq => heq ▸ hjoin).symm
  | false =>
      rw [if_neg (by simp)]
      refine ⟨rfl, fun hook => ?_⟩
      rw [FirmwareHandler.start_joinable_iff, FirmwareHandler.record_joinable]
      exact or_congr_right (and_iff_left hpolling)

/-- On a topic with a hook, that hook accepts the message or none does. -/
theorem starts_iff_of_infoFor {m : FirmwareHandler.Message D} {s : FirmwareHandler D}
    {payload : Value D} {hook hook' : FirmwareHook} {p : FirmwareInfo D}
    (hhook : FirmwareHandler.hookOf m.topic = some hook)
    (hinfo : s.infoFor m.topic payload = .ok p) :
    FirmwareHandler.Starts m.hooks m.topic s.fwinfo hook' ↔ hook' = hook ∧ IsPolling hook ∧
      (m.hooks.answer hook p).map Response.rc = some 202 := by
  cases hrsp : m.hooks.answer hook p with
  | some rsp =>
      rw [FirmwareHandler.starts_iff hhook hinfo hrsp, Option.map_some, Option.some.injEq]
      rfl
  | none =>
      refine iff_of_false (fun hstarts => ?_) (by simp)
      have heq : hook' = hook := Option.some.inj (hstarts.calls.symm.trans hhook)
      have hne : hook' ≠ .verify := by
        rintro rfl
        simpa using hstarts.polling
      rw [FirmwareHandler.infoFor_of_ne hstarts.calls hne] at hinfo
      have hanswer := hstarts.answer
      rw [heq, Except.ok.inj hinfo, hrsp] at hanswer
      cases hanswer

/-- A message either leaves the threads alone, or it is accepted by one hook. Then it
starts the thread of that hook, or ends the process if that is joinable. -/
theorem handle_cases (m : FirmwareHandler.Message D) (s : FirmwareHandler D) :
    ((∀ hook, ¬ Accepted m s hook) ∧ isTerminate (m.handle s).1 = false ∧
      ∀ hook, IsPolling hook → acceptedCount (m.handle s).2 hook = acceptedCount s hook ∧
        (m.handle s).2.joinable hook = s.joinable hook) ∨
    ∃ hook, IsPolling hook ∧ (∀ hook', Accepted m s hook' ↔ hook' = hook) ∧
      isTerminate (m.handle s).1 = s.joinable hook ∧
      ∀ hook', IsPolling hook' →
        acceptedCount (m.handle s).2 hook' =
          acceptedCount s hook' + (if hook' = hook then 1 else 0) ∧
        ((m.handle s).2.joinable hook' = true ↔ s.joinable hook' = true ∨ hook' = hook) := by
  cases hvalue : m.value with
  | none =>
      obtain ⟨hstate, hthrown⟩ := m.handle_of_none hvalue s
      rw [hstate]
      exact .inl ⟨fun hook haccepted => haccepted.1 hvalue, isTerminate_eq_false hthrown,
        fun _ _ => ⟨rfl, rfl⟩⟩
  | some payload =>
      have haccepted : ∀ hook, Accepted m s hook ↔
          FirmwareHandler.Starts m.hooks m.topic s.fwinfo hook :=
        fun hook => and_iff_right (by simp [hvalue])
      rw [m.handle_of_some hvalue, isTerminate_bind_replyTo]
      simp only [haccepted, FirmwareHandler.outcome]
      cases hhook : FirmwareHandler.hookOf m.topic with
      | none =>
          refine .inl ⟨fun hook hstarts => ?_, ?_⟩
          · cases hhook.symm.trans hstarts.calls
          · by_cases hcancel : m.topic = serverCancelTopic
            · rw [if_pos hcancel]
              exact ⟨rfl, fun _ _ => ⟨rfl, rfl⟩⟩
            · rw [if_neg hcancel]
              exact ⟨rfl, fun _ _ => ⟨rfl, rfl⟩⟩
      | some hook =>
          cases hinfo : s.infoFor m.topic payload with
          | error e =>
              refine .inl ⟨fun hook' hstarts => ?_, rfl, fun _ _ => ⟨rfl, rfl⟩⟩
              have hne : hook' ≠ .verify := by
                rintro rfl
                simpa using hstarts.polling
              rw [FirmwareHandler.infoFor_of_ne hstarts.calls hne] at hinfo
              cases hinfo
          | ok p =>
              let call : FirmwareCall D := ⟨payload, hook, p, m.hooks.answer hook p⟩
              have hcount := acceptedCount_answered s call
              have hstarts : ∀ hook', FirmwareHandler.Starts m.hooks m.topic s.fwinfo hook' ↔
                  hook' = hook ∧ IsPolling hook ∧ call.rsp.map Response.rc = some 202 :=
                fun hook' => starts_iff_of_infoFor hhook hinfo
              by_cases h : IsPolling hook ∧ call.rsp.map Response.rc = some 202
              · obtain ⟨hterminate, hjoin⟩ := @answered_accepted D s call h.1 h.2
                refine .inr ⟨hook, h.1, ?_, hterminate, fun hook' _ => ⟨?_, hjoin hook'⟩⟩
                · intro hook'
                  exact (hstarts hook').trans (and_iff_left h)
                · have heq : call.hook = hook' ∧ call.rsp.map Response.rc = some 202 ↔
                      hook' = hook := (and_iff_left h.2).trans eq_comm
                  exact (hcount hook').trans (by simp only [heq])
              · obtain ⟨hterminate, hjoin⟩ := @answered_idle D s call h
                refine .inl ⟨?_, hterminate, fun hook' hpolling => ⟨?_, hjoin hook'⟩⟩
                · intro hook' hstart
                  exact h ((hstarts hook').mp hstart).2
                · rw [hcount, if_neg, Nat.add_zero]
                  rintro ⟨rfl, hrc⟩
                  exact h ⟨hpolling, hrc⟩

/-! ### Threads of accepted requests -/

/-- No `std::thread` has been assigned to while it was joinable, and as many threads have
been started for each hook as requests that it has accepted. -/
structure SoundThreads (s : State D) : Prop where
  alive : s.terminated = false
  threads : ∀ hook, IsPolling hook →
    (s.polls.map Poll.hook).count hook = acceptedCount s.handler hook

/-- A hook accepts a request only if it has not accepted one before. -/
def AcceptsOnce (s : State D) : Action D → Prop
  | .request m => ∀ hook, Accepted m s.handler hook → acceptedCount s.handler hook = 0
  | _ => True

omit [CxxDouble D] in
/-- A thread is joinable once a request has been accepted, and not before. -/
def JoinableOnce (s : State D) : Prop :=
  ∀ hook, IsPolling hook → (s.handler.joinable hook = true ↔ 0 < acceptedCount s.handler hook)

omit [CxxDouble D] in
theorem count_launched (before after : FirmwareHandler D) {hook : FirmwareHook}
    (hpolling : IsPolling hook) : ((launched before after).map Poll.hook).count hook =
      if before.joinable hook = false ∧ after.joinable hook = true then 1 else 0 := by
  have hhooks : (launched before after).map Poll.hook =
      [FirmwareHook.download, .update].filter fun hook =>
        before.joinable hook = false ∧ after.joinable hook = true := by
    rw [launched, List.map_map]
    exact List.map_id _
  rw [hhooks]
  split
  · next h =>
      rw [List.count_filter (p := fun hook =>
        decide (before.joinable hook = false ∧ after.joinable hook = true)) (decide_eq_true h)]
      obtain rfl | rfl := hpolling <;> rfl
  · next h =>
      apply List.count_eq_zero.mpr
      intro hmem
      exact h (of_decide_eq_true (List.mem_filter.mp hmem).2)

omit [CxxDouble D] in
/-- A thread reports on the same hook all along. -/
theorem map_hook_set {polls : List (Poll D)} {k : Nat} {t u : Poll D} (hpoll : polls[k]? = some t)
    (hhook : u.hook = t.hook) : (polls.set k u).map Poll.hook = polls.map Poll.hook := by
  rw [List.map_set, hhook]
  apply List.ext_getElem?
  intro j
  obtain rfl | hne := eq_or_ne k j
  · obtain ⟨hlt, hget⟩ := List.getElem?_eq_some_iff.mp hpoll
    simp [hlt, hget]
  · rw [List.getElem?_set_ne hne]

/-- Steps other than requests leave the handler alone, and the hooks of the threads. -/
theorem frame_of_not_request {s u : State D} {a : Action D} (h : Steps s a u)
    (ha : ∀ m, a ≠ .request m) : u.handler = s.handler ∧ u.terminated = s.terminated ∧
      u.polls.map Poll.hook = s.polls.map Poll.hook := by
  cases h with
  | requested => exact absurd rfl (ha _)
  | entered hpoll _ | reported hpoll _ => exact ⟨rfl, rfl, map_hook_set hpoll rfl⟩
  | notified hpoll hnotify =>
      exact ⟨rfl, rfl, map_hook_set hpoll (Poll.notify_eq_some hnotify).2⟩
  | _ => exact ⟨rfl, rfl, rfl⟩

theorem JoinableOnce.step {s u : State D} {a : Action D} (hs : JoinableOnce s)
    (h : machine.step s a = some u) : JoinableOnce u := by
  obtain ⟨-, hsteps⟩ := steps_of_step h
  by_cases ha : ∀ m, a ≠ .request m
  · rw [JoinableOnce, (frame_of_not_request hsteps ha).1]
    exact hs
  · cases hsteps with
    | @requested m hobject hclient =>
        intro hook hpolling
        have hook_iff := hs hook hpolling
        obtain ⟨-, -, hsame⟩ | ⟨accepted, -, -, -, hchange⟩ := handle_cases m s.handler
        · obtain ⟨hcount, hjoin⟩ := hsame hook hpolling
          change (m.handle s.handler).2.joinable hook = true ↔
            0 < acceptedCount (m.handle s.handler).2 hook
          rwa [hcount, hjoin]
        · obtain ⟨hcount, hjoin⟩ := hchange hook hpolling
          change (m.handle s.handler).2.joinable hook = true ↔
            0 < acceptedCount (m.handle s.handler).2 hook
          rw [hcount, hjoin, hook_iff]
          by_cases heq : hook = accepted <;> simp [heq]
    | _ => exact absurd (fun m => by simp) ha

/-- The step lemma: a request is handled soundly exactly if it is the first that its
hook accepts. -/
theorem soundThreads_step_iff {s u : State D} {a : Action D} (hjoinable : JoinableOnce s)
    (hs : SoundThreads s) (h : machine.step s a = some u) : SoundThreads u ↔ AcceptsOnce s a := by
  obtain ⟨-, hsteps⟩ := steps_of_step h
  by_cases ha : ∀ m, a ≠ .request m
  · obtain ⟨hhandler, hterminated, hpolls⟩ := frame_of_not_request hsteps ha
    refine iff_of_true ⟨hterminated.trans hs.alive, ?_⟩ ?_
    · rw [hhandler, hpolls]
      exact hs.threads
    · cases a with
      | request m => exact absurd rfl (ha m)
      | _ => trivial
  · cases hsteps with
    | @requested m hobject hclient =>
        have hthreads : ∀ hook, IsPolling hook →
            ((s.requested m).polls.map Poll.hook).count hook =
              acceptedCount s.handler hook +
                if s.handler.joinable hook = false ∧
                  (m.handle s.handler).2.joinable hook = true then 1 else 0 := by
          intro hook hpolling
          rw [← hs.threads hook hpolling, ← count_launched _ _ hpolling, ← List.count_append,
            ← List.map_append]
          rfl
        obtain ⟨hnone, hterminate, hsame⟩ | ⟨accepted, hpolling, haccepted, hterminate, hchange⟩ :=
          handle_cases m s.handler
        · refine iff_of_true ⟨hterminate, fun hook hpolling => ?_⟩
            fun hook haccepted => absurd haccepted (hnone hook)
          obtain ⟨hcount, hjoin⟩ := hsame hook hpolling
          rw [hthreads hook hpolling, hjoin, if_neg (by simp)]
          exact hcount.symm
        · have hidle : s.handler.joinable accepted = false ↔
              acceptedCount s.handler accepted = 0 := by
            rw [← Bool.not_eq_true, hjoinable accepted hpolling, Nat.pos_iff_ne_zero, not_not]
          constructor
          · intro hu hook hook_accepted
            obtain rfl := (haccepted hook).mp hook_accepted
            exact hidle.mp (hterminate.symm.trans hu.alive)
          · intro honce
            have hjoin := hidle.mpr (honce accepted ((haccepted accepted).mpr rfl))
            refine ⟨hterminate.trans hjoin, fun hook hpolling' => ?_⟩
            obtain ⟨hcount, hafter⟩ := hchange hook hpolling'
            rw [hthreads hook hpolling']
            simp only [hafter]
            refine Eq.trans ?_ hcount.symm
            by_cases heq : hook = accepted
            · rw [heq, hjoin, if_pos ⟨rfl, .inr rfl⟩, if_pos rfl]
            · rw [if_neg heq, if_neg]
              rintro ⟨hfalse, htrue | rfl⟩
              · rw [hfalse] at htrue
                cases htrue
              · exact heq rfl
    | _ => exact absurd (fun m => by simp) ha

omit [CxxDouble D] in
theorem soundThreads_initial : SoundThreads (State.initial : State D) :=
  ⟨rfl, fun _ _ => rfl⟩

omit [CxxDouble D] in
theorem joinableOnce_initial : JoinableOnce (State.initial : State D) := by
  intro hook hpolling
  obtain rfl | rfl := hpolling <;> exact iff_of_false Bool.false_ne_true (Nat.lt_irrefl 0)

/-- In a run, no joinable `std::thread` is assigned to and every accepted request has a
thread of its own exactly if no hook accepts a second request. -/
theorem soundThreads_iff {s : State D} {acts : List (Action D)}
    (hr : machine.Run .initial acts s) :
    (∀ front u, front <+: acts → machine.Run .initial front u → SoundThreads u) ↔
      machine.Along AcceptsOnce State.initial acts := by
  apply hr.forall_prefix_iff (I := JoinableOnce) (P := SoundThreads)
  · intro s a u hs h
    exact hs.step h
  · intro s a u hjoinable hs h
    exact soundThreads_step_iff hjoinable hs h
  · exact joinableOnce_initial
  · exact soundThreads_initial

/-- A download that the derived class accepts. -/
def downloadRequest : FirmwareHandler.Message Int :=
  .json FirmwareHandler.agreeableHooks serverFirmwareDownloadTopic (.objectValue [])

/-- One download, whose first report is also its last. -/
theorem soundThreads_one :
    let acts : List (Action Int) := [.bind, .request downloadRequest, .enter 0,
      .report 0 [.state stateDownloaded], .notify 0]
    ∃ s, machine.Run .initial acts s ∧
      ((∀ front u, front <+: acts → machine.Run .initial front u → SoundThreads u) ↔
        machine.Along AcceptsOnce State.initial acts) := by
  intro acts
  have hr : machine.Run .initial acts _ := Machine.Run.exec_iff.mp rfl
  exact ⟨_, hr, soundThreads_iff hr⟩

/-- A second download is accepted, although the thread of the first has ended. -/
theorem soundThreads_fails : ¬ ∀ (acts : List (Action Int)) (s : State Int),
    machine.Run .initial acts s → SoundThreads s := by
  intro h
  have hexec : ∃ s, machine.exec (.initial : State Int)
      [.bind, .request downloadRequest, .enter 0, .report 0 [.state stateDownloaded],
        .notify 0, .request downloadRequest] = some s ∧ s.terminated = true :=
    ⟨_, rfl, rfl⟩
  obtain ⟨s, hexec, hterminated⟩ := hexec
  have halive := (h _ s (Machine.Run.exec_iff.mp hexec)).alive
  rw [hterminated] at halive
  cases halive

end Polling
