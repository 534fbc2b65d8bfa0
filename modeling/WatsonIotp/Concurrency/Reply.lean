import WatsonIotp.Client.Definitions
import WatsonIotp.Machine.Basic
import WatsonIotp.Machine.Monitor
import Mathlib.Logic.Function.Basic

/-!
# The reply thread

`_send_reply` runs on a thread of its own: it waits for a notification, takes
one message from `mReplyMsgs`, publishes it and waits for the completion of the
delivery, all of it with `mLock` held. `IOTF_send_reply` puts a message on the
queue. It is called from the receive thread, for the replies of the handlers,
and from other threads, such as those that report the progress of a download.
The receive thread also completes deliveries, when it is not busy with a message.

The mutex and the condition variable are a `Monitor`. A push and the
notification after it are one action, since the sender holds the mutex for both.
-/

namespace Reply

/-- The threads that call `IOTF_send_reply`. -/
inductive Sender (τ : Type) where
  | receive
  | producer (t : τ)
  deriving DecidableEq

inductive Thread (τ : Type) where
  | reply
  | sender (t : Sender τ)
  deriving DecidableEq

/-- Where the reply thread is in `_send_reply`. -/
inductive ReplyPhase (μ : Type) where
  /-- At `while (mExit == false)`. -/
  | test
  /-- At the construction of `lck`. -/
  | locking
  /-- In `mCond.wait_for`. -/
  | waiting (deadline : Int)
  /-- At the call of `publish`, with the message it has taken. -/
  | publishing (reply : μ)
  /-- In `pubtok->wait_for_completion`. -/
  | awaiting (reply : μ) (complete : Bool)
  /-- At `lck.unlock()`. -/
  | unlocking
  /-- Behind the loop. -/
  | left
  /-- An exception has left `_send_reply`. -/
  | failed

/-- Where a thread is in `IOTF_send_reply`. -/
inductive SenderPhase (μ : Type) where
  | idle
  /-- At the construction of `lck`. -/
  | locking (reply : μ)
  /-- At `mReplyMsgs.push`. -/
  | pushing (reply : μ)
  /-- At the destruction of `lck`. -/
  | unlocking

structure State (τ μ : Type) where
  clock : Int
  mExit : Bool
  /-- `mLock` and `mCond`. -/
  monitor : Monitor (Thread τ)
  mReplyMsgs : List μ
  reply : ReplyPhase μ
  sender : Sender τ → SenderPhase μ

inductive Action (τ μ : Type) where
  /-- Time passes. -/
  | tick (duration : Nat)
  /-- The destructor sets `mExit`. -/
  | exit
  /-- The reply thread tests `mExit`. -/
  | test
  /-- The reply thread locks the mutex and blocks in `wait_for`. -/
  | block
  /-- The reply thread wakes up before it is notified. -/
  | wake
  /-- `wait_for` returns; if it is not for the deadline, a message is taken. -/
  | resume (timedOut : Bool)
  /-- `publish` returns a token, or throws. -/
  | publish (ok : Bool)
  /-- The receive thread completes the token. -/
  | complete
  /-- `wait_for_completion` returns, or throws since its time is over. -/
  | awaited (ok : Bool)
  | unlock
  /-- `IOTF_send_reply` is called. -/
  | call (t : Sender τ) (reply : μ)
  | lock (t : Sender τ)
  /-- `mReplyMsgs.push` and `mCond.notify_one`, which wakes `chosen`. -/
  | push (t : Sender τ) (chosen : Option (Thread τ))
  | release (t : Sender τ)

variable {τ μ : Type} [DecidableEq τ]

def State.initial : State τ μ := ⟨0, false, .free, [], .test, fun _ => .idle⟩

omit [DecidableEq τ] in
/-- The reply thread goes from one place to the next. -/
def State.setReply (s : State τ μ) (p : ReplyPhase μ) : State τ μ := { s with reply := p }

def State.setSender (s : State τ μ) (t : Sender τ) (p : SenderPhase μ) : State τ μ :=
  { s with sender := Function.update s.sender t p }

/-- `wait_for` is back with the mutex. -/
def resume (s : State τ μ) (timedOut : Bool) : Option (State τ μ) :=
  match s.reply with
  | .waiting deadline =>
      if timedOut = true ∧ s.clock < deadline then none
      else
        (s.monitor.resume .reply).map fun monitor =>
          match timedOut, s.mReplyMsgs with
          | false, reply :: mReplyMsgs =>
              ({ s with monitor, mReplyMsgs } : State τ μ).setReply (.publishing reply)
          | _, _ => ({ s with monitor } : State τ μ).setReply .unlocking
  | _ => none

/-- The steps of the reply thread with the token of its delivery. An exception
unlocks the mutex on its way out. -/
def publish (s : State τ μ) (ok : Bool) : Option (State τ μ) :=
  match s.reply with
  | .publishing reply =>
      if ok then some (s.setReply (.awaiting reply false))
      else (s.monitor.leave .reply).map fun monitor => { s with monitor, reply := .failed }
  | _ => none

omit [DecidableEq τ] in
def complete (s : State τ μ) : Option (State τ μ) :=
  match s.reply, s.sender .receive with
  | .awaiting reply false, .idle => some (s.setReply (.awaiting reply true))
  | _, _ => none

def awaited (s : State τ μ) (ok : Bool) : Option (State τ μ) :=
  match s.reply, ok with
  | .awaiting _ true, true => some (s.setReply .unlocking)
  | .awaiting _ false, false =>
      (s.monitor.leave .reply).map fun monitor => { s with monitor, reply := .failed }
  | _, _ => none

def step (s : State τ μ) : Action τ μ → Option (State τ μ)
  | .tick duration => some { s with clock := s.clock + duration }
  | .exit => some { s with mExit := true }
  | .test =>
      match s.reply with
      | .test => some (s.setReply (if s.mExit = false then .locking else .left))
      | _ => none
  | .block =>
      match s.reply with
      | .locking =>
          ((s.monitor.enter .reply).bind (·.wait .reply)).map fun monitor =>
            ({ s with monitor } : State τ μ).setReply (.waiting (s.clock + defaultTimeout))
      | _ => none
  | .wake => (s.monitor.wake .reply).map fun monitor => { s with monitor }
  | .resume timedOut => resume s timedOut
  | .publish ok => publish s ok
  | .complete => complete s
  | .awaited ok => awaited s ok
  | .unlock =>
      match s.reply with
      | .unlocking =>
          (s.monitor.leave .reply).map fun monitor =>
            ({ s with monitor } : State τ μ).setReply .test
      | _ => none
  | .call t reply =>
      match s.sender t with
      | .idle => some (s.setSender t (.locking reply))
      | _ => none
  | .lock t =>
      match s.sender t with
      | .locking reply =>
          (s.monitor.enter (.sender t)).map fun monitor =>
            ({ s with monitor } : State τ μ).setSender t (.pushing reply)
      | _ => none
  | .push t chosen =>
      match s.sender t with
      | .pushing reply =>
          (s.monitor.notifyOne chosen).map fun monitor =>
            ({ s with monitor, mReplyMsgs := s.mReplyMsgs ++ [reply] } :
              State τ μ).setSender t .unlocking
      | _ => none
  | .release t =>
      match s.sender t with
      | .unlocking =>
          (s.monitor.leave (.sender t)).map fun monitor =>
            ({ s with monitor } : State τ μ).setSender t .idle
      | _ => none

def machine : Machine (State τ μ) (Action τ μ) := ⟨step⟩

/-- The steps, one constructor for each thing that can happen. -/
inductive Steps (s : State τ μ) : Action τ μ → State τ μ → Prop where
  | tick (duration) : Steps s (.tick duration) { s with clock := s.clock + duration }
  | exit : Steps s .exit { s with mExit := true }
  | looped (hreply : s.reply = .test) (hexit : s.mExit = false) :
      Steps s .test (s.setReply .locking)
  | left (hreply : s.reply = .test) (hexit : s.mExit = true) : Steps s .test (s.setReply .left)
  | blocked (hreply : s.reply = .locking) (howner : s.monitor.owner = none) :
      Steps s .block (({ s with
        monitor := { s.monitor with waiting := insert .reply s.monitor.waiting } } :
          State τ μ).setReply (.waiting (s.clock + defaultTimeout)))
  | woken (hwaiting : .reply ∈ s.monitor.waiting) :
      Steps s .wake { s with
        monitor := { s.monitor with
          waiting := s.monitor.waiting.erase .reply
          woken := insert .reply s.monitor.woken } }
  | passed {timedOut deadline} (hreply : s.reply = .waiting deadline)
      (hwoken : .reply ∈ s.monitor.woken) (hpass : timedOut = true ∨ s.mReplyMsgs = []) :
      Steps s (.resume timedOut) (({ s with
        monitor := { s.monitor with
          owner := some .reply
          woken := s.monitor.woken.erase .reply } } : State τ μ).setReply .unlocking)
  | taken {deadline reply rest} (hreply : s.reply = .waiting deadline)
      (hwoken : .reply ∈ s.monitor.woken) (hqueue : s.mReplyMsgs = reply :: rest) :
      Steps s (.resume false) (({ s with
        monitor := { s.monitor with
          owner := some .reply
          woken := s.monitor.woken.erase .reply }
        mReplyMsgs := rest } : State τ μ).setReply (.publishing reply))
  | published {reply} (hreply : s.reply = .publishing reply) :
      Steps s (.publish true) (s.setReply (.awaiting reply false))
  | publishFailed {reply} (hreply : s.reply = .publishing reply) :
      Steps s (.publish false)
        (({ s with monitor := { s.monitor with owner := none } } : State τ μ).setReply .failed)
  | completed {reply} (hreply : s.reply = .awaiting reply false)
      (hreceive : s.sender .receive = .idle) :
      Steps s .complete (s.setReply (.awaiting reply true))
  | awaited {reply} (hreply : s.reply = .awaiting reply true) :
      Steps s (.awaited true) (s.setReply .unlocking)
  | awaitFailed {reply} (hreply : s.reply = .awaiting reply false) :
      Steps s (.awaited false)
        (({ s with monitor := { s.monitor with owner := none } } : State τ μ).setReply .failed)
  | unlocked (hreply : s.reply = .unlocking) :
      Steps s .unlock
        (({ s with monitor := { s.monitor with owner := none } } : State τ μ).setReply .test)
  | called {t reply} (hsender : s.sender t = .idle) :
      Steps s (.call t reply) (s.setSender t (.locking reply))
  | locked {t reply} (hsender : s.sender t = .locking reply) (howner : s.monitor.owner = none) :
      Steps s (.lock t)
        (({ s with monitor := { s.monitor with owner := some (.sender t) } } :
          State τ μ).setSender t (.pushing reply))
  | pushed {t chosen reply monitor} (hsender : s.sender t = .pushing reply)
      (hnotify : s.monitor.notifyOne chosen = some monitor) :
      Steps s (.push t chosen) (({ s with monitor, mReplyMsgs := s.mReplyMsgs ++ [reply] } :
        State τ μ).setSender t .unlocking)
  | released {t} (hsender : s.sender t = .unlocking)
      (howner : s.monitor.owner = some (.sender t)) :
      Steps s (.release t)
        (({ s with monitor := { s.monitor with owner := none } } : State τ μ).setSender t .idle)

theorem steps_of_resume {s u : State τ μ} {timedOut : Bool} (h : resume s timedOut = some u) :
    Steps s (.resume timedOut) u := by
  unfold resume at h
  split at h
  · next hreply =>
      split at h
      · cases h
      · obtain ⟨monitor, hm, rfl⟩ := Option.map_eq_some_iff.mp h
        obtain ⟨⟨-, hwoken⟩, rfl⟩ := Monitor.resume_iff.mp hm
        cases timedOut with
        | true => exact .passed hreply hwoken (.inl rfl)
        | false =>
            cases hqueue : s.mReplyMsgs with
            | nil =>
                have hpassed : Steps s (.resume false) _ := .passed hreply hwoken (.inr hqueue)
                simpa only [hqueue] using hpassed
            | cons reply rest => exact .taken hreply hwoken hqueue
  · cases h

theorem steps_of_publish {s u : State τ μ} {ok : Bool} (h : publish s ok = some u) :
    Steps s (.publish ok) u := by
  unfold publish at h
  split at h
  · next hreply =>
      cases ok with
      | true =>
          cases h
          exact .published hreply
      | false =>
          obtain ⟨monitor, hm, rfl⟩ := Option.map_eq_some_iff.mp h
          obtain ⟨-, rfl⟩ := Monitor.leave_iff.mp hm
          exact .publishFailed hreply
  · cases h

omit [DecidableEq τ] in
theorem complete_eq_some {s u : State τ μ} (h : complete s = some u) :
    ∃ reply, s.reply = .awaiting reply false ∧ s.sender .receive = .idle ∧
      u = s.setReply (.awaiting reply true) := by
  unfold complete at h
  split at h
  · next hreply hreceive =>
      cases h
      exact ⟨_, hreply, hreceive, rfl⟩
  · cases h

theorem steps_of_awaited {s u : State τ μ} {ok : Bool} (h : awaited s ok = some u) :
    Steps s (.awaited ok) u := by
  unfold awaited at h
  split at h
  · next hreply =>
      cases h
      exact .awaited hreply
  · next hreply =>
      obtain ⟨monitor, hm, rfl⟩ := Option.map_eq_some_iff.mp h
      obtain ⟨-, rfl⟩ := Monitor.leave_iff.mp hm
      exact .awaitFailed hreply
  · cases h

/-- Everything a step can do. -/
theorem steps_of_step {s u : State τ μ} {a : Action τ μ} (h : machine.step s a = some u) :
    Steps s a u := by
  cases a with
  | tick duration =>
      cases h
      exact .tick duration
  | exit =>
      cases h
      exact .exit
  | test =>
      cases hreply : s.reply with
      | test =>
          simp only [machine, step, hreply, Option.some.injEq] at h
          subst h
          cases hexit : s.mExit with
          | false => exact .looped hreply hexit
          | true => exact .left hreply hexit
      | _ => simp [machine, step, hreply] at h
  | block =>
      cases hreply : s.reply with
      | locking =>
          simp only [machine, step, hreply] at h
          obtain ⟨monitor, hm, rfl⟩ := Option.map_eq_some_iff.mp h
          obtain ⟨howner, rfl⟩ := Monitor.enter_wait_iff.mp hm
          exact .blocked hreply howner
      | _ => simp [machine, step, hreply] at h
  | wake =>
      obtain ⟨monitor, hm, rfl⟩ := Option.map_eq_some_iff.mp h
      obtain ⟨hwaiting, rfl⟩ := Monitor.wake_iff.mp hm
      exact .woken hwaiting
  | resume timedOut => exact steps_of_resume h
  | publish ok => exact steps_of_publish h
  | complete =>
      obtain ⟨reply, hreply, hreceive, rfl⟩ := complete_eq_some h
      exact .completed hreply hreceive
  | awaited ok => exact steps_of_awaited h
  | unlock =>
      cases hreply : s.reply with
      | unlocking =>
          simp only [machine, step, hreply] at h
          obtain ⟨monitor, hm, rfl⟩ := Option.map_eq_some_iff.mp h
          obtain ⟨-, rfl⟩ := Monitor.leave_iff.mp hm
          exact .unlocked hreply
      | _ => simp [machine, step, hreply] at h
  | call t reply =>
      cases hsender : s.sender t with
      | idle =>
          simp only [machine, step, hsender, Option.some.injEq] at h
          subst h
          exact .called hsender
      | _ => simp [machine, step, hsender] at h
  | lock t =>
      cases hsender : s.sender t with
      | locking reply =>
          simp only [machine, step, hsender] at h
          obtain ⟨monitor, hm, rfl⟩ := Option.map_eq_some_iff.mp h
          obtain ⟨howner, rfl⟩ := Monitor.enter_iff.mp hm
          exact .locked hsender howner
      | _ => simp [machine, step, hsender] at h
  | push t chosen =>
      cases hsender : s.sender t with
      | pushing reply =>
          simp only [machine, step, hsender] at h
          obtain ⟨monitor, hm, rfl⟩ := Option.map_eq_some_iff.mp h
          exact .pushed hsender hm
      | _ => simp [machine, step, hsender] at h
  | release t =>
      cases hsender : s.sender t with
      | unlocking =>
          simp only [machine, step, hsender] at h
          obtain ⟨monitor, hm, rfl⟩ := Option.map_eq_some_iff.mp h
          obtain ⟨howner, rfl⟩ := Monitor.leave_iff.mp hm
          exact .released hsender howner
      | _ => simp [machine, step, hsender] at h

end Reply
