import WatsonIotp.Handler.Response
import WatsonIotp.Machine.Basic
import WatsonIotp.Machine.Monitor
import Mathlib.Logic.Function.Basic

/-!
# Waiting for responses

Any number of threads use one `IOTP_ResponseHandler`. A thread that has sent a
request calls `wait_for_response`, on its own account or inside
`pushManageMessage` or `manage`; the receive thread runs `message_arrived`. Every
critical section is one action, since nothing in it blocks, and the waiting in it
is left to the monitor. Time is the reading of a clock in milliseconds, which
advances by any amount between two actions.

`wait_for` has no predicate. The wait ends when the thread is woken for whatever
reason, and the status tells whether the deadline has passed, so a response that
is stored before the wait begins is not noticed, and a notification for another
response ends the wait with nothing. `noLostResponse_of_answerable` says which
runs are free of both. What holds in all runs is `own_response_once`: what a wait
returns is its own response, and nobody else gets it.
-/

open Json

namespace ResponseWait

open ResponseHandler

/-- Who calls `wait_for_response`: the application with a timeout of its own, or
one of the requests of the client. -/
inductive Caller where
  | direct (timeout : Int)
  | pushManageMessage
  | manage
  deriving DecidableEq

def Caller.timeout : Caller → Int
  | .direct timeout => timeout
  | .pushManageMessage | .manage => defaultTimeout

/-- Where a thread is. A call that has sent its request is `requested` until it
gets the lock, `waiting` up to its deadline in `wait_for`, and `returned` when it
is back with the value of `wait_for_response`. `notifying` is `message_arrived`
between unlocking and `notify_all`, `failed` a callback that has thrown. -/
inductive Phase (D : Type) where
  | idle
  | requested (c : Caller) (r : StdString)
  | waiting (c : Caller) (r : StdString) (deadline : Int)
  | returned (c : Caller) (r : StdString) (deadline : Int) (res : Value D)
  | notifying
  | failed

/-- What has happened, for the statements about runs. -/
inductive Event (τ D : Type) where
  | requested (t : τ) (r : StdString)
  | stored (r : StdString) (jsonPayload : Value D) (time : Int)
  | returned (t : τ) (r : StdString) (deadline : Int) (res : Value D)
  | answered (t : τ) (r : StdString) (deadline : Int) (res : Value D) (answer : Bool)

structure State (τ D : Type) where
  clock : Int
  monitor : Monitor τ
  mResponseMessages : ResponseMessages D
  phase : τ → Phase D
  /-- Latest event first. -/
  log : List (Event τ D)

inductive Action (τ D : Type) where
  /-- Time passes. -/
  | tick (duration : Nat)
  /-- `message_arrived` up to `g.unlock()`. -/
  | arrive (t : τ) (jsonPayload : Value D)
  /-- `mCond.notify_all()`. -/
  | notify (t : τ)
  /-- The request is sent; the id is empty where sending it failed. -/
  | request (t : τ) (c : Caller) (r : StdString)
  /-- `wait_for_response` up to blocking in `wait_for`. -/
  | block (t : τ)
  /-- A blocked thread wakes up before it is notified. -/
  | wake (t : τ)
  /-- `wait_for` returns and the rest of `wait_for_response` runs. -/
  | resume (t : τ) (timedOut : Bool)
  /-- The caller evaluates the response; `manage` also registers its handlers. -/
  | finish (t : τ) (registered : Bool)

variable {τ D : Type} [DecidableEq τ] [CxxDouble D]

def State.initial : State τ D := ⟨0, .free, ∅, fun _ => .idle, []⟩

namespace State

omit [CxxDouble D] in
def setPhase (s : State τ D) (t : τ) (p : Phase D) : State τ D :=
  { s with phase := Function.update s.phase t p }

omit [DecidableEq τ] [CxxDouble D] in
def record (s : State τ D) (e : Event τ D) : State τ D := { s with log := e :: s.log }

end State

def arrive (s : State τ D) (t : τ) (jsonPayload : Value D) : Option (State τ D) :=
  match s.phase t with
  | .idle =>
      ((s.monitor.enter t).bind (·.leave t)).map fun monitor =>
        match reqId jsonPayload, store s.mResponseMessages jsonPayload with
        | .ok r, .ok mResponseMessages =>
            let s := ({ s with monitor, mResponseMessages } : State τ D).setPhase t .notifying
            if r = [] then s else s.record (.stored r jsonPayload s.clock)
        | _, _ => ({ s with monitor } : State τ D).setPhase t .failed
  | _ => none

omit [CxxDouble D] in
def notify (s : State τ D) (t : τ) : Option (State τ D) :=
  match s.phase t with
  | .notifying => some (({ s with monitor := s.monitor.notifyAll } : State τ D).setPhase t .idle)
  | _ => none

omit [CxxDouble D] in
/-- `if (!reqId.empty())` in the requests of the client. -/
def request (s : State τ D) (t : τ) (c : Caller) (r : StdString) : Option (State τ D) :=
  match s.phase t, c with
  | .idle, .direct _ => some ((s.setPhase t (.requested c r)).record (.requested t r))
  | .idle, _ =>
      if r = [] then some s
      else some ((s.setPhase t (.requested c r)).record (.requested t r))
  | _, _ => none

omit [CxxDouble D] in
def block (s : State τ D) (t : τ) : Option (State τ D) :=
  match s.phase t with
  | .requested c r =>
      ((s.monitor.enter t).bind (·.wait t)).map fun monitor =>
        ({ s with monitor } : State τ D).setPhase t (.waiting c r (s.clock + c.timeout))
  | _ => none

omit [CxxDouble D] in
def resume (s : State τ D) (t : τ) (timedOut : Bool) : Option (State τ D) :=
  match s.phase t with
  | .waiting c r deadline =>
      if timedOut = true ∧ s.clock < deadline then none
      else
        ((s.monitor.resume t).bind (·.leave t)).map fun monitor =>
          let found := if timedOut then (.nullValue, s.mResponseMessages)
            else take s.mResponseMessages r
          (({ s with monitor, mResponseMessages := found.2 } : State τ D).setPhase t
            (.returned c r deadline found.1)).record (.returned t r deadline found.1)
  | _ => none

/-- `int rc = res.get("rc", -1).asInt()` and `return (rc == 200)`. In between,
`manage` subscribes its handlers when the answer is 200, which may throw. A call
that throws gives its thread back to the application without an answer. -/
def finish (s : State τ D) (t : τ) (registered : Bool) : Option (State τ D) :=
  match s.phase t with
  | .returned (.direct _) _ _ _ => some (s.setPhase t .idle)
  | .returned c r deadline res =>
      match rc res with
      | .error _ => some (s.setPhase t .idle)
      | .ok rc =>
          if c = .manage ∧ rc = 200 ∧ registered = false then some (s.setPhase t .idle)
          else some ((s.setPhase t .idle).record (.answered t r deadline res (rc = 200)))
  | _ => none

def step (s : State τ D) : Action τ D → Option (State τ D)
  | .tick duration => some { s with clock := s.clock + duration }
  | .arrive t jsonPayload => arrive s t jsonPayload
  | .notify t => notify s t
  | .request t c r => request s t c r
  | .block t => block s t
  | .wake t => (s.monitor.wake t).map fun monitor => { s with monitor }
  | .resume t timedOut => resume s t timedOut
  | .finish t registered => finish s t registered

def machine : Machine (State τ D) (Action τ D) := ⟨step⟩

/-- The steps, one constructor for each thing that can happen. -/
inductive Steps (s : State τ D) : Action τ D → State τ D → Prop where
  | tick (duration) : Steps s (.tick duration) { s with clock := s.clock + duration }
  | stored {t jsonPayload r} (hid : reqId jsonPayload = .ok r) (hne : r ≠ []) :
      Steps s (.arrive t jsonPayload)
        ((({ s with mResponseMessages := s.mResponseMessages.insert r jsonPayload } :
          State τ D).setPhase t .notifying).record (.stored r jsonPayload s.clock))
  | ignored {t jsonPayload} (hid : reqId jsonPayload = .ok []) :
      Steps s (.arrive t jsonPayload) (s.setPhase t .notifying)
  | thrown {t jsonPayload} : Steps s (.arrive t jsonPayload) (s.setPhase t .failed)
  | notified {t} :
      Steps s (.notify t) (({ s with monitor := s.monitor.notifyAll } : State τ D).setPhase t .idle)
  | refused {t c} : Steps s (.request t c []) s
  | requested {t c r} :
      Steps s (.request t c r) ((s.setPhase t (.requested c r)).record (.requested t r))
  | blocked {t c r} {monitor : Monitor τ} (hphase : s.phase t = .requested c r) :
      Steps s (.block t)
        (({ s with monitor } : State τ D).setPhase t (.waiting c r (s.clock + c.timeout)))
  | woken {t} {monitor : Monitor τ} : Steps s (.wake t) { s with monitor }
  | timedOut {t c r deadline} {monitor : Monitor τ}
      (hphase : s.phase t = .waiting c r deadline) (hclock : deadline ≤ s.clock) :
      Steps s (.resume t true)
        ((({ s with monitor } : State τ D).setPhase t (.returned c r deadline .nullValue)).record
          (.returned t r deadline .nullValue))
  | found {t c r deadline res} {monitor : Monitor τ}
      (hphase : s.phase t = .waiting c r deadline)
      (hlookup : s.mResponseMessages.lookup r = some res) :
      Steps s (.resume t false)
        ((({ s with
            monitor
            mResponseMessages := s.mResponseMessages.erase r } : State τ D).setPhase t
          (.returned c r deadline res)).record (.returned t r deadline res))
  | missed {t c r deadline} {monitor : Monitor τ}
      (hphase : s.phase t = .waiting c r deadline)
      (hlookup : s.mResponseMessages.lookup r = none) :
      Steps s (.resume t false)
        ((({ s with monitor } : State τ D).setPhase t (.returned c r deadline .nullValue)).record
          (.returned t r deadline .nullValue))
  | abandoned {t registered c r deadline res}
      (hphase : s.phase t = .returned c r deadline res) :
      Steps s (.finish t registered) (s.setPhase t .idle)
  | answered {t registered c r deadline res code}
      (hphase : s.phase t = .returned c r deadline res) (hrc : rc res = .ok code) :
      Steps s (.finish t registered)
        ((s.setPhase t .idle).record (.answered t r deadline res (code = 200)))

theorem steps_of_arrive {s u : State τ D} {t : τ} {jsonPayload : Value D}
    (h : arrive s t jsonPayload = some u) : Steps s (.arrive t jsonPayload) u := by
  unfold arrive at h
  split at h
  · obtain ⟨monitor, hm, rfl⟩ := Option.map_eq_some_iff.mp h
    obtain ⟨-, rfl⟩ := Monitor.enter_leave_iff.mp hm
    cases hid : reqId jsonPayload with
    | error e => exact .thrown
    | ok r =>
        by_cases hr : r = []
        · subst hr
          simp only [store, hid, Except.map, if_true]
          exact .ignored hid
        · simp only [store, hid, Except.map, if_neg hr]
          exact .stored hid hr
  · cases h

theorem steps_of_request {s u : State τ D} {t : τ} {c : Caller} {r : StdString}
    (h : request s t c r = some u) : Steps s (.request t c r) u := by
  unfold request at h
  split at h
  · cases h
    exact .requested
  · split at h
    · next hr =>
        cases h
        exact hr ▸ .refused
    · cases h
      exact .requested
  · cases h

theorem steps_of_block {s u : State τ D} {t : τ} (h : block s t = some u) :
    Steps s (.block t) u := by
  unfold block at h
  split at h
  · next hphase =>
      obtain ⟨monitor, -, rfl⟩ := Option.map_eq_some_iff.mp h
      exact .blocked hphase
  · cases h

theorem steps_of_resume {s u : State τ D} {t : τ} {timedOut : Bool}
    (h : resume s t timedOut = some u) : Steps s (.resume t timedOut) u := by
  unfold resume at h
  split at h
  · next hphase =>
      split at h
      · cases h
      · next hclock =>
          obtain ⟨monitor, -, rfl⟩ := Option.map_eq_some_iff.mp h
          cases timedOut with
          | true => exact .timedOut hphase (by simpa using hclock)
          | false =>
              simp only [Bool.false_eq_true, if_false, take]
              split
              · next hlookup => exact .found hphase hlookup
              · next hlookup => exact .missed hphase hlookup
  · cases h

theorem steps_of_finish {s u : State τ D} {t : τ} {registered : Bool}
    (h : finish s t registered = some u) : Steps s (.finish t registered) u := by
  unfold finish at h
  split at h
  · next hphase =>
      cases h
      exact .abandoned hphase
  · next hphase =>
      split at h
      · cases h
        exact .abandoned hphase
      · next hrc =>
          split at h
          · cases h
            exact .abandoned hphase
          · cases h
            exact .answered hphase hrc
  · cases h

/-- Everything a step can do. -/
theorem steps_of_step {s u : State τ D} {a : Action τ D} (h : machine.step s a = some u) :
    Steps s a u := by
  cases a with
  | tick duration =>
      cases h
      exact .tick duration
  | arrive t jsonPayload => exact steps_of_arrive h
  | notify t =>
      change notify s t = some u at h
      unfold notify at h
      split at h
      · cases h
        exact .notified
      · cases h
  | request t c r => exact steps_of_request h
  | block t => exact steps_of_block h
  | wake t =>
      obtain ⟨monitor, -, rfl⟩ := Option.map_eq_some_iff.mp h
      exact .woken
  | resume t timedOut => exact steps_of_resume h
  | finish t registered => exact steps_of_finish h

/-! ### What the events so far say about the state -/

omit [DecidableEq τ] [CxxDouble D] in
/-- The event stores a response for `r` or takes it away. -/
def Event.Changes (r : StdString) : Event τ D → Prop
  | .stored r' _ _ => r' = r
  | .returned _ r' _ res => r' = r ∧ res ≠ .nullValue
  | _ => False

omit [DecidableEq τ] [CxxDouble D] in
/-- The response that is there for `r` after the events: the one stored last,
unless a wait has taken it since. -/
def available (r : StdString) : List (Event τ D) → Option (Value D)
  | [] => none
  | .stored r' jsonPayload _ :: older =>
      if r' = r then some jsonPayload else available r older
  | .returned _ r' _ res :: older =>
      if r' = r ∧ res.isNull = false then none else available r older
  | _ :: older => available r older

omit [DecidableEq τ] [CxxDouble D] in
/-- What is available was stored, and nothing has happened to it since. -/
theorem available_eq_some {r : StdString} {v : Value D} {log : List (Event τ D)}
    (h : available r log = some v) :
    ∃ newer time older, log = newer ++ .stored r v time :: older ∧
      ∀ e ∈ newer, ¬ e.Changes r := by
  induction log with
  | nil => cases h
  | cons e log ih =>
      have keep : available r log = some v → ¬ e.Changes r →
          ∃ newer time older, e :: log = newer ++ .stored r v time :: older ∧
            ∀ e ∈ newer, ¬ e.Changes r := by
        intro hlog he
        obtain ⟨newer, time, older, rfl, hnewer⟩ := ih hlog
        refine ⟨e :: newer, time, older, rfl, fun e' he' => ?_⟩
        obtain rfl | he' := List.mem_cons.mp he'
        · exact he
        · exact hnewer e' he'
      cases e with
      | stored r' jsonPayload time =>
          rw [available] at h
          split at h
          · next heq =>
              cases h
              exact ⟨[], time, log, by rw [heq]; rfl, by simp⟩
          · next hne => exact keep h hne
      | returned t r' deadline res =>
          rw [available] at h
          split at h
          · cases h
          · next hne => exact keep h (by simpa [Event.Changes] using hne)
      | requested t r' => exact keep h id
      | answered t r' deadline res answer => exact keep h id

/-- How an event follows from the ones before it. -/
def Event.Explained (older : List (Event τ D)) : Event τ D → Prop
  | .requested _ _ => True
  | .stored r jsonPayload _ => reqId jsonPayload = .ok r ∧ r ≠ []
  | .returned t r _ res =>
      .requested t r ∈ older ∧ (res = .nullValue ∨ available r older = some res)
  | .answered t r deadline res answer =>
      .returned t r deadline res ∈ older ∧ ∃ code, rc res = .ok code ∧ answer = decide (code = 200)

def Explained : List (Event τ D) → Prop
  | [] => True
  | e :: older => e.Explained older ∧ Explained older

omit [DecidableEq τ] in
theorem Explained.split {newer older : List (Event τ D)} {e : Event τ D}
    (h : Explained (newer ++ e :: older)) : e.Explained older ∧ Explained older := by
  induction newer with
  | nil => exact h
  | cons e' newer ih => exact ih h.2

omit [DecidableEq τ] [CxxDouble D] in
/-- A thread is where its events have brought it. -/
def Phase.Recorded (log : List (Event τ D)) (t : τ) : Phase D → Prop
  | .requested _ r => .requested t r ∈ log
  | .waiting _ r _ => .requested t r ∈ log
  | .returned _ r deadline res => .returned t r deadline res ∈ log
  | _ => True

omit [DecidableEq τ] [CxxDouble D] in
theorem Phase.Recorded.cons {log : List (Event τ D)} {t : τ} {p : Phase D}
    (h : p.Recorded log t) (e : Event τ D) : p.Recorded (e :: log) t := by
  cases p <;> first | trivial | exact List.mem_cons_of_mem _ h

/-- The invariant of all runs. -/
structure Recorded (s : State τ D) : Prop where
  log : Explained s.log
  messages : ∀ r, s.mResponseMessages.lookup r = available r s.log
  phase : ∀ t, (s.phase t).Recorded s.log t

omit [DecidableEq τ] in
theorem recorded_initial : Recorded (State.initial : State τ D) :=
  ⟨trivial, fun _ => rfl, fun _ => trivial⟩

omit [DecidableEq τ] in
theorem Recorded.phase_eq {s : State τ D} (hs : Recorded s) {t : τ} {p : Phase D}
    (h : s.phase t = p) : p.Recorded s.log t := h ▸ hs.phase t

omit [DecidableEq τ] in
/-- What is available is the payload of a message with that id. -/
theorem Explained.reqId_eq {log : List (Event τ D)} (h : Explained log) {r : StdString}
    {v : Value D} (hv : available r log = some v) : reqId v = .ok r ∧ r ≠ [] := by
  obtain ⟨newer, time, older, rfl, -⟩ := available_eq_some hv
  exact h.split.1

theorem Recorded.setPhase {s : State τ D} (hs : Recorded s) {monitor : Monitor τ} {t : τ}
    {p : Phase D} (hp : p.Recorded s.log t) :
    Recorded (({ s with monitor } : State τ D).setPhase t p) := by
  refine ⟨hs.log, hs.messages, fun t' => ?_⟩
  obtain rfl | hne := eq_or_ne t' t
  · simpa only [State.setPhase, Function.update_self] using hp
  · simpa only [State.setPhase, Function.update_of_ne hne] using hs.phase t'

theorem Recorded.record {s : State τ D} (hs : Recorded s) {monitor : Monitor τ}
    {mResponseMessages : ResponseMessages D} {t : τ} {p : Phase D} {e : Event τ D}
    (he : e.Explained s.log) (hp : p.Recorded (e :: s.log) t)
    (hm : ∀ r, mResponseMessages.lookup r = available r (e :: s.log)) :
    Recorded ((({ s with monitor, mResponseMessages } : State τ D).setPhase t p).record e) := by
  refine ⟨⟨he, hs.log⟩, hm, fun t' => ?_⟩
  obtain rfl | hne := eq_or_ne t' t
  · simpa only [State.record, State.setPhase, Function.update_self] using hp
  · simpa only [State.record, State.setPhase, Function.update_of_ne hne] using
      (hs.phase t').cons e

theorem Recorded.step {s u : State τ D} {a : Action τ D} (hs : Recorded s)
    (h : machine.step s a = some u) : Recorded u := by
  cases steps_of_step h with
  | tick duration => exact ⟨hs.log, hs.messages, hs.phase⟩
  | @stored t jsonPayload r hid hne =>
      refine hs.record ⟨hid, hne⟩ trivial fun r' => ?_
      rw [available]
      split
      · next heq => rw [← heq, AList.lookup_insert]
      · next hne' => rw [AList.lookup_insert_ne (Ne.symm hne'), hs.messages]
  | ignored | thrown | notified => exact hs.setPhase trivial
  | refused => exact hs
  | @requested t c r =>
      refine hs.record trivial ?_ hs.messages
      exact List.mem_cons_self
  | blocked hphase =>
      have hrec := hs.phase_eq hphase
      exact hs.setPhase hrec
  | woken => exact ⟨hs.log, hs.messages, hs.phase⟩
  | timedOut hphase _ | missed hphase _ =>
      have hrec := hs.phase_eq hphase
      refine hs.record ⟨hrec, .inl rfl⟩ ?_ fun r => ?_
      · exact List.mem_cons_self
      · rw [hs.messages, available, if_neg (by simp)]
  | @found t c r deadline res monitor hphase hlookup =>
      have hrec := hs.phase_eq hphase
      have hav : available r s.log = some res := (hs.messages r).symm.trans hlookup
      obtain ⟨hid, hne⟩ := hs.log.reqId_eq hav
      have hres : res.isNull = false :=
        Value.isNull_eq_false_iff.mpr (ne_nullValue_of_reqId hid hne)
      refine hs.record ⟨hrec, .inr hav⟩ ?_ fun r' => ?_
      · exact List.mem_cons_self
      · rw [available]
        split
        · next heq => rw [← heq.1, AList.lookup_erase]
        · next hne =>
            have hne' : r' ≠ r := fun heq => hne ⟨heq.symm, hres⟩
            rw [AList.lookup_erase_ne hne', hs.messages]
  | abandoned => exact hs.setPhase trivial
  | answered hphase hrc =>
      have hrec := hs.phase_eq hphase
      exact hs.record ⟨hrec, _, hrc, rfl⟩ trivial hs.messages

theorem Recorded.run {s : State τ D} {acts : List (Action τ D)}
    (hr : machine.Run .initial acts s) : Recorded s :=
  hr.invariant (fun _ _ _ hs h => hs.step h) recorded_initial

/-! ### A wait returns only its own response, once -/

/-- A response that a wait for `r` returns was the latest one stored for `r`. -/
def ReturnsOwn (log : List (Event τ D)) : Prop :=
  ∀ newer t r deadline res older, log = newer ++ .returned t r deadline res :: older →
    res ≠ .nullValue → reqId res = .ok r ∧
      ∃ between time past, older = between ++ .stored r res time :: past ∧
        ∀ r' v time', .stored r' v time' ∈ between → r' ≠ r

/-- Between two waits that return a response for `r`, a response for `r` is stored. -/
def ReturnsOnce (log : List (Event τ D)) : Prop :=
  ∀ newer t r deadline res between t' deadline' res' older,
    log = newer ++ .returned t r deadline res ::
      (between ++ .returned t' r deadline' res' :: older) →
    res ≠ .nullValue → res' ≠ .nullValue → ∃ time, .stored r res time ∈ between

/-- A request that is answered with true has got a response with its own id and
the code 200 before. -/
def AnsweredByServer (log : List (Event τ D)) : Prop :=
  ∀ newer t r deadline res older, log = newer ++ .answered t r deadline res true :: older →
    .requested t r ∈ older ∧ ∃ v time, .stored r v time ∈ older ∧ reqId v = .ok r ∧ rc v = .ok 200

omit [DecidableEq τ] in
theorem Explained.available_of_returned {newer older : List (Event τ D)} {t : τ} {r : StdString}
    {deadline : Int} {res : Value D}
    (h : Explained (newer ++ .returned t r deadline res :: older)) (hres : res ≠ .nullValue) :
    available r older = some res :=
  h.split.1.2.resolve_left hres

omit [DecidableEq τ] in
theorem Explained.returnsOwn {log : List (Event τ D)} (h : Explained log) : ReturnsOwn log := by
  rintro newer t r deadline res older rfl hres
  have hav := h.available_of_returned hres
  obtain ⟨between, time, past, heq, hbetween⟩ := available_eq_some hav
  refine ⟨(h.split.2.reqId_eq hav).1, between, time, past, heq, ?_⟩
  intro r' v time' hmem hr
  exact hbetween _ hmem hr

omit [DecidableEq τ] in
theorem Explained.returnsOnce {log : List (Event τ D)} (h : Explained log) : ReturnsOnce log := by
  rintro newer t r deadline res between t' deadline' res' older rfl hres hres'
  obtain ⟨front, time, past, heq, hfront⟩ := available_eq_some (h.available_of_returned hres)
  refine ⟨time, ?_⟩
  obtain ⟨mid, rfl, hmid⟩ | ⟨mid, rfl, hmid⟩ := List.append_eq_append_iff.mp heq
  · -- The store would be older than the other return, which takes the response.
    cases mid with
    | nil => cases hmid
    | cons e mid =>
        cases hmid
        refine absurd ?_ (hfront (.returned t' r deadline' res') (by simp))
        exact ⟨rfl, hres'⟩
  · cases mid with
    | nil => cases hmid
    | cons e mid =>
        cases hmid
        simp

omit [DecidableEq τ] in
theorem Explained.answeredByServer {log : List (Event τ D)} (h : Explained log) :
    AnsweredByServer log := by
  rintro newer t r deadline res older rfl
  obtain ⟨⟨hreturned, code, hrc, hcode⟩, holder⟩ := h.split
  have hcode' : code = 200 := by simpa using hcode
  subst hcode'
  obtain ⟨newer', older', rfl⟩ := List.append_of_mem hreturned
  -- A null response would have given the code -1.
  have hres : res ≠ .nullValue := by
    rintro rfl
    simp at hrc
  have hav := holder.available_of_returned hres
  have hid := (holder.split.2.reqId_eq hav).1
  obtain ⟨between, time, past, rfl, -⟩ := available_eq_some hav
  refine ⟨?_, res, time, by simp, hid, hrc⟩
  exact List.mem_append_right _ (List.mem_cons_of_mem _ holder.split.1.1)

/-- In every run, a wait that returns a response returns the latest one stored for
its own id, no two waits return the same stored response, and a request of the
client succeeds only on a response with its own id and the code 200. -/
theorem own_response_once {s : State τ D} {acts : List (Action τ D)}
    (hr : machine.Run .initial acts s) :
    ReturnsOwn s.log ∧ ReturnsOnce s.log ∧ AnsweredByServer s.log := by
  have hlog := (Recorded.run hr).log
  exact ⟨hlog.returnsOwn, hlog.returnsOnce, hlog.answeredByServer⟩

/-- A response for the request "101", sent in `pushManageMessage` by thread 0. -/
def response101 : Value Int :=
  .objectValue [("rc".toList, .intValue 200), ("reqId".toList, .stringValue "101".toList)]

/-- The response arrives on thread 1 while thread 0 waits for it. -/
theorem own_response_once_101 :
    let acts : List (Action Nat Int) := [.request 0 .pushManageMessage "101".toList, .block 0,
      .arrive 1 response101, .notify 1, .resume 0 false, .finish 0 true]
    ∃ s, machine.Run .initial acts s ∧
      ReturnsOwn s.log ∧ ReturnsOnce s.log ∧ AnsweredByServer s.log := by
  intro acts
  have hr : machine.Run .initial acts _ := Machine.Run.exec_iff.mp rfl
  exact ⟨_, hr, own_response_once hr⟩

/-! ### When no response is lost -/

/-- A wait returns a response for its id whenever one is stored before its
deadline, and what its caller answers is the code of that response. -/
def NoLostResponse (log : List (Event τ D)) : Prop :=
  ∀ r v time, .stored r v time ∈ log → ∀ t deadline, time < deadline →
    (∀ res, .returned t r deadline res ∈ log → ∃ time', .stored r res time' ∈ log) ∧
    ∀ res answer, .answered t r deadline res answer ∈ log →
      (∃ time', .stored r res time' ∈ log) ∧
        ∃ code, rc res = .ok code ∧ answer = decide (code = 200)

/-- A wait that ends before its deadline finds its response, and one that ends
with a timeout has had none stored for it before the deadline. -/
def Answerable (s : State τ D) : Action τ D → Prop
  | .resume t timedOut =>
      match s.phase t with
      | .waiting _ r deadline =>
          if timedOut then ∀ v time, .stored r v time ∈ s.log → deadline ≤ time
          else (s.mResponseMessages.lookup r).isSome
      | _ => True
  | _ => True

/-- Every wait so far has returned a response, or has timed out without one. -/
def Settled (s : State τ D) : Prop :=
  ∀ t r deadline res, .returned t r deadline res ∈ s.log →
    (∃ time, .stored r res time ∈ s.log) ∨
      deadline ≤ s.clock ∧ ∀ v time, .stored r v time ∈ s.log → deadline ≤ time

omit [DecidableEq τ] in
theorem Settled.noLostResponse {s : State τ D} (hs : Settled s) (hlog : Explained s.log) :
    NoLostResponse s.log := by
  intro r v time hstored t deadline htime
  have hreturned : ∀ res, .returned t r deadline res ∈ s.log →
      ∃ time', .stored r res time' ∈ s.log := by
    intro res hmem
    obtain h | ⟨-, h⟩ := hs t r deadline res hmem
    · exact h
    · exact absurd htime (not_lt.mpr (h v time hstored))
  refine ⟨hreturned, fun res answer hmem => ?_⟩
  obtain ⟨newer, older, heq⟩ := List.append_of_mem hmem
  rw [heq] at hlog
  obtain ⟨hret, hrc⟩ := hlog.split.1
  exact ⟨hreturned res (by rw [heq]; simp [hret]), hrc⟩

omit [DecidableEq τ] [CxxDouble D] in
/-- Settled waits stay settled when something else happens. -/
theorem Settled.frame {s u : State τ D} (hs : Settled s) (new : List (Event τ D))
    (hlog : u.log = new ++ s.log) (hclock : s.clock ≤ u.clock)
    (hnew : ∀ e ∈ new, (∀ t r deadline res, e ≠ .returned t r deadline res) ∧
      ∀ r v time, e = .stored r v time → s.clock ≤ time) : Settled u := by
  intro t r deadline res hmem
  rw [hlog] at hmem ⊢
  have hold : .returned t r deadline res ∈ s.log :=
    (List.mem_append.mp hmem).resolve_left fun h => (hnew _ h).1 t r deadline res rfl
  obtain ⟨time, h⟩ | ⟨hle, h⟩ := hs t r deadline res hold
  · exact .inl ⟨time, List.mem_append_right _ h⟩
  · refine .inr ⟨hle.trans hclock, fun v time hstored => ?_⟩
    obtain hstored | hstored := List.mem_append.mp hstored
    · exact hle.trans ((hnew _ hstored).2 r v time rfl)
    · exact h v time hstored

omit [DecidableEq τ] [CxxDouble D] in
theorem Settled.returned {s u : State τ D} (hs : Settled s) {t : τ} {r : StdString}
    {deadline : Int} {res : Value D} (hlog : u.log = .returned t r deadline res :: s.log)
    (hclock : u.clock = s.clock)
    (hres : (∃ time, .stored r res time ∈ s.log) ∨
      deadline ≤ s.clock ∧ ∀ v time, .stored r v time ∈ s.log → deadline ≤ time) : Settled u := by
  intro t' r' deadline' res' hmem
  rw [hlog, hclock]
  simp only [hlog, List.mem_cons, Event.returned.injEq, reduceCtorEq, false_or] at hmem ⊢
  obtain ⟨rfl, rfl, rfl, rfl⟩ | hmem := hmem
  · exact hres
  · exact hs t' r' deadline' res' hmem

theorem Settled.step {s u : State τ D} {a : Action τ D} (hs : Settled s) (hrec : Recorded s)
    (ha : Answerable s a) (h : machine.step s a = some u) : Settled u := by
  cases steps_of_step h with
  | tick duration =>
      refine hs.frame [] rfl ?_ (by simp)
      exact le_add_of_nonneg_right (Int.natCast_nonneg duration)
  | @stored t jsonPayload r hid hne =>
      exact hs.frame [.stored r jsonPayload s.clock] rfl le_rfl (by simp)
  | @requested t c r => exact hs.frame [.requested t r] rfl le_rfl (by simp)
  | @answered t registered c r deadline res code hphase hrc =>
      exact hs.frame [.answered t r deadline res (code = 200)] rfl le_rfl (by simp)
  | ignored | thrown | notified | refused | blocked | woken | abandoned =>
      exact hs.frame [] rfl le_rfl (by simp)
  | @timedOut t c r deadline monitor hphase hclock =>
      simp only [Answerable, hphase, if_true] at ha
      exact hs.returned rfl rfl (.inr ⟨hclock, ha⟩)
  | @found t c r deadline res monitor hphase hlookup =>
      have hav := (hrec.messages r).symm.trans hlookup
      obtain ⟨newer, time, older, heq, -⟩ := available_eq_some hav
      exact hs.returned rfl rfl (.inl ⟨time, by simp [heq]⟩)
  | @missed t c r deadline monitor hphase hlookup =>
      simp [Answerable, hphase, hlookup] at ha

/-- In a run in which every wait that is woken finds its response, and no wait
times out after one was stored for it in time, no response is lost. -/
theorem noLostResponse_of_answerable {s : State τ D} {acts : List (Action τ D)}
    (hr : machine.Run .initial acts s) (hc : machine.Along Answerable State.initial acts) :
    NoLostResponse s.log := by
  have hboth : Recorded s ∧ Settled s := by
    apply hr.invariant_along (I := fun s => Recorded s ∧ Settled s) _ hc
    · exact ⟨recorded_initial, by simp [Settled, State.initial]⟩
    · intro s a u hs ha h
      exact ⟨hs.1.step h, hs.2.step hs.1 ha h⟩
  exact hboth.2.noLostResponse hboth.1.log

/-- The run of `own_response_once_101` loses nothing. -/
theorem noLostResponse_101 :
    let acts : List (Action Nat Int) := [.request 0 .pushManageMessage "101".toList, .block 0,
      .arrive 1 response101, .notify 1, .resume 0 false, .finish 0 true]
    ∃ s, machine.Run .initial acts s ∧ NoLostResponse s.log := by
  intro acts
  have hr : machine.Run .initial acts _ := Machine.Run.exec_iff.mp rfl
  have hc : machine.Along Answerable (.initial : State Nat Int) acts := by
    iterate 4 refine (Machine.along_cons rfl).mpr ⟨trivial, ?_⟩
    refine (Machine.along_cons rfl).mpr ⟨rfl, ?_⟩
    exact (Machine.along_cons rfl).mpr ⟨trivial, trivial⟩
  exact ⟨_, hr, noLostResponse_of_answerable hr hc⟩

omit [DecidableEq τ] [CxxDouble D] in
/-- The ids that have been requested. -/
def requestIds (log : List (Event τ D)) : List StdString :=
  log.filterMap fun
    | .requested _ r => some r
    | _ => none

/-- The response is stored before the wait begins, and the wait times out. -/
theorem noLostResponse_fails : ¬ ∀ (acts : List (Action Nat Int)) (s : State Nat Int),
    machine.Run .initial acts s → (requestIds s.log).Nodup → NoLostResponse s.log := by
  intro h
  have hexec : ∃ s, machine.exec (.initial : State Nat Int)
      [.request 0 .pushManageMessage "101".toList, .arrive 1 response101, .notify 1, .block 0,
        .tick 10000, .wake 0, .resume 0 true, .finish 0 true] = some s ∧
      s.log = [.answered 0 "101".toList 10000 .nullValue false,
        .returned 0 "101".toList 10000 .nullValue, .stored "101".toList response101 0,
        .requested 0 "101".toList] :=
    ⟨_, rfl, rfl⟩
  obtain ⟨s, hexec, hlog⟩ := hexec
  have hlost := h _ _ (Machine.Run.exec_iff.mp hexec) (by rw [hlog]; decide)
  rw [hlog] at hlost
  obtain ⟨time, hmem⟩ := (hlost "101".toList response101 0 (by simp) 0 10000 (by decide)).1
    .nullValue (by simp)
  simp [response101] at hmem

end ResponseWait
