import WatsonIotp.Machine.Basic
import WatsonIotp.Text.StdString

/-!
# The outcome of `connect`

`connect` waits for the token of the request and then asks a listener of its own
whether the request has succeeded. The token calls the listener after it has set its
complete flag, and `wait_for_completion` returns as soon as it sees the flag. So the
question may come too early. A failure leaves the call by an exception instead, past
the listener of the application. `faithful_iff` says which runs end as they should.
-/

namespace Connect

/-- The token of a request, as its completion goes on. -/
inductive Token where
  /-- There is no request. -/
  | none
  | pending
  /-- The result code and the complete flag are set. -/
  | completed (success : Bool)
  /-- The listener has been called. -/
  | listened (success : Bool)
  | notified (success : Bool)
  deriving DecidableEq

def Token.isComplete : Token → Bool
  | .none | .pending => false
  | .completed _ | .listened _ | .notified _ => true

/-- The token is complete, with `MQTTASYNC_SUCCESS`. -/
def Token.succeeded : Token → Bool
  | .none | .pending => false
  | .completed success | .listened success | .notified success => success

/-- The token has called its listener. -/
def Token.heard : Token → Bool
  | .listened _ | .notified _ => true
  | .none | .pending | .completed _ => false

/-- Where the call is. -/
inductive Place where
  | starting
  /-- In `wait_for_completion`. -/
  | waiting
  /-- Before `action.success()`. -/
  | testing
  /-- `action.success()` has given the value; a method of `cb` is called next. -/
  | reporting (success : Bool)
  /-- Before `callback_ptr = set_callback()`. -/
  | installing
  /-- Before `conntok->is_complete()`. -/
  | checking
  | returned (rc : Bool)
  | thrown
  deriving DecidableEq

/-- The call has returned or thrown. -/
def Place.Ended : Place → Prop
  | .returned _ | .thrown => True
  | _ => False

/-- The wait is over, and has not thrown. -/
def Place.Waited : Place → Prop
  | .testing | .reporting _ | .installing | .checking | .returned _ => True
  | _ => False

/-- No method of `cb` has been called. -/
def Place.Silent : Place → Prop
  | .starting | .waiting | .testing | .reporting _ => True
  | _ => False

structure State where
  /-- Whether the call is `connect(cb)`. -/
  listener : Bool
  rc : Bool
  place : Place
  token : Token
  /-- `action.mSuccess`. -/
  mSuccess : Bool
  /-- Whether the session is established. -/
  established : Bool
  /-- The callback objects, by numbers: that of `callback_ptr`, that of `pasync_client`,
  and the next one. -/
  callbackPtr : Option Nat
  installed : Option Nat
  made : Nat
  /-- The calls of `cb`, `on_success` as `true` and `on_failure` as `false`. -/
  calls : List Bool

/-- `rc`, as the properties of the client leave it. -/
def initialRc (listener : Bool) (orgId authMethod : StdString) : Bool :=
  (!listener && decide (orgId = "quickstart".toList)) || decide (authMethod = "token".toList)

/-- A call on a client that is not connected, with the callbacks of earlier sessions. -/
def State.initial (listener : Bool) (orgId authMethod : StdString)
    (callbackPtr installed : Option Nat) (made : Nat) : State where
  listener := listener
  rc := initialRc listener orgId authMethod
  place := .starting
  token := .none
  mSuccess := false
  established := false
  callbackPtr := callbackPtr
  installed := installed
  made := made
  calls := []

inductive Action where
  /-- `pasync_client->connect`, which throws if the request is not accepted. -/
  | connect (accepted : Bool)
  /-- The broker has answered, and the token is completed. -/
  | complete (success : Bool)
  /-- The token calls its listener. -/
  | listen
  | notify
  /-- `wait_for_completion` sees the complete flag. -/
  | wait
  /-- `wait_for_completion` does not see it in time. -/
  | timeout
  /-- `action.success()`. -/
  | test
  /-- `cb.on_success` or `cb.on_failure`. -/
  | report
  /-- `callback_ptr = set_callback()`, which throws if the library refuses the callback. -/
  | install (accepted : Bool)
  /-- `conntok->is_complete()`, and the return. -/
  | check

/-- `callback_ptr = set_callback()`. -/
def State.install (s : State) (accepted : Bool) : State :=
  if accepted then { s with
    place := .checking, callbackPtr := some s.made, installed := some s.made, made := s.made + 1 }
  else { s with place := .thrown, installed := some s.made, made := s.made + 1 }

/-- The listener of a call that has ended is gone; what the token then does to it is of
no more use to the call. -/
def step (s : State) : Action → Option State
  | .connect accepted =>
      if s.place = .starting then
        if accepted then some { s with place := .waiting, token := .pending }
        else some { s with place := .thrown }
      else none
  | .complete success =>
      if s.token = .pending then
        some { s with token := .completed success, established := success }
      else none
  | .listen =>
      match s.token with
      | .completed success => some { s with token := .listened success, mSuccess := success }
      | _ => none
  | .notify =>
      match s.token with
      | .listened success => some { s with token := .notified success }
      | _ => none
  | .wait =>
      if s.place = .waiting ∧ s.token.isComplete = true then
        some { s with place := if s.token.succeeded then .testing else .thrown }
      else none
  | .timeout =>
      if s.place = .waiting ∧ s.token.isComplete = false then some { s with place := .thrown }
      else none
  | .test =>
      if s.place = .testing then some { s with
        place := if s.listener then .reporting s.mSuccess
          else if s.mSuccess then .installing else .checking }
      else none
  | .report =>
      match s.place with
      | .reporting success => some { s with
          calls := s.calls ++ [success], place := if success then .installing else .checking }
      | _ => none
  | .install accepted => if s.place = .installing then some (s.install accepted) else none
  | .check =>
      if s.place = .checking then
        some { s with place := .returned (s.rc && s.token.isComplete) }
      else none

def machine : Machine State Action := ⟨step⟩

/-- `callback_ptr` holds the callback that is installed. -/
def State.Installed (s : State) : Prop :=
  ∃ callback, s.callbackPtr = some callback ∧ s.installed = some callback

/-- What the call tells of the outcome is so. -/
structure Faithful (s : State) : Prop where
  returned : s.place = .returned true → s.established = true ∧ s.Installed
  reported : s.listener = true → s.place.Ended → s.calls = [s.established]

/-- The test finds that the token has called the listener; in `connect()` it may find
instead that it makes no difference. Nothing throws before the test in `connect(cb)`. -/
def Observed (s : State) : Action → Prop
  | .connect accepted => s.listener = true → accepted = true
  | .wait => s.listener = true → s.token.succeeded = true
  | .timeout => s.listener = false
  | .test => s.token.heard = true ∨ s.listener = false ∧ (s.rc = true → s.Installed)
  | _ => True

/-! ### What the steps do -/

/-- The steps, with where they are taken. -/
inductive Steps (s : State) : Action → State → Prop where
  | accepted (hplace : s.place = .starting) :
      Steps s (.connect true) { s with place := .waiting, token := .pending }
  | rejected (hplace : s.place = .starting) :
      Steps s (.connect false) { s with place := .thrown }
  | completed {success} (htoken : s.token = .pending) :
      Steps s (.complete success)
        { s with token := .completed success, established := success }
  | listened {success} (htoken : s.token = .completed success) :
      Steps s .listen { s with token := .listened success, mSuccess := success }
  | notified {success} (htoken : s.token = .listened success) :
      Steps s .notify { s with token := .notified success }
  | waited (hplace : s.place = .waiting) (htoken : s.token.succeeded = true) :
      Steps s .wait { s with place := .testing }
  | failed (hplace : s.place = .waiting) (hcomplete : s.token.isComplete = true)
      (htoken : s.token.succeeded = false) : Steps s .wait { s with place := .thrown }
  | timedOut (hplace : s.place = .waiting) (htoken : s.token.isComplete = false) :
      Steps s .timeout { s with place := .thrown }
  | tested (hplace : s.place = .testing) (hlistener : s.listener = true) :
      Steps s .test { s with place := .reporting s.mSuccess }
  | passed (hplace : s.place = .testing) (hlistener : s.listener = false)
      (hsuccess : s.mSuccess = true) : Steps s .test { s with place := .installing }
  | skipped (hplace : s.place = .testing) (hlistener : s.listener = false)
      (hsuccess : s.mSuccess = false) : Steps s .test { s with place := .checking }
  | reportedSuccess (hplace : s.place = .reporting true) :
      Steps s .report { s with calls := s.calls ++ [true], place := .installing }
  | reportedFailure (hplace : s.place = .reporting false) :
      Steps s .report { s with calls := s.calls ++ [false], place := .checking }
  | installed (hplace : s.place = .installing) : Steps s (.install true) { s with
      place := .checking, callbackPtr := some s.made, installed := some s.made,
      made := s.made + 1 }
  | refused (hplace : s.place = .installing) : Steps s (.install false) { s with
      place := .thrown, installed := some s.made, made := s.made + 1 }
  | checked (hplace : s.place = .checking) :
      Steps s .check { s with place := .returned (s.rc && s.token.isComplete) }

theorem steps_of_step {s t : State} {a : Action} (h : machine.step s a = some t) :
    Steps s a t := by
  cases a with
  | connect accepted =>
      simp only [machine, step, Option.ite_none_right_eq_some] at h
      obtain ⟨hplace, h⟩ := h
      cases accepted with
      | true =>
          cases h
          exact .accepted hplace
      | false =>
          cases h
          exact .rejected hplace
  | complete success =>
      simp only [machine, step, Option.ite_none_right_eq_some, Option.some.injEq] at h
      obtain ⟨htoken, rfl⟩ := h
      exact .completed htoken
  | listen =>
      simp only [machine, step] at h
      split at h
      · next htoken =>
          cases h
          exact .listened htoken
      · cases h
  | notify =>
      simp only [machine, step] at h
      split at h
      · next htoken =>
          cases h
          exact .notified htoken
      · cases h
  | wait =>
      simp only [machine, step, Option.ite_none_right_eq_some, Option.some.injEq] at h
      obtain ⟨⟨hplace, hcomplete⟩, rfl⟩ := h
      cases htoken : s.token.succeeded with
      | true => exact .waited hplace htoken
      | false => exact .failed hplace hcomplete htoken
  | timeout =>
      simp only [machine, step, Option.ite_none_right_eq_some, Option.some.injEq] at h
      obtain ⟨⟨hplace, htoken⟩, rfl⟩ := h
      exact .timedOut hplace htoken
  | test =>
      simp only [machine, step, Option.ite_none_right_eq_some, Option.some.injEq] at h
      obtain ⟨hplace, rfl⟩ := h
      cases hlistener : s.listener with
      | true => simpa [hlistener] using Steps.tested hplace hlistener
      | false =>
          cases hsuccess : s.mSuccess with
          | true => simpa [hlistener, hsuccess] using Steps.passed hplace hlistener hsuccess
          | false => simpa [hlistener, hsuccess] using Steps.skipped hplace hlistener hsuccess
  | report =>
      simp only [machine, step] at h
      split at h
      · next success hplace =>
          cases success with
          | true =>
              cases h
              exact .reportedSuccess hplace
          | false =>
              cases h
              exact .reportedFailure hplace
      · cases h
  | install accepted =>
      simp only [machine, step, Option.ite_none_right_eq_some, Option.some.injEq] at h
      obtain ⟨hplace, rfl⟩ := h
      cases accepted with
      | true => exact .installed hplace
      | false => exact .refused hplace
  | check =>
      simp only [machine, step, Option.ite_none_right_eq_some, Option.some.injEq] at h
      obtain ⟨hplace, rfl⟩ := h
      exact .checked hplace

/-! ### What holds in every state -/

/-- How far the token is, and what that means for the call. -/
structure Invariant (s : State) : Prop where
  established : s.established = s.token.succeeded
  mSuccess : s.mSuccess = (s.token.heard && s.token.succeeded)
  waited : s.place.Waited → s.token.succeeded = true
  reporting : ∀ success, s.place = .reporting success → s.listener = true
  silent : s.place.Silent → s.calls = []
  installing : s.place = .installing → s.listener = true → s.calls = [true]
  /-- A call that ends before its token has called no method of `cb`. -/
  thrown : s.place = .thrown → s.token.isComplete = false → s.calls = []
  starting : s.place = .starting → s.token = .none

theorem isComplete_of_succeeded {token : Token} (h : token.succeeded = true) :
    token.isComplete = true := by
  cases token with
  | none | pending => cases h
  | completed | listened | notified => rfl

theorem invariant_initial (listener : Bool) (orgId authMethod : StdString)
    (callbackPtr installed : Option Nat) (made : Nat) :
    Invariant (.initial listener orgId authMethod callbackPtr installed made) where
  established := rfl
  mSuccess := rfl
  waited := False.elim
  reporting := fun _ h => by cases h
  silent := fun _ => rfl
  installing := fun h => by cases h
  thrown := fun h => by cases h
  starting := fun _ => rfl

/-- A step of the token, which leaves the call where it is. -/
theorem Invariant.token {s : State} (hs : Invariant s) {token : Token}
    {mSuccess established : Bool} (hestablished : established = token.succeeded)
    (hsuccess : mSuccess = (token.heard && token.succeeded))
    (hwaited : s.token.succeeded = true → token.succeeded = true)
    (hcomplete : token.isComplete = true) (hstarted : s.token ≠ .none) :
    Invariant { s with token := token, mSuccess := mSuccess, established := established } where
  established := hestablished
  mSuccess := hsuccess
  waited := fun h => hwaited (hs.waited h)
  reporting := hs.reporting
  silent := hs.silent
  installing := hs.installing
  thrown := fun _ h => by cases hcomplete.symm.trans h
  starting := fun h => absurd (hs.starting h) hstarted

/-- A step of the call, which leaves the token where it is. -/
theorem Invariant.call {s : State} (hs : Invariant s) {place : Place}
    {callbackPtr installed : Option Nat} {made : Nat} {calls : List Bool}
    (hwaited : place.Waited → s.token.succeeded = true)
    (hreporting : ∀ success, place = .reporting success → s.listener = true)
    (hsilent : place.Silent → calls = [])
    (hinstalling : place = .installing → s.listener = true → calls = [true])
    (hthrown : place = .thrown → s.token.isComplete = false → calls = [])
    (hstarting : place ≠ .starting) :
    Invariant { s with
      place := place, callbackPtr := callbackPtr, installed := installed, made := made,
      calls := calls } where
  established := hs.established
  mSuccess := hs.mSuccess
  waited := hwaited
  reporting := hreporting
  silent := hsilent
  installing := hinstalling
  thrown := hthrown
  starting := fun h => absurd h hstarting

theorem Invariant.step {s t : State} {a : Action} (hs : Invariant s)
    (h : machine.step s a = some t) : Invariant t := by
  -- Where the call has waited, the token has succeeded and stays so.
  have hcomplete : s.place.Waited → s.token.isComplete ≠ false := fun hplace => by
    rw [isComplete_of_succeeded (hs.waited hplace)]
    decide
  cases steps_of_step h with
  | accepted hplace =>
      have hcalls : s.calls = [] := hs.silent (by rw [hplace]; trivial)
      have htoken := hs.starting hplace
      refine ⟨?_, ?_, False.elim, by simp, fun _ => hcalls, by simp, by simp, by simp⟩
      · simpa [htoken, Token.succeeded] using hs.established
      · simpa [htoken, Token.succeeded] using hs.mSuccess
  | rejected hplace =>
      have hcalls : s.calls = [] := hs.silent (by rw [hplace]; trivial)
      exact hs.call False.elim (by simp) False.elim (by simp) (fun _ _ => hcalls) (by simp)
  | @completed success htoken =>
      refine hs.token rfl ?_ ?_ rfl (by simp [htoken])
      · simpa [htoken, Token.heard] using hs.mSuccess
      · simp [htoken, Token.succeeded]
  | @listened success htoken =>
      refine hs.token ?_ rfl ?_ rfl (by simp [htoken])
      · simpa [htoken, Token.succeeded] using hs.established
      · simp [htoken, Token.succeeded]
  | @notified success htoken =>
      refine hs.token ?_ ?_ ?_ rfl (by simp [htoken])
      · simpa [htoken, Token.succeeded] using hs.established
      · simpa [htoken, Token.succeeded, Token.heard] using hs.mSuccess
      · simp [htoken, Token.succeeded]
  | waited hplace htoken =>
      have hcalls : s.calls = [] := hs.silent (by rw [hplace]; trivial)
      exact hs.call (fun _ => htoken) (by simp) (fun _ => hcalls) (by simp) (by simp) (by simp)
  | failed hplace | timedOut hplace =>
      have hcalls : s.calls = [] := hs.silent (by rw [hplace]; trivial)
      exact hs.call False.elim (by simp) False.elim (by simp) (fun _ _ => hcalls) (by simp)
  | tested hplace hlistener =>
      have hcalls : s.calls = [] := hs.silent (by rw [hplace]; trivial)
      have htoken := hs.waited (by rw [hplace]; trivial)
      exact hs.call (fun _ => htoken) (fun _ _ => hlistener) (fun _ => hcalls) (by simp) (by simp)
        (by simp)
  | passed hplace hlistener | skipped hplace hlistener =>
      have htoken := hs.waited (by rw [hplace]; trivial)
      exact hs.call (fun _ => htoken) (by simp) False.elim (by simp [hlistener]) (by simp) (by simp)
  | reportedSuccess hplace | reportedFailure hplace =>
      have hcalls : s.calls = [] := hs.silent (by rw [hplace]; trivial)
      have htoken := hs.waited (by rw [hplace]; trivial)
      exact hs.call (fun _ => htoken) (by simp) False.elim (by simp [hcalls]) (by simp) (by simp)
  | installed hplace =>
      have htoken := hs.waited (by rw [hplace]; trivial)
      exact hs.call (fun _ => htoken) (by simp) False.elim (by simp) (by simp) (by simp)
  | refused hplace =>
      have hdone := hcomplete (by rw [hplace]; trivial)
      exact hs.call False.elim (by simp) False.elim (by simp) (fun _ h => absurd h hdone) (by simp)
  | checked hplace =>
      have htoken := hs.waited (by rw [hplace]; trivial)
      exact hs.call (fun _ => htoken) (by simp) False.elim (by simp) (by simp) (by simp)

/-! ### Faithful outcomes -/

/-- What a call that ends faithfully has to be like on its way. -/
def OnTrack (s : State) : Prop :=
  match s.place with
  | .reporting success => success = true
  | .checking => (s.listener = true → s.calls = [s.established]) ∧
      (s.rc = true → s.established = true ∧ s.Installed)
  | .returned rc => (s.listener = true → s.calls = [s.established]) ∧
      (rc = true → s.established = true ∧ s.Installed)
  | .thrown => s.listener = true → s.calls = [s.established]
  | _ => True

/-- A call that goes on has told nothing yet. -/
theorem Faithful.of_not_ended {s : State} (h : ¬ s.place.Ended) : Faithful s where
  returned := fun hplace => absurd (by rw [hplace]; trivial) h
  reported := fun _ hended => absurd hended h

theorem faithful_iff_onTrack {s : State} (hended : s.place.Ended) : Faithful s ↔ OnTrack s := by
  cases hplace : s.place with
  | returned rc =>
      rw [OnTrack, hplace]
      constructor
      · intro h
        exact ⟨fun hlistener => h.reported hlistener hended,
          fun hrc => h.returned (by rw [hplace, hrc])⟩
      · rintro ⟨hreported, hreturned⟩
        refine ⟨fun h => hreturned ?_, fun hlistener _ => hreported hlistener⟩
        rw [hplace] at h
        cases h
        rfl
  | thrown =>
      rw [OnTrack, hplace]
      constructor
      · exact fun h hlistener => h.reported hlistener hended
      · intro h
        refine ⟨fun hreturned => ?_, fun hlistener _ => h hlistener⟩
        rw [hplace] at hreturned
        cases hreturned
  | starting | waiting | testing | reporting | installing | checking =>
      rw [hplace] at hended
      exact hended.elim

/-- The token's steps change no outcome. -/
theorem onTrack_completed_iff {s : State} {success : Bool} (hs : Invariant s)
    (htoken : s.token = .pending) :
    OnTrack { s with token := .completed success, established := success } ↔ OnTrack s := by
  have hnot : ¬ s.place.Waited := fun hwaited => by
    have := hs.waited hwaited
    rw [htoken] at this
    cases this
  cases hplace : s.place with
  | thrown =>
      have hcalls : s.calls = [] := hs.thrown hplace (by rw [htoken]; rfl)
      simp [OnTrack, hplace, hcalls]
  | starting | waiting => simp [OnTrack, hplace]
  | testing | reporting | installing | checking | returned =>
      rw [hplace] at hnot
      exact absurd trivial hnot

/-- The step lemma: a call that is on its track stays there by the steps that are as
they should be. -/
theorem onTrack_step_iff {s t : State} {a : Action} (hs : Invariant s) (htrack : OnTrack s)
    (h : machine.step s a = some t) : OnTrack t ↔ Observed s a := by
  cases steps_of_step h with
  | accepted hplace => simp [OnTrack, Observed]
  | rejected hplace =>
      have hcalls : s.calls = [] := hs.silent (by rw [hplace]; trivial)
      simp [OnTrack, Observed, hcalls]
  | completed htoken => exact iff_of_true ((onTrack_completed_iff hs htoken).mpr htrack) trivial
  | listened htoken | notified htoken => exact iff_of_true htrack trivial
  | waited hplace htoken => simp [OnTrack, Observed, htoken]
  | failed hplace hcomplete htoken =>
      have hcalls : s.calls = [] := hs.silent (by rw [hplace]; trivial)
      simp [OnTrack, Observed, hcalls, htoken]
  | timedOut hplace htoken =>
      have hcalls : s.calls = [] := hs.silent (by rw [hplace]; trivial)
      simp [OnTrack, Observed, hcalls]
  | tested hplace hlistener =>
      have htoken := hs.waited (by rw [hplace]; trivial)
      simp [OnTrack, Observed, hlistener, hs.mSuccess, htoken]
  | passed hplace hlistener hsuccess =>
      have hheard := hs.mSuccess
      rw [hsuccess, hs.waited (by rw [hplace]; trivial), Bool.and_true] at hheard
      exact iff_of_true trivial (.inl hheard.symm)
  | skipped hplace hlistener hsuccess =>
      have htoken := hs.waited (by rw [hplace]; trivial)
      have hheard := hs.mSuccess
      rw [hsuccess, htoken, Bool.and_true] at hheard
      simp [OnTrack, Observed, hlistener, hs.established, htoken, ← hheard, State.Installed]
  | reportedSuccess hplace => exact iff_of_true trivial trivial
  | reportedFailure hplace =>
      rw [OnTrack, hplace] at htrack
      cases htrack
  | installed hplace =>
      have hestablished := hs.established
      rw [hs.waited (by rw [hplace]; trivial)] at hestablished
      refine iff_of_true ⟨fun hlistener => ?_, fun _ => ⟨hestablished, _, rfl, rfl⟩⟩ trivial
      exact (hs.installing hplace hlistener).trans (by rw [hestablished])
  | refused hplace =>
      have hestablished := hs.established
      rw [hs.waited (by rw [hplace]; trivial)] at hestablished
      refine iff_of_true (fun hlistener => ?_) trivial
      exact (hs.installing hplace hlistener).trans (by rw [hestablished])
  | checked hplace =>
      rw [OnTrack, hplace] at htrack
      refine iff_of_true ⟨htrack.1, fun hrc => htrack.2 ?_⟩ trivial
      exact ((Bool.and_eq_true _ _).mp hrc).1

/-- A call that has left its track does not come back to it. -/
theorem onTrack_of_step {s t : State} {a : Action} (hs : Invariant s)
    (h : machine.step s a = some t) (ht : OnTrack t) : OnTrack s := by
  cases steps_of_step h with
  | accepted hplace | rejected hplace | waited hplace | failed hplace | timedOut hplace
  | tested hplace | passed hplace | skipped hplace | installed hplace | refused hplace =>
      rw [OnTrack, hplace]
      trivial
  | completed htoken => exact (onTrack_completed_iff hs htoken).mp ht
  | listened htoken | notified htoken => exact ht
  | reportedSuccess hplace =>
      rw [OnTrack, hplace]
  | reportedFailure hplace =>
      -- `on_failure` has been called although the wait has seen a success.
      have hestablished := hs.established
      rw [hs.waited (by rw [hplace]; trivial)] at hestablished
      have hcalls := ht.1 (hs.reporting _ hplace)
      simp only [hs.silent (by rw [hplace]; trivial), hestablished] at hcalls
      cases hcalls
  | checked hplace =>
      have hcomplete := isComplete_of_succeeded (hs.waited (by rw [hplace]; trivial))
      rw [OnTrack, hplace]
      exact ⟨ht.1, fun hrc => ht.2 (by rw [hrc, hcomplete]; rfl)⟩

/-- A call that has ended tells the outcome as it is exactly if its test finds that the
token has called the listener and nothing throws before that. -/
theorem ended_faithful_iff {listener : Bool} {orgId authMethod : StdString}
    {callbackPtr installed : Option Nat} {made : Nat} {acts : List Action} {s : State}
    (hr : machine.Run (.initial listener orgId authMethod callbackPtr installed made) acts s)
    (hended : s.place.Ended) : Faithful s ↔
      machine.Along Observed (.initial listener orgId authMethod callbackPtr installed made)
        acts := by
  rw [faithful_iff_onTrack hended]
  apply hr.final_iff (B := fun _ => True) (I := Invariant) (P := OnTrack)
  · exact fun _ _ _ _ h => h
  · exact fun _ _ _ hs h ht => onTrack_of_step hs h ht
  · exact fun _ _ _ hs h _ => hs.step h
  · exact fun _ _ _ hs htrack h _ => onTrack_step_iff hs htrack h
  · trivial
  · exact invariant_initial ..
  · trivial

/-- In every state of a run whose test finds that the token has called the listener,
and in which nothing throws before that, what the call tells of the outcome is so; and
a call that ends so is one of such a run. -/
theorem faithful_iff {listener : Bool} {orgId authMethod : StdString}
    {callbackPtr installed : Option Nat} {made : Nat} {acts : List Action} {s : State}
    (hr : machine.Run (.initial listener orgId authMethod callbackPtr installed made) acts s) :
    (machine.Along Observed (.initial listener orgId authMethod callbackPtr installed made)
        acts → Faithful s) ∧
      (s.place.Ended → Faithful s → machine.Along Observed
        (.initial listener orgId authMethod callbackPtr installed made) acts) := by
  refine ⟨fun halong => ?_, fun hended => (ended_faithful_iff hr hended).mp⟩
  by_cases hended : s.place.Ended
  · exact (ended_faithful_iff hr hended).mpr halong
  · exact .of_not_ended hended

/-- A first connection with a listener, which waits long enough. -/
theorem faithful_first :
    let s₀ := State.initial true "org".toList "token".toList none none 0
    let acts : List Action := [.connect true, .complete true, .listen, .wait, .test, .report,
      .install true, .check]
    ∃ s, machine.Run s₀ acts s ∧ (machine.Along Observed s₀ acts → Faithful s) ∧
      (s.place.Ended → Faithful s → machine.Along Observed s₀ acts) := by
  intro s₀ acts
  have hr : machine.Run s₀ acts _ := Machine.Run.exec_iff.mp rfl
  exact ⟨_, hr, faithful_iff hr⟩

/-- A first connection that looks at the listener before the token has called it: it
returns true, and there is no callback. -/
theorem faithful_fails : ¬ ∀ (acts : List Action) (s : State),
    machine.Run (.initial false "org".toList "token".toList none none 0) acts s → Faithful s := by
  intro h
  have hr : machine.Run (.initial false "org".toList "token".toList none none 0)
      [.connect true, .complete true, .wait, .test, .check, .listen, .notify] _ :=
    Machine.Run.exec_iff.mp rfl
  obtain ⟨-, callback, hptr, -⟩ := (h _ _ hr).returned rfl
  cases hptr

end Connect
