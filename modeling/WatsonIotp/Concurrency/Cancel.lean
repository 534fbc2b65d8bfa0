import WatsonIotp.Concurrency.Reports

/-!
# Cancelled observations

A request on `iotdm-1/cancel` is answered with 200, and that is all: neither the handler nor
its threads know of observations. A polling thread belongs to the download or the update that
has started it, and notifies the platform of its reports as long as it is under way.
`notified_excused` says which notifications can follow a cancel.
-/

open Json

namespace Polling

variable {D : Type}

/-- What of a run concerns observations and notifications. -/
inductive Event where
  /-- A cancel has been answered with 200, while these threads were under way. -/
  | cancelled (underway : List Nat)
  /-- An observe request has been handled. -/
  | observed
  | started (k : Nat)
  /-- A notification of the thread has been put on the queue. -/
  | notified (k : Nat)

/-- While a cancel holds, the threads that were under way or have been started since. -/
def excused : Option (List Nat) → Event → Option (List Nat)
  | _, .cancelled underway => some underway
  | _, .observed => none
  | some ks, .started k => some (k :: ks)
  | ks, _ => ks

/-- Each notification of a record has the property, given the threads excused before it. -/
def EachNotified (P : Option (List Nat) → Nat → Prop) : Option (List Nat) → List Event → Prop
  | _, [] => True
  | ks, e :: log => (∀ k, e = .notified k → P ks k) ∧ EachNotified P (excused ks e) log

/-- No notification follows a cancel until an observe request. -/
def StaysCancelled (log : List Event) : Prop := EachNotified (fun ks _ => ks = none) none log

/-- The threads that have not ended. -/
def State.underway (s : State D) : List Nat :=
  (List.range s.polls.length).filter fun k => s.polls[k]?.any fun t => ! decide t.Ended

variable [CxxDouble D]

/-- The code of the reply, if there is one. -/
def answeredRc (reply : Except Fault (Option (ReplyMessage D))) : Option Int :=
  reply.toOption.join.bind fun reply => (rc reply.payload).toOption

/-- What there is to see of a request. -/
def requestEvents (s : State D) (m : FirmwareHandler.Message D) : List Event :=
  let run := m.handle s.handler
  (if m.topic = serverCancelTopic ∧ answeredRc run.1 = some 200 then [.cancelled s.underway]
    else []) ++
  (if m.topic = serverObserveTopic ∧ run.1.toOption.isSome then [.observed] else []) ++
  (List.range' s.polls.length (launched s.handler run.2).length).map .started

/-- What there is to see of a step. -/
def observe (s : State D) : Action D → List Event
  | .request m => requestEvents s m
  | .notify k =>
      match s.polls[k]?.bind Poll.notify with
      | some (some _, _) => if s.mClient then [.notified k] else []
      | _ => []
  | _ => []

omit [CxxDouble D] in
theorem launched_self (handler : FirmwareHandler D) : launched handler handler = [] := by
  have hidle : ([.download, .update].filter fun hook =>
      handler.joinable hook = false ∧ handler.joinable hook = true) = [] := by
    apply List.filter_eq_nil_iff.mpr
    intro hook _ h
    obtain ⟨hfalse, htrue⟩ := of_decide_eq_true h
    exact Bool.false_ne_true (hfalse.symm.trans htrue)
  rw [launched, hidle]
  rfl

/-- A cancel leaves the handler and its threads as they are. -/
theorem requested_of_cancel (s : State D) {m : FirmwareHandler.Message D}
    (hcancel : m.topic = serverCancelTopic) :
    (s.requested m).handler = s.handler ∧ (s.requested m).polls = s.polls := by
  have hhandler : (m.handle s.handler).2 = s.handler := by
    cases hvalue : m.value with
    | none => exact (m.handle_of_none hvalue s.handler).1
    | some payload =>
        rw [m.handle_of_some hvalue, FirmwareHandler.outcome, hcancel]
        rfl
  refine ⟨hhandler, ?_⟩
  show s.polls ++ launched s.handler (m.handle s.handler).2 = s.polls
  rw [hhandler, launched_self, List.append_nil]

/-! ### Records -/

section Records

variable {P : Option (List Nat) → Nat → Prop}

theorem eachNotified_append {ks : Option (List Nat)} {log log' : List Event} :
    EachNotified P ks (log ++ log') ↔
      EachNotified P ks log ∧ EachNotified P (log.foldl excused ks) log' := by
  induction log generalizing ks with
  | nil => exact (and_iff_right trivial).symm
  | cons e log ih =>
      show _ ∧ EachNotified P _ (log ++ log') ↔ (_ ∧ EachNotified P _ log) ∧ _
      rw [ih, and_assoc]
      rfl

/-- Events that are no notifications are of no concern. -/
theorem eachNotified_of_ne {ks : Option (List Nat)} {log : List Event}
    (h : ∀ e ∈ log, ∀ k, e ≠ .notified k) : EachNotified P ks log := by
  induction log generalizing ks with
  | nil => trivial
  | cons e log ih =>
      refine ⟨fun k hk => absurd hk (h e List.mem_cons_self k), ih ?_⟩
      intro e' he'
      exact h e' (List.mem_cons_of_mem _ he')

theorem foldl_started (l : List Nat) (ks : Option (List Nat)) :
    (l.map Event.started).foldl excused ks = ks.map (l.reverse ++ ·) := by
  induction l generalizing ks with
  | nil => cases ks <;> rfl
  | cons k l ih =>
      show (l.map Event.started).foldl excused (excused ks (.started k)) = _
      rw [ih]
      cases ks with
      | none => rfl
      | some ks => simp [excused]

end Records

omit [CxxDouble D] in
theorem mem_underway {s : State D} {k : Nat} {t : Poll D} (hpoll : s.polls[k]? = some t)
    (ht : ¬ t.Ended) : k ∈ s.underway := by
  obtain ⟨hlt, -⟩ := List.getElem?_eq_some_iff.mp hpoll
  apply List.mem_filter.mpr
  refine ⟨List.mem_range.mpr hlt, ?_⟩
  rw [hpoll]
  simpa using ht

/-- While a cancel holds, every thread that is under way is excused. -/
def Covered (s : State D) (log : List Event) : Prop :=
  ∀ ks, log.foldl excused none = some ks → ∀ k t, s.polls[k]? = some t → ¬ t.Ended → k ∈ ks

omit [CxxDouble D] in
/-- A thread that goes on was under way. -/
theorem Covered.setPoll {s : State D} {log : List Event} (h : Covered s log) {k : Nat}
    {t u : Poll D} (hpoll : s.polls[k]? = some t) (ht : ¬ t.Ended) :
    Covered (s.setPoll k u) log := by
  intro ks hks j v hv hended
  obtain rfl | hne := eq_or_ne k j
  · exact h ks hks k t hpoll ht
  · apply h ks hks j v _ hended
    rw [← hv]
    exact (List.getElem?_set_ne hne).symm

/-- A request keeps every thread under way excused, and those that it starts. -/
theorem Covered.requested {s : State D} {log : List Event} (h : Covered s log)
    (m : FirmwareHandler.Message D) :
    Covered (s.requested m) (log ++ requestEvents s m) := by
  intro ks hks k t hpoll ht
  rw [requestEvents, List.foldl_append, List.foldl_append, foldl_started] at hks
  obtain ⟨ks', hks', rfl⟩ := Option.map_eq_some_iff.mp hks
  have hold : ∀ {t}, s.polls[k]? = some t → ¬ t.Ended → k ∈ ks' := by
    intro t hpoll ht
    rw [List.foldl_append] at hks'
    split_ifs at hks' with hcancel hobserve hobserve
    · cases hks'
    · obtain rfl := Option.some.inj hks'
      exact mem_underway hpoll ht
    · cases hks'
    · exact h ks' hks' k t hpoll ht
  obtain hlt | hle := Nat.lt_or_ge k s.polls.length
  · apply List.mem_append_right
    apply hold _ ht
    rw [← hpoll]
    exact (List.getElem?_append_left hlt).symm
  · apply List.mem_append_left
    apply List.mem_reverse.mpr
    apply List.mem_range'_1.mpr
    obtain ⟨hlength, -⟩ := List.getElem?_eq_some_iff.mp hpoll
    have hcount : k < (s.polls ++ launched s.handler (m.handle s.handler).2).length := hlength
    rw [List.length_append] at hcount
    omega

/-- A notification is of an excused thread, if a cancel holds. -/
def Excused (ks : Option (List Nat)) (k : Nat) : Prop := ∀ ks', ks = some ks' → k ∈ ks'

theorem not_ended_of_notify {t u : Poll D} {reply : Option (ReplyMessage D)}
    (h : t.notify = some (reply, u)) : ¬ t.Ended := by
  obtain ⟨hphase, -⟩ := Poll.notify_eq_some h
  rintro (hended | hended) <;> rw [hphase] at hended <;> cases hended

/-- A request notifies of nothing. -/
theorem requestEvents_ne (s : State D) (m : FirmwareHandler.Message D) :
    ∀ e ∈ requestEvents s m, ∀ k, e ≠ .notified k := by
  intro e he k
  have honly : ∀ (c : Prop) [Decidable c] (e' : Event), e ∈ (if c then [e'] else []) → e = e' := by
    intro c _ e' hmem
    split_ifs at hmem
    · exact List.mem_singleton.mp hmem
    · cases hmem
  obtain he | he := List.mem_append.mp he
  · obtain he | he := List.mem_append.mp he
    · obtain rfl := honly _ _ he
      exact Event.noConfusion
    · obtain rfl := honly _ _ he
      exact Event.noConfusion
  · obtain ⟨j, -, rfl⟩ := List.mem_map.mp he
    exact Event.noConfusion

theorem observe_notify (s : State D) (k : Nat) :
    observe s (.notify k) = [] ∨ observe s (.notify k) = [.notified k] := by
  rw [observe]
  split
  · split_ifs
    · exact .inr rfl
    · exact .inl rfl
  · exact .inl rfl

omit [CxxDouble D] in
theorem Covered.append_notified {s : State D} {log : List Event} {k : Nat} (h : Covered s log) :
    Covered s (log ++ [.notified k]) := by
  intro ks hks
  apply h ks
  rw [List.foldl_append] at hks
  revert hks
  cases log.foldl excused none with
  | none => exact id
  | some ks => exact id

/-- The step lemma. -/
theorem covered_step {s u : State D} {log : List Event} {a : Action D}
    (h : Covered s log ∧ EachNotified Excused none log) (hstep : machine.step s a = some u) :
    Covered u (log ++ observe s a) ∧ EachNotified Excused none (log ++ observe s a) := by
  obtain ⟨hcovered, hnotified⟩ := h
  obtain ⟨-, hsteps⟩ := steps_of_step hstep
  have hnothing : Covered u log → Covered u (log ++ []) ∧ EachNotified Excused none (log ++ []) :=
    fun hu => by
      rw [List.append_nil]
      exact ⟨hu, hnotified⟩
  cases hsteps with
  | bound | derivedDestroyed | downloadJoined | updateJoined | clientDestroyed =>
      exact hnothing hcovered
  | entered hpoll hphase =>
      apply hnothing
      apply hcovered.setPoll hpoll
      rintro (hended | hended) <;> rw [hphase] at hended <;> cases hended
  | reported hpoll hphase =>
      apply hnothing
      apply hcovered.setPoll hpoll
      rintro (hended | hended) <;> rw [hphase] at hended <;> cases hended
  | @requested m hobject hclient =>
      refine ⟨hcovered.requested m, eachNotified_append.mpr ⟨hnotified, ?_⟩⟩
      exact eachNotified_of_ne (requestEvents_ne s m)
  | @notified k t u' reply hpoll hnotify =>
      have ht := not_ended_of_notify hnotify
      have hu : Covered (s.notified k reply u') log := hcovered.setPoll hpoll ht
      obtain hobserve | hobserve := observe_notify s k
      · show Covered _ (log ++ observe s (.notify k)) ∧
          EachNotified Excused none (log ++ observe s (.notify k))
        rw [hobserve]
        exact hnothing hu
      · show Covered _ (log ++ observe s (.notify k)) ∧
          EachNotified Excused none (log ++ observe s (.notify k))
        rw [hobserve]
        refine ⟨hu.append_notified, eachNotified_append.mpr ⟨hnotified, ?_, trivial⟩⟩
        intro k' hk' ks hks
        cases hk'
        exact hcovered ks hks k t hpoll ht

/-- In every run, a notification that follows a cancel, with no observe request after it, is
of a thread that was under way when the cancel was answered, or that a request has started
since. -/
theorem notified_excused {s : State D} {acts : List (Action D)} {log : List Event}
    (hr : (machine.recorded observe).Run (.initial, []) acts (s, log)) :
    EachNotified Excused none log := by
  have hinitial : Covered (.initial : State D) [] := by
    intro ks hks
    cases hks
  have hcovered : Covered s log ∧ EachNotified Excused none log :=
    hr.recorded_invariant (I := fun s log => Covered s log ∧ EachNotified Excused none log)
      (fun _ _ _ _ h hstep => covered_step h hstep) ⟨hinitial, trivial⟩
  exact hcovered.2

/-- A cancel that names its request. -/
def cancelRequest : FirmwareHandler.Message Int :=
  .json FirmwareHandler.agreeableHooks serverCancelTopic
    (.objectValue [("reqId".toList, .stringValue "r".toList)])

/-- The download of `soundThreads_one`, cancelled before its report. -/
theorem notified_excused_download :
    let acts : List (Action Int) := [.bind, .request downloadRequest, .enter 0,
      .request cancelRequest, .report 0 [.state stateDownloaded], .notify 0]
    ∃ s log, (machine.recorded observe).Run (.initial, []) acts (s, log) ∧
      log = [.started 0, .cancelled [0], .notified 0] ∧ EachNotified Excused none log := by
  intro acts
  have hr : (machine.recorded observe).Run (.initial, []) acts
      (_, [.started 0, .cancelled [0], .notified 0]) := Machine.Run.exec_iff.mp rfl
  exact ⟨_, _, hr, rfl, notified_excused hr⟩

/-- That download notifies, although it has been cancelled. -/
theorem notified_excused_fails : ¬ ∀ (acts : List (Action Int)) (s : State Int)
    (log : List Event), (machine.recorded observe).Run (.initial, []) acts (s, log) →
      StaysCancelled log := by
  intro h
  have hexec : ∃ s, (machine.recorded observe).exec ((.initial : State Int), [])
      [.bind, .request downloadRequest, .enter 0, .request cancelRequest,
        .report 0 [.state stateDownloaded], .notify 0] =
      some (s, [.started 0, .cancelled [0], .notified 0]) := ⟨_, rfl⟩
  obtain ⟨s, hexec⟩ := hexec
  obtain ⟨-, -, hnotified, -⟩ := h _ s _ (Machine.Run.exec_iff.mp hexec)
  cases hnotified 0 rfl

end Polling
