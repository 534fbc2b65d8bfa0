import WatsonIotp.Client.Subscription
import Mathlib.Data.Finset.Union
import Mathlib.Data.List.Nodup

/-!
# Managing a device, and no longer managing it

`manage` registers the response handler, sends its request and, once the server has
accepted the device, registers the other handlers one by one. Nothing takes them back:
an exception in the middle leaves those that are registered by then, and `unmanage`
unsubscribes the topic of the responses and leaves all handlers where they are.

`exec_manage_of_admitted` and `manage_eq_true_iff` say what a call of `manage` comes to.
-/

open Json

namespace Subscription

section Additions

variable {α : Type} [DecidableEq α]

/-- The elements of a list that are not among the old ones, each of them once. -/
def additions : List α → List α → List α
  | _, [] => []
  | old, a :: l => if a ∈ old then additions old l else a :: additions (old ++ [a]) l

theorem mem_additions {old l : List α} {a : α} : a ∈ additions old l ↔ a ∈ l ∧ a ∉ old := by
  induction l generalizing old with
  | nil => simp [additions]
  | cons b l ih =>
      rw [additions]
      split
      · next hb =>
          rw [ih, List.mem_cons, or_and_right, or_iff_right]
          rintro ⟨rfl, hold⟩
          exact hold hb
      · next hb =>
          rw [List.mem_cons, ih, List.mem_cons]
          by_cases hab : a = b
          · simp [hab, hb]
          · simp [hab]

theorem additions_eq_nil_iff {old l : List α} : additions old l = [] ↔ ∀ a ∈ l, a ∈ old := by
  rw [List.eq_nil_iff_forall_not_mem]
  simp only [mem_additions, not_and, not_not]

/-- Of the old elements, only those in the list make a difference. -/
theorem additions_congr {old old' l : List α} (h : ∀ a ∈ l, a ∈ old ↔ a ∈ old') :
    additions old l = additions old' l := by
  induction l generalizing old old' with
  | nil => rfl
  | cons b l ih =>
      obtain ⟨hb, hl⟩ := List.forall_mem_cons.mp h
      have hnext : additions (old ++ [b]) l = additions (old' ++ [b]) l := by
        apply ih
        intro a ha
        simp only [List.mem_append, hl a ha]
      rw [additions, additions, ih hl, hnext]
      simp only [hb]

end Additions

variable {η D : Type}

/-! ### What registrations come to -/

/-- The broker grants the next `n` requests. -/
def Registry.Granted (s : Registry η) (n : Nat) : Prop := ∀ answer ∈ s.script.take n, answer = true

instance (s : Registry η) (n : Nat) : Decidable (s.Granted n) :=
  inferInstanceAs (Decidable (∀ answer ∈ s.script.take n, answer = true))

theorem granted_zero (s : Registry η) : s.Granted 0 := by
  simp [Registry.Granted]

theorem Registry.Granted.mono {s : Registry η} {m n : Nat} (h : s.Granted n) (hle : m ≤ n) :
    s.Granted m := by
  intro answer hanswer
  exact h answer (List.take_subset_take_left _ hle hanswer)

theorem granted_add {s : Registry η} {m n : Nat} : s.Granted (m + n) ↔
    s.Granted m ∧ ∀ answer ∈ (s.script.drop m).take n, answer = true := by
  simp only [Registry.Granted, List.take_add, List.mem_append, or_imp, forall_and]

theorem granted_succ {s : Registry η} {n : Nat} :
    s.Granted (n + 1) ↔ ¬ s.Refused ∧ s.answered.Granted n := by
  obtain ⟨_, _, _, _, script⟩ := s
  cases script with
  | nil => simp [Registry.Granted, Registry.Refused, Registry.answered]
  | cons answer script =>
      simp [Registry.Granted, Registry.Refused, Registry.answered, List.take_succ_cons]

variable [DecidableEq η]

/-- After the pairs have been registered, each with one request to the broker. -/
def Registry.registered (s : Registry η) (pairs : List (StdString × η)) :
    Registry η where
  mSubscriptions := s.mSubscriptions ++ pairs.map Prod.fst
  mHandlers := s.mHandlers ++ pairs
  mClient := pairs.foldl (fun mClient pair => Function.update mClient pair.2 true) s.mClient
  broker := s.broker ∪ (pairs.map Prod.fst).toFinset
  script := s.script.drop pairs.length

@[simp] theorem registered_nil (s : Registry η) : s.registered [] = s := by
  obtain ⟨_, _, _, _, _⟩ := s
  simp [Registry.registered]

theorem registered_cons (s : Registry η) (pair : StdString × η) (pairs : List (StdString × η)) :
    s.registered (pair :: pairs) = (s.registered [pair]).registered pairs := by
  simp [Registry.registered]

theorem granted_registered {s : Registry η} {pair : StdString × η} {n : Nat} :
    (s.registered [pair]).Granted n ↔ s.answered.Granted n := by
  simp [Registry.Granted, Registry.registered, Registry.answered]

/-- One more request is granted if the next answer is no refusal. -/
theorem granted_length_succ {s : Registry η} {pairs : List (StdString × η)} :
    s.Granted (pairs.length + 1) ↔ s.Granted pairs.length ∧ ¬ (s.registered pairs).Refused := by
  simp only [Registry.Granted, Registry.Refused, Registry.registered, List.head?_drop,
    List.take_add_one, List.mem_append, Option.mem_toList, or_imp, forall_and]
  apply and_congr_right'
  cases s.script[pairs.length]? with
  | none => simp
  | some answer => cases answer <;> simp

/-- A refusal among the registrations means that not all of them are granted. -/
theorem not_granted_of_refused {s : Registry η} {front back : List (StdString × η)}
    {pair : StdString × η} (h : (s.registered front).Refused) :
    ¬ s.Granted (front ++ pair :: back).length := by
  intro hall
  have hfront := hall.mono (m := front.length + 1) (by simp)
  exact (granted_length_succ.mp hfront).2 h

theorem exec_register (topic : StdString) (handler : η) (s : Registry η) :
    (subscribeCommandHandler topic handler).exec s =
      if (topic, handler) ∈ s.mHandlers then (.ok true, s)
      else if s.Refused then (.error .mqtt, s.answered)
      else (.ok true, s.registered [(topic, handler)]) := by
  rw [exec_subscribeCommandHandler]
  congr 2
  simp [Registry.registered, Registry.answered]

/-- The registrations of a list: the new pairs are registered up to the first that the
broker refuses. -/
theorem exec_subscribeAll (pairs : List (StdString × η)) (s : Registry η) :
    s.Granted (additions s.mHandlers pairs).length ∧
        (subscribeAll pairs).exec s = (.ok ⟨⟩, s.registered (additions s.mHandlers pairs)) ∨
      ∃ front pair back, additions s.mHandlers pairs = front ++ pair :: back ∧
        s.Granted front.length ∧ (s.registered front).Refused ∧
        (subscribeAll pairs).exec s = (.error .mqtt, (s.registered front).answered) := by
  induction pairs generalizing s with
  | nil =>
      left
      exact ⟨granted_zero s, by rw [additions, registered_nil]; rfl⟩
  | cons pair pairs ih =>
      obtain ⟨topic, handler⟩ := pair
      rw [additions]
      by_cases hmem : (topic, handler) ∈ s.mHandlers
      · have hexec : (subscribeAll ((topic, handler) :: pairs)).exec s =
            (subscribeAll pairs).exec s := by
          rw [subscribeAll, Proc.exec_bind_ok (by rw [exec_register, if_pos hmem])]
        rw [if_pos hmem, hexec]
        exact ih s
      · rw [if_neg hmem]
        by_cases hrefused : s.Refused
        · right
          refine ⟨[], (topic, handler), _, rfl, granted_zero s, by rwa [registered_nil], ?_⟩
          rw [subscribeAll, Proc.exec_bind_error (by rw [exec_register, if_neg hmem,
            if_pos hrefused]), registered_nil]
        · have hexec : (subscribeAll ((topic, handler) :: pairs)).exec s =
              (subscribeAll pairs).exec (s.registered [(topic, handler)]) := by
            rw [subscribeAll, Proc.exec_bind_ok (by rw [exec_register, if_neg hmem,
              if_neg hrefused])]
          rw [hexec]
          obtain ⟨hgranted, hrun⟩ | ⟨front, pair, back, hnew, hgranted, hlast, hrun⟩ :=
            ih (s.registered [(topic, handler)])
          · left
            refine ⟨?_, hrun.trans (by rw [← registered_cons]; rfl)⟩
            exact granted_succ.mpr ⟨hrefused, granted_registered.mp hgranted⟩
          · right
            refine ⟨(topic, handler) :: front, pair, back, congrArg _ hnew, ?_, ?_, ?_⟩
            · exact granted_succ.mpr ⟨hrefused, granted_registered.mp hgranted⟩
            · rwa [registered_cons s (topic, handler) front]
            · rwa [registered_cons s (topic, handler) front]

/-! ### What `manage` comes to -/

/-- The registration that every call of `manage` begins with. -/
def Handlers.response (hs : Handlers η) : StdString × η :=
  (serverResponseTopic, hs.mResponseHandler)

/-- The state in which `manage` sends its request. -/
def Registry.responsive (s : Registry η) (hs : Handlers η) : Registry η :=
  s.registered (additions s.mHandlers [hs.response])

/-- The number of requests to the broker before `manage` registers its handlers: that for
the topic of the responses, unless it is registered, and the message. -/
def Registry.preliminaries (s : Registry η) (hs : Handlers η) : Nat :=
  (additions s.mHandlers [hs.response]).length + 1

/-- The handlers that `manage` has to register. -/
def Registry.missing (s : Registry η) (hs : Handlers η) : List (StdString × η) :=
  additions s.mHandlers hs.managed

omit [DecidableEq η] in
/-- None of them is for the topic of the responses. -/
theorem Handlers.topic_ne {hs : Handlers η} {pair : StdString × η} (h : pair ∈ hs.managed) :
    pair.1 ≠ serverResponseTopic := by
  simp only [managed, List.mem_append, List.mem_flatMap, List.mem_cons, List.not_mem_nil, or_false,
    List.mem_map] at h
  obtain (⟨_, _, rfl | rfl | rfl | rfl | rfl⟩ | ⟨_, _, rfl | rfl⟩) | ⟨_, _, rfl⟩ := h
  all_goals
    dsimp only
    decide

theorem additions_responsive (s : Registry η) (hs : Handlers η) :
    additions (s.responsive hs).mHandlers hs.managed = s.missing hs := by
  apply additions_congr
  intro pair hpair
  have hne : pair ≠ hs.response := fun h => hs.topic_ne hpair (h ▸ rfl)
  simp [Registry.responsive, Registry.registered, mem_additions, hne]

theorem mHandlers_responsive (hs : Handlers η) (s : Registry η) :
    (s.responsive hs).mHandlers = s.mHandlers ∨
      (s.responsive hs).mHandlers = s.mHandlers ++ [hs.response] := by
  simp only [Registry.responsive, Registry.registered, additions]
  split
  · exact .inl (List.append_nil _)
  · exact .inr rfl

theorem exec_subscribe_response (hs : Handlers η) (s : Registry η) :
    (subscribeCommandHandler serverResponseTopic hs.mResponseHandler).exec s =
      if s.Granted (additions s.mHandlers [hs.response]).length then (.ok true, s.responsive hs)
      else (.error .mqtt, s.answered) := by
  rw [exec_register, Registry.responsive, additions, additions, additions]
  by_cases hmem : hs.response ∈ s.mHandlers
  · simp only [if_pos hmem, registered_nil, List.length_nil, granted_zero, if_true]
    exact if_pos hmem
  · simp only [if_neg hmem, List.length_singleton, granted_succ, granted_zero, and_true]
    refine (if_neg hmem).trans ?_
    by_cases hrefused : s.Refused
    · simp [hrefused]
    · simp [hrefused, Handlers.response]

section

variable [CxxDouble D]

/-- The responses are subscribed, the message is sent, and the server accepts the device. -/
structure Admitted (hs : Handlers η) (s : Registry η) (reqId : StdString) (res : Value D) :
    Prop where
  granted : s.Granted (s.preliminaries hs)
  reqId_ne : reqId ≠ []
  rc_eq : rc res = .ok 200

variable {hs : Handlers η} {s t : Registry η} {reqId : StdString} {res : Value D}

theorem granted_preliminaries : s.Granted (s.preliminaries hs) ↔
    s.Granted (additions s.mHandlers [hs.response]).length ∧ ¬ (s.responsive hs).Refused :=
  granted_length_succ

/-- Once the device is accepted, everything depends on the registrations. -/
theorem exec_manage_of_admitted (h : Admitted hs s reqId res) :
    (manage hs reqId res).exec s =
      match (subscribeAll hs.managed).exec (s.responsive hs).answered with
      | (.ok _, t) => (.ok true, t)
      | (.error e, t) => (.error e, t) := by
  obtain ⟨hresponse, hrefused⟩ := granted_preliminaries.mp h.granted
  rw [manage, Proc.exec_bind_ok (by rw [exec_subscribe_response, if_pos hresponse]), if_pos rfl,
    Proc.exec_bind_ok (by rw [exec_sendMessage, if_neg hrefused]), if_neg h.reqId_ne, h.rc_eq,
    Proc.exec_bind_ok (Proc.exec_ofExcept _ _ _), if_pos rfl, Proc.exec_bind]
  cases (subscribeAll hs.managed).exec (s.responsive hs).answered with
  | mk outcome t => cases outcome <;> rfl

/-- Otherwise the call does not return true, and registers no more than the handler of
the responses. -/
theorem exec_manage_of_not_admitted (h : ¬ Admitted hs s reqId res) :
    ((manage hs reqId res).exec s).1 ≠ .ok true ∧
      (((manage hs reqId res).exec s).2.mHandlers = s.mHandlers ∨
        ((manage hs reqId res).exec s).2.mHandlers = s.mHandlers ++ [hs.response]) := by
  have hhandlers := mHandlers_responsive hs s
  rw [manage]
  by_cases hresponse : s.Granted (additions s.mHandlers [hs.response]).length
  · rw [Proc.exec_bind_ok (by rw [exec_subscribe_response, if_pos hresponse]), if_pos rfl]
    by_cases hrefused : (s.responsive hs).Refused
    · rw [Proc.exec_bind_error (by rw [exec_sendMessage, if_pos hrefused])]
      exact ⟨by simp, hhandlers⟩
    · rw [Proc.exec_bind_ok (by rw [exec_sendMessage, if_neg hrefused])]
      by_cases hid : reqId = []
      · rw [if_pos hid]
        exact ⟨by simp, hhandlers⟩
      · rw [if_neg hid]
        cases hrc : rc res with
        | error e =>
            rw [Proc.exec_bind_error (Proc.exec_ofExcept _ _ _)]
            exact ⟨by simp, hhandlers⟩
        | ok code =>
            rw [Proc.exec_bind_ok (Proc.exec_ofExcept _ _ _)]
            by_cases hcode : code = 200
            · have hgranted := granted_preliminaries.mpr ⟨hresponse, hrefused⟩
              exact absurd ⟨hgranted, hid, hcode ▸ hrc⟩ h
            · rw [if_neg hcode]
              exact ⟨by simp, hhandlers⟩
  · rw [Proc.exec_bind_error (by rw [exec_subscribe_response, if_neg hresponse])]
    exact ⟨by simp, .inl rfl⟩

/-- A call returns true exactly if everything is granted and the server accepts the device;
then it has registered what was missing. -/
theorem manage_eq_true_iff : (manage hs reqId res).exec s = (.ok true, t) ↔
    Admitted hs s reqId res ∧ (s.responsive hs).answered.Granted (s.missing hs).length ∧
      t = (s.responsive hs).answered.registered (s.missing hs) := by
  by_cases h : Admitted hs s reqId res
  · rw [exec_manage_of_admitted h, and_iff_right h]
    have hmissing : additions (s.responsive hs).answered.mHandlers hs.managed = s.missing hs :=
      additions_responsive s hs
    obtain ⟨hgranted, hrun⟩ | ⟨front, pair, back, hnew, hgranted, hlast, hrun⟩ :=
      exec_subscribeAll hs.managed (s.responsive hs).answered
    · rw [hrun, hmissing] at *
      simp [hgranted, eq_comm]
    · rw [hrun]
      refine iff_of_false nofun ?_
      rintro ⟨hall, -⟩
      rw [← hmissing, hnew] at hall
      exact not_granted_of_refused hlast hall
  · refine iff_of_false (fun heq => ?_) fun hand => h hand.1
    have hne := (exec_manage_of_not_admitted h).1
    rw [heq] at hne
    exact hne rfl

/-- All handlers of `manage` are registered. -/
structure Managed (hs : Handlers η) (s : Registry η) : Prop where
  response : hs.response ∈ s.mHandlers
  managed : ∀ pair ∈ hs.managed, pair ∈ s.mHandlers

/-- A call that returns true leaves all its handlers registered. -/
theorem managed_of_manage
    (h : (manage hs reqId res).exec s = (.ok true, t)) : Managed hs t := by
  obtain ⟨-, -, rfl⟩ := manage_eq_true_iff.mp h
  constructor
  · apply List.mem_append_left
    simp only [Registry.responsive, Registry.registered, Registry.answered, List.mem_append,
      mem_additions, List.mem_singleton, true_and]
    exact em _
  · intro pair hpair
    simp only [Registry.responsive, Registry.registered, Registry.answered, Registry.missing,
      List.mem_append, mem_additions]
    tauto

end

/-! ### A client with a firmware handler -/

def firmwareHandlers : Handlers Nat := ⟨0, some 1, none, none⟩

/-- The server accepts the device. -/
def accepted : Value Int := .objectValue [("rc".toList, .intValue 200)]

/-! ### All or nothing -/

section

variable [CxxDouble D] {hs : Handlers η} {s t : Registry η} {reqId : StdString} {res : Value D}

/-- A call that returns true has every handler registered and its topic subscribed at the
broker, and one that does not has registered no more than the handler of the responses. -/
structure AllOrNothing (hs : Handlers η) (s : Registry η) (outcome : Except Fault Bool)
    (t : Registry η) : Prop where
  all : outcome = .ok true → ∀ pair ∈ hs.managed, pair ∈ t.mHandlers ∧ pair.1 ∈ t.broker
  nothing : outcome ≠ .ok true →
    t.mHandlers = s.mHandlers ∨ t.mHandlers = s.mHandlers ++ [hs.response]

/-- The topics of the handlers that are registered already are subscribed at the broker, or
will be along with another handler. -/
def Registry.Covered (s : Registry η) (hs : Handlers η) : Prop :=
  ∀ pair ∈ hs.managed, pair.1 ∈ s.broker ∨ ∃ pair' ∈ s.missing hs, pair'.1 = pair.1

omit [CxxDouble D] in
/-- The answers that are left for the registrations. -/
theorem script_responsive (hs : Handlers η) (s : Registry η) :
    (s.responsive hs).answered.script = s.script.drop (s.preliminaries hs) := by
  simp [Registry.responsive, Registry.registered, Registry.answered, Registry.preliminaries]

omit [CxxDouble D] in
/-- After all registrations, the topics of all handlers are subscribed if they are covered. -/
theorem covered_iff : s.Covered hs ↔ ∀ pair ∈ hs.managed,
    pair ∈ ((s.responsive hs).answered.registered (s.missing hs)).mHandlers ∧
      pair.1 ∈ ((s.responsive hs).answered.registered (s.missing hs)).broker := by
  apply forall₂_congr
  intro pair hpair
  have hne := hs.topic_ne hpair
  have hhandlers : pair ∈ s.mHandlers ∨ pair ∈ s.missing hs := by
    rw [Registry.missing, mem_additions, and_iff_right hpair]
    exact em _
  have htopic : (∃ pair' ∈ additions s.mHandlers [hs.response], pair'.1 = pair.1) ↔ False := by
    simp only [mem_additions, List.mem_singleton, iff_false]
    rintro ⟨_, ⟨rfl, -⟩, heq⟩
    exact hne heq.symm
  simp only [Registry.registered, Registry.answered, Registry.responsive, List.mem_append,
    Finset.mem_union, List.mem_toFinset, List.mem_map, htopic, or_false]
  tauto

omit [CxxDouble D] in
theorem allOrNothing_granted_iff : AllOrNothing hs s (.ok true)
    ((s.responsive hs).answered.registered (s.missing hs)) ↔ s.Covered hs := by
  rw [covered_iff]
  exact ⟨fun h => h.all rfl, fun h => ⟨fun _ => h, fun hne => absurd rfl hne⟩⟩

omit [CxxDouble D] in
/-- What has been registered before a refusal stays. -/
theorem allOrNothing_refused_iff {front back : List (StdString × η)}
    (hmissing : s.missing hs = front ++ back) : AllOrNothing hs s (.error .mqtt)
      ((s.responsive hs).answered.registered front).answered ↔ front = [] := by
  constructor
  · intro h
    by_contra hne
    obtain ⟨pair, hpair⟩ := List.exists_mem_of_ne_nil _ hne
    obtain ⟨hmanaged, hold⟩ := mem_additions.mp (show pair ∈ s.missing hs by simp [hmissing, hpair])
    have hresponse : pair ≠ hs.response := fun heq => hs.topic_ne hmanaged (heq ▸ rfl)
    have hleft : pair ∈ ((s.responsive hs).answered.registered front).answered.mHandlers :=
      List.mem_append_right _ hpair
    obtain hhandlers | hhandlers := h.nothing nofun
    · exact hold (hhandlers ▸ hleft)
    · rw [hhandlers, List.mem_append, List.mem_singleton] at hleft
      exact hleft.elim hold hresponse
  · rintro rfl
    refine ⟨nofun, fun _ => ?_⟩
    rw [registered_nil]
    exact mHandlers_responsive hs s

/-- A call of `manage` registers all of its handlers or none exactly if, supposing that the
server accepts the device, the broker refuses the first registration that is missing, or
grants them all and has the topics of the others. -/
theorem manage_allOrNothing_iff (hs : Handlers η) (s : Registry η) (reqId : StdString)
    (res : Value D) :
    AllOrNothing hs s ((manage hs reqId res).exec s).1 ((manage hs reqId res).exec s).2 ↔
      (Admitted hs s reqId res →
        s.missing hs ≠ [] ∧ (s.script.drop (s.preliminaries hs)).head? = some false ∨
        s.Granted (s.preliminaries hs + (s.missing hs).length) ∧ s.Covered hs) := by
  by_cases h : Admitted hs s reqId res
  · rw [exec_manage_of_admitted h, forall_prop_of_true h, ← script_responsive]
    have hmissing : additions (s.responsive hs).answered.mHandlers hs.managed = s.missing hs :=
      additions_responsive s hs
    have hgrantedIff : s.Granted (s.preliminaries hs + (s.missing hs).length) ↔
        (s.responsive hs).answered.Granted (s.missing hs).length := by
      rw [granted_add, and_iff_right h.granted, Registry.Granted, script_responsive]
    rw [hgrantedIff]
    obtain ⟨hgranted, hrun⟩ | ⟨front, pair, back, hnew, hgranted, hlast, hrun⟩ :=
      exec_subscribeAll hs.managed (s.responsive hs).answered
    · rw [hrun]
      rw [hmissing] at hgranted ⊢
      refine allOrNothing_granted_iff.trans ⟨fun hand => .inr ⟨hgranted, hand⟩, ?_⟩
      rintro (⟨hne, hrefused⟩ | ⟨-, hand⟩)
      · have hpos : 1 ≤ (s.missing hs).length := List.length_pos_of_ne_nil hne
        exact absurd hrefused (granted_succ.mp (hgranted.mono hpos)).1
      · exact hand
    · rw [hrun]
      rw [hmissing] at hnew
      have hlate : ¬ (s.responsive hs).answered.Granted (s.missing hs).length := by
        rw [hnew]
        exact not_granted_of_refused hlast
      have hmissing_ne : s.missing hs ≠ [] := by simp [hnew]
      rw [or_iff_left fun hand => hlate hand.1, and_iff_right hmissing_ne,
        allOrNothing_refused_iff hnew]
      cases front with
      | nil => exact iff_of_true rfl (by rwa [registered_nil] at hlast)
      | cons first front =>
          exact iff_of_false (List.cons_ne_nil _ _) (granted_succ.mp hgranted).1
  · refine iff_of_true ?_ fun hand => absurd hand h
    obtain ⟨hne, hhandlers⟩ := exec_manage_of_not_admitted h
    exact ⟨fun heq => absurd heq hne, fun _ => hhandlers⟩

/-- A call that returns true has every handler registered, and has subscribed what it has
registered. One that does not has registered the handler of the responses at most, unless the
server has accepted the device; then the registrations ahead of the refused one stay. -/
structure RegistersInTurn (hs : Handlers η) (s : Registry η) (admitted : Prop)
    (outcome : Except Fault Bool) (t : Registry η) : Prop where
  all : outcome = .ok true → ∀ pair ∈ hs.managed, pair ∈ t.mHandlers ∧
    (pair ∈ s.missing hs ∨ pair.1 ∈ s.broker → pair.1 ∈ t.broker)
  nothing : outcome ≠ .ok true → ¬ admitted →
    t.mHandlers = s.mHandlers ∨ t.mHandlers = s.mHandlers ++ [hs.response]
  inTurn : outcome ≠ .ok true → admitted → outcome = .error .mqtt ∧
    ∃ front pair back, s.missing hs = front ++ pair :: back ∧
      t.mHandlers = (s.responsive hs).mHandlers ++ front ∧ ∀ pair' ∈ front, pair'.1 ∈ t.broker

omit [CxxDouble D] in
/-- A registration is at the broker afterwards, and so is what was there before. -/
theorem mem_broker_registered {pairs : List (StdString × η)} {pair : StdString × η}
    (h : pair ∈ pairs ∨ pair.1 ∈ s.broker) :
    pair.1 ∈ ((s.responsive hs).answered.registered pairs).broker := by
  simp only [Registry.registered, Registry.answered, Registry.responsive, Finset.mem_union,
    List.mem_toFinset]
  exact h.elim (fun hpair => .inr (List.mem_map_of_mem hpair)) fun hbroker => .inl (.inl hbroker)

/-- `manage` makes its registrations in turn, and does not undo them. -/
theorem manage_registersInTurn (hs : Handlers η) (s : Registry η) (reqId : StdString)
    (res : Value D) : RegistersInTurn hs s (Admitted hs s reqId res)
      ((manage hs reqId res).exec s).1 ((manage hs reqId res).exec s).2 := by
  by_cases h : Admitted hs s reqId res
  · have hmissing : additions (s.responsive hs).answered.mHandlers hs.managed = s.missing hs :=
      additions_responsive s hs
    rw [exec_manage_of_admitted h]
    obtain ⟨-, hrun⟩ | ⟨front, pair, back, hnew, -, -, hrun⟩ :=
      exec_subscribeAll hs.managed (s.responsive hs).answered
    · rw [hrun, hmissing]
      refine ⟨fun _ pair hpair => ⟨?_, mem_broker_registered⟩, fun hne => absurd rfl hne,
        fun hne => absurd rfl hne⟩
      by_cases hold : pair ∈ s.mHandlers
      · exact List.mem_append_left _ (List.mem_append_left _ hold)
      · exact List.mem_append_right _ (mem_additions.mpr ⟨hpair, hold⟩)
    · rw [hrun]
      refine ⟨(fun heq => by cases heq), fun _ hnot => absurd h hnot, fun _ _ => ⟨rfl, ?_⟩⟩
      refine ⟨front, pair, back, hmissing.symm.trans hnew, rfl, fun pair' hpair' => ?_⟩
      exact mem_broker_registered (.inl hpair')
  · obtain ⟨hne, hhandlers⟩ := exec_manage_of_not_admitted h
    exact ⟨fun heq => absurd heq hne, fun _ _ => hhandlers, fun _ hadmitted => absurd hadmitted h⟩

/-- The broker refuses the second topic of the firmware handler: `manage` throws, and the
handler stays on the first. -/
theorem manage_allOrNothing_fails : ¬ ∀ (hs : Handlers Nat) (s : Registry Nat)
    (reqId : StdString) (res : Value Int),
    AllOrNothing hs s ((manage hs reqId res).exec s).1 ((manage hs reqId res).exec s).2 := by
  intro h
  have hexec : ∃ t, (manage firmwareHandlers "101".toList accepted).exec
      { Registry.fresh with script := [true, true, true, false] } = (.error .mqtt, t) ∧
      t.mHandlers = [(serverResponseTopic, 0), (serverUpdateTopic, 1)] :=
    ⟨_, rfl, rfl⟩
  obtain ⟨t, hexec, hhandlers⟩ := hexec
  have hnothing := (h firmwareHandlers _ _ _).nothing (by rw [hexec]; nofun)
  rw [hexec, hhandlers] at hnothing
  obtain hnothing | hnothing := hnothing <;> cases hnothing

/-! ### `unmanage` after `manage` -/

omit [DecidableEq η] [CxxDouble D] in
theorem unmanage_eq_ok {b : Bool} (h : (unmanage reqId).exec s = (.ok b, t)) :
    t.mHandlers = s.mHandlers ∧
      if serverResponseTopic ∈ s.mSubscriptions then
        t.mSubscriptions = s.mSubscriptions.erase serverResponseTopic ∧
          t.broker = s.broker.erase serverResponseTopic
      else t.mSubscriptions = s.mSubscriptions ∧ t.broker = s.broker := by
  rw [unmanage] at h
  by_cases hrefused : s.Refused
  · rw [Proc.exec_bind_error (by rw [exec_sendMessage, if_pos hrefused])] at h
    cases h
  · rw [Proc.exec_bind_ok (by rw [exec_sendMessage, if_neg hrefused]), Proc.exec_bind,
      exec_unsubscribeCommands] at h
    by_cases hmem : serverResponseTopic ∈ s.mSubscriptions
    · rw [if_pos hmem]
      rw [if_pos (show serverResponseTopic ∈ s.answered.mSubscriptions from hmem)] at h
      split at h
      · next hexec =>
          split at hexec
          · cases hexec
          · cases hexec
            cases h
            exact ⟨rfl, rfl, rfl⟩
      · cases h
    · rw [if_neg hmem]
      rw [if_neg (show serverResponseTopic ∉ s.answered.mSubscriptions from hmem)] at h
      cases h
      exact ⟨rfl, rfl, rfl⟩

/-- Topics, handlers and the subscriptions at the broker are those of the earlier state. -/
structure Restored (s t : Registry η) : Prop where
  subscriptions : t.mSubscriptions = s.mSubscriptions
  handlers : t.mHandlers = s.mHandlers
  broker : t.broker = s.broker

/-- The call makes a request to the broker next: it fails if that is refused. -/
def Registry.Asks {α : Type} (s : Registry η) (x : Proc (Registry η) Fault α) : Prop :=
  ∃ t, x.exec { s with script := [false] } = (.error .mqtt, t)

/-- Everything is as before `manage`, so that no request of the server gets to a handler and
`manage` starts again with the topic of the responses. -/
structure Undone (hs : Handlers η) (s t : Registry η) : Prop extends Restored s t where
  silent : ∀ pair ∈ hs.managed, ¬ (pair.1 ∈ t.broker ∧ pair ∈ t.mHandlers)
  resubscribes : t.Asks (subscribeCommandHandler serverResponseTopic hs.mResponseHandler)

omit [CxxDouble D] in
/-- Nothing is missing exactly if all handlers are registered. -/
theorem nothing_missing_iff : additions s.mHandlers [hs.response] = [] ∧ s.missing hs = [] ↔
    hs.response ∈ s.mHandlers ∧ ∀ pair ∈ hs.managed, pair ∈ s.mHandlers := by
  rw [Registry.missing, additions_eq_nil_iff, additions_eq_nil_iff, List.forall_mem_singleton]

omit [CxxDouble D] in
/-- Where nothing is missing, `manage` registers nothing. -/
theorem registered_of_nothing_missing (hresponse : additions s.mHandlers [hs.response] = [])
    (hmissing : s.missing hs = []) :
    (s.responsive hs).answered.registered (s.missing hs) = s.answered := by
  rw [Registry.responsive, hresponse, hmissing, registered_nil, registered_nil]

/-- The response handler stays registered, so the next `manage` does not subscribe. -/
theorem not_undone_of_unmanage {u : Registry η} {reqId' : StdString}
    (hmanage : (manage hs reqId res).exec s = (.ok true, u))
    (hunmanage : (unmanage reqId').exec u = (.ok true, t)) : ¬ Undone hs s t := by
  intro hundone
  obtain ⟨hhandlers, -⟩ := unmanage_eq_ok hunmanage
  have hmem : hs.response ∈ t.mHandlers := hhandlers ▸ (managed_of_manage hmanage).response
  obtain ⟨v, hasks⟩ := hundone.resubscribes
  rw [exec_register, if_pos (show (serverResponseTopic, hs.mResponseHandler) ∈ _ from hmem)]
    at hasks
  cases hasks

/-- Topics, handlers and subscriptions are those from before `manage` exactly if it has
registered nothing and `unmanage` has unsubscribed nothing. -/
theorem restored_iff {u : Registry η} {reqId' : StdString}
    (hmanage : (manage hs reqId res).exec s = (.ok true, u))
    (hunmanage : (unmanage reqId').exec u = (.ok true, t)) :
    Restored s t ↔ (additions s.mHandlers [hs.response] = [] ∧ s.missing hs = []) ∧
      serverResponseTopic ∉ s.mSubscriptions := by
  obtain ⟨-, -, rfl⟩ := manage_eq_true_iff.mp hmanage
  obtain ⟨hhandlers, hrest⟩ := unmanage_eq_ok hunmanage
  have hadded : t.mHandlers =
      s.mHandlers ++ additions s.mHandlers [hs.response] ++ s.missing hs := hhandlers
  constructor
  · intro hrestored
    have hnothing : additions s.mHandlers [hs.response] = [] ∧ s.missing hs = [] := by
      have hsame := hadded.symm.trans hrestored.handlers
      rwa [List.append_assoc, List.append_right_eq_self, List.append_eq_nil_iff] at hsame
    refine ⟨hnothing, fun hmem => ?_⟩
    have hmem' : serverResponseTopic ∈ s.answered.mSubscriptions := hmem
    rw [registered_of_nothing_missing hnothing.1 hnothing.2, if_pos hmem'] at hrest
    have hlength := congrArg List.length (hrest.1.symm.trans hrestored.subscriptions)
    have hpos := List.length_pos_of_mem hmem
    rw [List.length_erase_of_mem hmem'] at hlength
    change s.mSubscriptions.length - 1 = s.mSubscriptions.length at hlength
    omega
  · rintro ⟨⟨hresponse, hmissing⟩, hnone⟩
    have hnone' : serverResponseTopic ∉ s.answered.mSubscriptions := hnone
    rw [registered_of_nothing_missing hresponse hmissing, if_neg hnone'] at hrest
    rw [hresponse, hmissing, List.append_nil, List.append_nil] at hadded
    exact ⟨hrest.1, hadded, hrest.2⟩

/-- `unmanage` never undoes `manage`. Topics, handlers and subscriptions are those from before
exactly if all handlers were registered then, and the topic of the responses was not
subscribed. -/
theorem manage_unmanage_iff {u : Registry η} {reqId' : StdString}
    (hmanage : (manage hs reqId res).exec s = (.ok true, u))
    (hunmanage : (unmanage reqId').exec u = (.ok true, t)) :
    ¬ Undone hs s t ∧ (Restored s t ↔ hs.response ∈ s.mHandlers ∧
      (∀ pair ∈ hs.managed, pair ∈ s.mHandlers) ∧ serverResponseTopic ∉ s.mSubscriptions) := by
  refine ⟨not_undone_of_unmanage hmanage hunmanage, ?_⟩
  rw [restored_iff hmanage hunmanage, nothing_missing_iff, and_assoc]

/-- A client with a firmware handler is managed and unmanaged. -/
theorem manage_unmanage_firmware : ∃ u t,
    (manage firmwareHandlers "101".toList accepted).exec .fresh = (.ok true, u) ∧
    (unmanage "102".toList).exec u = (.ok true, t) ∧
    ¬ Undone firmwareHandlers .fresh t ∧ (Restored .fresh t ↔
      firmwareHandlers.response ∈ (Registry.fresh : Registry Nat).mHandlers ∧
      (∀ pair ∈ firmwareHandlers.managed, pair ∈ (Registry.fresh : Registry Nat).mHandlers) ∧
      serverResponseTopic ∉ (Registry.fresh : Registry Nat).mSubscriptions) := by
  have hexec : ∃ u t, (manage firmwareHandlers "101".toList accepted).exec .fresh = (.ok true, u) ∧
      (unmanage "102".toList).exec u = (.ok true, t) :=
    ⟨_, _, rfl, rfl⟩
  obtain ⟨u, t, hmanage, hunmanage⟩ := hexec
  exact ⟨u, t, hmanage, hunmanage, manage_unmanage_iff hmanage hunmanage⟩

/-- All six registrations are still there. -/
theorem manage_unmanage_fails : ¬ ∀ (hs : Handlers Nat) (s u t : Registry Nat)
    (reqId reqId' : StdString) (res : Value Int),
    (manage hs reqId res).exec s = (.ok true, u) → (unmanage reqId').exec u = (.ok true, t) →
      Undone hs s t := by
  intro h
  have hexec : ∃ u t, (manage firmwareHandlers "101".toList accepted).exec .fresh = (.ok true, u) ∧
      (unmanage "102".toList).exec u = (.ok true, t) ∧ t.mHandlers.length = 6 :=
    ⟨_, _, rfl, rfl, rfl⟩
  obtain ⟨u, t, hmanage, hunmanage, hlength⟩ := hexec
  have hhandlers := (h _ _ _ _ _ _ _ hmanage hunmanage).handlers
  rw [hhandlers] at hlength
  cases hlength

end

end Subscription
