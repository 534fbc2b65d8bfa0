import WatsonIotp.Machine.Basic
import WatsonIotp.Machine.Heap

/-!
# The tokens of `mqtt::async_client`

Every request of the client has a token. The library gets the address of the token as the
context of its callbacks, and `async_client` keeps the token in a list until the callback has
been: nothing else keeps the library's pointer valid, since the application may let go of
its own pointer at any time. `remove_token` tells tokens by their addresses.

Any number of application threads make requests, and the callbacks may come on any number of
threads of the library. Nothing here keeps the library from calling a request back twice, with
the address of a token that may be gone; `Once` says that it does not. `lock_` of the client
and of the token are held for one action each; in particular `remove_token` unlocks before it
calls `delivery_complete`.
-/

namespace Tokens

/-- What a token stands for: a publication with its quality of service, or another action. -/
inductive Kind where
  | action
  | delivery (qos : Int)
  deriving DecidableEq

/-- `token` and `delivery_token`. -/
structure Token where
  kind : Kind
  /-- Whether `listener_` is set. -/
  listener_ : Bool
  tok_ : Int := 0
  complete_ : Bool := false
  rc_ : Int := 0
  deriving DecidableEq

/-- The callback that the library makes, with the token and the code of its data if there
are any. -/
inductive Answer where
  | success (token : Option Int)
  | failure (data : Option (Int × Int))
  deriving DecidableEq

def Answer.tok : Answer → Int
  | .success token => token.getD 0
  | .failure data => (data.map Prod.fst).getD 0

/-- `MQTTASYNC_SUCCESS`, or the code of the failure. -/
def Answer.rc : Answer → Int
  | .success _ => 0
  | .failure data => (data.map Prod.snd).getD (-1)

/-- The part of `token::on_success` and `token::on_failure` under the lock of the token. -/
def Token.answered (p : Token) (answer : Answer) : Token :=
  { p with tok_ := answer.tok, rc_ := answer.rc, complete_ := true }

/-- The context of a request: the address of its token. The number of the token is not
in the source, where a pointer says no more than its address. -/
structure Context (α : Type) where
  address : α
  number : Nat
  deriving DecidableEq

/-- Where an application thread is in a request. -/
inductive Place (α : Type) where
  | idle
  /-- At `add_token`. -/
  | adding (c : Context α)
  /-- At the call of the library. -/
  | sending (c : Context α)
  /-- The library has accepted the request, and given it a message id. -/
  | sent (c : Context α) (msgid : Int)
  /-- At `remove_token`, since the library has not accepted the request. -/
  | removing (c : Context α) (rc : Int)
  /-- At `throw exception(rc)`, behind any `delivery_complete`. -/
  | throwing (c : Context α) (rc : Int)

/-- Where a thread of the library is in a callback. -/
inductive Callback (α : Type) where
  | idle
  /-- In `token::on_success` or `token::on_failure`. -/
  | called (c : Context α) (answer : Answer)
  /-- The token is complete; at the call of the listener. -/
  | completed (c : Context α) (listener : Bool)
  /-- At `cond_.notify_all()`. -/
  | notifying (c : Context α)
  /-- At `tok->get_client()->remove_token(tok)`. -/
  | removing (c : Context α)
  /-- In `delivery_complete`. -/
  | delivering (c : Context α)

/-- The threads that hold pointers to tokens. -/
inductive Thread (τ κ : Type) where
  | app (t : τ)
  | library (k : κ)
  deriving DecidableEq

structure State (τ κ α : Type) where
  heap : Heap α Token
  pendingTokens : List α
  pendingDeliveryTokens : List α
  /-- Whether `userCallback_` is set. -/
  userCallback : Bool
  /-- The shared pointers outside the lists. -/
  held : List (Thread τ κ × α)
  /-- The requests that the library has accepted and not yet called back. -/
  inFlight : List (Context α)
  /-- All requests that the library has accepted. -/
  accepted : List (Context α)
  place : τ → Place α
  callback : κ → Callback α
  /-- An object has been used after it was gone. -/
  wild : Bool

inductive Action (τ κ α : Type) where
  /-- A request makes its token. -/
  | make (t : τ) (a : α) (kind : Kind) (listener : Bool)
  /-- `add_token`. -/
  | add (t : τ)
  /-- The library accepts the request with a message id, or not. -/
  | send (t : τ) (result : Except Int Int)
  /-- The request returns; `publish` sets the message id before. -/
  | return (t : τ)
  /-- `remove_token` of a request that was not accepted. -/
  | remove (t : τ)
  /-- The exception leaves the request. -/
  | throw (t : τ)
  /-- The library makes a callback of a request that it has accepted. -/
  | call (k : κ) (c : Context α) (answer : Answer)
  /-- The token gets its result and its complete flag. -/
  | complete (k : κ)
  /-- `listener->on_success` or `listener->on_failure`, if there is a listener. -/
  | listen (k : κ)
  /-- `cond_.notify_all()`. -/
  | notify (k : κ)
  /-- `remove_token` behind a callback. -/
  | removed (k : κ)
  /-- `delivery_complete` returns. -/
  | delivered (k : κ)
  /-- `wait_for_completion` is over, in time or not. -/
  | wait (t : τ) (a : α) (timedOut : Bool)
  /-- A pointer is copied for an application thread. -/
  | share (h : Thread τ κ) (a : α) (t : τ)
  /-- `get_pending_delivery_token(msgID)`. -/
  | find (t : τ) (msgID : Int)
  /-- The application lets go of a token. -/
  | drop (t : τ) (a : α)
  /-- `userCallback_ = &cb`. -/
  | setCallback

def State.initial : State τ κ α :=
  ⟨.empty, [], [], false, [], [], [], fun _ => .idle, fun _ => .idle, false⟩

variable {τ κ α : Type} [DecidableEq τ] [DecidableEq κ] [DecidableEq α]

namespace State

omit [DecidableEq τ] [DecidableEq κ] [DecidableEq α] in
/-- The tokens that are pending. -/
def pending (s : State τ κ α) : List α := s.pendingTokens ++ s.pendingDeliveryTokens

omit [DecidableEq τ] [DecidableEq κ] [DecidableEq α] in
/-- All shared pointers. -/
def refs (s : State τ κ α) : List α := s.pending ++ s.held.map Prod.snd

def setPlace (s : State τ κ α) (t : τ) (p : Place α) : State τ κ α :=
  { s with place := Function.update s.place t p }

def setCallback (s : State τ κ α) (k : κ) (p : Callback α) : State τ κ α :=
  { s with callback := Function.update s.callback k p }

omit [DecidableEq κ] [DecidableEq α] in
theorem place_setPlace (s : State τ κ α) (t t' : τ) (p : Place α) :
    (s.setPlace t p).place t' = if t' = t then p else s.place t' := Function.update_apply _ _ _ _

omit [DecidableEq τ] [DecidableEq α] in
theorem callback_setCallback (s : State τ κ α) (k k' : κ) (p : Callback α) :
    (s.setCallback k p).callback k' = if k' = k then p else s.callback k' :=
  Function.update_apply _ _ _ _

/-- A pointer to the token has gone. -/
def release (s : State τ κ α) (a : α) : State τ κ α :=
  { s with heap := s.heap.release s.refs a }

/-- Use the object at the address. -/
def access (s : State τ κ α) (a : α) (use : Token → State τ κ α) : State τ κ α :=
  match s.heap.get a with
  | some p => use p
  | none => { s with wild := true }

/-- `remove_token` calls `delivery_complete`. -/
def delivers (s : State τ κ α) (a : α) : Bool :=
  s.pendingDeliveryTokens.contains a && s.userCallback &&
    match s.heap.get a with
    | some p => match p.kind with
      | .delivery qos => qos > 0
      | .action => false
    | none => false

/-- `remove_token(tok)`: the first of the two lists that has the token loses it. -/
def removeToken (s : State τ κ α) (a : α) : State τ κ α :=
  if a ∈ s.pendingDeliveryTokens then
    { s with pendingDeliveryTokens := s.pendingDeliveryTokens.erase a }
  else { s with pendingTokens := s.pendingTokens.erase a }

/-- The search of `get_pending_delivery_token` through the rest of the list. -/
def find (s : State τ κ α) (t : τ) (msgID : Int) : List α → State τ κ α
  | [] => s
  | a :: rest => s.access a fun p =>
      if p.tok_ = msgID then { s with held := (.app t, a) :: s.held } else s.find t msgID rest

end State

/-- The steps of an application thread in a request. -/
def stepRequest (s : State τ κ α) : Action τ κ α → Option (State τ κ α)
  | .make t a kind listener =>
      match s.place t, s.heap.cells a with
      | .idle, none =>
          some ({ s with
            heap := s.heap.alloc a { kind, listener_ := listener }
            held := (.app t, a) :: s.held } |>.setPlace t (.adding ⟨a, s.heap.made⟩))
      | _, _ => none
  | .add t =>
      match s.place t with
      | .adding c => some (s.access c.address fun p =>
          match p.kind with
          | .action =>
              { s with pendingTokens := s.pendingTokens ++ [c.address] }.setPlace t (.sending c)
          | .delivery _ =>
              { s with pendingDeliveryTokens := s.pendingDeliveryTokens ++ [c.address] }.setPlace t
                (.sending c))
      | _ => none
  | .send t result =>
      match s.place t, result with
      | .sending c, .ok msgid =>
          some ({ s with
            inFlight := c :: s.inFlight
            accepted := c :: s.accepted }.setPlace t (.sent c msgid))
      | .sending c, .error rc => some (s.setPlace t (.removing c rc))
      | _, _ => none
  | .return t =>
      match s.place t with
      | .sent c msgid => some (s.access c.address fun p =>
          match p.kind with
          | .action => s.setPlace t .idle
          | .delivery _ => { s with
              heap := s.heap.modify c.address fun p => { p with tok_ := msgid } }.setPlace t .idle)
      | _ => none
  | .remove t =>
      match s.place t with
      | .removing c rc =>
          some (((s.removeToken c.address).release c.address).setPlace t (.throwing c rc))
      | _ => none
  | .throw t =>
      match s.place t with
      | .throwing c _ =>
          some (({ s with held := s.held.erase (.app t, c.address) }.release c.address).setPlace t
            .idle)
      | _ => none
  | _ => none

/-- The steps of a thread of the library in a callback. -/
def stepCallback (s : State τ κ α) : Action τ κ α → Option (State τ κ α)
  | .call k c answer =>
      match s.callback k with
      | .idle =>
          if c ∈ s.accepted then
            some ({ s with inFlight := s.inFlight.erase c }.setCallback k (.called c answer))
          else none
      | _ => none
  | .complete k =>
      match s.callback k with
      | .called c answer => some (s.access c.address fun p =>
          { s with heap := s.heap.modify c.address (·.answered answer) }.setCallback k
            (.completed c p.listener_))
      | _ => none
  | .listen k =>
      match s.callback k with
      | .completed c _ => some (s.setCallback k (.notifying c))
      | _ => none
  | .notify k =>
      match s.callback k with
      | .notifying c => some (s.access c.address fun _ => s.setCallback k (.removing c))
      | _ => none
  | .removed k =>
      match s.callback k with
      | .removing c => some (s.access c.address fun _ =>
          if s.delivers c.address then
            { s.removeToken c.address with
              held := (.library k, c.address) :: s.held }.setCallback k (.delivering c)
          else ((s.removeToken c.address).release c.address).setCallback k .idle)
      | _ => none
  | .delivered k =>
      match s.callback k with
      | .delivering c =>
          some (({ s with held := s.held.erase (.library k, c.address) }.release
            c.address).setCallback k .idle)
      | _ => none
  | _ => none

/-- What an application does with the tokens that it has. -/
def stepHolder (s : State τ κ α) : Action τ κ α → Option (State τ κ α)
  | .wait t a timedOut =>
      match s.place t, s.heap.get a with
      | .idle, some p =>
          if (.app t, a) ∈ s.held ∧ p.complete_ = !timedOut then some s else none
      | .idle, none => if (.app t, a) ∈ s.held then some { s with wild := true } else none
      | _, _ => none
  | .share h a t =>
      if (h, a) ∈ s.held then some { s with held := (.app t, a) :: s.held } else none
  | .find t msgID =>
      match s.place t with
      | .idle =>
          if msgID > 0 then some (s.find t msgID s.pendingDeliveryTokens) else some s
      | _ => none
  | .drop t a =>
      match s.place t with
      | .idle =>
          if (.app t, a) ∈ s.held then
            some ({ s with held := s.held.erase (.app t, a) }.release a)
          else none
      | _ => none
  | .setCallback => some { s with userCallback := true }
  | _ => none

def step (s : State τ κ α) (a : Action τ κ α) : Option (State τ κ α) :=
  match a with
  | .make .. | .add .. | .send .. | .return .. | .remove .. | .throw .. => stepRequest s a
  | .call .. | .complete .. | .listen .. | .notify .. | .removed .. | .delivered .. =>
      stepCallback s a
  | _ => stepHolder s a

def machine : Machine (State τ κ α) (Action τ κ α) := ⟨step⟩

omit [DecidableEq τ] [DecidableEq κ] [DecidableEq α] in
/-- The library calls back a request that it has not called back before. -/
def Once (s : State τ κ α) : Action τ κ α → Prop
  | .call _ c _ => c ∈ s.inFlight
  | _ => True

/-! ### Who uses a token -/

/-- Who has to go on with a request whose token is, or is about to be, pending. -/
inductive User (τ κ : Type) where
  | adding (t : τ)
  | sending (t : τ)
  | removing (t : τ)
  /-- The library has accepted the request. -/
  | library
  /-- A callback has the token before, at and behind the call of the listener. -/
  | calling (k : κ)
  | listening (k : κ)
  | completing (k : κ)

omit [DecidableEq τ] [DecidableEq κ] in
/-- The way of a request leads upwards. -/
def User.rank : User τ κ → Nat
  | .adding _ => 0
  | .sending _ => 1
  | .removing _ | .library => 2
  | .calling _ => 3
  | .listening _ => 4
  | .completing _ => 5

omit [DecidableEq τ] [DecidableEq κ] in
/-- The token has been completed. -/
def User.done (u : User τ κ) : Bool := 3 < u.rank

section Uses

omit [DecidableEq τ] [DecidableEq κ] [DecidableEq α]

/-- Which request a thread goes on with, and as what. -/
def Place.use (t : τ) : Place α → Option (User τ κ × Context α)
  | .adding c => some (.adding t, c)
  | .sending c => some (.sending t, c)
  | .removing c _ => some (.removing t, c)
  | .idle | .sent _ _ | .throwing _ _ => none

def Callback.use (k : κ) : Callback α → Option (User τ κ × Context α)
  | .called c _ => some (.calling k, c)
  | .completed c _ => some (.listening k, c)
  | .notifying c | .removing c => some (.completing k, c)
  | .idle | .delivering _ => none

/-- The user goes on with the request. -/
def State.Uses (s : State τ κ α) (u : User τ κ) (c : Context α) : Prop :=
  (∃ t, (s.place t).use t = some (u, c)) ∨ (∃ k, (s.callback k).use k = some (u, c)) ∨
    u = .library ∧ c ∈ s.inFlight

/-- The request that the frame of a call is about. -/
def Place.context : Place α → Option (Context α)
  | .idle => none
  | .adding c | .sending c | .sent c _ | .removing c _ | .throwing c _ => some c

/-- A thread is known by what it uses. -/
theorem Place.eq_of_use {t t' : τ} {p p' : Place α} {u : User τ κ} {c c' : Context α}
    (h : p.use t = some (u, c)) (h' : p'.use t' = some (u, c')) : t = t' := by
  cases p <;> cases h <;> cases p' <;> cases h' <;> rfl

theorem Callback.eq_of_use {k k' : κ} {p p' : Callback α} {u : User τ κ} {c c' : Context α}
    (h : p.use k = some (u, c)) (h' : p'.use k' = some (u, c')) : k = k' := by
  cases p <;> cases h <;> cases p' <;> cases h' <;> rfl

theorem Place.use_ne_callback {t : τ} {k : κ} {p : Place α} {p' : Callback α} {u : User τ κ}
    {c c' : Context α} (h : p.use t = some (u, c)) : p'.use k ≠ some (u, c') := by
  intro h'
  cases p <;> cases h <;> cases p' <;> cases h'

theorem Place.use_ne_library {t : τ} {p : Place α} {c : Context α} :
    p.use t ≠ some ((.library : User τ κ), c) := by
  intro h
  cases p <;> cases h

theorem Callback.use_ne_library {k : κ} {p : Callback α} {c : Context α} :
    p.use k ≠ some ((.library : User τ κ), c) := by
  intro h
  cases p <;> cases h

end Uses

variable {s : State τ κ α} {u : User τ κ} {c : Context α}

omit [DecidableEq κ] [DecidableEq α] in
/-- A thread that goes on gives up what it used. -/
theorem uses_setPlace {t : τ} {p : Place α} : (s.setPlace t p).Uses u c ↔
    p.use t = some (u, c) ∨ s.Uses u c ∧ (s.place t).use t ≠ some (u, c) := by
  have hplace := fun t' => s.place_setPlace t t' p
  constructor
  · rintro (⟨t', h⟩ | ⟨k, h⟩ | ⟨rfl, h⟩)
    · rw [hplace] at h
      split_ifs at h with heq
      · exact .inl (heq ▸ h)
      · refine .inr ⟨.inl ⟨t', h⟩, fun h' => heq (Place.eq_of_use h h')⟩
    · exact .inr ⟨.inr (.inl ⟨k, h⟩), fun h' => Place.use_ne_callback h' h⟩
    · exact .inr ⟨.inr (.inr ⟨rfl, h⟩), Place.use_ne_library⟩
  · rintro (h | ⟨⟨t', h⟩ | ⟨k, h⟩ | ⟨rfl, h⟩, hne⟩)
    · exact .inl ⟨t, by rw [hplace, if_pos rfl, h]⟩
    · have heq : t' ≠ t := by
        rintro rfl
        exact hne h
      exact .inl ⟨t', by rw [hplace, if_neg heq, h]⟩
    · exact .inr (.inl ⟨k, h⟩)
    · exact .inr (.inr ⟨rfl, h⟩)

omit [DecidableEq τ] [DecidableEq α] in
theorem uses_setCallback {k : κ} {p : Callback α} : (s.setCallback k p).Uses u c ↔
    p.use k = some (u, c) ∨ s.Uses u c ∧ (s.callback k).use k ≠ some (u, c) := by
  have hcallback := fun k' => s.callback_setCallback k k' p
  constructor
  · rintro (⟨t, h⟩ | ⟨k', h⟩ | ⟨rfl, h⟩)
    · exact .inr ⟨.inl ⟨t, h⟩, Place.use_ne_callback h⟩
    · rw [hcallback] at h
      split_ifs at h with heq
      · exact .inl (heq ▸ h)
      · refine .inr ⟨.inr (.inl ⟨k', h⟩), fun h' => heq (Callback.eq_of_use h h')⟩
    · exact .inr ⟨.inr (.inr ⟨rfl, h⟩), Callback.use_ne_library⟩
  · rintro (h | ⟨⟨t, h⟩ | ⟨k', h⟩ | ⟨rfl, h⟩, hne⟩)
    · exact .inr (.inl ⟨k, by rw [hcallback, if_pos rfl, h]⟩)
    · exact .inl ⟨t, h⟩
    · have heq : k' ≠ k := by
        rintro rfl
        exact hne h
      exact .inr (.inl ⟨k', by rw [hcallback, if_neg heq, h]⟩)
    · exact .inr (.inr ⟨rfl, h⟩)

end Tokens
