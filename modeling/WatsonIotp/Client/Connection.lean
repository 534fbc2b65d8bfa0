import WatsonIotp.Client.ConnectOptions
import WatsonIotp.Client.Subscription

/-!
# Connections of a client

`InitializeMqttClient` of a device or a gateway checks the properties and makes a new
`mqtt::async_client`, and then `IOTP_Client::connect` attempts to connect it. A wrong
authentication method makes the result false, but the attempt is made all the same.
`clean_iff` says for which properties a call that returns false leaves no session open and
one that returns true has opened one.
-/

/-- How a call of the client does not return. -/
inductive Failure where
  /-- It throws, or uses a null pointer. -/
  | fault (f : Fault)
  /-- `pasync_client` is used, and has not been assigned. -/
  | unassigned
  deriving DecidableEq

/-- What has been passed to `async_client::connect`, and by which `async_client`. -/
structure Attempt where
  serverURI : StdString
  clientID : StdString
  options : ConnectOptions
  deriving DecidableEq

/-- An `IOTP_Client`. The objects of type `mqtt::async_client` are known by numbers. -/
structure Client where
  mProperties : Properties
  mKeepAliveInterval : Int
  mServerURI : StdString
  mClientID : StdString
  /-- The object that `pasync_client` points to, once it has been assigned. -/
  pasyncClient : Option Nat
  /-- How many objects have been allocated. -/
  allocated : Nat
  deleted : List Nat
  /-- `mReplyThread.joinable()`. -/
  joinable : Bool
  /-- The member `mSubscriptions` of the object behind `callback_ptr`. -/
  callbackPtr : Option (List StdString)
  /-- The objects that have an open session. -/
  sessions : List Nat
  /-- The attempts to connect so far. -/
  attempts : List Attempt

/-- What comes of an attempt to connect while `connect` waits for its token. -/
inductive Answer where
  /-- There is no session, and the call or the wait throws. -/
  | failed
  /-- The wait throws as it has timed out, and then the session is opened. -/
  | late
  /-- The session is opened. The token may have called the listener in time or not. -/
  | established (heard : Bool)
  deriving DecidableEq

/-- The session that there is then, of this object. -/
def Answer.opened (answer : Answer) (object : Nat) : List Nat :=
  if answer = .failed then [] else [object]

/-- What the broker and the library do during a call of `connect`. -/
structure Behaviour where
  answer : Answer
  /-- The library takes the callback. -/
  installs : Bool
  /-- The broker grants the subscription. -/
  grants : Bool

namespace Client

/-- A client that has not connected yet. -/
def new (p : Properties) (keepAliveInterval : Int) (joinable : Bool) : Client where
  mProperties := p
  mKeepAliveInterval := keepAliveInterval
  mServerURI := []
  mClientID := []
  pasyncClient := none
  allocated := 0
  deleted := []
  joinable := joinable
  callbackPtr := none
  sessions := []
  attempts := []

/-- `pasync_client = new mqtt::async_client(mServerURI, mClientID)`. -/
def create (s : Client) (serverURI clientID : StdString) : Client :=
  { s with
    mServerURI := serverURI
    mClientID := clientID
    pasyncClient := some s.allocated
    allocated := s.allocated + 1 }

/-- The attempt that `IOTP_Client::connect` makes. -/
def attempt (s : Client) : Attempt :=
  ⟨s.mServerURI, s.mClientID, s.mProperties.connectOptions s.mKeepAliveInterval⟩

/-- `pasync_client->connect(..)` and `conntok->wait_for_completion(..)`; the result is
`action.success()`. -/
def asyncConnect (answer : Answer) : Proc Client Failure Bool := do
  let s ← get
  let object ← Proc.ofOption s.pasyncClient .unassigned
  set { s with attempts := s.attempts ++ [s.attempt] }
  match answer with
  | .failed => throw (.fault .mqtt)
  | .late =>
      modify fun s => { s with sessions := s.sessions ++ [object] }
      throw (.fault .mqtt)
  | .established heard =>
      modify fun s => { s with sessions := s.sessions ++ [object] }
      return heard

/-- `callback_ptr = set_callback()`. -/
def setCallback (installs : Bool) : Proc Client Failure Unit :=
  if installs then modify fun s => { s with callbackPtr := some [] } else throw (.fault .mqtt)

/-- What the properties make of `rc`: the method is "token", unless nobody asks for it. -/
def Permitted (p : Properties) : Prop := p.orgId = quickstart ∨ p.authMethod = Properties.token

instance (p : Properties) : Decidable (Permitted p) := inferInstanceAs (Decidable (_ ∨ _))

/-- `IOTP_Client::connect()`. The token is complete when the wait for it returns. -/
def connect (b : Behaviour) : Proc Client Failure Bool := do
  let success ← asyncConnect b.answer
  if success then setCallback b.installs
  let s ← get
  return Permitted s.mProperties

/-- `subscribeTopic`, on the object behind `callback_ptr`. -/
def subscribeTopic (topic : StdString) (grants : Bool) : Proc Client Failure Bool := do
  let s ← get
  let topics ← Proc.ofOption s.callbackPtr (.fault .nullPointer)
  let registry : Subscription.Registry Unit :=
    { Subscription.Registry.fresh with mSubscriptions := topics, script := [grants] }
  let result := (Subscription.subscribeTopic topic).exec registry
  set { s with callbackPtr := some result.2.mSubscriptions }
  Proc.ofExcept .fault result.1

end Client

/-! ### Devices and gateways -/

/-- `scheme://org.messaging.domain:port`. -/
def Properties.serverURI (p : Properties) (scheme port : StdString) : StdString :=
  scheme ++ "://".toList ++ p.orgId ++ ".messaging.".toList ++ p.domain ++ ":".toList ++ port

/-- `kind:org:type:id`. -/
def Properties.clientID (p : Properties) (kind : StdString) : StdString :=
  kind ++ ":".toList ++ p.orgId ++ ":".toList ++ p.deviceType ++ ":".toList ++ p.deviceId

namespace Device

def serverURI (p : Properties) : StdString :=
  if p.orgId ≠ quickstart then p.serverURI "ssl".toList (StdString.ofInt p.port)
  else p.serverURI "tcp".toList "1883".toList

def clientID (p : Properties) : StdString := p.clientID "d".toList

/-- `IOTP_DeviceClient::InitializeMqttClient()`. -/
def initializeMqttClient : Proc Client Failure Bool := do
  let s ← get
  let p := s.mProperties
  if p.orgId = [] then return false
  else if p.domain = [] then return false
  else if p.deviceType = [] then return false
  else if p.deviceId = [] then return false
  else if p.orgId ≠ quickstart ∧ p.trustStore = [] then return false
  else
    set (s.create (serverURI p) (clientID p))
    return true

/-- The topic that `connect` subscribes, if it subscribes one. -/
def commandTopic (p : Properties) : Option StdString :=
  if p.orgId ≠ quickstart then some "iot-2/cmd/+/fmt/+".toList else none

end Device

namespace Gateway

/-- An organization that a gateway must not have. -/
def IsQuickstart (org : StdString) : Prop :=
  org = quickstart ∨ org = "QuickStart".toList ∨ org = "QUICKSTART".toList

instance (org : StdString) : Decidable (IsQuickstart org) :=
  inferInstanceAs (Decidable (_ ∨ _ ∨ _))

def serverURI (p : Properties) : StdString :=
  p.serverURI "ssl".toList (StdString.ofInt p.port)

def clientID (p : Properties) : StdString := p.clientID "g".toList

/-- `IOTP_GatewayClient::InitializeMqttClient()`. -/
def initializeMqttClient : Proc Client Failure Bool := do
  let s ← get
  let p := s.mProperties
  if p.orgId = [] then return false
  else if IsQuickstart p.orgId then return false
  else if p.domain = [] then return false
  else if p.deviceType = [] then return false
  else if p.deviceId = [] then return false
  else if p.trustStore = [] then return false
  else
    set (s.create (serverURI p) (clientID p))
    return true

/-- `gatewayCMDTopic`. -/
def commandTopic (p : Properties) : StdString :=
  "iot-2/type/".toList ++ p.deviceType ++ "/id/".toList ++ p.deviceId ++ "/cmd/+/fmt/+".toList

end Gateway

/-- The classes of clients. -/
inductive Kind where
  | device
  | gateway
  deriving DecidableEq

namespace Kind

def serverURI : Kind → Properties → StdString
  | .device => Device.serverURI
  | .gateway => Gateway.serverURI

def clientID : Kind → Properties → StdString
  | .device => Device.clientID
  | .gateway => Gateway.clientID

def initializeMqttClient : Kind → Proc Client Failure Bool
  | .device => Device.initializeMqttClient
  | .gateway => Gateway.initializeMqttClient

def commandTopic : Kind → Properties → Option StdString
  | .device => Device.commandTopic
  | .gateway => some ∘ Gateway.commandTopic

/-- Subscribe the commands of the client, if it has any. -/
def subscribeCommands (k : Kind) (grants : Bool) : Proc Client Failure Unit := do
  let s ← get
  match k.commandTopic s.mProperties with
  | some topic =>
      let _ ← Client.subscribeTopic topic grants
  | none => return

/-- `IOTP_DeviceClient::connect()` and `IOTP_GatewayClient::connect()`. -/
def connect (k : Kind) (b : Behaviour) : Proc Client Failure Bool := do
  if ← k.initializeMqttClient then
    let rc ← Client.connect b
    if rc then k.subscribeCommands b.grants
    return rc
  else return false

/-- What `InitializeMqttClient` asks of the properties. -/
def Accepts : Kind → Properties → Prop
  | .device, p => p.orgId ≠ [] ∧ p.domain ≠ [] ∧ p.deviceType ≠ [] ∧ p.deviceId ≠ [] ∧
      (p.orgId ≠ quickstart → p.trustStore ≠ [])
  | .gateway, p => p.orgId ≠ [] ∧ ¬ Gateway.IsQuickstart p.orgId ∧ p.domain ≠ [] ∧
      p.deviceType ≠ [] ∧ p.deviceId ≠ [] ∧ p.trustStore ≠ []

instance : (k : Kind) → (p : Properties) → Decidable (k.Accepts p)
  | .device, _ => inferInstanceAs (Decidable (_ ∧ _))
  | .gateway, _ => inferInstanceAs (Decidable (_ ∧ _))

/-- The client that has passed the checks. -/
def initialized (k : Kind) (s : Client) : Client :=
  s.create (k.serverURI s.mProperties) (k.clientID s.mProperties)

/-- One check before others. -/
theorem exec_check {c q : Prop} [Decidable c] [Decidable q] {x : Proc Client Failure Bool}
    {s t : Client} (hx : x.exec s = if q then (.ok true, t) else (.ok false, s)) :
    (if c then return false else x).exec s =
      if ¬ c ∧ q then (.ok true, t) else (.ok false, s) := by
  by_cases hc : c
  · rw [if_pos hc, if_neg fun h => h.1 hc]
    rfl
  · rw [if_neg hc, hx]
    exact if_congr (and_iff_right hc).symm rfl rfl

theorem exec_lastCheck {c : Prop} [Decidable c] {x : Proc Client Failure Bool} {s t : Client}
    (hx : x.exec s = (.ok true, t)) :
    (if c then return false else x).exec s = if ¬ c then (.ok true, t) else (.ok false, s) := by
  by_cases hc : c
  · rw [if_pos hc, if_neg (not_not.mpr hc)]
    rfl
  · rw [if_neg hc, if_pos hc, hx]

theorem exec_initializeMqttClient (k : Kind) (s : Client) : k.initializeMqttClient.exec s =
    if k.Accepts s.mProperties then (.ok true, k.initialized s) else (.ok false, s) := by
  have hcreate : (do set (k.initialized s); return true : Proc Client Failure Bool).exec s =
      (.ok true, k.initialized s) := rfl
  cases k with
  | device =>
      rw [initializeMqttClient, Device.initializeMqttClient, Proc.exec_bind_ok (Proc.exec_get s)]
      apply (exec_check (exec_check (exec_check (exec_check
        (exec_lastCheck hcreate))))).trans
      apply if_congr _ rfl rfl
      rw [not_and]
      exact Iff.rfl
  | gateway =>
      rw [initializeMqttClient, Gateway.initializeMqttClient, Proc.exec_bind_ok (Proc.exec_get s)]
      apply (exec_check (exec_check (exec_check (exec_check (exec_check
        (exec_lastCheck hcreate)))))).trans
      exact if_congr Iff.rfl rfl rfl

end Kind

/-! ### What a call of `connect` does -/

namespace Client

/-- The client after its attempt has been answered. -/
def attempted (s : Client) (answer : Answer) (object : Nat) : Client :=
  { s with
    attempts := s.attempts ++ [s.attempt]
    sessions := s.sessions ++ answer.opened object }

/-- The client but for `callback_ptr`. -/
def core (s : Client) : Client := { s with callbackPtr := none }

/-- The procedure leaves everything but `callback_ptr` alone. -/
def KeepsCore {α : Type} (x : Proc Client Failure α) : Prop :=
  ∀ u, Proc.Keeps (fun s => s.core = u) x

theorem keepsCore_subscribeTopic (topic : StdString) (grants : Bool) :
    KeepsCore (subscribeTopic topic grants) := by
  intro u s hs
  rw [subscribeTopic, Proc.exec_bind_ok (Proc.exec_get s)]
  cases s.callbackPtr with
  | none => exact hs
  | some topics =>
      change (Proc.exec (Proc.ofExcept Failure.fault _) { s with callbackPtr := _ }).2.core = u
      rw [Proc.exec_ofExcept]
      exact hs

theorem KeepsCore.exists_eq {α : Type} {x : Proc Client Failure α} (hx : KeepsCore x) (s : Client) :
    ∃ cb, (x.exec s).2 = { s with callbackPtr := cb } := by
  have hcore : (x.exec s).2.core = s.core := hx _ s rfl
  refine ⟨(x.exec s).2.callbackPtr, ?_⟩
  exact congrArg (fun t : Client => { t with callbackPtr := (x.exec s).2.callbackPtr }) hcore

theorem exec_asyncConnect (answer : Answer) {s : Client} {object : Nat}
    (hobject : s.pasyncClient = some object) : (asyncConnect answer).exec s =
      match answer with
      | .established heard => (.ok heard, s.attempted answer object)
      | .failed | .late => (.error (.fault .mqtt), s.attempted answer object) := by
  have hpointer : (Proc.ofOption s.pasyncClient Failure.unassigned).exec s = (.ok object, s) := by
    rw [hobject]
    rfl
  rw [asyncConnect, Proc.exec_bind_ok (Proc.exec_get s), Proc.exec_bind_ok hpointer,
    Proc.exec_bind_ok (Proc.exec_set s _)]
  cases answer with
  | failed => rw [Proc.exec_throw, attempted, Answer.opened, if_pos rfl, List.append_nil]
  | late => rfl
  | established heard => rfl

/-- A call that attempts to connect leaves an attempt and the session that came of it. If
it returns, there is a session, and the properties alone have decided what it returns. -/
theorem exists_exec_connect_eq (b : Behaviour) {s : Client} {object : Nat}
    (hobject : s.pasyncClient = some object) : ∃ outcome cb,
      (connect b).exec s = (outcome, { s.attempted b.answer object with callbackPtr := cb }) ∧
        ∀ rc, outcome = .ok rc →
          (∃ heard, b.answer = .established heard) ∧ rc = decide (Permitted s.mProperties) := by
  have hattempt := exec_asyncConnect b.answer hobject
  rw [connect]
  cases hanswer : b.answer with
  | failed =>
      rw [hanswer] at hattempt
      exact ⟨_, _, Proc.exec_bind_error hattempt, nofun⟩
  | late =>
      rw [hanswer] at hattempt
      exact ⟨_, _, Proc.exec_bind_error hattempt, nofun⟩
  | established heard =>
      rw [hanswer] at hattempt
      rw [Proc.exec_bind_ok hattempt]
      cases heard with
      | false => exact ⟨_, _, rfl, fun rc hrc => ⟨⟨_, rfl⟩, (Except.ok.inj hrc).symm⟩⟩
      | true =>
          cases b.installs with
          | false => exact ⟨_, _, rfl, nofun⟩
          | true => exact ⟨_, _, rfl, fun rc hrc => ⟨⟨_, rfl⟩, (Except.ok.inj hrc).symm⟩⟩

end Client

namespace Kind

theorem keepsCore_subscribeCommands (k : Kind) (grants : Bool) :
    Client.KeepsCore (k.subscribeCommands grants) := by
  intro u s hs
  rw [subscribeCommands, Proc.exec_bind_ok (Proc.exec_get s)]
  cases k.commandTopic s.mProperties with
  | none => exact hs
  | some topic =>
      exact (Client.keepsCore_subscribeTopic topic grants u).bind (fun _ => .pure _) s hs

/-- A call that is refused by the checks does nothing. -/
theorem exec_connect_of_not_accepts {k : Kind} {s : Client} (h : ¬ k.Accepts s.mProperties)
    (b : Behaviour) : (k.connect b).exec s = (.ok false, s) := by
  rw [connect, Proc.exec_bind, exec_initializeMqttClient, if_neg h]
  rfl

/-- A call that passes the checks makes an object and an attempt. If it returns, there is
a session, and the properties alone have decided what it returns. -/
theorem exists_exec_connect_eq {k : Kind} {s : Client} (h : k.Accepts s.mProperties)
    (b : Behaviour) : ∃ outcome cb, (k.connect b).exec s =
      (outcome, { (k.initialized s).attempted b.answer s.allocated with callbackPtr := cb }) ∧
        ∀ rc, outcome = .ok rc → (∃ heard, b.answer = .established heard) ∧
          rc = decide (Client.Permitted s.mProperties) := by
  have hinitialize := exec_initializeMqttClient k s
  rw [if_pos h] at hinitialize
  rw [connect, Proc.exec_bind_ok hinitialize, if_pos rfl]
  have hpointer : (k.initialized s).pasyncClient = some s.allocated := rfl
  obtain ⟨outcome, cb, hexec, hreturns⟩ := Client.exists_exec_connect_eq b hpointer
  cases outcome with
  | error e => exact ⟨_, _, Proc.exec_bind_error hexec, nofun⟩
  | ok rc =>
      rw [Proc.exec_bind_ok hexec]
      cases rc with
      | false => exact ⟨_, _, rfl, fun rc hrc => Except.ok.inj hrc ▸ hreturns false rfl⟩
      | true =>
          obtain ⟨cb', hcb⟩ := (keepsCore_subscribeCommands k b.grants).exists_eq
            { (k.initialized s).attempted b.answer s.allocated with callbackPtr := cb }
          rw [if_pos rfl, Proc.exec_bind]
          revert hcb
          cases Proc.exec (k.subscribeCommands b.grants) _ with
          | mk subscribed t =>
              rintro rfl
              cases subscribed with
              | error e => exact ⟨_, _, rfl, nofun⟩
              | ok _ => exact ⟨_, _, rfl, fun rc hrc => Except.ok.inj hrc ▸ hreturns true rfl⟩

/-- Such a call makes an attempt, whatever else comes of it. -/
theorem attempts_connect {k : Kind} {s : Client} (h : k.Accepts s.mProperties) (b : Behaviour) :
    ((k.connect b).exec s).2.attempts = s.attempts ++ [(k.initialized s).attempt] := by
  obtain ⟨outcome, cb, hexec, -⟩ := exists_exec_connect_eq h b
  rw [hexec]
  rfl

end Kind

/-! ### Runs of a client -/

inductive Event where
  /-- The application calls `connect`. -/
  | connect (b : Behaviour)
  /-- The session of an object ends. The broker can also end it during a call; this comes
  after the call if it makes no difference to what the call has been answered. -/
  | ended (object : Nat)

def Event.isConnect : Event → Bool
  | .connect _ => true
  | .ended _ => false

/-- How many of the events are calls of `connect`. -/
def connects (events : List Event) : Nat := events.countP Event.isConnect

namespace Kind

/-- There is nothing to say of what comes after a wrong pointer has been used. -/
def step (k : Kind) (s : Client) : Event → Option Client
  | .connect b =>
      match (k.connect b).exec s with
      | (.error (.fault .nullPointer), _) | (.error .unassigned, _) => none
      | (_, t) => some t
  | .ended object =>
      if object ∈ s.sessions then some { s with sessions := s.sessions.erase object } else none

def machine (k : Kind) : Machine Client Event := ⟨k.step⟩

theorem step_connect {k : Kind} {s t : Client} {b : Behaviour}
    (h : k.machine.step s (.connect b) = some t) : t = ((k.connect b).exec s).2 := by
  simp only [machine, step] at h
  split at h
  · cases h
  · cases h
  · next hexec =>
      cases h
      rw [hexec]

theorem step_ended {k : Kind} {s t : Client} {object : Nat}
    (h : k.machine.step s (.ended object) = some t) :
    object ∈ s.sessions ∧ t = { s with sessions := s.sessions.erase object } := by
  simp only [machine, step, Option.ite_none_right_eq_some, Option.some.injEq] at h
  exact ⟨h.1, h.2.symm⟩

/-- What the events so far have made of a new client. -/
structure Lives (k : Kind) (p : Properties) (joinable : Bool) (past : List Event) (s : Client) :
    Prop where
  mProperties : s.mProperties = p
  joinable : s.joinable = joinable
  deleted : s.deleted = []
  allocated : s.allocated = if k.Accepts p then connects past else 0
  pasyncClient : s.pasyncClient = if s.allocated = 0 then none else some (s.allocated - 1)
  sessions : ¬ k.Accepts p → s.sessions = []

theorem lives_new (k : Kind) (p : Properties) (keepAliveInterval : Int) (joinable : Bool) :
    k.Lives p joinable [] (.new p keepAliveInterval joinable) := by
  refine ⟨rfl, rfl, rfl, ?_, rfl, fun _ => rfl⟩
  split <;> rfl

theorem Lives.step {k : Kind} {p : Properties} {joinable : Bool} {past : List Event}
    {s t : Client} {a : Event} (hs : k.Lives p joinable past s)
    (h : k.machine.step s a = some t) : k.Lives p joinable (past ++ [a]) t := by
  cases a with
  | connect b =>
      obtain rfl := step_connect h
      by_cases hp : k.Accepts p
      · have hcount : connects (past ++ [.connect b]) = connects past + 1 :=
          List.countP_append
        have hallocated := hs.allocated
        rw [if_pos hp] at hallocated
        obtain ⟨outcome, cb, hexec, -⟩ :=
          exists_exec_connect_eq (k := k) (s := s) (hs.mProperties ▸ hp) b
        rw [hexec]
        refine ⟨hs.mProperties, hs.joinable, hs.deleted, ?_, rfl, fun hnot => absurd hp hnot⟩
        rw [if_pos hp, hcount, ← hallocated]
        rfl
      · rw [exec_connect_of_not_accepts (hs.mProperties ▸ hp) b]
        refine ⟨hs.mProperties, hs.joinable, hs.deleted, ?_, hs.pasyncClient, hs.sessions⟩
        rw [hs.allocated, if_neg hp, if_neg hp]
  | ended object =>
      have hcount : connects (past ++ [.ended object]) = connects past := List.countP_append
      obtain ⟨hmem, rfl⟩ := step_ended h
      refine ⟨hs.mProperties, hs.joinable, hs.deleted, ?_, hs.pasyncClient, fun hnot => ?_⟩
      · rw [hcount]
        exact hs.allocated
      · rw [hs.sessions hnot] at hmem
        cases hmem

/-- Every run of a new client is such a life. -/
theorem lives_of_run {k : Kind} {p : Properties} {keepAliveInterval : Int} {joinable : Bool}
    {events : List Event} {s : Client}
    (hr : k.machine.Run (.new p keepAliveInterval joinable) events s) :
    k.Lives p joinable events s :=
  hr.schedule_invariant (I := fun s past => k.Lives p joinable past s)
    (fun _ _ _ _ hs h => hs.step h) (lives_new k p keepAliveInterval joinable)

/-- A call that returns false leaves no session open, one with a wrong method does not
even attempt to connect, and one that returns true has a session. -/
structure Clean (p : Properties) (s : Client) (result : Except Failure Bool × Client) :
    Prop where
  refused : result.1 = .ok false → result.2.sessions = []
  silent : p.orgId ≠ quickstart → p.authMethod ≠ Properties.token →
    result.2.attempts = s.attempts
  connected : result.1 = .ok true → ∃ object ∈ result.2.pasyncClient, object ∈ result.2.sessions

/-- A call in a run of a client is clean if the checks stop it, or the method is "token",
or nobody asks for the method. -/
theorem clean_iff {k : Kind} {p : Properties} {keepAliveInterval : Int} {joinable : Bool}
    {events : List Event} {s : Client}
    (hr : k.machine.Run (.new p keepAliveInterval joinable) events s) (b : Behaviour) :
    Clean p s ((k.connect b).exec s) ↔
      ¬ k.Accepts p ∨ p.orgId = quickstart ∨ p.authMethod = Properties.token := by
  have hs := lives_of_run hr
  by_cases hp : k.Accepts p
  · obtain ⟨outcome, cb, hexec, hreturns⟩ :=
      exists_exec_connect_eq (hs.mProperties ▸ hp : k.Accepts s.mProperties) b
    rw [hexec]
    by_cases hpermitted : Client.Permitted p
    · refine iff_of_true ⟨fun hfalse => ?_, fun horg hmethod => ?_, fun htrue => ?_⟩
        (.inr hpermitted)
      · obtain ⟨-, hrc⟩ := hreturns false hfalse
        rw [hs.mProperties, decide_eq_true hpermitted] at hrc
        cases hrc
      · exact absurd hpermitted (not_or.mpr ⟨horg, hmethod⟩)
      · obtain ⟨⟨heard, hanswer⟩, -⟩ := hreturns true htrue
        refine ⟨s.allocated, rfl, List.mem_append_right _ ?_⟩
        rw [hanswer]
        exact List.mem_singleton_self _
    · obtain ⟨horg, hmethod⟩ := not_or.mp hpermitted
      refine iff_of_false (fun hclean => ?_) fun h => h.elim (fun hnot => hnot hp) hpermitted
      have hsilent : _ ++ _ = s.attempts := hclean.silent horg hmethod
      exact List.cons_ne_nil _ _ (List.append_right_eq_self.mp hsilent)
  · rw [exec_connect_of_not_accepts (hs.mProperties ▸ hp) b]
    exact iff_of_true ⟨fun _ => hs.sessions hp, fun _ _ => rfl, nofun⟩ (.inl hp)

/-- The properties of a device, as a test of the client sets them. -/
def testProperties (authMethod : StdString) : Properties :=
  { Properties.initial with
    orgId := "testorg".toList
    deviceType := "type".toList
    deviceId := "id".toList
    authMethod := authMethod
    authToken := "password".toList
    trustStore := "IoTFoundation.pem".toList }

/-- A broker that opens the session and grants the commands. -/
def granted : Behaviour := ⟨.established true, true, true⟩

/-- Calls with the method "token" are clean, also after a session has ended. -/
theorem clean_token :
    let p := testProperties Properties.token
    let events : List Event := [.connect granted, .ended 0]
    ∃ s, device.machine.Run (.new p 60 true) events s ∧
      Clean p s ((device.connect granted).exec s) := by
  intro p events
  have hr : device.machine.Run (.new p 60 true) events _ := Machine.Run.exec_iff.mp rfl
  exact ⟨_, hr, (clean_iff hr granted).mpr (.inr (.inr rfl))⟩

/-- With another method, the broker is asked all the same. -/
theorem clean_fails : ¬ ∀ (k : Kind) (p : Properties) (keepAliveInterval : Int) (joinable : Bool)
    (events : List Event) (s : Client),
    k.machine.Run (.new p keepAliveInterval joinable) events s →
      ∀ b, Clean p s ((k.connect b).exec s) := by
  intro h
  let p := testProperties "apikey".toList
  have hclean := h device p 60 true [] (.new p 60 true) (.nil _) granted
  have hsilent := hclean.silent (by decide) (by decide)
  cases hsilent

end Kind
