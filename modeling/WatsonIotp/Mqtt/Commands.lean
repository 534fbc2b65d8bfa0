import Mathlib.Logic.Function.Basic
import WatsonIotp.Machine.Basic
import WatsonIotp.Mqtt.Outbound

/-!
# Requests on their way

A request of the application waits in `commands` until the sending thread writes it, and then in
`responses` until the server answers it, or, with QoS 0, until all of it is written. The application
is told by one of two callbacks what has become of it.

The lists `responses` of all clients are one list here, whose elements say what client they belong
to. Every request has both callbacks. There are no `createOptions` and no persistence.

A request takes its message id and is added to the commands in one step.
-/

namespace MQTTAsync

open MQTTPacket

/-! ### The code -/

/-- The `details` of a command. -/
inductive Details where
  | pub (destinationName payload : Bytes) (qos : Int) (retained : Bool)
  | sub (topics : List Bytes) (qoss : List Int)
  | unsub (topics : List Bytes)
  | conn
  | dis (internal : Bool)
  deriving DecidableEq

/-- The `type` of a command. -/
def Details.type : Details → Fin 16
  | .pub .. => PUBLISH
  | .sub .. => SUBSCRIBE
  | .unsub .. => UNSUBSCRIBE
  | .conn => CONNECT
  | .dis _ => DISCONNECT

/-- The application waits to hear of the command. -/
def Details.isRequest : Details → Bool
  | .pub .. => true
  | .sub .. => true
  | .unsub .. => true
  | .conn => false
  | .dis _ => false

/-- A publication with QoS 0. -/
def Details.isOnce : Details → Bool
  | .pub _ _ qos _ => qos = 0
  | _ => false

/-- `MQTTAsync_queuedCommand`, with the address that `malloc` has given it. -/
structure QueuedCommand where
  address : Nat
  client : Nat
  token : Nat
  details : Details
  deriving DecidableEq

def QueuedCommand.isRequest (command : QueuedCommand) : Bool :=
  command.details.isRequest

/-- `MQTTAsyncs` and its `Clients`, as far as requests concern them. -/
structure AsyncClient where
  connected : Bool
  connectState : Int
  cleansession : Bool
  msgID : Nat
  outboundMsgs : List Messages
  pendingWrite : Option QueuedCommand

def AsyncClient.initial : AsyncClient where
  connected := false
  connectState := 0
  cleansession := false
  msgID := 0
  outboundMsgs := []
  pendingWrite := none

/-- The clients and the commands, with the requests that have been accepted, and the callbacks that
have been called, for success or failure. `undefined` says that memory has been used that was
freed, or that a null pointer has been followed. -/
structure Async where
  commands : List QueuedCommand
  responses : List QueuedCommand
  client : Nat → AsyncClient
  next : Nat
  accepted : List QueuedCommand
  called : List (QueuedCommand × Bool)
  undefined : Bool

def Async.initial : Async where
  commands := []
  responses := []
  client := fun _ => .initial
  next := 0
  accepted := []
  called := []
  undefined := false

/-- The message id behind another. -/
def nextId (msgid : Nat) : Nat :=
  if msgid = 65535 then 1 else msgid + 1

/-- The loop of `MQTTAsync_assignMsgId`, for so many rounds; `none` where it goes on. -/
def assignLoop (used : Nat → Bool) (start : Nat) : Nat → Nat → Option Nat
  | 0, _ => none
  | rounds + 1, msgid =>
      if used msgid = false then some msgid
      else if nextId msgid = start then some 0
      else assignLoop used start rounds (nextId msgid)

namespace Async

/-- Change the data of a client. -/
def modify (s : Async) (m : Nat) (f : AsyncClient → AsyncClient) : Async :=
  { s with client := Function.update s.client m (f (s.client m)) }

/-- The message id is that of a command, or of a response of the client. -/
def idUsed (s : Async) (m msgid : Nat) : Bool :=
  s.commands.any (·.token = msgid) || s.responses.any fun command =>
    command.client = m ∧ command.token = msgid

/-- `MQTTAsync_assignMsgId(m)`; `none` where it does not return. -/
def assignMsgId (s : Async) (m : Nat) : Option Nat :=
  assignLoop (s.idUsed m) (s.client m).msgID 65536 (nextId (s.client m).msgID)

/-- `MQTTAsync_addCommand(command, command_size)`. -/
def addCommand (s : Async) (command : QueuedCommand) : Async :=
  if command.details = .conn ∨ command.details = .dis true then
    if s.commands.head?.any fun head =>
        head.client = command.client ∧ head.details.type = command.details.type then s
    else { s with commands := command :: s.commands }
  else { s with commands := s.commands ++ [command] }

/-- A command is made and added. -/
def newCommand (s : Async) (m token : Nat) (details : Details) : Async :=
  addCommand { s with next := s.next + 1 } (QueuedCommand.mk s.next m token details)

/-- The tests that `MQTTAsync_send`, `MQTTAsync_subscribeMany` and `MQTTAsync_unsubscribeMany` make
before they ask for a message id, with the code that they return. `utf8` is
`UTF8_validateString`. -/
def refusal (utf8 : Bytes → Bool) (client : AsyncClient) (details : Details) : Option Int :=
  if client.connected = false then some (-3)
  else
    match details with
    | .pub destinationName _ qos _ =>
        if utf8 destinationName = false then some (-5)
        else if qos < 0 ∨ 2 < qos then some (-9) else none
    | .sub topics qoss =>
        (topics.zip qoss).findSome? fun entry =>
          if utf8 entry.1 = false then some (-5)
          else if entry.2 < 0 ∨ 2 < entry.2 then some (-9) else none
    | .unsub topics => topics.findSome? fun topic => if utf8 topic = false then some (-5) else none
    | .conn => none
    | .dis _ => none

/-- A request gets a message id, unless it is a publication with QoS 0. -/
def needsId : Details → Bool
  | .pub _ _ qos _ => 0 < qos
  | .sub .. => true
  | .unsub .. => true
  | .conn => false
  | .dis _ => false

/-- A request that is accepted. -/
def accept (s : Async) (m token : Nat) (details : Details) : Async :=
  newCommand { s with accepted := s.accepted ++ [QueuedCommand.mk s.next m token details] } m token
    details

/-- `MQTTAsync_send`, `MQTTAsync_subscribeMany` and `MQTTAsync_unsubscribeMany`, with the code that
they return; `none` where they do not return. -/
def request (utf8 : Bytes → Bool) (s : Async) (m : Nat) (details : Details) :
    Option (Int × Async) :=
  match refusal utf8 (s.client m) details with
  | some rc => some (rc, s)
  | none =>
      if needsId details = true then
        (s.assignMsgId m).map fun msgid =>
          if msgid = 0 then (-10, s)
          else (0, (s.modify m fun c => { c with msgID := msgid }).accept m msgid details)
      else some (0, s.accept m 0 details)

/-- A callback of the command is called, and the command is freed. -/
def tell (s : Async) (command : QueuedCommand) (success : Bool) : Async :=
  { s with called := s.called ++ [(command, success)] }

/-- The command is put into the list of those that wait for a response. -/
def await (s : Async) (command : QueuedCommand) : Async :=
  { s with responses := s.responses ++ [command] }

/-- `MQTTAsync_removeResponsesAndCommands(m)`. -/
def removeResponsesAndCommands (s : Async) (m : Nat) : Async :=
  { s with
    called := s.called ++ (s.responses.filter (·.client = m) ++
      s.commands.filter (·.client = m)).map fun command => (command, false)
    responses := s.responses.filter fun command => !decide (command.client = m)
    commands := s.commands.filter fun command => !decide (command.client = m) }

/-- `MQTTAsync_cleanSession(client)`, as far as it is about requests. -/
def cleanSession (s : Async) (m : Nat) : Async :=
  (s.modify m fun c => { c with outboundMsgs := [], msgID := 0 }).removeResponsesAndCommands m

/-- `MQTTAsync_closeOnly(client)`. -/
def closeOnly (s : Async) (m : Nat) : Async :=
  s.modify m fun c => { c with connected := false, connectState := 0 }

/-- `MQTTAsync_closeSession(client)`. -/
def closeSession (s : Async) (m : Nat) : Async :=
  if (s.client m).cleansession = true then (s.closeOnly m).cleanSession m else s.closeOnly m

/-- `MQTTAsync_checkDisconnect(handle, command)`, where the timeout may be over. -/
def checkDisconnect (s : Async) (m : Nat) (timedOut : Bool) : Async :=
  if (s.client m).outboundMsgs = [] ∨ timedOut = true then s.closeSession m else s

/-- `MQTTAsync_disconnect1(handle, options, internal)`. -/
def disconnect (s : Async) (m : Nat) (internal : Bool) : Async :=
  if (s.client m).connected = false then s else s.newCommand m 0 (.dis internal)

/-- The test of `MQTTAsync_processCommand` for one command, with the clients whose sockets have no
pending writes. -/
def ready (s : Async) (noPendingWrites : Nat → Bool) (cmd : QueuedCommand) : Bool :=
  if cmd.isRequest = true then
    (s.client cmd.client).connected = true ∧ (s.client cmd.client).connectState = 0 ∧
      noPendingWrites cmd.client = true ∧ (s.client cmd.client).outboundMsgs.length < 65534
  else true

/-- The loop of `MQTTAsync_processCommand`, with `ignored_clients`. -/
def pick (ready : QueuedCommand → Bool) : List Nat → List QueuedCommand → Option QueuedCommand
  | _, [] => none
  | ignored, cmd :: commands =>
      if cmd.client ∈ ignored then pick ready ignored commands
      else if ready cmd = true then some cmd
      else pick ready (cmd.client :: ignored) commands

end Async

/-- What comes of writing a packet, or of `MQTTProtocol_connect`. -/
inductive Outcome where
  | complete
  | interrupted
  | failed
  deriving DecidableEq

namespace Async

/-- What is done with a request whose packet has to be answered by the server. -/
def sent (s : Async) (command : QueuedCommand) : Outcome → Async
  | .failed => (s.disconnect command.client true).tell command false
  | _ => s.await command

/-- What is done with a publication with QoS 0. Where the write has failed, the command is freed and
`pending_write` points to it all the same. -/
def sentOnce (s : Async) (command : QueuedCommand) : Outcome → Async
  | .complete => s.tell command true
  | .interrupted =>
      (s.modify command.client fun c => { c with pendingWrite := some command }).await command
  | .failed => s.modify command.client fun c => { c with pendingWrite := some command }

/-- The `Publish` that `MQTTAsync_processCommand` makes of a command. -/
def publication (command : QueuedCommand) (destinationName payload : Bytes) : Publish :=
  ⟨.plain PUBLISH, destinationName, command.token, payload⟩

/-- The message is kept with the client, if it has to be. -/
def keep (s : Async) (m : Nat) (publish : Publish) (qos : Nat) (retained : Bool) : Async :=
  s.modify m fun c => { c with outboundMsgs := startPublish publish qos retained c.outboundMsgs }

/-- A connection is begun. It is open what state it comes to, and whether there is another server to
try. -/
def startConnect (s : Async) (command : QueuedCommand) (connectState : Int) (more : Bool) :
    Outcome → Async
  | .failed =>
      if more = true then
        (s.modify command.client fun c => { c with connectState }).addCommand command
      else (s.modify command.client fun c => { c with connectState }).tell command false
  | _ => s.modify command.client fun c => { c with connectState }

/-- The rest of `MQTTAsync_processCommand` for the command that has been detached. -/
def execute (s : Async) (command : QueuedCommand) (outcome : Outcome) (connectState : Int)
    (more timedOut : Bool) : Async :=
  match command.details with
  | .pub destinationName payload qos retained =>
      if qos = 0 then
        (s.keep command.client (publication command destinationName payload) qos.toNat
          retained).sentOnce command outcome
      else
        (s.keep command.client (publication command destinationName payload) qos.toNat
          retained).sent command outcome
  | .sub _ _ => s.sent command outcome
  | .unsub _ => s.sent command outcome
  | .conn =>
      if (s.client command.client).connectState ≠ 0 ∨
          (s.client command.client).connected = true then s
      else s.startConnect command connectState more outcome
  | .dis _ =>
      if (s.client command.client).connectState ≠ 0 ∨
          (s.client command.client).connected = true then
        (s.modify command.client fun c => { c with connectState := -2 }).checkDisconnect
          command.client timedOut
      else s

/-- A response that the server has answered is detached, and its callback called. -/
def answer (s : Async) (m token : Nat) (success : Bool) : Async :=
  match s.responses.find? fun command => command.client = m ∧ command.token = token with
  | none => s
  | some command => tell { s with responses := s.responses.erase command } command success

/-- The callback of a command is called, and a response is freed. -/
def written (s : Async) (m : Nat) (com command : QueuedCommand) : Async :=
  (modify { s with responses := s.responses.erase com } m fun c =>
    { c with pendingWrite := none }).tell command true

/-- `MQTTAsync_writeComplete(socket)` for the client of the socket. The loop stops at the first
response: its condition compares `pending_write` of the client with itself. -/
def writeComplete (s : Async) (m : Nat) : Async :=
  match (s.client m).pendingWrite with
  | none => s
  | some command =>
      match s.responses.find? (·.client = m) with
      | none => { s with undefined := true }
      | some com =>
          if command ∉ s.responses then { s with undefined := true }
          else s.written m com command

/-- `MQTTAsync_completeConnection(m, pack)`, where the server accepts the connection, but for the
messages that are sent again. -/
def completeConnection (s : Async) (m : Nat) : Async :=
  if (s.client m).cleansession = true then
    (s.modify m fun c => { c with connected := true, connectState := 0 }).cleanSession m
  else s.modify m fun c => { c with connected := true, connectState := 0 }

/-- `MQTTAsync_processCommand`; `none` where there is nothing to do. -/
def processCommand (s : Async) (noPendingWrites : Nat → Bool) (outcome : Outcome)
    (connectState : Int) (more timedOut : Bool) : Option Async :=
  (pick (s.ready noPendingWrites) [] s.commands).map fun command =>
    execute { s with commands := s.commands.erase command } command outcome connectState more
      timedOut

end Async

inductive AsyncAction where
  | request (m : Nat) (details : Details)
  | processCommand (noPendingWrites : Nat → Bool) (outcome : Outcome) (connectState : Int)
      (more timedOut : Bool)
  | puback (m msgid : Nat)
  | pubrec (m msgid : Nat)
  | pubcomp (m msgid : Nat)
  | suback (m msgid : Nat) (qoss : List UInt8)
  | unsuback (m msgid : Nat)
  | writeComplete (m : Nat)
  | connect (m : Nat) (cleansession : Bool)
  | completeConnection (m : Nat)
  | disconnect (m : Nat) (internal : Bool)
  | checkDisconnect (m : Nat) (timedOut : Bool)
  | closeOnly (m : Nat)
  | closeSession (m : Nat)

/-- One step of the application, of the two threads of the library or of the network. -/
def async (utf8 : Bytes → Bool) : Machine Async AsyncAction where
  step s
    | .request m details =>
        if details.isRequest = true then (s.request utf8 m details).map Prod.snd else none
    | .processCommand noPendingWrites outcome connectState more timedOut =>
        s.processCommand noPendingWrites outcome connectState more timedOut
    | .puback m msgid =>
        some ((s.modify m fun c => { c with
          outboundMsgs := handlePubacks msgid c.outboundMsgs }).answer m msgid true)
    | .pubrec m msgid =>
        some (s.modify m fun c => { c with outboundMsgs := handlePubrecs msgid c.outboundMsgs })
    | .pubcomp m msgid =>
        some ((s.modify m fun c => { c with
          outboundMsgs := handlePubcomps msgid c.outboundMsgs }).answer m msgid true)
    | .suback m msgid qoss => some (s.answer m msgid (qoss ≠ [0x80]))
    | .unsuback m msgid => some (s.answer m msgid true)
    | .writeComplete m => some (s.writeComplete m)
    | .connect m cleansession =>
        some ((s.modify m fun c => { c with cleansession }).newCommand m 0 .conn)
    | .completeConnection m =>
        if (s.client m).connectState = 3 then some (s.completeConnection m) else none
    | .disconnect m internal => some (s.disconnect m internal)
    | .checkDisconnect m timedOut =>
        if (s.client m).connectState = -2 then some (s.checkDisconnect m timedOut) else none
    | .closeOnly m => some (s.closeOnly m)
    | .closeSession m => some (s.closeSession m)

end MQTTAsync
