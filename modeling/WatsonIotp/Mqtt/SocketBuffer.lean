import WatsonIotp.Mqtt.Contents

/-!
# Reading from non-blocking sockets

A read may give fewer bytes than are needed, and the call that wanted them is given up then. What
it has read is queued: the bytes of the header one by one, so that the next call can go over them
again, and what there is of the data. There is one queue in front for the socket that is read
from, and there are those of the sockets whose last call was given up.
-/

namespace MQTTPacket

/-- `socket_queue`. Of `buf` there are the first `datalen` bytes, and `headerlen` has no value
before something is written to it. -/
structure SocketQueue where
  socket : Nat
  index : Nat
  headerlen : Option Nat
  fixedHeader : Vector UInt8 5
  data : Bytes

/-- What a socket has for the program, in the order in which it comes: a byte, a moment at which
nothing is there, and the end or the failure of the connection, behind which nothing comes. -/
inductive Event where
  | byte (c : UInt8)
  | pause
  | fail
  deriving DecidableEq

/-- A connection, with what the program has been given of it since it was opened. -/
structure Connection where
  arriving : List Event
  received : Bytes
  failed : Bool

/-- `def_queue`, `queues` and the connections behind the sockets. -/
structure Sockets where
  defQueue : SocketQueue
  queues : List SocketQueue
  connection : Nat → Connection

/-! ### The kernel -/

/-- Up to `n` of the bytes that are there; a moment without a byte ends them. -/
def takeBytes : Nat → List Event → Bytes × List Event
  | n + 1, .byte c :: arriving => (c :: (takeBytes n arriving).1, (takeBytes n arriving).2)
  | _ + 1, .pause :: arriving => ([], arriving)
  | _, arriving => ([], arriving)

/-- `recv(socket, buf, n, 0)` on a socket that does not block. -/
def Connection.recv (n : Nat) (connection : Connection) : Except Failure Bytes × Connection :=
  match connection.arriving with
  | [] => (.error .interrupted, connection)
  | .pause :: arriving => (.error .interrupted, { connection with arriving })
  | .fail :: _ => (.error .socketError, { connection with failed := true })
  | .byte c :: arriving =>
      let (bytes, rest) := takeBytes n (.byte c :: arriving)
      (.ok bytes, { connection with arriving := rest, received := connection.received ++ bytes })

namespace Sockets

/-- `recv` on one of the sockets. -/
def recv (socket n : Nat) (net : Sockets) : Except Failure Bytes × Sockets :=
  let (result, connection) := (net.connection socket).recv n
  (result, { net with connection := Function.update net.connection socket connection })

/-! ### Queues -/

/-- `ListFindItem(queues, &socket, socketcompare)`. -/
def find (socket : Nat) (net : Sockets) : Option SocketQueue :=
  net.queues.find? (·.socket = socket)

/-- Change the first that is found. -/
def modifyFirst {α : Type} (p : α → Bool) (f : α → α) : List α → List α
  | [] => []
  | a :: as => if p a then f a :: as else a :: modifyFirst p f as

/-- Change what `ListFindItem` finds. -/
def modify (socket : Nat) (f : SocketQueue → SocketQueue) (net : Sockets) : Sockets :=
  { net with queues := modifyFirst (·.socket = socket) f net.queues }

/-- `SocketBuffer_newDefQ()`. -/
def newDefQ : SocketQueue where
  socket := 0
  index := 0
  headerlen := none
  fixedHeader := .replicate 5 0
  data := []

/-- The queue in front as `SocketBuffer_complete` and `SocketBuffer_cleanup` leave it. -/
def reset (queue : SocketQueue) : SocketQueue :=
  { queue with socket := 0, index := 0, headerlen := some 0, data := [] }

/-- `SocketBuffer_cleanup(socket)`. -/
def cleanup (socket : Nat) (net : Sockets) : Sockets :=
  let net := { net with queues := net.queues.eraseP (·.socket = socket) }
  if net.defQueue.socket = socket then { net with defQueue := reset net.defQueue } else net

/-- `SocketBuffer_getQueuedData(socket, bytes, actual_len)`, the data that is there. -/
def getQueuedData (socket : Nat) (net : Sockets) : Bytes :=
  match net.find socket with
  | some queue => queue.data
  | none => []

/-- `SocketBuffer_getQueuedChar(socket, c)`, which is interrupted where no character is queued. -/
def getQueuedChar (socket : Nat) (net : Sockets) : Except Failure UInt8 × Sockets :=
  match net.find socket with
  | none => (.error .interrupted, net)
  | some queue =>
      match queue.headerlen with
      | none => (.error .undefined, net)
      | some headerlen =>
          if queue.index < headerlen then
            match queue.fixedHeader[queue.index]? with
            | none => (.error .undefined, net)
            | some c =>
                (.ok c, net.modify socket fun queue => { queue with index := queue.index + 1 })
          else if 4 < queue.index then (.error .socketError, net)
          else (.error .interrupted, net)

/-- `SocketBuffer_interrupted(socket, actual_len)`, after `data` has been put into the buffer. -/
def interrupted (socket : Nat) (data : Bytes) (net : Sockets) : Sockets :=
  match net.find socket with
  | some _ => net.modify socket fun queue => { queue with index := 0, data := data }
  | none =>
      { net with
        queues := net.queues ++ [{ net.defQueue with index := 0, data := data }]
        defQueue := newDefQ }

/-- `SocketBuffer_complete(socket)`. -/
def complete (socket : Nat) (net : Sockets) : Sockets :=
  match net.find socket with
  | some queue =>
      { net with defQueue := reset queue, queues := net.queues.eraseP (·.socket = socket) }
  | none => { net with defQueue := reset net.defQueue }

/-- The end of `SocketBuffer_queueChar`, for the queue that has been chosen. -/
def queued (c : UInt8) (queue : SocketQueue) : SocketQueue :=
  if h : queue.index < 5 then
    { queue with
      fixedHeader := queue.fixedHeader.set queue.index c
      index := queue.index + 1
      headerlen := some (queue.index + 1) }
  else queue

/-- `SocketBuffer_queueChar(socket, c)`. -/
def queueChar (socket : Nat) (c : UInt8) (net : Sockets) : Sockets :=
  match net.find socket with
  | some _ => net.modify socket (queued c)
  | none =>
      if net.defQueue.socket = 0 then
        let defQueue := { net.defQueue with socket := socket, index := 0, data := [] }
        { net with defQueue := queued c defQueue }
      else if net.defQueue.socket = socket then
        { net with defQueue := queued c net.defQueue }
      else net

/-! ### Reading -/

/-- What `Socket_getch` does with what `recv` gives. -/
def gotChar (socket : Nat) : Except Failure Bytes × Sockets → Except Failure UInt8 × Sockets
  | (.error .interrupted, net) => (.error .interrupted, net.interrupted socket [])
  | (.error rc, net) => (.error rc, net)
  | (.ok [], net) => (.error .socketError, net)
  | (.ok (c :: _), net) => (.ok c, net.queueChar socket c)

/-- `Socket_getch(socket, c)`. -/
def getch (socket : Nat) (net : Sockets) : Except Failure UInt8 × Sockets :=
  match getQueuedChar socket net with
  | (.error .interrupted, net) => gotChar socket (net.recv socket 1)
  | read => read

/-- What `Socket_getdata` does with what `recv` gives, where there is `buf` already and
`MQTTPacket_Factory` takes too few bytes for an interruption. -/
def gotData (socket bytes : Nat) (buf : Bytes) :
    Except Failure Bytes × Sockets → Except Failure Bytes × Sockets
  | (.error .interrupted, net) => (.error .interrupted, net.interrupted socket buf)
  | (.error rc, net) => (.error rc, net)
  | (.ok [], net) => (.error .socketError, net)
  | (.ok (c :: more), net) =>
      let buf := buf ++ c :: more
      if buf.length = bytes then (.ok buf, net.complete socket)
      else (.error .interrupted, net.interrupted socket buf)

/-- `Socket_getdata(socket, bytes, actual_len)`. -/
def getdata (socket bytes : Nat) (net : Sockets) : Except Failure Bytes × Sockets :=
  if bytes = 0 then (.ok [], net.complete socket)
  else
    let buf := net.getQueuedData socket
    gotData socket bytes buf (net.recv socket (bytes - buf.length))

/-- The calls that `MQTTPacket_Factory` makes on a socket. -/
def readPacket (socket : Nat) (net : Sockets) : Except Failure (UInt8 × Bytes) × Sockets :=
  MQTTPacket.readPacket (getch socket) (getdata socket) net

end Sockets

end MQTTPacket
