import WatsonIotp.Machine.Basic
import WatsonIotp.Mqtt.SocketBuffer

/-!
# Packets out of pieces

Whatever pieces the bytes of a connection come in, and whatever other sockets are read from in
between, the packets that are made of them are those of the bytes in a row. What must not get in
between is a socket whose read has failed within a header and which is not closed yet: it goes on
to have the queue in front.
-/

namespace MQTTPacket

namespace Sockets

/-! ### Lists with one entry for a socket -/

section Lists

variable {α : Type} {p q : α → Bool} {f : α → α}

theorem filter_modifyFirst {as : List α} {a : α} (hf : ∀ a, p a → p (f a))
    (h : as.filter p = [a]) : (modifyFirst p f as).filter p = [f a] := by
  induction as with
  | nil => cases h
  | cons b as ih =>
      rw [modifyFirst]
      by_cases hb : p b
      · rw [List.filter_cons_of_pos hb] at h
        obtain ⟨rfl, hrest⟩ := List.cons.inj h
        rw [if_pos hb, List.filter_cons_of_pos (hf b hb), hrest]
      · rw [List.filter_cons_of_neg hb] at h
        rw [if_neg hb, List.filter_cons_of_neg hb, ih h]

theorem filter_modifyFirst_other {as : List α} (hf : ∀ a, p a → q a = false ∧ q (f a) = false) :
    (modifyFirst p f as).filter q = as.filter q := by
  induction as with
  | nil => rfl
  | cons b as ih =>
      rw [modifyFirst]
      by_cases hb : p b
      · obtain ⟨hq, hqf⟩ := hf b hb
        rw [if_pos hb, List.filter_cons_of_neg (by simp [hqf]),
          List.filter_cons_of_neg (by simp [hq])]
      · rw [if_neg hb, List.filter_cons, List.filter_cons, ih]

theorem eraseP_modifyFirst {as : List α} (hf : ∀ a, p a → p (f a)) :
    (modifyFirst p f as).eraseP p = as.eraseP p := by
  induction as with
  | nil => rfl
  | cons b as ih =>
      rw [modifyFirst]
      by_cases hb : p b
      · rw [if_pos hb, List.eraseP_cons_of_pos (hf b hb), List.eraseP_cons_of_pos hb]
      · rw [if_neg hb, List.eraseP_cons_of_neg hb, List.eraseP_cons_of_neg hb, ih]

theorem filter_eraseP {as : List α} : (as.eraseP p).filter p = (as.filter p).tail := by
  induction as with
  | nil => rfl
  | cons b as ih =>
      by_cases hb : p b
      · rw [List.eraseP_cons_of_pos hb, List.filter_cons_of_pos hb, List.tail_cons]
      · rw [List.eraseP_cons_of_neg hb, List.filter_cons_of_neg hb, List.filter_cons_of_neg hb, ih]

theorem filter_eraseP_other {as : List α} (h : ∀ a, p a → q a = false) :
    (as.eraseP p).filter q = as.filter q := by
  induction as with
  | nil => rfl
  | cons b as ih =>
      by_cases hb : p b
      · rw [List.eraseP_cons_of_pos hb, List.filter_cons_of_neg (by simp [h b hb])]
      · rw [List.eraseP_cons_of_neg hb, List.filter_cons, List.filter_cons, ih]

end Lists

/-- The queues of a socket. -/
def queuesOf (socket : Nat) (net : Sockets) : List SocketQueue :=
  net.queues.filter (·.socket = socket)

theorem find_eq (socket : Nat) (net : Sockets) : net.find socket = (net.queuesOf socket).head? :=
  (List.head?_filter).symm

/-- Nothing has changed for the other sockets. -/
def Elsewhere (socket : Nat) (net net' : Sockets) : Prop :=
  ∀ other, 0 < other → other ≠ socket →
    net'.queuesOf other = net.queuesOf other ∧ net'.connection other = net.connection other

theorem Elsewhere.refl (socket : Nat) (net : Sockets) : Elsewhere socket net net :=
  fun _ _ _ => ⟨rfl, rfl⟩

theorem Elsewhere.trans {socket : Nat} {net net' net'' : Sockets}
    (h : Elsewhere socket net net') (h' : Elsewhere socket net' net'') :
    Elsewhere socket net net'' := fun other hpos hne =>
  have ⟨hqueues, hconnection⟩ := h other hpos hne
  have ⟨hqueues', hconnection'⟩ := h' other hpos hne
  ⟨hqueues'.trans hqueues, hconnection'.trans hconnection⟩

end Sockets

/-- Reading from the connection has failed, and goes on to fail. -/
def Connection.Failed (connection : Connection) : Prop :=
  connection.failed = true ∧ ∃ arriving, connection.arriving = .fail :: arriving

/-! ### What the queue of a socket has -/

/-- The queue has these bytes of a header and of the data behind it. -/
structure SocketQueue.Holds (queue : SocketQueue) (header data : Bytes) : Prop where
  headerlen : queue.headerlen = some header.length
  length_le : header.length ≤ 5
  fixedHeader : ∀ i < header.length, queue.fixedHeader[i]? = header[i]?
  data : queue.data = data

theorem Sockets.holds_queued (queue : SocketQueue) (header : Bytes)
    (hfixed : ∀ i < header.length, queue.fixedHeader[i]? = header[i]?)
    (hindex : queue.index = header.length) (hlt : header.length < 5) (c : UInt8) :
    (Sockets.queued c queue).Holds (header ++ [c]) queue.data ∧
      (Sockets.queued c queue).index = header.length + 1 ∧
      (Sockets.queued c queue).socket = queue.socket := by
  have hroom : queue.index < 5 := hindex ▸ hlt
  rw [Sockets.queued, dif_pos hroom]
  refine ⟨⟨?_, ?_, fun i hi => ?_, rfl⟩, congrArg (· + 1) hindex, rfl⟩
  · show some (queue.index + 1) = _
    rw [List.length_append, List.length_singleton, hindex]
  · rw [List.length_append, List.length_singleton]
    exact hlt
  · rw [List.length_append, List.length_singleton] at hi
    show (queue.fixedHeader.set queue.index c)[i]? = _
    rw [Vector.getElem?_set]
    by_cases hlast : queue.index = i
    · rw [if_pos hlast, ← hlast, hindex, List.getElem?_concat_length]
    · rw [if_neg hlast, hfixed i (by omega), List.getElem?_append_left (by omega)]

namespace Sockets

/-- Between two calls: what has been read of a packet is in the queue of the socket. -/
def Stored (socket : Nat) (net : Sockets) (header data : Bytes) : Prop :=
  (net.queuesOf socket = [] ∧ header = [] ∧ data = []) ∨
    ∃ queue, net.queuesOf socket = [queue] ∧ queue.Holds header data ∧ queue.index = 0

/-- The same with the queue in front free for the next call. -/
structure Kept (socket : Nat) (net : Sockets) (header data : Bytes) : Prop where
  free : net.defQueue.socket = 0
  queue : Stored socket net header data

/-- Within a call that has gone over `k` bytes of the header, which are in the queue of the
socket or in the one in front. -/
inductive At (socket : Nat) (net : Sockets) (header data : Bytes) (k : Nat) : Prop where
  | queue (queue : SocketQueue) (free : net.defQueue.socket = 0)
      (queuesOf : net.queuesOf socket = [queue]) (holds : queue.Holds header data)
      (index : queue.index = k) (le : k ≤ header.length)
  | front (queuesOf : net.queuesOf socket = []) (socket_eq : net.defQueue.socket = socket)
      (holds : net.defQueue.Holds header []) (index : net.defQueue.index = k)
      (data_eq : data = []) (le : k = header.length)
  | start (free : net.defQueue.socket = 0) (queuesOf : net.queuesOf socket = [])
      (header_eq : header = []) (data_eq : data = []) (le : k = 0)

/-- Nothing is left of the socket once it is cleaned up. -/
def Closable (socket : Nat) (net : Sockets) : Prop :=
  (net.queuesOf socket).length ≤ 1 ∧ (net.defQueue.socket = 0 ∨ net.defQueue.socket = socket)

theorem Kept.at {socket : Nat} {net : Sockets} {header data : Bytes}
    (h : Kept socket net header data) : At socket net header data 0 := by
  obtain ⟨hqueues, rfl, rfl⟩ | ⟨queue, hqueues, hholds, hindex⟩ := h.queue
  · exact .start h.free hqueues rfl rfl rfl
  · exact .queue queue h.free hqueues hholds hindex (Nat.zero_le _)

theorem At.closable {socket : Nat} {net : Sockets} {header data : Bytes} {k : Nat}
    (h : At socket net header data k) : Closable socket net := by
  cases h with
  | queue queue free hqueues => exact ⟨by rw [hqueues]; exact Nat.le_refl 1, .inl free⟩
  | front hqueues hsocket => exact ⟨by rw [hqueues]; exact Nat.zero_le 1, .inr hsocket⟩
  | start free hqueues => exact ⟨by rw [hqueues]; exact Nat.zero_le 1, .inl free⟩

/-- All that there is in the queue of the socket has been gone over, so that the next call begins
with a read from the connection. -/
def Stuck (socket : Nat) (net : Sockets) : Prop :=
  net.queuesOf socket = [] ∨ ∃ queue headerlen, net.queuesOf socket = [queue] ∧
    queue.headerlen = some headerlen ∧ headerlen ≤ queue.index

theorem At.stuck {socket : Nat} {net : Sockets} {header data : Bytes}
    (h : At socket net header data header.length) : Stuck socket net := by
  cases h with
  | queue queue _ hqueues holds index =>
      exact .inr ⟨queue, header.length, hqueues, holds.headerlen, index.ge⟩
  | front hqueues => exact .inl hqueues
  | start _ hqueues => exact .inl hqueues

/-- What the places of a packet depend on. -/
theorem At.congr {socket : Nat} {net net' : Sockets} {header data : Bytes} {k : Nat}
    (h : At socket net header data k) (hqueues : net'.queues = net.queues)
    (hfront : net'.defQueue = net.defQueue) : At socket net' header data k := by
  have hof : net'.queuesOf socket = net.queuesOf socket := by rw [queuesOf, queuesOf, hqueues]
  cases h with
  | queue queue free hq holds index le =>
      exact .queue queue (hfront ▸ free) (hof.trans hq) holds index le
  | front hq hsocket holds index data_eq le =>
      exact .front (hof.trans hq) (hfront ▸ hsocket) (hfront ▸ holds) (hfront ▸ index) data_eq le
  | start free hq header_eq data_eq le =>
      exact .start (hfront ▸ free) (hof.trans hq) header_eq data_eq le

/-! ### One lemma for each operation on the queues -/

theorem other_socket {socket other : Nat} (hne : other ≠ socket) {queue : SocketQueue}
    (h : decide (queue.socket = socket) = true) : decide (queue.socket = other) = false := by
  have hsocket := of_decide_eq_true h
  exact decide_eq_false (hsocket ▸ hne.symm)

theorem modify_elsewhere (socket : Nat) {f : SocketQueue → SocketQueue}
    (hf : ∀ queue, (f queue).socket = queue.socket) (net : Sockets) :
    Elsewhere socket net (net.modify socket f) := by
  intro other _ hne
  refine ⟨filter_modifyFirst_other fun queue hqueue => ⟨other_socket hne hqueue, ?_⟩, rfl⟩
  rw [hf]
  exact other_socket hne hqueue

theorem queuesOf_modify {socket : Nat} {f : SocketQueue → SocketQueue}
    (hf : ∀ queue, (f queue).socket = queue.socket) {net : Sockets} {queue : SocketQueue}
    (h : net.queuesOf socket = [queue]) : (net.modify socket f).queuesOf socket = [f queue] :=
  filter_modifyFirst (fun a ha => by rw [hf]; exact ha) h

theorem find_of_queuesOf {socket : Nat} {net : Sockets} {queue : SocketQueue}
    (h : net.queuesOf socket = [queue]) : net.find socket = some queue := by
  rw [find_eq, h]
  rfl

theorem find_of_queuesOf_nil {socket : Nat} {net : Sockets} (h : net.queuesOf socket = []) :
    net.find socket = none := by
  rw [find_eq, h]
  rfl

/-- A queue that is appended is found under its own socket. -/
theorem queuesOf_append (socket : Nat) (net : Sockets) (queue defQueue : SocketQueue) :
    queuesOf socket { net with queues := net.queues ++ [queue], defQueue := defQueue } =
      net.queuesOf socket ++ if queue.socket = socket then [queue] else [] := by
  rw [queuesOf, List.filter_append, List.filter_singleton]
  by_cases h : queue.socket = socket
  · simp only [h, decide_true, if_true]
    rfl
  · simp only [h, decide_false, if_false]
    rfl

theorem interrupted_spec {socket : Nat} {net : Sockets} {header data data' : Bytes} {k : Nat}
    (hpos : 0 < socket) (h : At socket net header data k) (hdata : header ≠ [] ∨ data' = []) :
    Kept socket (net.interrupted socket data') header data' ∧
      Elsewhere socket net (net.interrupted socket data') := by
  cases h with
  | queue queue free hq holds =>
      have hmodify : net.interrupted socket data' =
          net.modify socket fun queue => { queue with index := 0, data := data' } := by
        rw [interrupted, find_of_queuesOf hq]
      rw [hmodify]
      refine ⟨⟨free, .inr ⟨{ queue with index := 0, data := data' },
        queuesOf_modify (fun _ => by rfl) hq, ?_, rfl⟩⟩,
        modify_elsewhere socket (fun _ => by rfl) net⟩
      exact ⟨holds.headerlen, holds.length_le, holds.fixedHeader, rfl⟩
  | front hq hsocket holds =>
      rw [interrupted, find_of_queuesOf_nil hq]
      refine ⟨⟨rfl, .inr ⟨{ net.defQueue with index := 0, data := data' }, ?_, ?_, rfl⟩⟩, ?_⟩
      · rw [queuesOf_append, hq, if_pos hsocket, List.nil_append]
      · exact ⟨holds.headerlen, holds.length_le, holds.fixedHeader, rfl⟩
      · intro other _ hne
        refine ⟨?_, rfl⟩
        rw [queuesOf_append, if_neg (hsocket.trans_ne hne.symm), List.append_nil]
  | start free hq header_eq =>
      obtain rfl := hdata.resolve_left (not_not.mpr header_eq)
      rw [interrupted, find_of_queuesOf_nil hq]
      refine ⟨⟨rfl, .inl ⟨?_, header_eq, rfl⟩⟩, ?_⟩
      · rw [queuesOf_append, hq, if_neg (free.trans_ne hpos.ne), List.nil_append]
      · intro other hother _
        refine ⟨?_, rfl⟩
        rw [queuesOf_append, if_neg (free.trans_ne hother.ne), List.append_nil]

theorem queuesOf_eraseP {socket other : Nat} (net : Sockets) (hne : other ≠ socket)
    (defQueue : SocketQueue) :
    queuesOf other { net with
      queues := net.queues.eraseP (·.socket = socket), defQueue := defQueue } =
        net.queuesOf other :=
  filter_eraseP_other fun _ h => other_socket hne h

theorem complete_spec {socket : Nat} {net : Sockets} {header data : Bytes} {k : Nat}
    (h : At socket net header data k) :
    Kept socket (net.complete socket) [] [] ∧ Elsewhere socket net (net.complete socket) := by
  have hnone : net.queuesOf socket = [] → Kept socket (net.complete socket) [] [] ∧
      Elsewhere socket net (net.complete socket) := fun hq => by
    rw [complete, find_of_queuesOf_nil hq]
    exact ⟨⟨rfl, .inl ⟨hq, rfl, rfl⟩⟩, fun other _ _ => ⟨rfl, rfl⟩⟩
  cases h with
  | queue queue free hq =>
      rw [complete, find_of_queuesOf hq]
      refine ⟨⟨rfl, .inl ⟨?_, rfl, rfl⟩⟩, fun other _ hne => ⟨queuesOf_eraseP net hne _, rfl⟩⟩
      show (net.queues.eraseP _).filter _ = []
      rw [filter_eraseP]
      exact congrArg List.tail hq
  | front hq => exact hnone hq
  | start _ hq => exact hnone hq

/-- The queue in front is only touched if it is that of the socket. -/
theorem cleanup_spec {socket : Nat} {net : Sockets} (h : (net.queuesOf socket).length ≤ 1) :
    (net.cleanup socket).queuesOf socket = [] ∧ Elsewhere socket net (net.cleanup socket) ∧
      ((net.cleanup socket).defQueue.socket = 0 ∨
        (net.cleanup socket).defQueue.socket = net.defQueue.socket ∧
          net.defQueue.socket ≠ socket) := by
  have hnone : (net.queues.eraseP (·.socket = socket)).filter (·.socket = socket) = [] := by
    apply List.eq_nil_of_length_eq_zero
    rw [filter_eraseP, List.length_tail]
    exact Nat.sub_eq_zero_of_le h
  rw [cleanup]
  split_ifs with hsocket
  · exact ⟨hnone, fun other _ hne => ⟨queuesOf_eraseP net hne _, rfl⟩, .inl rfl⟩
  · refine ⟨hnone, fun other _ hne => ⟨?_, rfl⟩, .inr ⟨rfl, hsocket⟩⟩
    exact queuesOf_eraseP net hne net.defQueue

theorem queueChar_spec {socket : Nat} {net : Sockets} {header : Bytes} (hpos : 0 < socket)
    (h : At socket net header [] header.length) (hlt : header.length < 5) (c : UInt8) :
    At socket (net.queueChar socket c) (header ++ [c]) [] (header.length + 1) ∧
      Elsewhere socket net (net.queueChar socket c) := by
  have hlength : header.length + 1 = (header ++ [c]).length := by
    rw [List.length_append, List.length_singleton]
  cases h with
  | queue queue free hq holds index =>
      obtain ⟨hholds, hindex, -⟩ := holds_queued _ _ holds.fixedHeader index hlt c
      rw [holds.data] at hholds
      have hsame : ∀ queue, (queued c queue).socket = queue.socket := fun queue => by
        rw [queued]
        split_ifs <;> rfl
      rw [queueChar, find_of_queuesOf hq]
      exact ⟨.queue _ free (queuesOf_modify hsame hq) hholds hindex hlength.le,
        modify_elsewhere socket hsame net⟩
  | front hq hsocket holds index =>
      obtain ⟨hholds, hindex, hqueued⟩ := holds_queued _ _ holds.fixedHeader index hlt c
      rw [holds.data] at hholds
      rw [queueChar, find_of_queuesOf_nil hq]
      simp only
      by_cases hzero : net.defQueue.socket = 0
      · obtain rfl : socket = 0 := hsocket.symm.trans hzero
        exact absurd hpos (Nat.lt_irrefl 0)
      · rw [if_neg hzero, if_pos hsocket]
        exact ⟨.front hq (hqueued.trans hsocket) hholds hindex rfl hlength,
          fun _ _ _ => ⟨rfl, rfl⟩⟩
  | start free hq header_eq =>
      subst header_eq
      have hchosen : net.queueChar socket c = { net with
          defQueue :=
            queued c { net.defQueue with socket := socket, index := 0, data := [] } } := by
        rw [queueChar, find_of_queuesOf_nil hq]
        exact if_pos free
      obtain ⟨hholds, hindex, -⟩ :=
        holds_queued { net.defQueue with socket := socket, index := 0, data := [] } []
          (fun i hi => absurd hi (Nat.not_lt_zero i)) rfl hlt c
      rw [hchosen]
      exact ⟨.front hq rfl hholds hindex rfl hlength, fun _ _ _ => ⟨rfl, rfl⟩⟩

/-- A character of the header that is queued, and none. -/
theorem getQueuedChar_spec {socket : Nat} {net : Sockets} {header data : Bytes} {k : Nat}
    (h : At socket net header data k) :
    (∀ hk : k < header.length, ∃ net', net.getQueuedChar socket = (.ok header[k], net') ∧
      At socket net' header data (k + 1) ∧ Elsewhere socket net net' ∧
      net'.connection = net.connection) ∧
    (k = header.length → k < 5 → net.getQueuedChar socket = (.error .interrupted, net)) := by
  cases h with
  | queue queue free hq holds index le =>
      refine ⟨fun hk => ?_, fun hk hlt => ?_⟩
      · have hchar : queue.fixedHeader[k]? = some header[k] :=
          (holds.fixedHeader k hk).trans (List.getElem?_eq_getElem hk)
        refine ⟨net.modify socket fun queue => { queue with index := queue.index + 1 }, ?_,
          .queue { queue with index := queue.index + 1 } free
            (queuesOf_modify (fun _ => by rfl) hq)
            ⟨holds.headerlen, holds.length_le, holds.fixedHeader, holds.data⟩
            (congrArg (· + 1) index) hk,
          modify_elsewhere socket (fun _ => by rfl) net, rfl⟩
        simp only [getQueuedChar, find_of_queuesOf hq, holds.headerlen, index, hk, if_true, hchar]
      · simp only [getQueuedChar, find_of_queuesOf hq, holds.headerlen, index]
        rw [if_neg (by omega), if_neg (by omega)]
  | front hq _ _ _ _ le =>
      refine ⟨fun hk => absurd hk (le ▸ Nat.lt_irrefl _), fun _ _ => ?_⟩
      rw [getQueuedChar, find_of_queuesOf_nil hq]
  | start _ hq header_eq _ le =>
      refine ⟨fun hk => absurd hk (by rw [header_eq]; exact Nat.not_lt_zero k), fun _ _ => ?_⟩
      rw [getQueuedChar, find_of_queuesOf_nil hq]

/-! ### What is received -/

/-- From one state to another `more` is received on the socket, and nothing changes for others. -/
structure Reads (socket : Nat) (net net' : Sockets) (more : Bytes) : Prop where
  elsewhere : Elsewhere socket net net'
  received : (net'.connection socket).received = (net.connection socket).received ++ more

theorem Reads.trans {socket : Nat} {net net' net'' : Sockets} {more more' : Bytes}
    (h : Reads socket net net' more) (h' : Reads socket net' net'' more') :
    Reads socket net net'' (more ++ more') where
  elsewhere := h.elsewhere.trans h'.elsewhere
  received := by rw [h'.received, h.received, List.append_assoc]

/-- What leaves the connections as they are receives no more. -/
theorem Reads.keep {socket : Nat} {net net' net'' : Sockets} {more : Bytes}
    (h : Reads socket net net' more) (helsewhere : Elsewhere socket net' net'')
    (hconnection : net''.connection = net'.connection) : Reads socket net net'' more where
  elsewhere := h.elsewhere.trans helsewhere
  received := by rw [hconnection, h.received]

/-- What leaves the connections as they are receives nothing. -/
theorem Reads.of_elsewhere {socket : Nat} {net net' : Sockets} (h : Elsewhere socket net net')
    (hconnection : net'.connection = net.connection) : Reads socket net net' [] where
  elsewhere := h
  received := by rw [hconnection, List.append_nil]

theorem length_takeBytes_le (n : Nat) (arriving : List Event) :
    (takeBytes n arriving).1.length ≤ n := by
  induction n generalizing arriving with
  | zero =>
      unfold takeBytes
      exact Nat.le_refl 0
  | succ n ih =>
      match arriving with
      | [] => exact Nat.zero_le _
      | .pause :: _ => exact Nat.zero_le _
      | .fail :: _ => exact Nat.zero_le _
      | .byte c :: arriving => exact Nat.succ_le_succ (ih arriving)

/-- Nothing yet, nothing any more, or some bytes, of which there are not too many. -/
theorem recv_spec (socket : Nat) {n : Nat} (hn : 0 < n) (net : Sockets) :
    ∃ result net', net.recv socket n = (result, net') ∧ net'.queues = net.queues ∧
      net'.defQueue = net.defQueue ∧
      ((result = .error .interrupted ∧ Reads socket net net' []) ∨
        (result = .error .socketError ∧ Reads socket net net' [] ∧
          (net'.connection socket).Failed) ∨
        ∃ c more, result = .ok (c :: more) ∧ (c :: more).length ≤ n ∧
          Reads socket net net' (c :: more)) := by
  obtain ⟨n, rfl⟩ := Nat.exists_eq_add_one_of_ne_zero hn.ne'
  have hother : ∀ connection, Elsewhere socket net
      { net with connection := Function.update net.connection socket connection } :=
    fun connection other _ hne => ⟨rfl, Function.update_of_ne hne _ _⟩
  refine ⟨_, _, rfl, rfl, rfl, ?_⟩
  dsimp only
  split
  · exact .inl ⟨rfl, hother _, by simp only [Function.update_self, List.append_nil]⟩
  · exact .inl ⟨rfl, hother _, by simp only [Function.update_self, List.append_nil]⟩
  · next arriving harriving =>
      refine .inr (.inl ⟨rfl, ⟨hother _, ?_⟩, ?_⟩)
      · simp only [Function.update_self, List.append_nil]
      · simp only [Function.update_self]
        exact ⟨rfl, arriving, harriving⟩
  · next c arriving _ =>
      refine .inr (.inr ⟨c, (takeBytes n arriving).1, rfl, ?_, hother _, ?_⟩)
      · exact length_takeBytes_le (n + 1) (.byte c :: arriving)
      · simp only [Function.update_self]
        rfl

@[simp]
theorem connection_interrupted (socket : Nat) (data : Bytes) (net : Sockets) :
    (net.interrupted socket data).connection = net.connection := by
  rw [interrupted]
  split <;> rfl

@[simp]
theorem connection_complete (socket : Nat) (net : Sockets) :
    (net.complete socket).connection = net.connection := by
  rw [complete]
  split <;> rfl

@[simp]
theorem connection_cleanup (socket : Nat) (net : Sockets) :
    (net.cleanup socket).connection = net.connection := by
  rw [cleanup]
  split_ifs <;> rfl

@[simp]
theorem connection_queueChar (socket : Nat) (c : UInt8) (net : Sockets) :
    (net.queueChar socket c).connection = net.connection := by
  rw [queueChar]
  split
  · rfl
  · split_ifs <;> rfl

theorem getch_spec {socket : Nat} {net : Sockets} {header data : Bytes} {k : Nat}
    (hpos : 0 < socket) (h : At socket net header data k) (hlt : k < 5)
    (hdata : k = header.length → data = []) :
    ∃ net', (∃ hk : k < header.length, net.getch socket = (.ok header[k], net') ∧
        At socket net' header data (k + 1) ∧ Reads socket net net' []) ∨
      (k = header.length ∧ ∃ c, net.getch socket = (.ok c, net') ∧
        At socket net' (header ++ [c]) [] (k + 1) ∧ Reads socket net net' [c]) ∨
      (k = header.length ∧ net.getch socket = (.error .interrupted, net') ∧
        Kept socket net' header [] ∧ Reads socket net net' []) ∨
      (k = header.length ∧ net.getch socket = (.error .socketError, net') ∧
        (net'.connection socket).Failed ∧ At socket net' header data k ∧
        Reads socket net net' []) := by
  obtain ⟨hqueued, hempty⟩ := getQueuedChar_spec h
  have hle : k ≤ header.length := by
    cases h with
    | queue _ _ _ _ _ le => exact le
    | front _ _ _ _ _ le => exact le.le
    | start _ _ _ _ le => exact le ▸ Nat.zero_le _
  obtain hk | hk := hle.lt_or_eq
  · obtain ⟨net', hget, hat, helsewhere, hconnection⟩ := hqueued hk
    refine ⟨net', .inl ⟨hk, ?_, hat, .of_elsewhere helsewhere hconnection⟩⟩
    rw [getch, hget]
  · obtain rfl := hdata hk
    subst hk
    have hget := hempty rfl hlt
    obtain ⟨result, net', hrecv, hqueues, hfront, hresult⟩ :=
      recv_spec socket Nat.one_pos net
    have hat : At socket net' header [] header.length := h.congr hqueues hfront
    have hcall : net.getch socket = gotChar socket (result, net') := by
      rw [getch, hget, ← hrecv]
    obtain ⟨rfl, hreads⟩ | ⟨rfl, hreads, hfailed⟩ | ⟨c, more, rfl, hlength, hreads⟩ := hresult
    · obtain ⟨hkept, helsewhere⟩ := interrupted_spec hpos hat (.inr rfl)
      have hqueued := hreads.keep helsewhere (connection_interrupted socket [] net')
      exact ⟨_, .inr (.inr (.inl ⟨rfl, hcall, hkept, hqueued⟩))⟩
    · exact ⟨_, .inr (.inr (.inr ⟨rfl, hcall, hfailed, hat, hreads⟩))⟩
    · obtain rfl : more = [] :=
        List.eq_nil_of_length_eq_zero (Nat.le_zero.mp (Nat.le_of_succ_le_succ hlength))
      obtain ⟨hat, helsewhere⟩ := queueChar_spec hpos hat hlt c
      have hqueued := hreads.keep helsewhere (connection_queueChar socket c net')
      exact ⟨_, .inr (.inl ⟨rfl, c, hcall, hat, hqueued⟩)⟩

/-! ### The length -/

/-- What `MQTTPacket_decode` has come to, where it was to read `len` more digits behind `k` bytes
of the header: the same as on the bytes in a row. -/
def Decoded (socket : Nat) (net : Sockets) (header data : Bytes) (k len multiplier value : Nat)
    (read : Except Failure Nat × Sockets) : Prop :=
  ∃ more, Reads socket net read.2 more ∧
    match read.1 with
    | .ok n =>
        decodeLoop Bytes.getch len multiplier value ((header ++ more).drop k) = (.ok n, []) ∧
          At socket read.2 (header ++ more) data (header ++ more).length ∧
          (data = [] ∨ more = [])
    | .error .interrupted =>
        decodeLoop Bytes.getch len multiplier value ((header ++ more).drop k) =
            (.error .interrupted, []) ∧
          Kept socket read.2 (header ++ more) [] ∧ data = []
    | .error .socketError =>
        ((read.2.connection socket).Failed ∧
            decodeLoop Bytes.getch len multiplier value ((header ++ more).drop k) =
              (.error .interrupted, []) ∧ data = [] ∧ Stuck socket read.2 ∨
          (decodeLoop Bytes.getch len multiplier value ((header ++ more).drop k)).1 =
            .error .socketError) ∧ Closable socket read.2
    | .error _ => False

/-- Behind a digit that others follow. -/
theorem Decoded.more {socket : Nat} {net net' : Sockets} {header first data : Bytes}
    {k len multiplier value : Nat} {c : UInt8} {read : Except Failure Nat × Sockets}
    (hreads : Reads socket net net' first) (hc : (header ++ first)[k]? = some c)
    (hmore : c &&& 128 ≠ 0) (hdata : data = [] ∨ first = [])
    (h : Decoded socket net' (header ++ first) data (k + 1) len (multiplier * 128)
      (value + (c &&& 127).toNat * multiplier) read) :
    Decoded socket net header data k (len + 1) multiplier value read := by
  obtain ⟨more, hreads', h⟩ := h
  have hdecode : decodeLoop Bytes.getch (len + 1) multiplier value
      ((header ++ (first ++ more)).drop k) = decodeLoop Bytes.getch len (multiplier * 128)
        (value + (c &&& 127).toNat * multiplier) ((header ++ first ++ more).drop (k + 1)) := by
    obtain ⟨hlt, hget⟩ := List.getElem?_eq_some_iff.mp hc
    have hlt' : k < (header ++ first ++ more).length := by
      rw [List.length_append]
      omega
    rw [← List.append_assoc, List.drop_eq_getElem_cons hlt', List.getElem_append_left hlt, hget,
      decodeLoop_more hmore]
  refine ⟨first ++ more, hreads.trans hreads', ?_⟩
  obtain ⟨result, net''⟩ := read
  cases result with
  | ok n =>
      obtain ⟨hn, hat, hempty⟩ := h
      refine ⟨hdecode.trans hn, by rwa [← List.append_assoc], ?_⟩
      obtain rfl | rfl := hempty
      · exact .inl rfl
      · rwa [List.append_nil]
  | error rc =>
      cases rc with
      | interrupted =>
          obtain ⟨hn, hkept, hnone⟩ := h
          exact ⟨hdecode.trans hn, by rwa [← List.append_assoc], hnone⟩
      | socketError =>
          obtain ⟨hbad, hclosable⟩ := h
          refine ⟨hbad.imp ?_ fun hbad => (congrArg Prod.fst hdecode).trans hbad, hclosable⟩
          rintro ⟨hfailed, hn, hrest⟩
          exact ⟨hfailed, hdecode.trans hn, hrest⟩
      | badPacket => exact h
      | undefined => exact h

theorem decodeLoop_spec {socket : Nat} {len : Nat} {net : Sockets} {header data : Bytes}
    {k multiplier value : Nat} (hpos : 0 < socket) (h : At socket net header data k)
    (hlt : k + len ≤ 5)
    (hwait : len = 0 ∨
      (decodeLoop Bytes.getch len multiplier value (header.drop k) = (.error .interrupted, []) ∧
        data = []) ∨
      ∃ n, decodeLoop Bytes.getch len multiplier value (header.drop k) = (.ok n, [])) :
    Decoded socket net header data k len multiplier value
      (decodeLoop (getch socket) len multiplier value net) := by
  induction len generalizing net header k multiplier value with
  | zero =>
      refine ⟨[], .of_elsewhere (.refl _ _) rfl, ?_⟩
      exact ⟨.inr rfl, h.closable⟩
  | succ len ih =>
      have hdata : k = header.length → data = [] := by
        rintro rfl
        rw [List.drop_length] at hwait
        obtain hzero | ⟨-, hdata⟩ | ⟨n, hn⟩ := hwait
        · exact absurd hzero (Nat.succ_ne_zero len)
        · exact hdata
        · cases hn
      obtain ⟨net', ⟨hk, hget, hat, hreads⟩ | ⟨rfl, c, hget, hat, hreads⟩ |
        ⟨rfl, hget, hkept, hreads⟩ | ⟨rfl, hget, hfailed, hat, hreads⟩⟩ :=
        getch_spec hpos h (by omega) hdata
      · have hdrop : header.drop k = header[k] :: header.drop (k + 1) :=
          List.drop_eq_getElem_cons hk
        rw [hdrop] at hwait
        by_cases hlast : header[k] &&& 128 = 0
        · have hcall : decodeLoop (getch socket) (len + 1) multiplier value net =
              (.ok (value + (header[k] &&& 127).toNat * multiplier), net') := by
            simp only [decodeLoop, hget, hlast, if_true]
          rw [decodeLoop_last hlast] at hwait
          obtain hzero | ⟨hn, -⟩ | ⟨n, hn⟩ := hwait
          · exact absurd hzero (Nat.succ_ne_zero len)
          · cases hn
          · have hnone : header.drop (k + 1) = [] := (Prod.mk.inj hn).2
            have hall : k + 1 = header.length :=
              Nat.le_antisymm hk (List.drop_eq_nil_iff.mp hnone)
            rw [hcall]
            refine ⟨[], hreads, ?_, ?_, .inr rfl⟩
            · rw [List.append_nil, hdrop, decodeLoop_last hlast, hnone]
            · rw [List.append_nil, ← hall]
              exact hat
        · have hcall : decodeLoop (getch socket) (len + 1) multiplier value net =
              decodeLoop (getch socket) len (multiplier * 128)
                (value + (header[k] &&& 127).toNat * multiplier) net' := by
            simp only [decodeLoop, hget, hlast, if_false]
          rw [decodeLoop_more hlast] at hwait
          have hrest := ih hat (by omega) (.inr (hwait.resolve_left (Nat.succ_ne_zero len)))
          rw [hcall]
          refine .more hreads ?_ hlast (.inr rfl) ?_
          · rw [List.append_nil]
            exact List.getElem?_eq_getElem hk
          · rwa [List.append_nil]
      · obtain rfl := hdata rfl
        by_cases hlast : c &&& 128 = 0
        · have hcall : decodeLoop (getch socket) (len + 1) multiplier value net =
              (.ok (value + (c &&& 127).toNat * multiplier), net') := by
            simp only [decodeLoop, hget, hlast, if_true]
          rw [hcall]
          refine ⟨[c], hreads, ?_, ?_, .inl rfl⟩
          · rw [List.drop_left, decodeLoop_last hlast]
          · rw [List.length_append, List.length_singleton]
            exact hat
        · have hcall : decodeLoop (getch socket) (len + 1) multiplier value net =
              decodeLoop (getch socket) len (multiplier * 128)
                (value + (c &&& 127).toNat * multiplier) net' := by
            simp only [decodeLoop, hget, hlast, if_false]
          have hwait' : len = 0 ∨
              decodeLoop Bytes.getch len (multiplier * 128)
                (value + (c &&& 127).toNat * multiplier) [] = (.error .interrupted, []) := by
            cases len with
            | zero => exact .inl rfl
            | succ len => exact .inr rfl
          have hrest := ih hat (by omega) (hwait'.imp_right fun hn => .inl ⟨by
            rw [List.drop_of_length_le (by simp), hn], rfl⟩)
          rw [hcall]
          exact .more hreads List.getElem?_concat_length hlast (.inl rfl) hrest
      · obtain rfl := hdata rfl
        have hcall : decodeLoop (getch socket) (len + 1) multiplier value net =
            (.error .interrupted, net') := by
          simp only [decodeLoop, hget]
        rw [hcall]
        refine ⟨[], hreads, ?_, ?_, rfl⟩
        · rw [List.append_nil, List.drop_length]
          rfl
        · rwa [List.append_nil]
      · have hcall : decodeLoop (getch socket) (len + 1) multiplier value net =
            (.error .socketError, net') := by
          simp only [decodeLoop, hget]
        rw [hcall]
        refine ⟨[], hreads, .inl ⟨hfailed, ?_, hdata rfl, hat.stuck⟩, hat.closable⟩
        rw [List.append_nil, List.drop_length]
        rfl

/-! ### The data -/

theorem getQueuedData_eq {socket : Nat} {net : Sockets} {header data : Bytes} {k : Nat}
    (h : At socket net header data k) : net.getQueuedData socket = data := by
  cases h with
  | queue queue _ hq holds =>
      rw [getQueuedData, find_of_queuesOf hq]
      exact holds.data
  | front hq _ _ _ data_eq =>
      rw [getQueuedData, find_of_queuesOf_nil hq]
      exact data_eq.symm
  | start _ hq _ data_eq =>
      rw [getQueuedData, find_of_queuesOf_nil hq]
      exact data_eq.symm

theorem getdata_spec {socket : Nat} {net : Sockets} {header data : Bytes} {n : Nat}
    (hpos : 0 < socket) (h : At socket net header data header.length) (hheader : header ≠ [])
    (hn : data.length < n ∨ n = 0 ∧ data = []) :
    ∃ more, Reads socket net (net.getdata socket n).2 more ∧
      match (net.getdata socket n).1 with
      | .ok buf =>
          buf = data ++ more ∧ buf.length = n ∧ Kept socket (net.getdata socket n).2 [] []
      | .error .interrupted =>
          (data ++ more).length < n ∧ Kept socket (net.getdata socket n).2 header (data ++ more)
      | .error .socketError =>
          ((net.getdata socket n).2.connection socket).Failed ∧ (data ++ more).length < n ∧
            Stuck socket (net.getdata socket n).2 ∧ Closable socket (net.getdata socket n).2
      | .error _ => False := by
  obtain hlt | ⟨rfl, rfl⟩ := hn
  · have hzero : n ≠ 0 := Nat.ne_zero_of_lt hlt
    obtain ⟨result, net', hrecv, hqueues, hfront, hresult⟩ :=
      recv_spec socket (Nat.sub_pos_of_lt hlt) net
    have hat : At socket net' header data header.length := h.congr hqueues hfront
    have hcall : net.getdata socket n = gotData socket n data (result, net') := by
      rw [getdata, if_neg hzero, getQueuedData_eq h, ← hrecv]
    obtain ⟨rfl, hreads⟩ | ⟨rfl, hreads, hfailed⟩ | ⟨c, more, rfl, hlength, hreads⟩ := hresult
    · obtain ⟨hkept, helsewhere⟩ := interrupted_spec hpos hat (.inl hheader)
      rw [hcall]
      refine ⟨[], hreads.keep helsewhere (connection_interrupted _ _ _), ?_, ?_⟩
      · rwa [List.append_nil]
      · rwa [List.append_nil]
    · rw [hcall]
      exact ⟨[], hreads, hfailed, by rwa [List.append_nil], hat.stuck, hat.closable⟩
    · rw [hcall, gotData]
      split_ifs with hfull
      · obtain ⟨hkept, helsewhere⟩ := complete_spec hat
        exact ⟨c :: more, hreads.keep helsewhere (connection_complete _ _), rfl, hfull, hkept⟩
      · obtain ⟨hkept, helsewhere⟩ := interrupted_spec hpos hat (.inl hheader)
        refine ⟨c :: more, hreads.keep helsewhere (connection_interrupted _ _ _), ?_, hkept⟩
        rw [List.length_append] at hfull ⊢
        omega
  · obtain ⟨hkept, helsewhere⟩ := complete_spec h
    exact ⟨[], .of_elsewhere helsewhere (connection_complete _ _), rfl, rfl, hkept⟩

/-! ### A call -/

/-- What there can be of a packet that is not there as a whole. -/
inductive Waiting : Bytes → Bytes → Prop where
  | nothing : Waiting [] []
  | length (byte : UInt8) (digits : Bytes)
      (h : decode Bytes.getch digits = (.error .interrupted, [])) : Waiting (byte :: digits) []
  | data (byte : UInt8) (digits : Bytes) (n : Nat) (data : Bytes)
      (h : decode Bytes.getch digits = (.ok n, [])) (short : data.length < n) :
      Waiting (byte :: digits) data

theorem Waiting.interrupted {header data : Bytes} (h : Waiting header data) :
    (MQTTPacket.readPacket Bytes.getch Bytes.getdata (header ++ data)).1 =
      .error .interrupted := by
  cases h with
  | nothing => rfl
  | length byte digits h =>
      rw [List.append_nil]
      exact readPacket_decode_error (congrArg Prod.fst h) byte
  | data byte digits n data h short => exact readPacket_short h short byte

/-- What a call has come to, where `header` and `data` had been there before: the same as on the
bytes in a row. -/
def Called (socket : Nat) (net : Sockets) (header data : Bytes)
    (read : Except Failure (UInt8 × Bytes) × Sockets) : Prop :=
  ∃ more, Reads socket net read.2 more ∧
    match read.1 with
    | .ok packet =>
        MQTTPacket.readPacket Bytes.getch Bytes.getdata (header ++ data ++ more) =
            (.ok packet, []) ∧ Kept socket read.2 [] []
    | .error .interrupted =>
        ∃ header' data', header' ++ data' = header ++ data ++ more ∧ Waiting header' data' ∧
          Kept socket read.2 header' data'
    | .error .socketError =>
        ((read.2.connection socket).Failed ∧ Stuck socket read.2 ∧
            (MQTTPacket.readPacket Bytes.getch Bytes.getdata (header ++ data ++ more)).1 =
              .error .interrupted ∨
          (MQTTPacket.readPacket Bytes.getch Bytes.getdata (header ++ data ++ more)).1 =
            .error .socketError) ∧ Closable socket read.2
    | .error _ => False

theorem Called.more {socket : Nat} {net net' : Sockets} {header data first header' data' : Bytes}
    {read : Except Failure (UInt8 × Bytes) × Sockets} (hreads : Reads socket net net' first)
    (heq : header' ++ data' = header ++ data ++ first) (h : Called socket net' header' data' read) :
    Called socket net header data read := by
  obtain ⟨more, hreads', h⟩ := h
  refine ⟨first ++ more, hreads.trans hreads', ?_⟩
  rw [← List.append_assoc, ← heq]
  exact h

theorem readRest_spec {socket : Nat} {net : Sockets} {byte : UInt8} {digits data : Bytes}
    (hpos : 0 < socket) (h : At socket net (byte :: digits) data 1)
    (hwait : decode Bytes.getch digits = (.error .interrupted, []) ∧ data = [] ∨
      ∃ n, decode Bytes.getch digits = (.ok n, []) ∧ data.length < n) :
    Called socket net (byte :: digits) data
      (readRest (getch socket) (getdata socket) byte net) := by
  have hdecoded : Decoded socket net (byte :: digits) data 1 4 1 0 (decode (getch socket) net) :=
    decodeLoop_spec hpos h (by decide) (.inr (hwait.imp_right fun ⟨n, hn, _⟩ => ⟨n, hn⟩))
  rw [readRest]
  generalize decode (getch socket) net = read at hdecoded
  obtain ⟨result, net₁⟩ := read
  obtain ⟨more, hreads, hdecoded⟩ := hdecoded
  cases result with
  | ok n =>
      obtain ⟨hn, hat, hempty⟩ := hdecoded
      have hn : decode Bytes.getch (digits ++ more) = (.ok n, []) := hn
      have hroom : data.length < n ∨ n = 0 ∧ data = [] := by
        obtain ⟨-, rfl⟩ | ⟨n₀, hn₀, hshort⟩ := hwait
        · exact n.eq_zero_or_pos.symm.imp_right fun hzero => ⟨hzero, rfl⟩
        · obtain ⟨hmore, -⟩ := decodeLoop_append hn₀ more
          cases hmore.symm.trans hn
          exact .inl hshort
      have hsame : byte :: digits ++ data ++ more = byte :: (digits ++ more) ++ data := by
        obtain rfl | rfl := hempty
        · simp only [List.append_nil, List.cons_append]
        · simp only [List.append_nil, List.cons_append]
      refine .more hreads hsame.symm ?_
      obtain ⟨more', hreads', hdata⟩ := getdata_spec hpos hat (List.cons_ne_nil _ _) hroom
      dsimp only
      generalize getdata socket n net₁ = read at hreads' hdata
      obtain ⟨result, net₂⟩ := read
      cases result with
      | ok buf =>
          obtain ⟨rfl, hlength, hkept⟩ := hdata
          refine ⟨more', hreads', ?_, hkept⟩
          rw [List.append_assoc]
          exact readPacket_exact (hlength ▸ hn) byte
      | error rc =>
          cases rc with
          | interrupted =>
              obtain ⟨hshort, hkept⟩ := hdata
              exact ⟨more', hreads', _, _, (List.append_assoc _ _ _).symm,
                .data byte (digits ++ more) n _ hn hshort, hkept⟩
          | socketError =>
              obtain ⟨hfailed, hshort, hstuck, hclosable⟩ := hdata
              refine ⟨more', hreads', .inl ⟨hfailed, hstuck, ?_⟩, hclosable⟩
              rw [List.append_assoc]
              exact readPacket_short hn hshort byte
          | badPacket => exact hdata.elim
          | undefined => exact hdata.elim
  | error rc =>
      cases rc with
      | interrupted =>
          obtain ⟨hn, hkept, rfl⟩ := hdecoded
          refine ⟨more, hreads, _, [], ?_, .length byte (digits ++ more) hn, hkept⟩
          rw [List.append_nil, List.append_nil]
          rfl
      | socketError =>
          obtain ⟨hcause, hclosable⟩ := hdecoded
          refine ⟨more, hreads, hcause.imp ?_ fun hbad => ?_, hclosable⟩
          · rintro ⟨hfailed, hn, rfl, hstuck⟩
            refine ⟨hfailed, hstuck, ?_⟩
            rw [List.append_nil]
            exact readPacket_decode_error (congrArg Prod.fst hn) byte
          have hbad : (decode Bytes.getch (digits ++ more)).1 = .error .socketError := hbad
          obtain ⟨-, rfl⟩ | ⟨n₀, hn₀, -⟩ := hwait
          · rw [List.append_nil]
            exact readPacket_decode_error hbad byte
          · obtain ⟨hmore, -⟩ := decodeLoop_append hn₀ more
            rw [decode, hmore] at hbad
            cases hbad
      | badPacket => exact hdecoded.elim
      | undefined => exact hdecoded.elim

theorem readPacket_spec {socket : Nat} {net : Sockets} {header data : Bytes}
    (hpos : 0 < socket) (h : Kept socket net header data) (hwait : Waiting header data) :
    Called socket net header data (net.readPacket socket) := by
  have hdata : 0 = header.length → data = [] := fun hzero => by
    cases hwait with
    | nothing => rfl
    | length => rfl
    | data => cases hzero
  obtain ⟨net', ⟨hk, hget, hat, hreads⟩ | ⟨hk, c, hget, hat, hreads⟩ | ⟨hk, hget, hkept, hreads⟩ |
    ⟨hk, hget, hfailed, hat, hreads⟩⟩ := getch_spec hpos h.at (by decide) hdata
  · have hcall : net.readPacket socket =
        readRest (getch socket) (getdata socket) header[0] net' := by
      rw [readPacket, MQTTPacket.readPacket, hget]
    rw [hcall]
    refine .more hreads (List.append_nil _).symm ?_
    cases hwait with
    | nothing => cases hk
    | length byte digits hn => exact readRest_spec hpos hat (.inl ⟨hn, rfl⟩)
    | data byte digits n data hn hshort => exact readRest_spec hpos hat (.inr ⟨n, hn, hshort⟩)
  · have hcall : net.readPacket socket = readRest (getch socket) (getdata socket) c net' := by
      rw [readPacket, MQTTPacket.readPacket, hget]
    obtain rfl := List.eq_nil_of_length_eq_zero hk.symm
    obtain rfl := hdata rfl
    rw [hcall]
    refine .more hreads ?_ (readRest_spec hpos hat (.inl ⟨rfl, rfl⟩))
    rfl
  · have hcall : net.readPacket socket = (.error .interrupted, net') := by
      rw [readPacket, MQTTPacket.readPacket, hget]
    obtain rfl := List.eq_nil_of_length_eq_zero hk.symm
    obtain rfl := hdata rfl
    rw [hcall]
    exact ⟨[], hreads, [], [], rfl, .nothing, hkept⟩
  · have hcall : net.readPacket socket = (.error .socketError, net') := by
      rw [readPacket, MQTTPacket.readPacket, hget]
    obtain rfl := List.eq_nil_of_length_eq_zero hk.symm
    obtain rfl := hdata rfl
    rw [hcall]
    exact ⟨[], hreads, .inl ⟨hfailed, hat.stuck, rfl⟩, hat.closable⟩

/-- A connection that has failed gives the same for every other call. -/
theorem readPacket_stuck {socket : Nat} {net : Sockets} (hfailed : (net.connection socket).Failed)
    (hstuck : Stuck socket net) : net.readPacket socket = (.error .socketError, net) := by
  obtain ⟨hflag, arriving, harriving⟩ := hfailed
  have hrecv : gotChar socket (net.recv socket 1) = (.error .socketError, net) := by
    have hsame : ⟨.fail :: arriving, (net.connection socket).received, true⟩ =
        net.connection socket := by
      rw [← harriving, ← hflag]
    rw [recv, Connection.recv, harriving]
    dsimp only [gotChar]
    rw [hsame, Function.update_eq_self]
  have hget : net.getch socket = (.error .socketError, net) := by
    obtain hnone | ⟨queue, headerlen, hqueues, hlen, hle⟩ := hstuck
    · rw [getch, getQueuedChar, find_of_queuesOf_nil hnone]
      exact hrecv
    · rw [getch, getQueuedChar, find_of_queuesOf hqueues]
      simp only [hlen, if_neg (Nat.not_lt_of_le hle)]
      split_ifs
      · rfl
      · exact hrecv
  rw [readPacket, MQTTPacket.readPacket, hget]

end Sockets

/-! ### Runs -/

/-- A socket that is not closed is broken once a read of it has failed. -/
inductive Status where
  | closed
  | open
  | broken
  deriving DecidableEq

/-- The sockets, and the packets that have been read from each since it was opened. -/
structure ReadState where
  net : Sockets
  status : Nat → Status
  packets : Nat → List (UInt8 × Bytes)

/-- What happens to the sockets. -/
inductive ReadAction where
  /-- A connection is made, and gets this socket. -/
  | connect (socket : Nat)
  /-- The network has something for a socket. -/
  | arrive (socket : Nat) (event : Event)
  /-- `MQTTAsync_cycle` reads from the socket. -/
  | cycle (socket : Nat)
  /-- `Socket_close(socket)`. -/
  | close (socket : Nat)

/-- The sockets before anything is read. -/
def Sockets.initial : Sockets where
  defQueue := newDefQ
  queues := []
  connection := fun _ => ⟨[], [], false⟩

def ReadState.initial : ReadState where
  net := .initial
  status := fun _ => .closed
  packets := fun _ => []

open Function (update) in
/-- One step. A socket whose read has failed stays as it is until it is closed: for a client that
is connected, `MQTTAsync_receiveThread` only puts a DISCONNECT on the command queue. -/
def reading : Machine ReadState ReadAction where
  step state
    | .connect socket =>
        if 0 < socket ∧ state.status socket = .closed then
          some { state with
            net := { state.net with
              connection := update state.net.connection socket ⟨[], [], false⟩ }
            status := update state.status socket .open
            packets := update state.packets socket [] }
        else none
    | .arrive socket event =>
        if 0 < socket ∧ state.status socket ≠ .closed then
          let connection := state.net.connection socket
          some { state with
            net := { state.net with
              connection := update state.net.connection socket
                { connection with arriving := connection.arriving ++ [event] } } }
        else none
    | .cycle socket =>
        if 0 < socket ∧ state.status socket ≠ .closed then
          match state.net.readPacket socket with
          | (.ok packet, net) =>
              some { state with
                net
                packets := update state.packets socket (state.packets socket ++ [packet]) }
          | (.error .socketError, net) =>
              some { state with net, status := update state.status socket .broken }
          | (.error _, net) => some { state with net }
        else none
    | .close socket =>
        if 0 < socket ∧ state.status socket ≠ .closed then
          some { state with
            net := state.net.cleanup socket
            status := update state.status socket .closed }
        else none

/-- The bytes behind the packets of the socket are none of a packet. -/
def ReadState.Malformed (state : ReadState) (socket : Nat) : Prop :=
  (readPacket Bytes.getch Bytes.getdata
    (frames (state.net.connection socket).received).2).1 = .error .socketError

/-- Before a broken socket is closed, no other is read from while the queue in front is still its,
and it is not read from again itself if its bytes are none of a packet. -/
def Prompt (state : ReadState) : ReadAction → Prop
  | .cycle socket =>
      (state.status socket = .open → state.net.defQueue.socket = 0) ∧
        (state.status socket = .broken → ¬ state.Malformed socket)
  | _ => True

theorem Prompt.of_open {state : ReadState} {socket : Nat} (hfree : state.net.defQueue.socket = 0)
    (hopen : state.status socket = .open) : Prompt state (.cycle socket) :=
  ⟨fun _ => hfree, fun hbroken => Status.noConfusion (hopen.symm.trans hbroken)⟩

/-- What holds of a socket between two steps. -/
def ReadState.Framed (state : ReadState) (socket : Nat) : Prop :=
  let received := (state.net.connection socket).received
  match state.status socket with
  | .closed =>
      state.net.queuesOf socket = [] ∧ (frames received).1 = state.packets socket
  | .open =>
      ∃ header data, Sockets.Stored socket state.net header data ∧
        Sockets.Waiting header data ∧ frames received = (state.packets socket, header ++ data)
  | .broken =>
      (state.net.queuesOf socket).length ≤ 1 ∧ (frames received).1 = state.packets socket ∧
        ((state.net.connection socket).Failed ∧ Sockets.Stuck socket state.net ∨
          state.Malformed socket)

/-- What holds between two steps. -/
structure ReadState.Orderly (state : ReadState) : Prop where
  front : state.net.defQueue.socket = 0 ∨ state.status state.net.defQueue.socket = .broken
  framed : ∀ socket, 0 < socket → state.Framed socket

namespace ReadState

variable {state state' : ReadState} {socket other : Nat}

/-- What `Framed` depends on. -/
theorem Framed.congr (h : state.Framed socket)
    (hqueues : state'.net.queuesOf socket = state.net.queuesOf socket)
    (hreceived : (state'.net.connection socket).received =
      (state.net.connection socket).received)
    (hfailed : (state.net.connection socket).Failed → (state'.net.connection socket).Failed)
    (hstatus : state'.status socket = state.status socket)
    (hpackets : state'.packets socket = state.packets socket) : state'.Framed socket := by
  unfold Framed Malformed Sockets.Stored Sockets.Stuck at *
  rw [hqueues, hreceived, hstatus, hpackets]
  cases hcase : state.status socket with
  | closed =>
      rw [hcase] at h
      exact h
  | «open» =>
      rw [hcase] at h
      exact h
  | broken =>
      rw [hcase] at h
      exact ⟨h.1, h.2.1, h.2.2.imp_left fun hstuck => ⟨hfailed hstuck.1, hstuck.2⟩⟩

/-- A step at one socket, for the others. -/
theorem Framed.elsewhere (h : state.Framed other) (hpos : 0 < other) (hne : other ≠ socket)
    (helsewhere : Sockets.Elsewhere socket state.net state'.net)
    (hstatus : state'.status other = state.status other)
    (hpackets : state'.packets other = state.packets other) : state'.Framed other := by
  obtain ⟨hqueues, hconnection⟩ := helsewhere other hpos hne
  exact h.congr hqueues (by rw [hconnection]) (by rw [hconnection]; exact id) hstatus hpackets

theorem Framed.of_open (h : state.Framed socket) (hopen : state.status socket = .open) :
    ∃ header data, Sockets.Stored socket state.net header data ∧ Sockets.Waiting header data ∧
      frames (state.net.connection socket).received =
        (state.packets socket, header ++ data) := by
  unfold Framed at h
  rwa [hopen] at h

theorem Framed.of_broken (h : state.Framed socket) (hbroken : state.status socket = .broken) :
    (state.net.queuesOf socket).length ≤ 1 ∧
      (frames (state.net.connection socket).received).1 = state.packets socket ∧
        ((state.net.connection socket).Failed ∧ Sockets.Stuck socket state.net ∨
          state.Malformed socket) := by
  unfold Framed at h
  rwa [hbroken] at h

theorem Framed.of_closed (h : state.Framed socket) (hclosed : state.status socket = .closed) :
    state.net.queuesOf socket = [] ∧
      (frames (state.net.connection socket).received).1 = state.packets socket := by
  unfold Framed at h
  rwa [hclosed] at h

/-- What every socket has, open or not. -/
theorem Framed.basic (h : state.Framed socket) : (state.net.queuesOf socket).length ≤ 1 ∧
    (frames (state.net.connection socket).received).1 = state.packets socket := by
  cases hstatus : state.status socket with
  | closed =>
      obtain ⟨hqueues, hframes⟩ := h.of_closed hstatus
      exact ⟨hqueues ▸ Nat.zero_le 1, hframes⟩
  | «open» =>
      obtain ⟨header, data, hstored, -, hframes⟩ := h.of_open hstatus
      refine ⟨?_, congrArg Prod.fst hframes⟩
      obtain ⟨hqueues, -⟩ | ⟨queue, hqueues, -⟩ := hstored
      · exact hqueues ▸ Nat.zero_le 1
      · exact hqueues ▸ Nat.le_refl 1
  | broken =>
      obtain ⟨hqueues, hframes, -⟩ := h.of_broken hstatus
      exact ⟨hqueues, hframes⟩

/-- A call that meets the condition, on a socket that is open. -/
theorem Orderly.called (h : state.Orderly) (hpos : 0 < socket)
    (hopen : state.status socket = .open) (hfree : state.net.defQueue.socket = 0) :
    ∃ header data, Sockets.Called socket state.net header data (state.net.readPacket socket) ∧
      frames (state.net.connection socket).received =
        (state.packets socket, header ++ data) := by
  obtain ⟨header, data, hstored, hwait, hframes⟩ := (h.framed socket hpos).of_open hopen
  exact ⟨header, data, Sockets.readPacket_spec hpos ⟨hfree, hstored⟩ hwait, hframes⟩

/-- The queue in front, where the socket that it is of is none that changes. -/
theorem Orderly.front_of_ne (h : state.Orderly) {status : Nat → Status}
    (hsocket : state.status socket ≠ .broken)
    (hstatus : ∀ other, other ≠ socket → status other = state.status other) :
    state.net.defQueue.socket = 0 ∨ status state.net.defQueue.socket = .broken := by
  refine h.front.imp_right fun hbroken => ?_
  rw [hstatus _ fun heq => hsocket (heq ▸ hbroken)]
  exact hbroken

theorem Orderly.connect (h : state.Orderly)
    (hstep : reading.step state (.connect socket) = some state') : state'.Orderly := by
  simp only [reading] at hstep
  split_ifs at hstep with hguard
  obtain ⟨hpos, hclosed⟩ := hguard
  cases hstep
  have hnot : state.status socket ≠ .broken := by
    rw [hclosed]
    decide
  refine ⟨h.front_of_ne hnot fun other hne => Function.update_of_ne hne _ _,
    fun other hother => ?_⟩
  by_cases hne : other = socket
  · subst hne
    simp only [Framed, Function.update_self]
    exact ⟨[], [], .inl ⟨((h.framed other hpos).of_closed hclosed).1, rfl, rfl⟩, .nothing,
      frames_of_error rfl⟩
  · refine (h.framed other hother).elsewhere hother hne (fun _ _ hne' => ⟨rfl, ?_⟩) ?_ ?_
    · exact Function.update_of_ne hne' _ _
    · exact Function.update_of_ne hne _ _
    · exact Function.update_of_ne hne _ _

theorem Orderly.arrive (h : state.Orderly) {event : Event}
    (hstep : reading.step state (.arrive socket event) = some state') : state'.Orderly := by
  simp only [reading] at hstep
  split_ifs at hstep with hguard
  cases hstep
  refine ⟨h.front, fun other hother => ?_⟩
  by_cases hne : other = socket
  · subst hne
    refine (h.framed other hother).congr rfl ?_ ?_ rfl rfl <;> simp only [Function.update_self]
    rintro ⟨hflag, arriving, harriving⟩
    exact ⟨hflag, arriving ++ [event], by rw [harriving]; rfl⟩
  · refine (h.framed other hother).elsewhere hother hne (fun _ _ hne' => ⟨rfl, ?_⟩) rfl rfl
    exact Function.update_of_ne hne' _ _

theorem Orderly.close (h : state.Orderly)
    (hstep : reading.step state (.close socket) = some state') : state'.Orderly := by
  simp only [reading] at hstep
  split_ifs at hstep with hguard
  cases hstep
  obtain ⟨hqueues, hframes⟩ := (h.framed socket hguard.1).basic
  obtain ⟨hclean, helsewhere, hfront⟩ := Sockets.cleanup_spec hqueues
  refine ⟨?_, fun other hother => ?_⟩
  · obtain hzero | ⟨hsame, hne⟩ := hfront
    · exact .inl hzero
    · dsimp only
      rw [hsame, Function.update_of_ne hne]
      exact h.front
  · by_cases hne : other = socket
    · subst hne
      simp only [Framed, Function.update_self, Sockets.connection_cleanup]
      exact ⟨hclean, hframes⟩
    · refine (h.framed other hother).elsewhere hother hne helsewhere ?_ rfl
      exact Function.update_of_ne hne _ _

/-- A read of an open socket. -/
theorem Orderly.cycle_open (h : state.Orderly) (hpos : 0 < socket)
    (hopen : state.status socket = .open) (hfree : state.net.defQueue.socket = 0)
    (hstep : reading.step state (.cycle socket) = some state') : state'.Orderly := by
  simp only [reading] at hstep
  split_ifs at hstep with hguard
  obtain ⟨header, data, ⟨more, hreads, hcalled⟩, hframes⟩ := h.called hpos hopen hfree
  have hreceived := frames_append (state.net.connection socket).received more
  rw [hframes] at hreceived
  generalize state.net.readPacket socket = read at hreads hcalled hstep
  obtain ⟨result, net⟩ := read
  cases result with
  | ok packet =>
      obtain ⟨hpacket, hkept⟩ := hcalled
      cases hstep
      refine ⟨.inl hkept.free, fun other hother => ?_⟩
      by_cases hne : other = socket
      · subst hne
        simp only [Framed, hopen, Function.update_self]
        refine ⟨[], [], hkept.queue, .nothing, ?_⟩
        rw [hreads.received, hreceived, frames_of_ok hpacket, frames_of_error rfl]
        rfl
      · refine (h.framed other hother).elsewhere hother hne hreads.elsewhere rfl ?_
        exact Function.update_of_ne hne _ _
  | error rc =>
      cases rc with
      | interrupted =>
          obtain ⟨header', data', hsame, hwait, hkept⟩ := hcalled
          cases hstep
          refine ⟨.inl hkept.free, fun other hother => ?_⟩
          by_cases hne : other = socket
          · subst hne
            simp only [Framed, hopen]
            refine ⟨header', data', hkept.queue, hwait, ?_⟩
            rw [hreads.received, hreceived, ← hsame, frames_of_error hwait.interrupted,
              List.append_nil]
          · exact (h.framed other hother).elsewhere hother hne hreads.elsewhere rfl rfl
      | socketError =>
          obtain ⟨hcause, hqueues, hfront⟩ := hcalled
          cases hstep
          refine ⟨hfront.imp_right fun hown => ?_, fun other hother => ?_⟩
          · dsimp only at hown ⊢
            rw [hown, Function.update_self]
          by_cases hne : other = socket
          · subst hne
            simp only [Framed, Malformed, Function.update_self]
            rw [hreads.received, hreceived]
            obtain ⟨hfailed, hstuck, hread⟩ | hread := hcause
            · rw [frames_of_error hread, List.append_nil]
              exact ⟨hqueues, rfl, .inl ⟨hfailed, hstuck⟩⟩
            · rw [frames_of_error hread, List.append_nil]
              exact ⟨hqueues, rfl, .inr hread⟩
          · refine (h.framed other hother).elsewhere hother hne hreads.elsewhere ?_ rfl
            exact Function.update_of_ne hne _ _
      | badPacket => exact hcalled.elim
      | undefined => exact hcalled.elim

/-- A read of a broken socket fails as the one before it has. -/
theorem Orderly.cycle_broken (h : state.Orderly) (hpos : 0 < socket)
    (hbroken : state.status socket = .broken) (hframe : ¬ state.Malformed socket)
    (hstep : reading.step state (.cycle socket) = some state') : state'.Orderly := by
  obtain ⟨-, -, hcause⟩ := (h.framed socket hpos).of_broken hbroken
  obtain ⟨hfailed, hstuck⟩ := hcause.resolve_right hframe
  have hstatus : Function.update state.status socket .broken = state.status := by
    rw [← hbroken, Function.update_eq_self]
  simp only [reading, Sockets.readPacket_stuck hfailed hstuck, hstatus] at hstep
  split_ifs at hstep
  cases hstep
  exact h

/-- The step lemma: each socket keeps what its packets are made of. -/
theorem Orderly.step {action : ReadAction} (h : state.Orderly) (hprompt : Prompt state action)
    (hstep : reading.step state action = some state') : state'.Orderly := by
  cases action with
  | connect => exact h.connect hstep
  | arrive => exact h.arrive hstep
  | close => exact h.close hstep
  | cycle socket =>
      have hguard : 0 < socket ∧ state.status socket ≠ .closed := by
        by_contra hnot
        simp only [reading, hnot, if_false] at hstep
        cases hstep
      cases hstatus : state.status socket with
      | closed => exact absurd hstatus hguard.2
      | «open» => exact h.cycle_open hguard.1 hstatus (hprompt.1 hstatus) hstep
      | broken => exact h.cycle_broken hguard.1 hstatus (hprompt.2 hstatus) hstep

theorem orderly_initial : ReadState.initial.Orderly :=
  ⟨.inl rfl, fun _ _ => ⟨rfl, congrArg Prod.fst (frames_of_error rfl)⟩⟩

theorem orderly_of_run {acts : List ReadAction} (hr : reading.Run .initial acts state)
    (hprompt : reading.Along Prompt .initial acts) : state.Orderly :=
  hr.invariant_along (fun _ _ _ h hc hstep => h.step hc hstep) hprompt orderly_initial

end ReadState

/-- Whatever pieces the bytes come in and however the reads of several sockets alternate, the
packets of a socket are those of its bytes in a row, no call gets at memory that nothing was
written to, and reading only fails where the connection does or where the bytes behind the packets
are none of a packet. Only a broken socket that is not closed yet must not get in between. -/
theorem packets_of_pieces {state : ReadState} {acts : List ReadAction}
    (hr : reading.Run .initial acts state) (hprompt : reading.Along Prompt .initial acts)
    {socket : Nat} (hpos : 0 < socket) :
    (frames (state.net.connection socket).received).1 = state.packets socket ∧
      (state.status socket ≠ .closed → Prompt state (.cycle socket) →
        (state.net.readPacket socket).1 ≠ .error .undefined) ∧
      (state.status socket = .broken → (state.net.connection socket).failed = true ∨
        (readPacket Bytes.getch Bytes.getdata
          (frames (state.net.connection socket).received).2).1 = .error .socketError) := by
  have h := ReadState.orderly_of_run hr hprompt
  have hframed := h.framed socket hpos
  refine ⟨hframed.basic.2, fun hnot hcycle hundefined => ?_, fun hbroken => ?_⟩
  · cases hstatus : state.status socket with
    | closed => exact hnot hstatus
    | «open» =>
        obtain ⟨header, data, ⟨more, -, hcalled⟩, -⟩ := h.called hpos hstatus (hcycle.1 hstatus)
        rw [hundefined] at hcalled
        exact hcalled
    | broken =>
        obtain ⟨-, -, hcause⟩ := hframed.of_broken hstatus
        obtain ⟨hfailed, hstuck⟩ := hcause.resolve_right (hcycle.2 hstatus)
        rw [Sockets.readPacket_stuck hfailed hstuck] at hundefined
        cases hundefined
  · obtain ⟨-, -, hcause⟩ := hframed.of_broken hbroken
    exact hcause.imp_left fun hstuck => hstuck.1.1

/-- A packet in two pieces. In between another connection breaks in a header and is closed. -/
theorem packets_of_pieces_two :
    ∃ state, reading.Run .initial
        [.connect 1, .connect 2, .arrive 1 (.byte 0xD0), .cycle 1, .arrive 2 (.byte 0xD0),
          .arrive 2 .fail, .cycle 2, .close 2, .arrive 1 (.byte 0), .cycle 1] state ∧
      state.packets 1 = [(0xD0, [])] ∧
      (frames (state.net.connection 1).received).1 = state.packets 1 ∧
      (state.status 1 ≠ .closed → Prompt state (.cycle 1) →
        (state.net.readPacket 1).1 ≠ .error .undefined) ∧
      (state.status 1 = .broken → (state.net.connection 1).failed = true ∨
        (readPacket Bytes.getch Bytes.getdata
          (frames (state.net.connection 1).received).2).1 = .error .socketError) := by
  have hr : reading.Run .initial
      [.connect 1, .connect 2, .arrive 1 (.byte 0xD0), .cycle 1, .arrive 2 (.byte 0xD0),
        .arrive 2 .fail, .cycle 2, .close 2, .arrive 1 (.byte 0), .cycle 1] _ :=
    Machine.Run.exec_iff.mp rfl
  refine ⟨_, hr, rfl, packets_of_pieces hr ?_ (by decide)⟩
  iterate 3 refine (Machine.along_cons rfl).mpr ⟨trivial, ?_⟩
  refine (Machine.along_cons rfl).mpr ⟨.of_open rfl rfl, ?_⟩
  iterate 2 refine (Machine.along_cons rfl).mpr ⟨trivial, ?_⟩
  refine (Machine.along_cons rfl).mpr ⟨.of_open rfl rfl, ?_⟩
  iterate 2 refine (Machine.along_cons rfl).mpr ⟨trivial, ?_⟩
  exact (Machine.along_cons rfl).mpr ⟨.of_open rfl rfl, trivial⟩

/-- Without the condition: the queue in front is still that of the broken socket, so the first
byte from the other is kept nowhere, and its packet is never made. -/
theorem piece_lost :
    ∃ state, reading.Run .initial
        [.connect 1, .connect 2, .arrive 2 (.byte 0xD0), .arrive 2 .fail, .cycle 2,
          .arrive 1 (.byte 0xD0), .cycle 1, .arrive 1 (.byte 0), .cycle 1] state ∧
      state.packets 1 = [] ∧
      (frames (state.net.connection 1).received).1 = [(0xD0, [])] := by
  refine ⟨_, Machine.Run.exec_iff.mp rfl, rfl, ?_⟩
  have hread : readPacket Bytes.getch Bytes.getdata [0xD0, 0] = (.ok (0xD0, []), []) := rfl
  have hnone : frames [] = ([], []) := frames_of_error rfl
  have hframes := frames_of_ok hread
  rw [hnone] at hframes
  exact congrArg Prod.fst hframes

end MQTTPacket
