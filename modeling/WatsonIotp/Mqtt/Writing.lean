import Mathlib.Data.List.Nodup
import WatsonIotp.Mqtt.Reading

/-!
# Writing to non-blocking sockets

A write may take a part of a packet only. The rest of it is kept until the socket can be written
to again, and no other packet is written to the socket before that.
-/

namespace MQTTPacket

/-! ### The code -/

/-- `pending_writes`, without the TLS session and what is to be freed. -/
structure PendingWrite where
  socket : Nat
  iovecs : List Bytes
  total : Nat
  bytes : Nat

/-- What `writev` does: it takes some bytes, it would block, or it fails. -/
inductive Answer where
  | wrote (bytes : Nat)
  | again
  | error

/-- `Socket_writev(socket, iovecs, count, bytes)`, with the number of bytes. There is no answer
that takes more than there is. -/
def writev (iovecs : List Bytes) : Answer → Option (Except Failure Nat)
  | .wrote bytes => if bytes ≤ iovecs.flatten.length then some (.ok bytes) else none
  | .again => some (.ok 0)
  | .error => some (.error .socketError)

/-- The loop of `Socket_continueWrite` that collects what is left to write, with `curbuflen`. -/
def leftToWrite (bytes : Nat) : Nat → List Bytes → List Bytes
  | _, [] => []
  | curbuflen, iovec :: iovecs =>
      if bytes ≤ curbuflen then
        iovec :: leftToWrite bytes (curbuflen + iovec.length) iovecs
      else if bytes < curbuflen + iovec.length then [iovec.drop (bytes - curbuflen)]
      else leftToWrite bytes (curbuflen + iovec.length) iovecs

/-- `s.write_pending` and the pending writes, and for each socket whether it is open, whether
going on with a write has failed, the packets that a write was begun of, and the bytes that have
been taken. -/
structure WriteState where
  writePending : List Nat
  writes : List PendingWrite
  isOpen : Nat → Bool
  failed : Nat → Bool
  sent : Nat → List (List Bytes)
  wire : Nat → Bytes

def WriteState.initial : WriteState where
  writePending := []
  writes := []
  isOpen := fun _ => false
  failed := fun _ => false
  sent := fun _ => []
  wire := fun _ => []

inductive WriteAction where
  /-- A connection is made, and gets this socket. -/
  | connect (socket : Nat)
  /-- `Socket_putdatas`, with the buffers of a packet. -/
  | putdatas (socket : Nat) (iovecs : List Bytes) (answer : Answer)
  /-- `Socket_continueWrites` comes to the socket and it can be written to. -/
  | continueWrite (socket : Nat) (answer : Answer)
  /-- `Socket_close(socket)`. -/
  | close (socket : Nat)

open Function (update) in
/-- `SocketBuffer_pendingWrite` and the end of `Socket_putdatas`. -/
def WriteState.put (state : WriteState) (socket : Nat) (iovecs : List Bytes) (bytes : Nat) :
    WriteState :=
  let state := { state with
    sent := update state.sent socket (state.sent socket ++ [iovecs])
    wire := update state.wire socket (state.wire socket ++ iovecs.flatten.take bytes) }
  if bytes = iovecs.flatten.length then state
  else { state with
    writes := state.writes ++ [⟨socket, iovecs, iovecs.flatten.length, bytes⟩]
    writePending := state.writePending ++ [socket] }

/-- What `Socket_continueWrites` does with a write that is over. -/
def WriteState.writeComplete (state : WriteState) (socket : Nat) : WriteState :=
  { state with
    writes := state.writes.eraseP (·.socket = socket)
    writePending := state.writePending.erase socket }

open Function (update) in
/-- `Socket_continueWrite(socket)` after `bytes` more have been written, and what is done with
its result. -/
def WriteState.continued (state : WriteState) (socket : Nat) (pw : PendingWrite) (bytes : Nat) :
    WriteState :=
  let state := { state with
    writes := Sockets.modifyFirst (·.socket = socket)
      (fun pw => { pw with bytes := pw.bytes + bytes }) state.writes
    wire := update state.wire socket
      (state.wire socket ++ (leftToWrite pw.bytes 0 pw.iovecs).flatten.take bytes) }
  if pw.bytes + bytes = pw.total then state.writeComplete socket else state

open Function (update) in
/-- One step. A write that fails when it is gone on with counts as over. `Socket_close` takes the
socket out of `s.write_pending`, and leaves the pending write itself. -/
def writing : Machine WriteState WriteAction where
  step state
    | .connect socket =>
        if state.isOpen socket = false then
          some { state with
            isOpen := update state.isOpen socket true
            failed := update state.failed socket false
            sent := update state.sent socket []
            wire := update state.wire socket [] }
        else none
    | .putdatas socket iovecs answer =>
        if state.isOpen socket = true then
          if socket ∈ state.writePending then some state
          else (writev iovecs answer).map fun
            | .error _ => state
            | .ok bytes => state.put socket iovecs bytes
        else none
    | .continueWrite socket answer =>
        if socket ∈ state.writePending then
          (state.writes.find? (·.socket = socket)).bind fun pw =>
            (writev (leftToWrite pw.bytes 0 pw.iovecs) answer).map fun
              | .error _ => { state.writeComplete socket with
                  failed := update state.failed socket true }
              | .ok bytes => state.continued socket pw bytes
        else none
    | .close socket =>
        if state.isOpen socket = true then
          some { state with
            isOpen := update state.isOpen socket false
            writePending := state.writePending.erase socket }
        else none

theorem writev_le {iovecs : List Bytes} {answer : Answer} {bytes : Nat}
    (h : writev iovecs answer = some (.ok bytes)) : bytes ≤ iovecs.flatten.length := by
  cases answer with
  | wrote n =>
      rw [writev] at h
      split_ifs at h with hn
      cases h
      exact hn
  | again =>
      cases h
      exact Nat.zero_le _
  | error => cases h

/-! ### What is left of a packet -/

theorem leftToWrite_of_le {bytes curbuflen : Nat} (h : bytes ≤ curbuflen) (iovecs : List Bytes) :
    leftToWrite bytes curbuflen iovecs = iovecs := by
  induction iovecs generalizing curbuflen with
  | nil => rfl
  | cons iovec iovecs ih => rw [leftToWrite, if_pos h, ih (Nat.le_add_right_of_le h)]

/-- What is written next is what comes next in the packet. -/
theorem leftToWrite_prefix {bytes curbuflen : Nat} (h : curbuflen ≤ bytes) (iovecs : List Bytes) :
    (leftToWrite bytes curbuflen iovecs).flatten <+: iovecs.flatten.drop (bytes - curbuflen) := by
  induction iovecs generalizing curbuflen with
  | nil => exact List.nil_prefix
  | cons iovec iovecs ih =>
      obtain rfl | hlt := h.eq_or_lt
      · rw [leftToWrite_of_le (Nat.le_refl _), Nat.sub_self, List.drop_zero]
      · rw [leftToWrite, if_neg (Nat.not_le_of_lt hlt), List.flatten_cons]
        split_ifs with hin
        · rw [List.flatten_singleton, List.drop_append_of_le_length (by omega)]
          exact List.prefix_append _ _
        · have hskip : bytes - curbuflen = iovec.length + (bytes - (curbuflen + iovec.length)) := by
            omega
          rw [hskip, List.drop_length_add_append]
          exact ih (by omega)

/-- As long as there is something left, there is something to write. -/
theorem leftToWrite_ne_nil {bytes curbuflen : Nat} (h : curbuflen ≤ bytes) {iovecs : List Bytes}
    (hlt : bytes < curbuflen + iovecs.flatten.length) :
    (leftToWrite bytes curbuflen iovecs).flatten ≠ [] := by
  induction iovecs generalizing curbuflen with
  | nil => exact absurd hlt (by simpa using h)
  | cons iovec iovecs ih =>
      rw [List.flatten_cons, List.length_append] at hlt
      obtain rfl | hbehind := h.eq_or_lt
      · rw [leftToWrite_of_le (Nat.le_refl _), List.flatten_cons]
        apply List.ne_nil_of_length_pos
        rw [List.length_append]
        omega
      · rw [leftToWrite, if_neg (Nat.not_le_of_lt hbehind)]
        split_ifs with hin
        · apply List.ne_nil_of_length_pos
          rw [List.flatten_singleton, List.length_drop]
          omega
        · exact ih (by omega) (by omega)

/-! ### The invariant -/

/-- The pending writes of a socket. -/
def WriteState.pendingOf (state : WriteState) (socket : Nat) : List PendingWrite :=
  state.writes.filter (·.socket = socket)

/-- What is known of a socket: it is closed, or all that was begun on it has been written, or it
is at the packet that was begun last. -/
inductive WriteState.Written (state : WriteState) (socket : Nat) : Prop where
  | closed (shut : state.isOpen socket = false) (none : socket ∉ state.writePending)
  | idle (none : socket ∉ state.writePending) (pendingOf : state.pendingOf socket = [])
      (wire : state.failed socket = false →
        state.wire socket = (state.sent socket).flatten.flatten)
  | pending (pw : PendingWrite) (before : List (List Bytes))
      (mem : socket ∈ state.writePending) (pendingOf : state.pendingOf socket = [pw])
      (total : pw.total = pw.iovecs.flatten.length) (lt : pw.bytes < pw.total)
      (sent : state.sent socket = before ++ [pw.iovecs])
      (wire : state.failed socket = false → state.wire socket =
        before.flatten.flatten ++ pw.iovecs.flatten.take pw.bytes)

/-- No pending write of an earlier connection waits for the socket that a new one gets. -/
def Unused (state : WriteState) : WriteAction → Prop
  | .connect socket => state.pendingOf socket = []
  | _ => True

/-- The state is good: the pending sockets are listed once, and each socket is as it should be. -/
structure WriteState.Good (state : WriteState) : Prop where
  nodup : state.writePending.Nodup
  written : ∀ socket, state.Written socket

/-- What `Written` depends on. -/
theorem WriteState.Written.congr {state state' : WriteState} {socket : Nat}
    (h : state.Written socket) (hopen : state'.isOpen socket = state.isOpen socket)
    (hpending : socket ∈ state'.writePending ↔ socket ∈ state.writePending)
    (hwrites : state'.pendingOf socket = state.pendingOf socket)
    (hfailed : state'.failed socket = state.failed socket)
    (hsent : state'.sent socket = state.sent socket)
    (hwire : state'.wire socket = state.wire socket) : state'.Written socket := by
  cases h with
  | closed shut none => exact .closed (hopen.trans shut) (mt hpending.mp none)
  | idle none pendingOf wire =>
      refine .idle (mt hpending.mp none) (hwrites.trans pendingOf) fun hfine => ?_
      rw [hwire, hsent]
      exact wire (hfailed.symm.trans hfine)
  | pending pw before mem pendingOf total lt sent wire =>
      refine .pending pw before (hpending.mpr mem) (hwrites.trans pendingOf) total lt
        (hsent.trans sent) fun hfine => ?_
      rw [hwire]
      exact wire (hfailed.symm.trans hfine)

theorem good_initial : WriteState.initial.Good :=
  ⟨List.nodup_nil, fun _ => .closed rfl List.not_mem_nil⟩

section Steps

open Function (update)

variable {state state' : WriteState} {socket : Nat}

theorem good_connect (h : state.Good) (hunused : Unused state (.connect socket))
    (hstep : writing.step state (.connect socket) = some state') : state'.Good := by
  simp only [writing] at hstep
  split_ifs at hstep with hclosed
  cases hstep
  refine ⟨h.nodup, fun other => ?_⟩
  by_cases hne : other = socket
  · subst hne
    have hnone : other ∉ state.writePending := by
      cases h.written other with
      | closed _ none => exact none
      | idle none => exact none
      | pending pw _ _ pendingOf =>
          rw [Unused, pendingOf] at hunused
          cases hunused
    exact .idle hnone hunused fun _ => by simp only [Function.update_self, List.flatten_nil]
  · exact (h.written other).congr (Function.update_of_ne hne _ _) Iff.rfl rfl
      (Function.update_of_ne hne _ _) (Function.update_of_ne hne _ _)
      (Function.update_of_ne hne _ _)

theorem good_close (h : state.Good)
    (hstep : writing.step state (.close socket) = some state') : state'.Good := by
  simp only [writing] at hstep
  split_ifs at hstep with hopen
  cases hstep
  refine ⟨h.nodup.erase socket, fun other => ?_⟩
  by_cases hne : other = socket
  · subst hne
    exact .closed (Function.update_self _ _ _) h.nodup.not_mem_erase
  · exact (h.written other).congr (Function.update_of_ne hne _ _)
      (List.mem_erase_of_ne hne) rfl rfl rfl rfl

/-- The bytes that a write takes are in their places in the packet. -/
theorem take_written {pw : PendingWrite} {bytes : Nat}
    (h : bytes ≤ (leftToWrite pw.bytes 0 pw.iovecs).flatten.length) :
    pw.iovecs.flatten.take pw.bytes ++ (leftToWrite pw.bytes 0 pw.iovecs).flatten.take bytes =
        pw.iovecs.flatten.take (pw.bytes + bytes) ∧
      pw.bytes + bytes ≤ max pw.bytes pw.iovecs.flatten.length := by
  obtain ⟨more, hmore⟩ := leftToWrite_prefix (Nat.zero_le pw.bytes) pw.iovecs
  rw [Nat.sub_zero] at hmore
  constructor
  · rw [List.take_add, ← hmore, List.take_append_of_le_length h]
  · have hlength := congrArg List.length hmore
    rw [List.length_append, List.length_drop] at hlength
    omega

theorem other_pending {other : Nat} (hne : other ≠ socket) {pw : PendingWrite}
    (h : decide (pw.socket = socket) = true) : decide (pw.socket = other) = false := by
  have hsocket := of_decide_eq_true h
  exact decide_eq_false (hsocket ▸ hne.symm)

theorem good_put (h : state.Good) (hopen : state.isOpen socket = true)
    (hfree : socket ∉ state.writePending) {iovecs : List Bytes} {bytes : Nat}
    (hbytes : bytes ≤ iovecs.flatten.length) : (state.put socket iovecs bytes).Good := by
  obtain ⟨hnone, hwire⟩ : state.pendingOf socket = [] ∧ (state.failed socket = false →
      state.wire socket = (state.sent socket).flatten.flatten) := by
    cases h.written socket with
    | closed shut => exact absurd (hopen.symm.trans shut) (by decide)
    | idle _ pendingOf wire => exact ⟨pendingOf, wire⟩
    | pending _ _ mem => exact absurd mem hfree
  rw [WriteState.put]
  dsimp only
  split_ifs with hall
  · refine ⟨h.nodup, fun other => ?_⟩
    by_cases hne : other = socket
    · subst hne
      refine .idle hfree hnone fun hfine => ?_
      simp only [Function.update_self]
      rw [hwire hfine, hall, List.take_length, List.flatten_append, List.flatten_append,
        List.flatten_singleton]
    · exact (h.written other).congr rfl Iff.rfl rfl rfl (Function.update_of_ne hne _ _)
        (Function.update_of_ne hne _ _)
  · have hnodup : (state.writePending ++ [socket]).Nodup := by
      rw [← List.concat_eq_append]
      exact h.nodup.concat hfree
    refine ⟨hnodup, fun other => ?_⟩
    by_cases hne : other = socket
    · subst hne
      refine .pending ⟨other, iovecs, iovecs.flatten.length, bytes⟩ (state.sent other)
        (List.mem_append_right _ (List.mem_singleton_self other)) ?_ rfl
        (Nat.lt_of_le_of_ne hbytes hall) (Function.update_self _ _ _) fun hfine => ?_
      · rw [WriteState.pendingOf, List.filter_append, ← WriteState.pendingOf, hnone,
          List.nil_append]
        exact List.filter_cons_of_pos (by simp)
      · simp only [Function.update_self]
        rw [hwire hfine]
    · refine (h.written other).congr rfl ?_ ?_ rfl (Function.update_of_ne hne _ _)
        (Function.update_of_ne hne _ _)
      · rw [List.mem_append, List.mem_singleton, or_iff_left hne]
      · rw [WriteState.pendingOf, List.filter_append, ← WriteState.pendingOf,
          List.filter_cons_of_neg (by simpa using fun h => hne h.symm), List.filter_nil,
          List.append_nil]

/-- A write that is over, for the sockets of the others and, where `wire` fits, for its own. -/
theorem good_writeComplete (h : state.Good) {pw : PendingWrite}
    (hpending : state.pendingOf socket = [pw]) {failed : Nat → Bool}
    {wire : Nat → Bytes} (hfailed : ∀ other, other ≠ socket → failed other = state.failed other)
    (hothers : ∀ other, other ≠ socket → wire other = state.wire other)
    (hwire : failed socket = false → wire socket = (state.sent socket).flatten.flatten) :
    WriteState.Good { state.writeComplete socket with failed, wire } := by
  refine ⟨h.nodup.erase socket, fun other => ?_⟩
  by_cases hne : other = socket
  · subst hne
    refine .idle h.nodup.not_mem_erase ?_ hwire
    show (state.writes.eraseP _).filter _ = []
    rw [Sockets.filter_eraseP]
    exact congrArg List.tail hpending
  · exact (h.written other).congr rfl (List.mem_erase_of_ne hne)
      (Sockets.filter_eraseP_other fun _ => other_pending hne) (hfailed other hne) rfl
      (hothers other hne)

theorem good_continueWrite (h : state.Good) {answer : Answer}
    (hstep : writing.step state (.continueWrite socket answer) = some state') : state'.Good := by
  simp only [writing] at hstep
  split_ifs at hstep with hmem
  obtain ⟨pw, hfind, hstep⟩ := Option.bind_eq_some_iff.mp hstep
  obtain ⟨result, hwritev, hstep⟩ := Option.map_eq_some_iff.mp hstep
  obtain ⟨before, hpending, htotal, hlt, hsent, hwire⟩ : ∃ before,
      state.pendingOf socket = [pw] ∧ pw.total = pw.iovecs.flatten.length ∧
        pw.bytes < pw.total ∧ state.sent socket = before ++ [pw.iovecs] ∧
        (state.failed socket = false → state.wire socket =
          before.flatten.flatten ++ pw.iovecs.flatten.take pw.bytes) := by
    cases h.written socket with
    | closed _ none => exact absurd hmem none
    | idle none => exact absurd hmem none
    | pending pw' before _ pendingOf total lt sent wire =>
        have hfound := List.head?_filter.symm.trans (congrArg List.head? pendingOf)
        cases hfind.symm.trans hfound
        exact ⟨before, pendingOf, total, lt, sent, wire⟩
  cases result with
  | error rc =>
      obtain rfl := hstep
      refine good_writeComplete h hpending (fun other hne => Function.update_of_ne hne _ _)
        (fun _ _ => rfl) fun hfine => ?_
      rw [Function.update_self] at hfine
      cases hfine
  | ok bytes =>
      obtain rfl := hstep
      obtain ⟨htake, hle⟩ := take_written (writev_le hwritev)
      unfold WriteState.continued
      dsimp only
      split_ifs with hall
      · have hover : (Sockets.modifyFirst (fun pw => decide (pw.socket = socket))
            (fun pw => { pw with bytes := pw.bytes + bytes }) state.writes).eraseP
              (fun pw => decide (pw.socket = socket)) =
            state.writes.eraseP fun pw => decide (pw.socket = socket) :=
          Sockets.eraseP_modifyFirst fun _ h => h
        rw [WriteState.writeComplete]
        dsimp only
        rw [hover]
        refine good_writeComplete h hpending (fun _ _ => rfl)
          (fun other hne => Function.update_of_ne hne _ _) fun hfine => ?_
        simp only [Function.update_self]
        rw [hwire hfine, List.append_assoc, htake, hall, htotal, List.take_length, hsent,
          List.flatten_append, List.flatten_append, List.flatten_singleton]
      · refine ⟨h.nodup, fun other => ?_⟩
        by_cases hne : other = socket
        · subst hne
          refine .pending { pw with bytes := pw.bytes + bytes } before hmem
            (Sockets.filter_modifyFirst (fun _ h => h) hpending) htotal ?_ hsent fun hfine => ?_
          · show pw.bytes + bytes < pw.total
            omega
          · simp only [Function.update_self]
            rw [hwire hfine, List.append_assoc, htake]
        · exact (h.written other).congr rfl Iff.rfl
            (Sockets.filter_modifyFirst_other fun _ h =>
              ⟨other_pending hne h, other_pending hne h⟩)
            rfl rfl (Function.update_of_ne hne _ _)

theorem good_putdatas (h : state.Good) {iovecs : List Bytes} {answer : Answer}
    (hstep : writing.step state (.putdatas socket iovecs answer) = some state') :
    state'.Good := by
  simp only [writing] at hstep
  split_ifs at hstep with hopen hpending
  · cases hstep
    exact h
  · obtain ⟨result, hwritev, rfl⟩ := Option.map_eq_some_iff.mp hstep
    cases result with
    | error rc => exact h
    | ok bytes => exact good_put h hopen hpending (writev_le hwritev)

theorem good_step {action : WriteAction} (h : state.Good) (hunused : Unused state action)
    (hstep : writing.step state action = some state') : state'.Good := by
  cases action with
  | connect => exact good_connect h hunused hstep
  | putdatas => exact good_putdatas h hstep
  | continueWrite => exact good_continueWrite h hstep
  | close => exact good_close h hstep

end Steps

/-! ### Runs -/

theorem good {state : WriteState} {acts : List WriteAction}
    (hr : writing.Run .initial acts state) (hunused : writing.Along Unused .initial acts) :
    state.Good :=
  hr.invariant_along (fun _ _ _ h hc hstep => good_step h hc hstep) hunused good_initial

/-- However little the writes take at a time, the bytes that have been taken from a connection are
those of its packets in a row; where some are missing, they are the ones that are written next. -/
theorem wire_of_packets {state : WriteState} {acts : List WriteAction}
    (hr : writing.Run .initial acts state) (hunused : writing.Along Unused .initial acts)
    {socket : Nat} (hopen : state.isOpen socket = true) (hfine : state.failed socket = false) :
    (socket ∉ state.writePending ∧
        state.wire socket = (state.sent socket).flatten.flatten) ∨
      (socket ∈ state.writePending ∧ ∃ pw,
        state.writes.find? (·.socket = socket) = some pw ∧
        (leftToWrite pw.bytes 0 pw.iovecs).flatten ≠ [] ∧
        state.wire socket ++ pw.iovecs.flatten.drop pw.bytes =
          (state.sent socket).flatten.flatten) := by
  cases (good hr hunused).written socket with
  | closed shut => exact absurd (hopen.symm.trans shut) (by decide)
  | idle none _ wire => exact .inl ⟨none, wire hfine⟩
  | pending pw before mem pendingOf total lt sent wire =>
      refine .inr ⟨mem, pw, List.head?_filter.symm.trans (congrArg List.head? pendingOf), ?_, ?_⟩
      · exact leftToWrite_ne_nil (Nat.zero_le _) (by omega)
      · rw [wire hfine, sent, List.append_assoc, List.take_append_drop, List.flatten_append,
          List.flatten_append, List.flatten_singleton]

/-- A packet of which two bytes are taken at first, and three of which one would block. -/
theorem wire_of_packets_partial :
    ∃ state, writing.Run .initial
        [.connect 5, .putdatas 5 [[1, 2], [3, 4]] (.wrote 3), .continueWrite 5 .again] state ∧
      ((5 ∉ state.writePending ∧ state.wire 5 = (state.sent 5).flatten.flatten) ∨
        (5 ∈ state.writePending ∧ ∃ pw, state.writes.find? (·.socket = 5) = some pw ∧
          (leftToWrite pw.bytes 0 pw.iovecs).flatten ≠ [] ∧
          state.wire 5 ++ pw.iovecs.flatten.drop pw.bytes = (state.sent 5).flatten.flatten)) :=
  have hr := Machine.Run.exec_iff.mp rfl
  ⟨_, hr, wire_of_packets hr
    ⟨rfl, fun _ _ => ⟨trivial, fun _ _ => ⟨trivial, fun _ _ => trivial⟩⟩⟩ rfl rfl⟩

/-- The condition on `connect` is needed: the rest of a packet that a closed connection has not
taken is written to the next one with the same socket, and the rest of its own packet never. -/
theorem stale_write :
    ∃ state, writing.Run .initial
        [.connect 5, .putdatas 5 [[1, 2, 3]] (.wrote 1), .close 5, .connect 5,
          .putdatas 5 [[7, 8, 9]] (.wrote 1), .continueWrite 5 (.wrote 2)] state ∧
      state.failed 5 = false ∧ state.writePending = [] ∧ state.sent 5 = [[[7, 8, 9]]] ∧
      state.wire 5 = [7, 2, 3] :=
  ⟨_, Machine.Run.exec_iff.mp rfl, rfl, rfl, rfl, rfl⟩

/-! ### From one end to the other -/

theorem frames_prefix {bytes bytes' : Bytes} (h : bytes <+: bytes') :
    (frames bytes).1 <+: (frames bytes').1 := by
  obtain ⟨more, rfl⟩ := h
  rw [frames_append]
  exact List.prefix_append _ _

/-- Packets that are written in parts on one side and read in parts on the other come out as they
were put in, in their order and each once, as far as the network has got. -/
theorem packets_delivered {state : WriteState} {acts : List WriteAction}
    (hw : writing.Run .initial acts state) (hunused : writing.Along Unused .initial acts)
    {socket : Nat} (hopen : state.isOpen socket = true) (hfine : state.failed socket = false)
    {packets : List (UInt8 × Bytes)} (hlength : ∀ packet ∈ packets, packet.2.length < maxLength)
    (hsent : (state.sent socket).map List.flatten =
      packets.map fun packet => frame packet.1 packet.2)
    {peer : ReadState} {acts' : List ReadAction} (hr : reading.Run .initial acts' peer)
    (hprompt : reading.Along Prompt .initial acts') {socket' : Nat} (hpos : 0 < socket')
    (hnetwork : (peer.net.connection socket').received <+: state.wire socket) :
    peer.packets socket' <+: packets ∧
      ((peer.net.connection socket').received = state.wire socket →
        socket ∉ state.writePending → peer.packets socket' = packets) := by
  have hall : frames (state.sent socket).flatten.flatten = (packets, []) := by
    rw [List.flatten_flatten, hsent]
    exact frames_flatMap hlength
  obtain ⟨hpackets, -, -⟩ := packets_of_pieces hr hprompt hpos
  have hwire := wire_of_packets hw hunused hopen hfine
  rw [← hpackets]
  constructor
  · have hprefix : state.wire socket <+: (state.sent socket).flatten.flatten := by
      obtain ⟨-, hwire⟩ | ⟨-, pw, -, -, hwire⟩ := hwire
      · rw [hwire]
      · exact ⟨_, hwire⟩
    have hframes := frames_prefix (hnetwork.trans hprefix)
    rwa [hall] at hframes
  · intro hreceived hnone
    obtain ⟨-, hwire⟩ | ⟨hmem, -⟩ := hwire
    · rw [hreceived, hwire, hall]
    · exact absurd hmem hnone

/-- A PUBACK of which one byte is taken at first, and a PINGREQ; they are read as they come, and
the data of the PUBACK is not there at the first read. -/
theorem packets_delivered_ping :
    ∃ state peer, writing.Run .initial
        [.connect 5, .putdatas 5 (sendAck PUBACK 7 false) (.wrote 1), .continueWrite 5 (.wrote 1),
          .continueWrite 5 (.wrote 2), .putdatas 5 (sendHeader PINGREQ) (.wrote 2)] state ∧
      reading.Run .initial
        [.connect 9, .arrive 9 (.byte 0x40), .arrive 9 (.byte 2), .cycle 9, .arrive 9 (.byte 0),
          .arrive 9 (.byte 7), .cycle 9, .arrive 9 (.byte 0xC0), .arrive 9 (.byte 0), .cycle 9]
        peer ∧
      peer.packets 9 <+: [(0x40, [0, 7]), (0xC0, [])] ∧
      ((peer.net.connection 9).received = state.wire 5 → 5 ∉ state.writePending →
        peer.packets 9 = [(0x40, [0, 7]), (0xC0, [])]) := by
  have hack : sendAck PUBACK 7 false = [[0x40, 2], [0, 7]] := by
    rw [sendAck, send, encode]
    rfl
  have hping : sendHeader PINGREQ = [[0xC0, 0], []] := by
    rw [sendHeader, send, encode]
    rfl
  have hframes : [sendAck PUBACK 7 false, sendHeader PINGREQ].map List.flatten =
      [((0x40 : UInt8), ([0, 7] : Bytes)), (0xC0, [])].map fun p => frame p.1 p.2 := by
    simp only [sendAck, sendHeader, List.map_cons, List.map_nil, flatten_send]
    rfl
  have hw : writing.Run .initial
      [.connect 5, .putdatas 5 [[0x40, 2], [0, 7]] (.wrote 1), .continueWrite 5 (.wrote 1),
        .continueWrite 5 (.wrote 2), .putdatas 5 [[0xC0, 0], []] (.wrote 2)] _ :=
    Machine.Run.exec_iff.mp rfl
  have hr : reading.Run .initial
      [.connect 9, .arrive 9 (.byte 0x40), .arrive 9 (.byte 2), .cycle 9, .arrive 9 (.byte 0),
        .arrive 9 (.byte 7), .cycle 9, .arrive 9 (.byte 0xC0), .arrive 9 (.byte 0), .cycle 9] _ :=
    Machine.Run.exec_iff.mp rfl
  rw [hack, hping] at hframes ⊢
  refine ⟨_, _, hw, hr, packets_delivered hw ?_ rfl rfl ?_ ?_ hr ?_ (by decide) ⟨[], rfl⟩⟩
  · refine (Machine.along_cons rfl).mpr ⟨rfl, ?_⟩
    iterate 3 refine (Machine.along_cons rfl).mpr ⟨trivial, ?_⟩
    exact (Machine.along_cons rfl).mpr ⟨trivial, trivial⟩
  · simp [maxLength]
  · exact hframes
  · iterate 3 refine (Machine.along_cons rfl).mpr ⟨trivial, ?_⟩
    refine (Machine.along_cons rfl).mpr ⟨.of_open rfl rfl, ?_⟩
    iterate 2 refine (Machine.along_cons rfl).mpr ⟨trivial, ?_⟩
    refine (Machine.along_cons rfl).mpr ⟨.of_open rfl rfl, ?_⟩
    iterate 2 refine (Machine.along_cons rfl).mpr ⟨trivial, ?_⟩
    exact (Machine.along_cons rfl).mpr ⟨.of_open rfl rfl, trivial⟩

end MQTTPacket
