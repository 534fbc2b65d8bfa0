import Mathlib.Tactic.Ring
import WatsonIotp.Mqtt.Utf8

/-!
# MQTT packets

A packet is a header byte, the length of the rest in groups of seven bits, and the rest. The
reading of a packet is over any source of bytes, since a socket may or may not be one with
TLS, and since the same code has a meaning on a text of bytes that is there as a whole.
-/

namespace MQTTPacket

/-! ### Header and length -/

/-- `Header`, with the widths of its bit fields. -/
structure Header where
  retain : Bool
  qos : Fin 4
  dup : Bool
  type : Fin 16
  deriving DecidableEq

/-- The `byte` of the union. -/
def Header.byte (header : Header) : UInt8 :=
  UInt8.ofNat (header.retain.toNat + 2 * header.qos + 8 * header.dup.toNat + 16 * header.type)

/-- The `bits` of the union. -/
def Header.ofByte (byte : UInt8) : Header where
  retain := byte.toNat % 2 = 1
  qos := ⟨byte.toNat / 2 % 4, Nat.mod_lt _ (by decide)⟩
  dup := byte.toNat / 8 % 2 = 1
  type := ⟨byte.toNat / 16, Nat.div_lt_of_lt_mul byte.toNat_lt⟩

@[simp]
theorem Header.ofByte_byte (header : Header) : ofByte header.byte = header := by
  obtain ⟨retain, ⟨qos, hqos⟩, dup, ⟨type, htype⟩⟩ := header
  have hretain := retain.toNat_lt
  have hdup := dup.toNat_lt
  have hvalue : (UInt8.ofNat (retain.toNat + 2 * qos + 8 * dup.toNat + 16 * type)).toNat =
      retain.toNat + 2 * qos + 8 * dup.toNat + 16 * type := by
    rw [UInt8.toNat_ofNat']
    omega
  simp only [byte, ofByte, hvalue, mk.injEq, Fin.mk.injEq]
  refine ⟨?_, by omega, ?_, by omega⟩
  · cases retain <;> simp <;> omega
  · cases dup <;> simp <;> omega

/-- The message types that have a name in `enum msgTypes`, as far as they are used here. -/
def CONNECT : Fin 16 := 1
def CONNACK : Fin 16 := 2
def PUBLISH : Fin 16 := 3
def PUBACK : Fin 16 := 4
def PUBREC : Fin 16 := 5
def PUBREL : Fin 16 := 6
def PUBCOMP : Fin 16 := 7
def SUBSCRIBE : Fin 16 := 8
def SUBACK : Fin 16 := 9
def UNSUBSCRIBE : Fin 16 := 10
def UNSUBACK : Fin 16 := 11
def PINGREQ : Fin 16 := 12
def PINGRESP : Fin 16 := 13
def DISCONNECT : Fin 16 := 14

/-- `MQTTPacket_encode(buf, length)`. -/
def encode (length : Nat) : Bytes :=
  if length / 128 = 0 then [UInt8.ofNat (length % 128)]
  else (UInt8.ofNat (length % 128) ||| 0x80) :: encode (length / 128)

/-- Why there is no packet. The last one stands for a read of memory that nothing was written
to, or behind the end of a buffer. -/
inductive Failure where
  | interrupted
  | socketError
  | badPacket
  | undefined
  deriving DecidableEq

/-- The loop of `MQTTPacket_decode`, with the number of bytes that it may still read. -/
def decodeLoop {σ : Type} (getch : σ → Except Failure UInt8 × σ) :
    Nat → Nat → Nat → σ → Except Failure Nat × σ
  | 0, _, _, net => (.error .socketError, net)
  | len + 1, multiplier, value, net =>
      match getch net with
      | (.error rc, net) => (.error rc, net)
      | (.ok c, net) =>
          if c &&& 128 = 0 then (.ok (value + (c &&& 127).toNat * multiplier), net)
          else decodeLoop getch len (multiplier * 128) (value + (c &&& 127).toNat * multiplier) net

/-- `MQTTPacket_decode(net, value)`, with `MAX_NO_OF_REMAINING_LENGTH_BYTES`. -/
def decode {σ : Type} (getch : σ → Except Failure UInt8 × σ) (net : σ) : Except Failure Nat × σ :=
  decodeLoop getch 4 1 0 net

/-- What `MQTTPacket_Factory` reads behind the header byte. -/
def readRest {σ : Type} (getch : σ → Except Failure UInt8 × σ)
    (getdata : Nat → σ → Except Failure Bytes × σ) (byte : UInt8) (net : σ) :
    Except Failure (UInt8 × Bytes) × σ :=
  match decode getch net with
  | (.error rc, net) => (.error rc, net)
  | (.ok remainingLength, net) =>
      match getdata remainingLength net with
      | (.error rc, net) => (.error rc, net)
      | (.ok data, net) => (.ok (byte, data), net)

/-- The part of `MQTTPacket_Factory` that reads from the network. -/
def readPacket {σ : Type} (getch : σ → Except Failure UInt8 × σ)
    (getdata : Nat → σ → Except Failure Bytes × σ) (net : σ) :
    Except Failure (UInt8 × Bytes) × σ :=
  match getch net with
  | (.error rc, net) => (.error rc, net)
  | (.ok byte, net) => readRest getch getdata byte net

/-! ### Reading from bytes -/

/-- The source that is a text of bytes: what is not there has not been received yet. -/
def Bytes.getch : Bytes → Except Failure UInt8 × Bytes
  | [] => (.error .interrupted, [])
  | c :: rest => (.ok c, rest)

def Bytes.getdata (bytes : Nat) (source : Bytes) : Except Failure Bytes × Bytes :=
  if source.length < bytes then (.error .interrupted, [])
  else (.ok (source.take bytes), source.drop bytes)

/-- A digit as it is written, the last one and one that others follow. -/
theorem digit_bits (n : Nat) :
    UInt8.ofNat (n % 128) &&& 128 = 0 ∧ (UInt8.ofNat (n % 128) &&& 127).toNat = n % 128 ∧
      (UInt8.ofNat (n % 128) ||| 0x80) &&& 128 ≠ 0 ∧
        ((UInt8.ofNat (n % 128) ||| 0x80) &&& 127).toNat = n % 128 := by
  have hall : ∀ d : Fin 128, UInt8.ofNat d &&& 128 = 0 ∧ (UInt8.ofNat d &&& 127).toNat = d ∧
      (UInt8.ofNat d ||| 0x80) &&& 128 ≠ 0 ∧ ((UInt8.ofNat d ||| 0x80) &&& 127).toNat = d := by
    decide
  exact hall ⟨n % 128, Nat.mod_lt n (by decide)⟩

theorem decodeLoop_last {c : UInt8} (h : c &&& 128 = 0) (len multiplier value : Nat)
    (rest : Bytes) : decodeLoop Bytes.getch (len + 1) multiplier value (c :: rest) =
      (.ok (value + (c &&& 127).toNat * multiplier), rest) := by
  simp only [decodeLoop, Bytes.getch, h, if_true]

theorem decodeLoop_more {c : UInt8} (h : c &&& 128 ≠ 0) (len multiplier value : Nat)
    (rest : Bytes) : decodeLoop Bytes.getch (len + 1) multiplier value (c :: rest) =
      decodeLoop Bytes.getch len (multiplier * 128) (value + (c &&& 127).toNat * multiplier)
        rest := by
  simp only [decodeLoop, Bytes.getch, h, if_false]

theorem decodeLoop_encode {len n : Nat} (h : n < 128 ^ (len + 1)) (multiplier value : Nat)
    (rest : Bytes) : decodeLoop Bytes.getch (len + 1) multiplier value (encode n ++ rest) =
      (.ok (value + n * multiplier), rest) := by
  induction len generalizing n multiplier value with
  | zero =>
      obtain ⟨hlast, hlast_value, -, -⟩ := digit_bits n
      have hsmall : n < 128 := h
      rw [encode, if_pos (Nat.div_eq_of_lt hsmall), List.singleton_append, decodeLoop_last hlast,
        hlast_value, Nat.mod_eq_of_lt hsmall]
  | succ len ih =>
      obtain ⟨hlast, hlast_value, hmore, hmore_value⟩ := digit_bits n
      rw [encode]
      split_ifs with hzero
      · rw [List.singleton_append, decodeLoop_last hlast, hlast_value,
          Nat.mod_eq_of_lt (by omega : n < 128)]
      · have hdiv : n / 128 < 128 ^ (len + 1) := Nat.div_lt_of_lt_mul (by rwa [← Nat.pow_succ'])
        have hvalue : value + n % 128 * multiplier + n / 128 * (multiplier * 128) =
            value + n * multiplier := by
          calc value + n % 128 * multiplier + n / 128 * (multiplier * 128)
              = value + (n % 128 + 128 * (n / 128)) * multiplier := by ring
            _ = value + n * multiplier := by rw [Nat.mod_add_div]
        rw [List.cons_append, decodeLoop_more hmore, hmore_value, ih hdiv, hvalue]

/-- A length that needs more digits than are read is no length. -/
theorem decodeLoop_encode_long {len n : Nat} (h : 128 ^ len ≤ n) (multiplier value : Nat)
    (rest : Bytes) :
    (decodeLoop Bytes.getch len multiplier value (encode n ++ rest)).1 = .error .socketError := by
  induction len generalizing n multiplier value with
  | zero => rfl
  | succ len ih =>
      obtain ⟨-, -, hmore, -⟩ := digit_bits n
      have hle : 128 ≤ n := (Nat.le_self_pow (Nat.succ_ne_zero len) 128).trans h
      have hdiv : 128 ^ len ≤ n / 128 := by
        rwa [Nat.le_div_iff_mul_le (by decide), ← Nat.pow_succ]
      rw [encode, if_neg (by omega), List.cons_append, decodeLoop_more hmore]
      exact ih hdiv _ _

/-- The limit of the protocol, 268435455. -/
def maxLength : Nat := 128 ^ 4

theorem decode_encode {n : Nat} (h : n < maxLength) (rest : Bytes) :
    decode Bytes.getch (encode n ++ rest) = (.ok n, rest) := by
  rw [decode, decodeLoop_encode h, Nat.zero_add, Nat.mul_one]

/-- A packet as it is sent. -/
def frame (byte : UInt8) (data : Bytes) : Bytes :=
  byte :: encode data.length ++ data

theorem readPacket_frame {data : Bytes} (h : data.length < maxLength) (byte : UInt8)
    (rest : Bytes) : readPacket Bytes.getch Bytes.getdata (frame byte data ++ rest) =
      (.ok (byte, data), rest) := by
  have henough : ¬ (data ++ rest).length < data.length := by
    rw [List.length_append]
    omega
  rw [frame, List.append_assoc, List.cons_append]
  simp only [readPacket, readRest, Bytes.getch, decode_encode h, Bytes.getdata, henough, if_false,
    List.take_left, List.drop_left]

/-- Data that is too long for the protocol is sent all the same, and not read. -/
theorem readPacket_frame_long {data : Bytes} (h : maxLength ≤ data.length) (byte : UInt8)
    (rest : Bytes) :
    (readPacket Bytes.getch Bytes.getdata (frame byte data ++ rest)).1 = .error .socketError := by
  have hlength := decodeLoop_encode_long h 1 0 (data ++ rest)
  rw [frame, List.append_assoc, List.cons_append]
  simp only [readPacket, readRest, Bytes.getch, decode]
  generalize decodeLoop Bytes.getch 4 1 0 _ = read at hlength ⊢
  obtain ⟨result, net⟩ := read
  obtain rfl : result = .error .socketError := hlength
  rfl

/-! ### A stream of packets -/

theorem decodeLoop_append {len multiplier value n : Nat} {bytes rest : Bytes}
    (h : decodeLoop Bytes.getch len multiplier value bytes = (.ok n, rest)) (more : Bytes) :
    decodeLoop Bytes.getch len multiplier value (bytes ++ more) = (.ok n, rest ++ more) ∧
      rest.length < bytes.length := by
  induction len generalizing multiplier value bytes with
  | zero => cases h
  | succ len ih =>
      cases bytes with
      | nil => cases h
      | cons c bytes =>
          rw [List.cons_append, List.length_cons]
          by_cases hlast : c &&& 128 = 0
          · rw [decodeLoop_last hlast] at h ⊢
            cases h
            exact ⟨rfl, Nat.lt_succ_self _⟩
          · rw [decodeLoop_more hlast] at h ⊢
            obtain ⟨hmore, hshorter⟩ := ih h
            exact ⟨hmore, Nat.lt_succ_of_lt hshorter⟩

/-- What a packet is read from, piece by piece. -/
theorem readPacket_ok {bytes data rest : Bytes} {byte : UInt8}
    (h : readPacket Bytes.getch Bytes.getdata bytes = (.ok (byte, data), rest)) :
    ∃ tail body, bytes = byte :: tail ∧ decode Bytes.getch tail = (.ok data.length, body) ∧
      body = data ++ rest := by
  cases bytes with
  | nil => cases h
  | cons c tail =>
      simp only [readPacket, readRest, Bytes.getch] at h
      cases hlength : decode Bytes.getch tail with
      | mk result body =>
          rw [hlength] at h
          cases result with
          | error rc => cases h
          | ok n =>
              simp only [Bytes.getdata] at h
              split_ifs at h with hshort
              · cases h
              · simp only [Prod.mk.injEq, Except.ok.injEq] at h
                obtain ⟨⟨rfl, rfl⟩, rfl⟩ := h
                refine ⟨tail, body, rfl, ?_, (List.take_append_drop n body).symm⟩
                rw [hlength, List.length_take, Nat.min_eq_left (Nat.le_of_not_lt hshort)]

/-- A packet of which nothing is missing and nothing is too much. -/
theorem readPacket_exact {digits data : Bytes}
    (h : decode Bytes.getch digits = (.ok data.length, [])) (byte : UInt8) :
    readPacket Bytes.getch Bytes.getdata (byte :: digits ++ data) = (.ok (byte, data), []) := by
  obtain ⟨hmore, -⟩ := decodeLoop_append h data
  have hmore : decode Bytes.getch (digits ++ data) = (.ok data.length, data) := hmore
  simp only [List.cons_append, readPacket, readRest, Bytes.getch, hmore, Bytes.getdata,
    Nat.lt_irrefl, if_false, List.take_length, List.drop_length]

/-- A packet of which data is missing. -/
theorem readPacket_short {digits data : Bytes} {n : Nat}
    (h : decode Bytes.getch digits = (.ok n, [])) (hshort : data.length < n) (byte : UInt8) :
    (readPacket Bytes.getch Bytes.getdata (byte :: digits ++ data)).1 = .error .interrupted := by
  obtain ⟨hmore, -⟩ := decodeLoop_append h data
  have hmore : decode Bytes.getch (digits ++ data) = (.ok n, data) := hmore
  simp only [List.cons_append, readPacket, readRest, Bytes.getch, hmore, Bytes.getdata, hshort,
    if_true]

/-- A packet whose length is not there, or not one. -/
theorem readPacket_decode_error {digits : Bytes} {rc : Failure}
    (h : (decode Bytes.getch digits).1 = .error rc) (byte : UInt8) :
    (readPacket Bytes.getch Bytes.getdata (byte :: digits)).1 = .error rc := by
  simp only [readPacket, readRest, Bytes.getch]
  generalize decode Bytes.getch digits = read at h
  obtain ⟨result, net⟩ := read
  obtain rfl : result = .error rc := h
  rfl

theorem readPacket_append {bytes data rest : Bytes} {byte : UInt8}
    (h : readPacket Bytes.getch Bytes.getdata bytes = (.ok (byte, data), rest)) (more : Bytes) :
    readPacket Bytes.getch Bytes.getdata (bytes ++ more) = (.ok (byte, data), rest ++ more) := by
  obtain ⟨tail, body, rfl, hlength, rfl⟩ := readPacket_ok h
  obtain ⟨hmore, -⟩ := decodeLoop_append hlength more
  have hmore : decode Bytes.getch (tail ++ more) = (.ok data.length, data ++ (rest ++ more)) := by
    rw [← List.append_assoc]
    exact hmore
  have henough : ¬ (data ++ (rest ++ more)).length < data.length := by
    rw [List.length_append]
    omega
  simp only [List.cons_append, readPacket, readRest, Bytes.getch, hmore, Bytes.getdata, henough,
    if_false, List.take_left, List.drop_left]

theorem readPacket_shortens {bytes data rest : Bytes} {byte : UInt8}
    (h : readPacket Bytes.getch Bytes.getdata bytes = (.ok (byte, data), rest)) :
    rest.length < bytes.length := by
  obtain ⟨tail, body, rfl, hlength, rfl⟩ := readPacket_ok h
  obtain ⟨-, hshorter⟩ := decodeLoop_append hlength []
  rw [List.length_append] at hshorter
  rw [List.length_cons]
  omega

/-- The packets that bytes are, one after the other, and what is left behind them. -/
def frames (bytes : Bytes) : List (UInt8 × Bytes) × Bytes :=
  match _hread : readPacket Bytes.getch Bytes.getdata bytes with
  | (.error _, _) => ([], bytes)
  | (.ok packet, rest) => (packet :: (frames rest).1, (frames rest).2)
termination_by bytes.length
decreasing_by all_goals exact readPacket_shortens _hread

theorem frames_of_error {bytes : Bytes} {rc : Failure}
    (h : (readPacket Bytes.getch Bytes.getdata bytes).1 = .error rc) :
    frames bytes = ([], bytes) := by
  rw [frames]
  split
  · rfl
  · next hread =>
      rw [hread] at h
      cases h

theorem frames_of_ok {bytes rest : Bytes} {packet : UInt8 × Bytes}
    (h : readPacket Bytes.getch Bytes.getdata bytes = (.ok packet, rest)) :
    frames bytes = (packet :: (frames rest).1, (frames rest).2) := by
  rw [frames]
  split
  · next hread => cases h.symm.trans hread
  · next hread =>
      cases h.symm.trans hread
      rfl

/-- Bytes that come later are read behind what was left. -/
theorem frames_append (bytes more : Bytes) :
    frames (bytes ++ more) =
      ((frames bytes).1 ++ (frames ((frames bytes).2 ++ more)).1,
        (frames ((frames bytes).2 ++ more)).2) := by
  induction hn : bytes.length using Nat.strongRecOn generalizing bytes with
  | ind n ih =>
      cases hread : readPacket Bytes.getch Bytes.getdata bytes with
      | mk result rest =>
          cases result with
          | error rc =>
              rw [frames_of_error (congrArg Prod.fst hread), List.nil_append]
          | ok packet =>
              obtain ⟨byte, data⟩ := packet
              have hshorter := readPacket_shortens hread
              rw [frames_of_ok hread, frames_of_ok (readPacket_append hread more),
                ih rest.length (hn ▸ hshorter) rest rfl, List.cons_append]

/-- Packets that are sent one after the other. -/
theorem frames_flatMap {packets : List (UInt8 × Bytes)}
    (h : ∀ packet ∈ packets, packet.2.length < maxLength) :
    frames (packets.flatMap fun packet => frame packet.1 packet.2) = (packets, []) := by
  induction packets with
  | nil => exact frames_of_error rfl
  | cons packet packets ih =>
      obtain ⟨hlength, h⟩ := List.forall_mem_cons.mp h
      rw [List.flatMap_cons, frames_of_ok (readPacket_frame hlength _ _), ih h]

end MQTTPacket
