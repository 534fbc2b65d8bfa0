import WatsonIotp.Mqtt.Accounting

/-!
# Message ids

No two requests of a client under way have the same message id (`underWay_distinct`), and a request
is refused only where no message id can be given (`assignMsgId_cases`).
-/

namespace MQTTAsync

open MQTTPacket

/-! ### Requests under way -/

namespace Async

variable {utf8 : Bytes → Bool} {s t : Async} {a : AsyncAction} {x y : QueuedCommand} {m : Nat}

/-- A request under way is known by its client and its message id. -/
def Distinct (s : Async) : Prop :=
  ∀ x y, x.isRequest = true → y.isRequest = true → s.UnderWay x → s.UnderWay y →
    x.client = y.client → x.token = y.token → x.token ≠ 0 → x = y

theorem Distinct.of_underWay (hs : s.Distinct)
    (h : ∀ x, x.isRequest = true → t.UnderWay x → s.UnderWay x) : t.Distinct :=
  fun x y hx hy htx hty => hs x y hx hy (h x hx htx) (h y hy hty)

theorem Taken.distinct {command : QueuedCommand} (h : s.Taken command t) (hs : s.Distinct) :
    t.Distinct := by
  intro x y hx hy htx hty hclient htoken hne
  rcases h.underWay x htx with hsx | rfl
  · rcases h.underWay y hty with hsy | rfl
    · exact hs x y hx hy hsx hsy hclient htoken hne
    · exact absurd htoken (h.token (htoken ▸ hne) x hsx hclient)
  · rcases h.underWay y hty with hsy | rfl
    · exact absurd htoken.symm (h.token hne y hsy hclient.symm)
    · rfl

theorem underWay_processCommand {noPendingWrites : Nat → Bool} {outcome : Outcome}
    {connectState : Int} {more timedOut : Bool}
    (h : s.processCommand noPendingWrites outcome connectState more timedOut = some t)
    (hx : x.isRequest = true) (ht : t.UnderWay x) : s.UnderWay x := by
  obtain ⟨command, hpick, rfl⟩ := processCommand_cases h
  have herased : Async.UnderWay { s with commands := s.commands.erase command } x → s.UnderWay x :=
    Or.imp_left List.mem_of_mem_erase
  cases hcommand : command.isRequest with
  | false => exact herased ((same_execute hcommand).underWay x hx ht)
  | true =>
      rcases (moved_execute hcommand).underWay x hx ht with hs | rfl
      · exact herased hs
      · exact .inl (pick_mem hpick)

theorem underWay_writeComplete (ht : (s.writeComplete m).UnderWay x) : s.UnderWay x := by
  rw [writeComplete] at ht
  split at ht
  · exact ht
  · split at ht
    · exact ht
    · split_ifs at ht
      · exact ht.imp_right List.mem_of_mem_erase
      · exact ht

theorem Distinct.step (hs : s.Distinct) (h : (async utf8).step s a = some t) : t.Distinct := by
  obtain ⟨_, hsame | ⟨command, htaken⟩⟩ |
    ⟨noPendingWrites, outcome, connectState, more, timedOut, rfl, h⟩ | ⟨m, rfl, rfl⟩ :=
      step_cases h
  · exact hs.of_underWay hsame.underWay
  · exact htaken.distinct hs
  · exact hs.of_underWay fun _ => underWay_processCommand h
  · exact hs.of_underWay fun _ _ => underWay_writeComplete

/-- **No two requests of a client under way have the same message id**, so that an acknowledgement
is for one request only, whatever ids have been used before and by whatever clients. -/
theorem underWay_distinct {acts : List AsyncAction} (hr : (async utf8).Run .initial acts s)
    (hx : x.isRequest = true) (hy : y.isRequest = true) (hsx : s.UnderWay x) (hsy : s.UnderWay y)
    (hclient : x.client = y.client) (htoken : x.token = y.token) (hne : x.token ≠ 0) : x = y := by
  have hinitial : Async.initial.Distinct := by
    rintro x y _ _ (h | h) <;> cases h
  have hs : s.Distinct := hr.invariant (fun _ _ _ hs h => hs.step h) hinitial
  exact hs x y hx hy hsx hsy hclient htoken hne

theorem underWay_distinct_publishing : ∃ s,
    (async fun _ => true).Run .initial (connecting ++ publishing) s ∧
      ∀ y, y.isRequest = true → s.UnderWay y → y.client = 0 → y.token = 1 →
        QueuedCommand.mk 1 0 1 (.pub [97] [] 1 false) = y := by
  have hr : (async fun _ => true).Run .initial (connecting ++ publishing) _ :=
    Machine.Run.exec_iff.mp rfl
  refine ⟨_, hr, fun y hy hsy hclient htoken => ?_⟩
  exact underWay_distinct hr rfl hy (.inl (List.Mem.head _)) hsy hclient.symm htoken.symm
    (by decide)

end Async

/-! ### The choice of a message id -/

section Choice

variable {used : Nat → Bool} {start rounds i j : Nat}

/-- The message id that is tried in a round. -/
def candidate (start i : Nat) : Nat :=
  (start + i) % 65535 + 1

theorem nextId_of_le {msgid : Nat} (h : msgid ≤ 65535) : nextId msgid = candidate msgid 0 := by
  rw [nextId, candidate]
  split_ifs <;> omega

theorem nextId_candidate : nextId (candidate start i) = candidate start (i + 1) := by
  rw [nextId, candidate, candidate]
  split_ifs <;> omega

theorem candidate_ne (hi : start = 0 ∨ i ≤ 65533) : candidate start i ≠ start := by
  rw [candidate]
  omega

/-- Every message id but the last one is tried before it is its turn again. -/
theorem exists_candidate {id : Nat} (hstart : start ≤ 65535) (hpos : 1 ≤ id) (hid : id ≤ 65535)
    (hne : id ≠ start) : ∃ i, candidate start i = id ∧ (start = 0 ∨ i ≤ 65533) ∧ i < 65536 := by
  simp only [candidate]
  by_cases hlt : start < id
  · exact ⟨id - 1 - start, by omega, by omega, by omega⟩
  · exact ⟨id + 65534 - start, by omega, by omega, by omega⟩

/-- The message id is used, and the next one is not the last of all. -/
def GoesOn (used : Nat → Bool) (start i : Nat) : Prop :=
  used (candidate start i) = true ∧ candidate start (i + 1) ≠ start

theorem assignLoop_of_goesOn (h : ∀ k, i ≤ k → k < i + j → GoesOn used start k) :
    assignLoop used start (j + rounds) (candidate start i) =
      assignLoop used start rounds (candidate start (i + j)) := by
  induction j generalizing i with
  | zero => rw [Nat.zero_add, Nat.add_zero]
  | succ j ih =>
      obtain ⟨hused, hnext⟩ := h i le_rfl (by omega)
      have hrounds : j + 1 + rounds = j + rounds + 1 := by omega
      rw [hrounds, assignLoop, if_neg (by rw [hused]; exact Bool.noConfusion), nextId_candidate,
        if_neg hnext, ih fun k hk hlt => h k (by omega) (by omega)]
      congr 2
      omega

theorem assignLoop_eq (hj : j ≤ rounds) (h : ∀ k < j, GoesOn used start k) :
    assignLoop used start rounds (candidate start 0) =
      assignLoop used start (rounds - j) (candidate start j) := by
  obtain ⟨rest, rfl⟩ := Nat.exists_eq_add_of_le hj
  have hloop : assignLoop used start (j + rest) (candidate start 0) =
      assignLoop used start rest (candidate start (0 + j)) :=
    assignLoop_of_goesOn fun k _ hk => h k (by omega)
  rw [Nat.zero_add] at hloop
  rw [hloop, Nat.add_sub_cancel_left]

/-- The first message id that is not used is chosen. -/
theorem assignLoop_of_free {id : Nat} (hstart : start ≤ 65535) (hpos : 1 ≤ id) (hid : id ≤ 65535)
    (hne : id ≠ start) (hfree : used id = false) : ∃ result, 1 ≤ result ∧
      result ≠ start ∧ used result = false ∧
        assignLoop used start 65536 (candidate start 0) = some result := by
  obtain ⟨i, rfl, hi, hlt⟩ := exists_candidate hstart hpos hid hne
  have hexists : ∃ k, used (candidate start k) = false := ⟨i, hfree⟩
  have hleast : Nat.find hexists ≤ i := Nat.find_min' hexists hfree
  have hresult := Nat.find_spec hexists
  have hgoes : ∀ k < Nat.find hexists, GoesOn used start k := by
    intro k hk
    refine ⟨Bool.eq_true_of_not_eq_false (Nat.find_min hexists hk), ?_⟩
    exact candidate_ne (hi.imp_right fun hi => by omega)
  obtain ⟨rest, hrest⟩ : ∃ rest, 65536 - Nat.find hexists = rest + 1 :=
    ⟨65535 - Nat.find hexists, by omega⟩
  refine ⟨candidate start (Nat.find hexists), Nat.le_add_left 1 _, ?_, hresult, ?_⟩
  · exact candidate_ne (hi.imp_right fun hi => by omega)
  · rw [assignLoop_eq (by omega) hgoes, hrest, assignLoop, if_pos hresult]

/-- Where no message id has been used yet and all are taken, the loop does not end. -/
theorem assignLoop_zero (hused : ∀ id, 1 ≤ id → id ≤ 65535 → used id = true) (rounds : Nat) :
    assignLoop used 0 rounds (candidate 0 0) = none := by
  have hgoes : ∀ k < rounds, GoesOn used 0 k := fun k _ =>
    ⟨hused _ (by rw [candidate]; omega) (by rw [candidate]; omega),
      candidate_ne (.inl rfl)⟩
  rw [assignLoop_eq le_rfl hgoes, Nat.sub_self, assignLoop]

/-- Where all others are taken, the last message id is not tried. -/
theorem assignLoop_of_used (hpos : 1 ≤ start) (hstart : start ≤ 65535)
    (hused : ∀ id, 1 ≤ id → id ≤ 65535 → id ≠ start → used id = true) :
    assignLoop used start 65536 (candidate start 0) = some 0 := by
  have hcandidate : ∀ k ≤ 65533, used (candidate start k) = true := fun k hk =>
    hused _ (by rw [candidate]; omega) (by rw [candidate]; omega) (candidate_ne (.inr hk))
  have hgoes : ∀ k < 65533, GoesOn used start k := fun k hk =>
    ⟨hcandidate k (by omega), candidate_ne (.inr (by omega))⟩
  have hlast : candidate start 65534 = start := by
    rw [candidate]
    omega
  rw [assignLoop_eq (by omega) hgoes, show 65536 - 65533 = 2 + 1 from rfl, assignLoop,
    if_neg (by rw [hcandidate 65533 le_rfl]; exact Bool.noConfusion), nextId_candidate,
    if_pos hlast]

end Choice

namespace Async

variable {utf8 : Bytes → Bool} {s : Async}

/-- The message id can be given to a request of the client: it is not used, and not the last one
that has been given. -/
def Free (s : Async) (m id : Nat) : Prop :=
  1 ≤ id ∧ id ≤ 65535 ∧ id ≠ (s.client m).msgID ∧ s.idUsed m id = false

/-- **A request gets a message id whenever one is free.** When none is, it is refused, unless the
client has given none in this session: then the search does not end. -/
theorem assignMsgId_cases {acts : List AsyncAction} (hr : (async utf8).Run .initial acts s)
    (m : Nat) :
    (∃ id, s.Free m id ∧ s.assignMsgId m = some id) ∨
      (∀ id, ¬ s.Free m id) ∧ ((s.client m).msgID ≠ 0 ∧ s.assignMsgId m = some 0 ∨
        (s.client m).msgID = 0 ∧ ∀ rounds, assignLoop (s.idUsed m) 0 rounds 1 = none) := by
  have hbounded : s.Bounded := by
    refine hr.invariant (fun s a t hs h => ?_) fun _ => Nat.zero_le _
    rcases keeps_step h with hkeeps | ⟨command, htaken⟩
    · exact hkeeps.bounded hs
    · exact htaken.bounded hs
  have hstart := hbounded m
  rw [assignMsgId, nextId_of_le hstart]
  by_cases hfree : ∃ id, s.Free m id
  · obtain ⟨id, hpos, hid, hne, hunused⟩ := hfree
    obtain ⟨result, hpos', hresult, hunused', hassign⟩ :=
      assignLoop_of_free hstart hpos hid hne hunused
    have hle : result ≤ 65535 := assignLoop_le hassign (by rw [candidate]; omega)
    exact .inl ⟨result, ⟨hpos', hle, hresult, hunused'⟩, hassign⟩
  · have hnone : ∀ id, ¬ s.Free m id := not_exists.mp hfree
    have hused : ∀ id, 1 ≤ id → id ≤ 65535 → id ≠ (s.client m).msgID → s.idUsed m id = true :=
      fun id hpos hid hne =>
        Bool.eq_true_of_not_eq_false fun hunused => hnone id ⟨hpos, hid, hne, hunused⟩
    refine .inr ⟨hnone, ?_⟩
    by_cases hzero : (s.client m).msgID = 0
    · refine .inr ⟨hzero, assignLoop_zero fun id hpos hid => hused id hpos hid ?_⟩
      rw [hzero]
      exact Nat.ne_of_gt hpos
    · exact .inl ⟨hzero, assignLoop_of_used (Nat.pos_of_ne_zero hzero) hstart hused⟩

theorem assignMsgId_cases_publishing : ∃ s,
    (async fun _ => true).Run .initial (connecting ++ publishing) s ∧
      ((∃ id, s.Free 0 id ∧ s.assignMsgId 0 = some id) ∨
        (∀ id, ¬ s.Free 0 id) ∧ ((s.client 0).msgID ≠ 0 ∧ s.assignMsgId 0 = some 0 ∨
          (s.client 0).msgID = 0 ∧ ∀ rounds, assignLoop (s.idUsed 0) 0 rounds 1 = none)) := by
  have hr : (async fun _ => true).Run .initial (connecting ++ publishing) _ :=
    Machine.Run.exec_iff.mp rfl
  exact ⟨_, hr, assignMsgId_cases hr 0⟩

end Async

end MQTTAsync
