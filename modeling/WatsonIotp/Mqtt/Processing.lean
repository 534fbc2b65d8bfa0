import Mathlib.Data.List.Count
import Mathlib.Data.List.Nodup
import WatsonIotp.Mqtt.Commands

/-!
# What the steps do to requests

A step accepts a request (`Taken`), leaves all requests where they are or tells of them (`Same`), or
processes a command (`Moved`), or completes a write; `step_cases` says which. The steps that do not
keep account of the requests are those that are not `Sound`.
-/

namespace MQTTAsync

open MQTTPacket

/-! ### Places -/

theorem Details.isRequest_of_isOnce {details : Details} (h : details.isOnce = true) :
    details.isRequest = true := by
  cases details with
  | pub => rfl
  | sub => cases h
  | unsub => cases h
  | conn => cases h
  | dis => cases h

namespace Async

/-- How often a command is somewhere: in a list, or with a callback that has been called. -/
def total (s : Async) (x : QueuedCommand) : Nat :=
  s.commands.count x + s.responses.count x + (s.called.map Prod.fst).count x

/-- Every request that has been accepted is in one place, as often as it has been accepted. -/
structure Accounted (s : Async) : Prop where
  undefined : s.undefined = false
  total : ∀ x, x.isRequest = true → s.total x = s.accepted.count x

/-- The requests of a client that wait to be written. -/
def waiting (s : Async) (m : Nat) : List QueuedCommand :=
  s.commands.filter fun command => decide (command.client = m) && command.isRequest

/-- The command waits to be written, or for a response. -/
def UnderWay (s : Async) (x : QueuedCommand) : Prop :=
  x ∈ s.commands ∨ x ∈ s.responses

/-- The last message ids are message ids, or 0. -/
def Bounded (s : Async) : Prop :=
  ∀ m, (s.client m).msgID ≤ 65535

/-- No request is accepted, and none comes to wait. -/
structure Keeps (s s' : Async) : Prop where
  accepted : s'.accepted = s.accepted
  next : s.next ≤ s'.next
  bounded : s.Bounded → s'.Bounded
  waiting : ∀ m, s'.waiting m <:+ s.waiting m

/-- No request comes or goes. -/
structure Same (s s' : Async) : Prop extends Keeps s s' where
  undefined : s'.undefined = s.undefined
  total : ∀ x, x.isRequest = true → s'.total x = s.total x
  underWay : ∀ x, x.isRequest = true → s'.UnderWay x → s.UnderWay x
  pendingWrite : ∀ m, (s'.client m).pendingWrite = (s.client m).pendingWrite

/-- A command has been dealt with, and has so many new places. -/
structure Moved (s : Async) (command : QueuedCommand) (places : List QueuedCommand) (s' : Async) :
    Prop extends Keeps s s' where
  undefined : s'.undefined = s.undefined
  total : ∀ x, x.isRequest = true → s'.total x = s.total x + places.count x
  underWay : ∀ x, x.isRequest = true → s'.UnderWay x → s.UnderWay x ∨ x = command
  pendingWrite : ∀ m, (s'.client m).pendingWrite = (s.client m).pendingWrite ∨
    (s'.client m).pendingWrite = some command

/-- A request is accepted, with a message id that no other has. -/
structure Taken (s : Async) (command : QueuedCommand) (s' : Async) : Prop where
  isRequest : command.isRequest = true
  address : command.address = s.next
  accepted : s'.accepted = s.accepted ++ [command]
  next : s'.next = s.next + 1
  bounded : s.Bounded → s'.Bounded
  waiting : ∀ m, s'.waiting m = s.waiting m ++ [command].filter (·.client = m)
  undefined : s'.undefined = s.undefined
  total : ∀ x, s'.total x = s.total x + [command].count x
  underWay : ∀ x, s'.UnderWay x → s.UnderWay x ∨ x = command
  token : command.token ≠ 0 → ∀ x, s.UnderWay x → x.client = command.client →
    x.token ≠ command.token
  pendingWrite : ∀ m, (s'.client m).pendingWrite = (s.client m).pendingWrite

section Steps

variable {s s' s'' : Async} {command : QueuedCommand} {places : List QueuedCommand} {m : Nat}

theorem Keeps.refl (s : Async) : s.Keeps s :=
  ⟨rfl, le_rfl, id, fun _ => List.suffix_rfl⟩

theorem Keeps.trans (h : s.Keeps s') (h' : s'.Keeps s'') : s.Keeps s'' where
  accepted := h'.accepted.trans h.accepted
  next := h.next.trans h'.next
  bounded hs := h'.bounded (h.bounded hs)
  waiting m := (h'.waiting m).trans (h.waiting m)

theorem Same.refl (s : Async) : s.Same s :=
  ⟨.refl s, rfl, fun _ _ => rfl, fun _ _ hx => hx, fun _ => rfl⟩

theorem Same.trans (h : s.Same s') (h' : s'.Same s'') : s.Same s'' where
  toKeeps := h.toKeeps.trans h'.toKeeps
  undefined := h'.undefined.trans h.undefined
  total x hx := (h'.total x hx).trans (h.total x hx)
  underWay x hx hs := h.underWay x hx (h'.underWay x hx hs)
  pendingWrite m := (h'.pendingWrite m).trans (h.pendingWrite m)

theorem Same.moved (h : s.Same s') (h' : s'.Moved command places s'') :
    s.Moved command places s'' where
  toKeeps := h.toKeeps.trans h'.toKeeps
  undefined := h'.undefined.trans h.undefined
  total x hx := by rw [h'.total x hx, h.total x hx]
  underWay x hx hs := (h'.underWay x hx hs).imp_left (h.underWay x hx)
  pendingWrite m := by
    rw [← h.pendingWrite m]
    exact h'.pendingWrite m

theorem client_modify {f : AsyncClient → AsyncClient} (other : Nat) :
    (s.modify m f).client other = if other = m then f (s.client m) else s.client other :=
  Function.update_apply ..

theorem bounded_modify {f : AsyncClient → AsyncClient}
    (hf : ∀ c, c.msgID ≤ 65535 → (f c).msgID ≤ 65535) (hs : s.Bounded) :
    (s.modify m f).Bounded := by
  intro other
  rw [client_modify]
  split_ifs
  · exact hf _ (hs m)
  · exact hs other

theorem pendingWrite_modify {f : AsyncClient → AsyncClient}
    (hf : ∀ c, (f c).pendingWrite = c.pendingWrite) (other : Nat) :
    ((s.modify m f).client other).pendingWrite = (s.client other).pendingWrite := by
  rw [client_modify]
  split_ifs with hother
  · rw [hf, hother]
  · rfl

theorem same_modify {f : AsyncClient → AsyncClient}
    (hf : ∀ c, (f c).pendingWrite = c.pendingWrite)
    (hid : ∀ c, c.msgID ≤ 65535 → (f c).msgID ≤ 65535) : s.Same (s.modify m f) :=
  ⟨⟨rfl, le_rfl, bounded_modify hid, fun _ => List.suffix_rfl⟩, rfl, fun _ _ => rfl,
    fun _ _ hx => hx, pendingWrite_modify hf⟩

/-- Commands that are no requests do not count. -/
theorem count_of_not_isRequest (h : command.isRequest = false) {x : QueuedCommand}
    (hx : x.isRequest = true) : [command].count x = 0 := by
  apply List.count_eq_zero.mpr
  intro hmem
  rw [List.mem_singleton.mp hmem, h] at hx
  cases hx

/-- A command that is no request may stand anywhere between the others. -/
theorem same_insert {front back : List QueuedCommand} (h : command.isRequest = false)
    (hs : s.commands = front ++ back) : s.Same { s with commands := front ++ command :: back } := by
  have hne : ∀ x : QueuedCommand, x.isRequest = true → x ≠ command := by
    rintro x hx rfl
    rw [h] at hx
    cases hx
  refine ⟨⟨rfl, le_rfl, id, fun m => ?_⟩, rfl, fun x hx => ?_, fun x hx => ?_, fun _ => rfl⟩
  · show (front ++ command :: back).filter _ <:+ s.commands.filter _
    rw [hs, List.filter_append, List.filter_append, List.filter_cons_of_neg (by simp [h])]
  · show (front ++ command :: back).count x + s.responses.count x +
      (s.called.map Prod.fst).count x = _
    rw [total, hs, List.count_append, List.count_append, List.count_cons_of_ne (hne x hx).symm]
  · rintro (hmem | hmem)
    · refine .inl (hs ▸ List.mem_append.mpr ?_)
      rcases List.mem_append.mp hmem with hmem | hmem
      · exact .inl hmem
      · exact .inr ((List.mem_cons.mp hmem).resolve_left (hne x hx))
    · exact .inr hmem

theorem same_addCommand (h : command.isRequest = false) : s.Same (s.addCommand command) := by
  rw [addCommand]
  split_ifs
  · exact .refl s
  · have hfront : s.commands = [] ++ s.commands := rfl
    exact same_insert h hfront
  · have hback : s.commands = s.commands ++ [] := (List.append_nil _).symm
    exact same_insert h hback

theorem same_newCommand {token : Nat} {details : Details} (h : details.isRequest = false) :
    s.Same (s.newCommand m token details) := by
  have hsame : Same { s with next := s.next + 1 } (s.newCommand m token details) :=
    same_addCommand h
  exact ⟨⟨hsame.accepted, (Nat.le_succ _).trans hsame.next, hsame.bounded, hsame.waiting⟩,
    hsame.undefined, hsame.total, hsame.underWay, hsame.pendingWrite⟩

theorem same_disconnect (internal : Bool) : s.Same (s.disconnect m internal) := by
  rw [disconnect]
  split_ifs
  · exact .refl s
  · exact same_newCommand rfl

/-- A message id that is not used is that of no command under way. -/
theorem token_ne_of_not_idUsed {msgid : Nat} {x : QueuedCommand} (h : s.idUsed m msgid = false)
    (hx : s.UnderWay x) (hclient : x.client = m) : x.token ≠ msgid := by
  rintro htoken
  rw [idUsed, Bool.or_eq_false_iff, List.any_eq_false, List.any_eq_false] at h
  rcases hx with hx | hx
  · exact h.1 x hx (decide_eq_true htoken)
  · exact h.2 x hx (decide_eq_true ⟨hclient, htoken⟩)

/-- A request is added behind all others. -/
theorem taken_accept {token : Nat} {details : Details} (h : details.isRequest = true)
    (htoken : token ≠ 0 → s.idUsed m token = false) :
    s.Taken ⟨s.next, m, token, details⟩ (s.accept m token details) := by
  have hother : ¬ (details = .conn ∨ details = .dis true) := by
    rintro (rfl | rfl) <;> cases h
  have haccept : s.accept m token details =
      { s with
        accepted := s.accepted ++ [⟨s.next, m, token, details⟩]
        next := s.next + 1
        commands := s.commands ++ [⟨s.next, m, token, details⟩] } := by
    rw [accept, newCommand, addCommand, if_neg hother]
  rw [haccept]
  refine ⟨h, rfl, rfl, rfl, id, fun other => ?_, rfl, fun x => ?_, fun x => ?_, fun hne x hx => ?_,
    fun _ => rfl⟩
  · show (s.commands ++ [_]).filter _ = s.commands.filter _ ++ _
    rw [List.filter_append]
    congr 1
    apply List.filter_congr
    intro x hx
    rw [List.mem_singleton.mp hx, QueuedCommand.isRequest, h, Bool.and_true]
  · show (s.commands ++ [_]).count x + s.responses.count x + (s.called.map Prod.fst).count x = _
    rw [List.count_append, total]
    omega
  · rintro (hmem | hmem)
    · rcases List.mem_append.mp hmem with hmem | hmem
      · exact .inl (.inl hmem)
      · exact .inr (List.mem_singleton.mp hmem)
    · exact .inl (.inr hmem)
  · exact fun hclient => token_ne_of_not_idUsed (htoken hne) hx hclient

theorem Taken.of_modify {f : AsyncClient → AsyncClient}
    (hf : ∀ c, (f c).pendingWrite = c.pendingWrite)
    (hid : s.Bounded → (s.modify m f).Bounded) (h : (s.modify m f).Taken command s') :
    s.Taken command s' :=
  ⟨h.isRequest, h.address, h.accepted, h.next, fun hs => h.bounded (hid hs), h.waiting, h.undefined,
    h.total, h.underWay, h.token,
    fun other => (h.pendingWrite other).trans (pendingWrite_modify hf other)⟩

theorem total_tell (success : Bool) (x : QueuedCommand) :
    (s.tell command success).total x = s.total x + [command].count x := by
  show _ + _ + ((s.called ++ [(command, success)]).map Prod.fst).count x = _
  rw [List.map_append, List.count_append, total, ← Nat.add_assoc]
  rfl

theorem moved_tell (success : Bool) : s.Moved command [command] (s.tell command success) := by
  exact ⟨⟨rfl, le_rfl, id, fun _ => List.suffix_rfl⟩, rfl, fun x _ => total_tell success x,
    fun _ _ hx => .inl hx, fun _ => .inl rfl⟩

theorem moved_await : s.Moved command [command] (s.await command) := by
  refine ⟨⟨rfl, le_rfl, id, fun _ => List.suffix_rfl⟩, rfl, fun x _ => ?_, fun x _ => ?_,
    fun _ => .inl rfl⟩
  · show s.commands.count x + (s.responses ++ [command]).count x +
      (s.called.map Prod.fst).count x = _
    rw [List.count_append, total]
    omega
  · rintro (hmem | hmem)
    · exact .inl (.inl hmem)
    · rcases List.mem_append.mp hmem with hmem | hmem
      · exact .inl (.inr hmem)
      · exact .inr (List.mem_singleton.mp hmem)

/-- The client notes which command is being written. -/
theorem moved_pendingWrite :
    s.Moved command [] (s.modify m fun c => { c with pendingWrite := some command }) := by
  refine ⟨⟨rfl, le_rfl, bounded_modify fun _ h => h, fun _ => List.suffix_rfl⟩, rfl,
    fun _ _ => rfl, fun _ _ hx => .inl hx, fun other => ?_⟩
  rw [client_modify]
  split_ifs
  · exact .inr rfl
  · exact .inl rfl

theorem Moved.trans (h : s.Moved command [] s') (h' : s'.Moved command places s'') :
    s.Moved command places s'' where
  toKeeps := h.toKeeps.trans h'.toKeeps
  undefined := h'.undefined.trans h.undefined
  total x hx := (h'.total x hx).trans (congrArg (· + _) (h.total x hx))
  underWay x hx hs := (h'.underWay x hx hs).elim (h.underWay x hx) .inr
  pendingWrite m := by
    rcases h'.pendingWrite m with hm | hm
    · rw [hm]
      exact h.pendingWrite m
    · exact .inr hm

/-- A command that is no request has no place to lose. -/
theorem Moved.same (h : s.Moved command [command] s') (hcommand : command.isRequest = false)
    (hpending : ∀ m, (s'.client m).pendingWrite = (s.client m).pendingWrite) : s.Same s' where
  toKeeps := h.toKeeps
  undefined := h.undefined
  total x hx := by rw [h.total x hx, count_of_not_isRequest hcommand hx, Nat.add_zero]
  underWay x hx hs := (h.underWay x hx hs).resolve_right fun heq => by
    rw [heq, hcommand] at hx
    cases hx
  pendingWrite := hpending

theorem same_tell (h : command.isRequest = false) (success : Bool) :
    s.Same (s.tell command success) :=
  (moved_tell success).same h fun _ => rfl

/-- Nothing of the client waits any more, and for the others nothing has changed. -/
theorem waiting_removeResponsesAndCommands (other : Nat) :
    (s.removeResponsesAndCommands m).waiting other = if other = m then [] else s.waiting other := by
  show ((s.commands.filter _).filter _) = _
  rw [List.filter_filter]
  split_ifs with hother
  · subst hother
    apply List.filter_eq_nil_iff.mpr
    intro x _ hx
    rw [Bool.and_eq_true, Bool.and_eq_true, Bool.not_eq_true'] at hx
    rw [hx.1.1] at hx
    cases hx.2
  · apply List.filter_congr
    intro x _
    by_cases hx : x.client = other
    · simp [hx, hother]
    · simp [hx]

theorem count_filter_client (l : List QueuedCommand) (x : QueuedCommand) :
    l.count x = (l.filter (·.client = m)).count x +
      (l.filter fun command => !decide (command.client = m)).count x :=
  List.countP_eq_countP_filter_add l (· == x) fun command => command.client = m

/-- The failure of everything that is removed is told. -/
theorem total_removeResponsesAndCommands (x : QueuedCommand) :
    (s.removeResponsesAndCommands m).total x = s.total x := by
  have htold : ∀ l : List QueuedCommand,
      (l.map fun command => (command, false)).map Prod.fst = l := by
    intro l
    rw [List.map_map]
    exact List.map_id l
  have hcommands := count_filter_client (m := m) s.commands x
  have hresponses := count_filter_client (m := m) s.responses x
  show (s.commands.filter _).count x + (s.responses.filter _).count x +
    ((s.called ++ _).map Prod.fst).count x = _
  rw [List.map_append, htold, List.count_append, List.count_append, total]
  omega

theorem same_removeResponsesAndCommands : s.Same (s.removeResponsesAndCommands m) := by
  refine ⟨⟨rfl, le_rfl, id, fun other => ?_⟩, rfl, fun x _ => total_removeResponsesAndCommands x,
    fun x _ hx => hx.imp List.mem_of_mem_filter List.mem_of_mem_filter, fun _ => rfl⟩
  rw [waiting_removeResponsesAndCommands]
  split_ifs
  · exact List.nil_suffix
  · exact List.suffix_rfl

theorem same_cleanSession : s.Same (s.cleanSession m) := by
  refine Same.trans ?_ same_removeResponsesAndCommands
  exact same_modify (fun _ => rfl) fun _ _ => Nat.zero_le _

theorem same_closeOnly : s.Same (s.closeOnly m) :=
  same_modify (fun _ => rfl) fun _ h => h

theorem same_closeSession : s.Same (s.closeSession m) := by
  rw [closeSession]
  split_ifs
  · exact same_closeOnly.trans same_cleanSession
  · exact same_closeOnly

theorem same_checkDisconnect (timedOut : Bool) : s.Same (s.checkDisconnect m timedOut) := by
  rw [checkDisconnect]
  split_ifs
  · exact same_closeSession
  · exact .refl s

theorem same_completeConnection : s.Same (s.completeConnection m) := by
  rw [completeConnection]
  split_ifs
  · refine Same.trans ?_ same_cleanSession
    exact same_modify (fun _ => rfl) fun _ h => h
  · exact same_modify (fun _ => rfl) fun _ h => h

theorem count_erase_add {l : List QueuedCommand} (h : command ∈ l) (x : QueuedCommand) :
    (l.erase command).count x + [command].count x = l.count x := by
  have hperm := (List.perm_cons_erase h).count_eq x
  rw [← List.singleton_append, List.count_append] at hperm
  omega

/-- A response that is taken out of the list. -/
theorem total_erase_response (h : command ∈ s.responses) (x : QueuedCommand) :
    total { s with responses := s.responses.erase command } x + [command].count x = s.total x := by
  have hcount := count_erase_add h x
  show s.commands.count x + (s.responses.erase command).count x + (s.called.map Prod.fst).count x +
    _ = _
  rw [total]
  omega

theorem same_answer (token : Nat) (success : Bool) : s.Same (s.answer m token success) := by
  rw [answer]
  cases hfind : s.responses.find? fun command => command.client = m ∧ command.token = token with
  | none => exact .refl s
  | some command =>
      refine ⟨⟨rfl, le_rfl, id, fun _ => List.suffix_rfl⟩, rfl, fun x hx => ?_,
        fun x _ hx => hx.imp_right List.mem_of_mem_erase, fun _ => rfl⟩
      exact (total_tell success x).trans (total_erase_response (List.mem_of_find?_eq_some hfind) x)

end Steps

end Async

/-! ### Processing -/

namespace Async

variable {s t : Async} {command : QueuedCommand} {ready : QueuedCommand → Bool}

/-- The command that is picked is the first of its client. -/
theorem pick_first {ignored : List Nat} {commands : List QueuedCommand}
    (h : pick ready ignored commands = some command) :
    command.client ∉ ignored ∧ ∃ front back, commands = front ++ command :: back ∧
      ∀ x ∈ front, x.client ≠ command.client := by
  induction commands generalizing ignored with
  | nil => cases h
  | cons cmd commands ih =>
      rw [pick] at h
      split_ifs at h with hignored hready
      · obtain ⟨hnot, front, back, rfl, hfront⟩ := ih h
        refine ⟨hnot, cmd :: front, back, rfl, List.forall_mem_cons.mpr ⟨?_, hfront⟩⟩
        rintro heq
        exact hnot (heq ▸ hignored)
      · cases h
        exact ⟨hignored, [], commands, rfl, fun x hx => absurd hx List.not_mem_nil⟩
      · obtain ⟨hnot, front, back, rfl, hfront⟩ := ih h
        obtain ⟨hne, hnot⟩ := not_or.mp (mt List.mem_cons.mpr hnot)
        exact ⟨hnot, cmd :: front, back, rfl, List.forall_mem_cons.mpr ⟨Ne.symm hne, hfront⟩⟩

theorem pick_mem {ignored : List Nat} {commands : List QueuedCommand}
    (h : pick ready ignored commands = some command) : command ∈ commands := by
  obtain ⟨_, front, back, rfl, _⟩ := pick_first h
  exact List.mem_append_right front List.mem_cons_self

/-- Commands of other clients are not waited for. -/
theorem filter_of_other {front : List QueuedCommand} {m : Nat} (h : ∀ x ∈ front, x.client ≠ m) :
    front.filter (fun x => decide (x.client = m) && x.isRequest) = [] :=
  List.filter_eq_nil_iff.mpr fun x hx hm =>
    h x hx (of_decide_eq_true (Bool.and_eq_true_iff.mp hm).1)

/-- Taking out a command that is picked leaves what waits behind it. -/
theorem keeps_erase (h : pick ready [] s.commands = some command) :
    s.Keeps { s with commands := s.commands.erase command } := by
  refine ⟨rfl, le_rfl, id, fun m => ?_⟩
  obtain ⟨_, front, back, hcommands, hfront⟩ := pick_first h
  have hnot : command ∉ front := fun hmem => hfront command hmem rfl
  show (s.commands.erase command).filter _ <:+ s.commands.filter _
  rw [hcommands, List.erase_append_right _ hnot, List.erase_cons_head, List.filter_append,
    List.filter_append, List.filter_cons]
  split_ifs with hcommand
  · have hclient : command.client = m := of_decide_eq_true (Bool.and_eq_true_iff.mp hcommand).1
    rw [filter_of_other (hclient ▸ hfront)]
    exact List.suffix_cons command _
  · exact List.suffix_rfl

theorem total_erase_command (h : command ∈ s.commands) (x : QueuedCommand) :
    total { s with commands := s.commands.erase command } x + [command].count x = s.total x := by
  have hcount := count_erase_add h x
  show (s.commands.erase command).count x + s.responses.count x + (s.called.map Prod.fst).count x +
    _ = _
  rw [total]
  omega

theorem same_erase (h : pick ready [] s.commands = some command)
    (hcommand : command.isRequest = false) :
    s.Same { s with commands := s.commands.erase command } := by
  refine ⟨keeps_erase h, rfl, fun x hx => ?_, fun x _ hx => hx.imp_left List.mem_of_mem_erase,
    fun _ => rfl⟩
  rw [← total_erase_command (pick_mem h) x, count_of_not_isRequest hcommand hx, Nat.add_zero]

theorem same_keep {m : Nat} {publish : Publish} {qos : Nat} {retained : Bool} :
    s.Same (s.keep m publish qos retained) :=
  same_modify (fun _ => rfl) fun _ h => h

theorem moved_sent {outcome : Outcome} : s.Moved command [command] (s.sent command outcome) := by
  cases outcome with
  | complete => exact moved_await
  | interrupted => exact moved_await
  | failed => exact (same_disconnect true).moved (moved_tell false)

theorem moved_sentOnce {outcome : Outcome} (h : outcome ≠ .failed) :
    s.Moved command [command] (s.sentOnce command outcome) := by
  cases outcome with
  | complete => exact moved_tell true
  | interrupted => exact moved_pendingWrite.trans moved_await
  | failed => exact absurd rfl h

theorem same_startConnect {connectState : Int} {more : Bool} {outcome : Outcome}
    (h : command.isRequest = false) :
    s.Same (s.startConnect command connectState more outcome) := by
  have hmodify : s.Same (s.modify command.client fun c => { c with connectState }) :=
    same_modify (fun _ => rfl) fun _ h => h
  cases outcome with
  | complete => exact hmodify
  | interrupted => exact hmodify
  | failed =>
      rw [startConnect]
      split_ifs
      · exact hmodify.trans (same_addCommand h)
      · exact hmodify.trans (same_tell h false)

section Execute

variable {outcome : Outcome} {connectState : Int} {more timedOut : Bool}

/-- A command that the application does not wait for concerns no request. -/
theorem same_execute (h : command.isRequest = false) :
    s.Same (s.execute command outcome connectState more timedOut) := by
  rw [execute]
  cases hdetails : command.details with
  | pub => simp [QueuedCommand.isRequest, Details.isRequest, hdetails] at h
  | sub => simp [QueuedCommand.isRequest, Details.isRequest, hdetails] at h
  | unsub => simp [QueuedCommand.isRequest, Details.isRequest, hdetails] at h
  | conn =>
      dsimp only
      split_ifs
      · exact .refl s
      · exact same_startConnect h
  | dis internal =>
      dsimp only
      split_ifs
      · refine Same.trans ?_ (same_checkDisconnect timedOut)
        exact same_modify (fun _ => rfl) fun _ h => h
      · exact .refl s

/-- A request is put somewhere else, unless it is a publication with QoS 0 whose write fails. -/
theorem moved_execute (h : command.isRequest = true) :
    s.Moved command (if command.details.isOnce = true ∧ outcome = .failed then [] else [command])
      (s.execute command outcome connectState more timedOut) := by
  rw [execute]
  cases hdetails : command.details with
  | conn => simp [QueuedCommand.isRequest, Details.isRequest, hdetails] at h
  | dis => simp [QueuedCommand.isRequest, Details.isRequest, hdetails] at h
  | sub =>
      dsimp only
      rw [if_neg fun hc => nomatch hc.1]
      exact moved_sent
  | unsub =>
      dsimp only
      rw [if_neg fun hc => nomatch hc.1]
      exact moved_sent
  | pub destinationName payload qos retained =>
      dsimp only
      have hkeep : s.Same (s.keep command.client (publication command destinationName payload)
          qos.toNat retained) := same_keep
      refine hkeep.moved ?_
      by_cases hqos : qos = 0
      · subst hqos
        rw [if_pos rfl]
        by_cases hfailed : outcome = .failed
        · subst hfailed
          rw [if_pos ⟨rfl, rfl⟩]
          exact moved_pendingWrite
        · rw [if_neg fun hc => hfailed hc.2]
          exact moved_sentOnce hfailed
      · rw [if_neg hqos, if_neg fun hc => hqos (of_decide_eq_true hc.1)]
        exact moved_sent

end Execute

theorem nextId_le (msgid : Nat) (h : msgid ≤ 65535) : nextId msgid ≤ 65535 := by
  rw [nextId]
  split_ifs <;> omega

theorem assignLoop_cases {used : Nat → Bool} {start rounds msgid result : Nat}
    (h : assignLoop used start rounds msgid = some result) : result = 0 ∨ used result = false := by
  induction rounds generalizing msgid with
  | zero => cases h
  | succ rounds ih =>
      rw [assignLoop] at h
      split_ifs at h with hused
      · cases h
        exact .inr hused
      · cases h
        exact .inl rfl
      · exact ih h

theorem assignLoop_le {used : Nat → Bool} {start rounds msgid result : Nat}
    (h : assignLoop used start rounds msgid = some result) (hle : msgid ≤ 65535) :
    result ≤ 65535 := by
  induction rounds generalizing msgid with
  | zero => cases h
  | succ rounds ih =>
      rw [assignLoop] at h
      split_ifs at h
      · cases h
        exact hle
      · cases h
        exact Nat.zero_le _
      · exact ih h (nextId_le msgid hle)

/-- A request is refused, or accepted. -/
theorem request_cases {utf8 : Bytes → Bool} {m : Nat} {details : Details} {rc : Int}
    (hrequest : details.isRequest = true) (h : s.request utf8 m details = some (rc, t)) :
    s.Same t ∨ ∃ command, s.Taken command t := by
  rw [request] at h
  split at h
  · cases h
    exact .inl (.refl s)
  · split_ifs at h with hid
    · obtain ⟨msgid, hassign, hmsgid⟩ := Option.map_eq_some_iff.mp h
      split_ifs at hmsgid with hzero
      · cases hmsgid
        exact .inl (.refl s)
      · cases hmsgid
        have hunused : s.idUsed m msgid = false := (assignLoop_cases hassign).resolve_left hzero
        refine .inr ⟨_, Taken.of_modify ?_ ?_ (taken_accept hrequest fun _ => hunused)⟩
        · exact fun _ => rfl
        · intro hs
          have hle : msgid ≤ 65535 := assignLoop_le hassign (nextId_le _ (hs m))
          exact bounded_modify (fun _ _ => hle) hs
    · cases h
      exact .inr ⟨_, taken_accept hrequest fun hne => absurd rfl hne⟩

end Async

/-! ### Runs -/

namespace Async

variable {utf8 : Bytes → Bool} {s t : Async} {a : AsyncAction} {m : Nat}

/-- The step neither forgets a request nor tells of one that is not written. A publication with
QoS 0 whose write fails is forgotten; and when a write is completed, the first response is taken for
that of the publication that has been written. -/
def Sound (s : Async) : AsyncAction → Prop
  | .processCommand noPendingWrites outcome _ _ _ =>
      ∀ command ∈ pick (s.ready noPendingWrites) [] s.commands, command.details.isOnce = true →
        outcome ≠ .failed
  | .writeComplete m =>
      ∀ command ∈ (s.client m).pendingWrite, s.responses.find? (·.client = m) = some command
  | _ => True

/-- What a step does to the requests. -/
theorem step_cases (h : (async utf8).step s a = some t) :
    (s.Sound a ∧ (s.Same t ∨ ∃ command, s.Taken command t)) ∨
      (∃ noPendingWrites outcome connectState more timedOut,
        a = .processCommand noPendingWrites outcome connectState more timedOut ∧
          s.processCommand noPendingWrites outcome connectState more timedOut = some t) ∨
      (∃ m, a = .writeComplete m ∧ t = s.writeComplete m) := by
  cases a with
  | request m details =>
      simp only [async] at h
      split_ifs at h with hrequest
      obtain ⟨⟨rc, t'⟩, hdone, rfl⟩ := Option.map_eq_some_iff.mp h
      exact .inl ⟨trivial, request_cases hrequest hdone⟩
  | processCommand noPendingWrites outcome connectState more timedOut =>
      exact .inr (.inl ⟨noPendingWrites, outcome, connectState, more, timedOut, rfl, h⟩)
  | writeComplete m => exact .inr (.inr ⟨m, rfl, (Option.some.inj h).symm⟩)
  | puback m msgid =>
      cases h
      refine .inl ⟨trivial, .inl (Same.trans ?_ (same_answer msgid true))⟩
      exact same_modify (fun _ => rfl) fun _ h => h
  | pubrec m msgid =>
      cases h
      exact .inl ⟨trivial, .inl (same_modify (fun _ => rfl) fun _ h => h)⟩
  | pubcomp m msgid =>
      cases h
      refine .inl ⟨trivial, .inl (Same.trans ?_ (same_answer msgid true))⟩
      exact same_modify (fun _ => rfl) fun _ h => h
  | suback m msgid qoss =>
      cases h
      exact .inl ⟨trivial, .inl (same_answer msgid _)⟩
  | unsuback m msgid =>
      cases h
      exact .inl ⟨trivial, .inl (same_answer msgid true)⟩
  | connect m cleansession =>
      cases h
      refine .inl ⟨trivial, .inl (Same.trans ?_ (same_newCommand rfl))⟩
      exact same_modify (fun _ => rfl) fun _ h => h
  | completeConnection m =>
      simp only [async] at h
      split_ifs at h
      cases h
      exact .inl ⟨trivial, .inl same_completeConnection⟩
  | disconnect m internal =>
      cases h
      exact .inl ⟨trivial, .inl (same_disconnect internal)⟩
  | checkDisconnect m timedOut =>
      simp only [async] at h
      split_ifs at h
      cases h
      exact .inl ⟨trivial, .inl (same_checkDisconnect timedOut)⟩
  | closeOnly m =>
      cases h
      exact .inl ⟨trivial, .inl same_closeOnly⟩
  | closeSession m =>
      cases h
      exact .inl ⟨trivial, .inl same_closeSession⟩

theorem processCommand_cases {noPendingWrites : Nat → Bool} {outcome : Outcome}
    {connectState : Int} {more timedOut : Bool}
    (h : s.processCommand noPendingWrites outcome connectState more timedOut = some t) :
    ∃ command, pick (s.ready noPendingWrites) [] s.commands = some command ∧
      t = execute { s with commands := s.commands.erase command } command outcome connectState more
        timedOut := by
  obtain ⟨command, hpick, rfl⟩ := Option.map_eq_some_iff.mp h
  exact ⟨command, hpick, rfl⟩

theorem keeps_execute {command : QueuedCommand} {outcome : Outcome} {connectState : Int}
    {more timedOut : Bool} : s.Keeps (s.execute command outcome connectState more timedOut) := by
  cases hcommand : command.isRequest with
  | false => exact (same_execute hcommand).toKeeps
  | true => exact (moved_execute hcommand).toKeeps

theorem bounded_written {com command : QueuedCommand} (hs : s.Bounded) :
    (s.written m com command).Bounded := by
  intro other
  rw [written, tell, client_modify]
  split_ifs
  · exact hs m
  · exact hs other

theorem keeps_writeComplete : s.Keeps (s.writeComplete m) := by
  rw [writeComplete]
  split
  · exact .refl s
  · split
    · exact ⟨rfl, le_rfl, id, fun _ => List.suffix_rfl⟩
    · split_ifs
      · exact ⟨rfl, le_rfl, bounded_written, fun _ => List.suffix_rfl⟩
      · exact ⟨rfl, le_rfl, id, fun _ => List.suffix_rfl⟩

/-- Every step accepts a request or keeps what is known of those that have been accepted. -/
theorem keeps_step (h : (async utf8).step s a = some t) :
    s.Keeps t ∨ ∃ command, s.Taken command t := by
  obtain ⟨_, hsame | htaken⟩ | ⟨noPendingWrites, outcome, connectState, more, timedOut, rfl, h⟩ |
    ⟨m, rfl, rfl⟩ := step_cases h
  · exact .inl hsame.toKeeps
  · exact .inr htaken
  · obtain ⟨command, hpick, rfl⟩ := processCommand_cases h
    exact .inl ((keeps_erase hpick).trans keeps_execute)
  · exact .inl keeps_writeComplete

end Async

end MQTTAsync
