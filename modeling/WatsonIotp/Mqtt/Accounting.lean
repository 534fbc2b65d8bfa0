import WatsonIotp.Mqtt.Processing

/-!
# What becomes of requests

The requests of a client are written in the order in which they have been accepted
(`sent_in_order`). The library tells of each once (`told_once`), but not when a publication with
QoS 0 cannot be written, or is written in parts while a response to something else is waited for
(`accounted_iff`).
-/

namespace MQTTAsync

open MQTTPacket

/-! ### The order of the requests -/

namespace Async

variable {utf8 : Bytes → Bool} {s t : Async} {a : AsyncAction} {m : Nat}

/-- The requests of a client that wait are among those that it has made last, behind `past`. -/
def Behind (past : List QueuedCommand) (m : Nat) (s : Async) : Prop :=
  ∃ later, s.accepted.filter (·.client = m) = past ++ later ∧ s.waiting m <:+ later

theorem Behind.step {past : List QueuedCommand} (hs : Behind past m s)
    (h : (async utf8).step s a = some t) : Behind past m t := by
  obtain ⟨later, haccepted, hwaiting⟩ := hs
  rcases keeps_step h with hkeeps | ⟨command, htaken⟩
  · refine ⟨later, ?_, (hkeeps.waiting m).trans hwaiting⟩
    rw [hkeeps.accepted, haccepted]
  · refine ⟨later ++ [command].filter (·.client = m), ?_, ?_⟩
    · rw [htaken.accepted, List.filter_append, haccepted, List.append_assoc]
    · obtain ⟨front, rfl⟩ := hwaiting
      rw [htaken.waiting m, List.append_assoc]
      exact List.suffix_append front _

theorem Behind.run {past : List QueuedCommand} {acts : List AsyncAction} (hs : Behind past m s)
    (hr : (async utf8).Run s acts t) : Behind past m t :=
  hr.invariant (fun _ _ _ hs h => hs.step h) hs

theorem behind_initial : Behind [] m .initial :=
  ⟨[], rfl, List.suffix_rfl⟩

/-- A request that is picked waits first of all of its client. -/
theorem waiting_of_pick {ready : QueuedCommand → Bool} {command : QueuedCommand}
    (h : pick ready [] s.commands = some command) (hcommand : command.isRequest = true) :
    s.waiting command.client = command ::
      waiting { s with commands := s.commands.erase command } command.client := by
  obtain ⟨_, front, back, hcommands, hfront⟩ := pick_first h
  have hnot : command ∉ front := fun hmem => hfront command hmem rfl
  show s.commands.filter _ = command :: (s.commands.erase command).filter _
  rw [hcommands, List.erase_append_right _ hnot, List.erase_cons_head, List.filter_append,
    List.filter_append, filter_of_other hfront, List.filter_cons_of_pos]
  · rfl
  · rw [decide_eq_true rfl, hcommand]
    rfl

/-- **The requests of a client are sent in the order in which they have been accepted**, whatever
the commands of other clients do. -/
theorem sent_in_order {acts acts' : List AsyncAction} {u v : Async} {first second : QueuedCommand}
    (noPendingWrites noPendingWrites' : Nat → Bool) (outcome : Outcome) (connectState : Int)
    (more timedOut : Bool) (hr : (async utf8).Run .initial acts s)
    (h : (async utf8).step s (.processCommand noPendingWrites outcome connectState more timedOut) =
      some u)
    (hfirst : pick (s.ready noPendingWrites) [] s.commands = some first)
    (hr' : (async utf8).Run u acts' v)
    (hsecond : pick (v.ready noPendingWrites') [] v.commands = some second)
    (hrequest : first.isRequest = true) (hrequest' : second.isRequest = true)
    (hclient : second.client = first.client) : [first, second].Sublist v.accepted := by
  obtain ⟨later, haccepted, front, hfront⟩ := (behind_initial (m := first.client)).run hr
  obtain ⟨command, hpick, rfl⟩ := processCommand_cases h
  obtain rfl : first = command := Option.some.inj (hfirst.symm.trans hpick)
  -- everything that waits once the first is gone was accepted after it
  have hbehind : Behind (front ++ [first]) first.client
      (execute { s with commands := s.commands.erase first } first outcome connectState more
        timedOut) := by
    refine ⟨waiting { s with commands := s.commands.erase first } first.client, ?_,
      keeps_execute.waiting first.client⟩
    rw [keeps_execute.accepted]
    show s.accepted.filter _ = _
    rw [haccepted, ← hfront, waiting_of_pick hfirst hrequest]
    simp
  obtain ⟨later', haccepted', hwaiting'⟩ := hbehind.run hr'
  have hmem : second ∈ later' := by
    apply hwaiting'.mem
    rw [← hclient, waiting_of_pick hsecond hrequest']
    exact List.mem_cons_self
  have hsub : [first, second].Sublist (v.accepted.filter (·.client = first.client)) := by
    rw [haccepted']
    exact ((List.singleton_sublist.mpr (List.mem_append_right front
      List.mem_cons_self)).append (List.singleton_sublist.mpr hmem))
  exact hsub.trans List.filter_sublist

/-- A client connects. -/
def connecting : List AsyncAction :=
  [.connect 0 true, .processCommand (fun _ => true) .complete 3 false false, .completeConnection 0]

/-- Two publications with QoS 1. -/
def publishing : List AsyncAction :=
  [.request 0 (.pub [97] [] 1 false), .request 0 (.pub [98] [] 1 false)]

theorem sent_in_order_publishing : ∃ s u,
    (async fun _ => true).Run .initial (connecting ++ publishing) s ∧
    (async fun _ => true).step s (.processCommand (fun _ => true) .complete 0 false false) =
      some u ∧
    [QueuedCommand.mk 1 0 1 (.pub [97] [] 1 false),
      QueuedCommand.mk 2 0 2 (.pub [98] [] 1 false)].Sublist u.accepted := by
  have hr : (async fun _ => true).Run .initial (connecting ++ publishing) _ :=
    Machine.Run.exec_iff.mp rfl
  refine ⟨_, _, hr, rfl, ?_⟩
  exact sent_in_order (fun _ => true) (fun _ => true) .complete 0 false false hr rfl rfl (.nil _)
    rfl rfl rfl rfl

end Async

/-! ### Accounts -/

namespace Async

variable {utf8 : Bytes → Bool} {s t : Async} {a : AsyncAction} {command : QueuedCommand} {m : Nat}

/-- Only requests are noted as being written. -/
def PendingRequests (s : Async) : Prop :=
  ∀ m command, (s.client m).pendingWrite = some command → command.isRequest = true

theorem Same.pendingRequests (h : s.Same t) (hs : s.PendingRequests) : t.PendingRequests := by
  intro m command hm
  rw [h.pendingWrite m] at hm
  exact hs m command hm

theorem Taken.pendingRequests (h : s.Taken command t) (hs : s.PendingRequests) :
    t.PendingRequests := by
  intro m other hm
  rw [h.pendingWrite m] at hm
  exact hs m other hm

theorem Moved.pendingRequests {places : List QueuedCommand} (h : s.Moved command places t)
    (hcommand : command.isRequest = true) (hs : s.PendingRequests) : t.PendingRequests := by
  intro m other hm
  rcases h.pendingWrite m with heq | heq
  · rw [heq] at hm
    exact hs m other hm
  · rw [heq] at hm
    cases hm
    exact hcommand

theorem pendingRequests_writeComplete (hs : s.PendingRequests) :
    (s.writeComplete m).PendingRequests := by
  rw [writeComplete]
  split
  · exact hs
  · split
    · exact hs
    · split_ifs
      · intro other command hother
        rw [written, tell, client_modify] at hother
        split_ifs at hother
        exact hs other command hother
      · exact hs

theorem PendingRequests.step (hs : s.PendingRequests) (h : (async utf8).step s a = some t) :
    t.PendingRequests := by
  obtain ⟨_, hsame | ⟨command, htaken⟩⟩ |
    ⟨noPendingWrites, outcome, connectState, more, timedOut, rfl, h⟩ | ⟨m, rfl, rfl⟩ := step_cases h
  · exact hsame.pendingRequests hs
  · exact htaken.pendingRequests hs
  · obtain ⟨command, _, rfl⟩ := processCommand_cases h
    cases hcommand : command.isRequest with
    | false => exact (same_execute hcommand).pendingRequests hs
    | true => exact (moved_execute hcommand).pendingRequests hcommand hs
  · exact pendingRequests_writeComplete hs

theorem Same.accounted (h : s.Same t) (hs : s.Accounted) : t.Accounted := by
  refine ⟨h.undefined.trans hs.undefined, fun x hx => ?_⟩
  rw [h.total x hx, hs.total x hx, h.accepted]

theorem Taken.accounted (h : s.Taken command t) (hs : s.Accounted) : t.Accounted := by
  refine ⟨h.undefined.trans hs.undefined, fun x hx => ?_⟩
  rw [h.total x, hs.total x hx, h.accepted, List.count_append]

/-- The command that is processed has to have a place afterwards. -/
theorem Moved.accounted_iff_placed {places : List QueuedCommand} (hmem : command ∈ s.commands)
    (hcommand : command.isRequest = true) (hplaces : places = [] ∨ places = [command])
    (h : Moved { s with commands := s.commands.erase command } command places t)
    (hs : s.Accounted) : t.Accounted ↔ places = [command] := by
  constructor
  · intro ht
    refine hplaces.resolve_left fun hnone => ?_
    have herase := total_erase_command hmem command
    have htotal := h.total command hcommand
    rw [ht.total command hcommand, h.accepted, hnone] at htotal
    rw [hs.total command hcommand, List.count_singleton_self] at herase
    change s.accepted.count command = Async.total _ command + 0 at htotal
    omega
  · rintro rfl
    refine ⟨h.undefined.trans hs.undefined, fun x hx => ?_⟩
    rw [h.total x hx, total_erase_command hmem, hs.total x hx, h.accepted]

theorem accounted_processCommand_iff {noPendingWrites : Nat → Bool} {outcome : Outcome}
    {connectState : Int} {more timedOut : Bool}
    (h : s.processCommand noPendingWrites outcome connectState more timedOut = some t)
    (hs : s.Accounted) :
    t.Accounted ↔ s.Sound (.processCommand noPendingWrites outcome connectState more timedOut) := by
  obtain ⟨command, hpick, rfl⟩ := processCommand_cases h
  have hsound : s.Sound (.processCommand noPendingWrites outcome connectState more timedOut) ↔
      ¬ (command.details.isOnce = true ∧ outcome = .failed) := by
    show (∀ other ∈ pick (s.ready noPendingWrites) [] s.commands, _) ↔ _
    rw [hpick]
    constructor
    · rintro hall ⟨honce, hfailed⟩
      exact hall command rfl honce hfailed
    · rintro hnot other hother honce hfailed
      cases hother
      exact hnot ⟨honce, hfailed⟩
  rw [hsound]
  cases hcommand : command.isRequest with
  | false =>
      refine iff_of_true (Same.accounted ?_ hs) ?_
      · exact (same_erase hpick hcommand).trans (same_execute hcommand)
      · rintro ⟨honce, _⟩
        rw [QueuedCommand.isRequest, Details.isRequest_of_isOnce honce] at hcommand
        cases hcommand
  | true =>
      rw [(moved_execute hcommand).accounted_iff_placed (pick_mem hpick) hcommand
        (by split_ifs <;> simp) hs]
      split_ifs with hlost
      · exact iff_of_false id (not_not_intro hlost)
      · exact iff_of_true rfl hlost

theorem accounted_writeComplete_iff (hpending : s.PendingRequests) (hs : s.Accounted) :
    (s.writeComplete m).Accounted ↔ s.Sound (.writeComplete m) := by
  rw [writeComplete, Sound]
  cases hcommand : (s.client m).pendingWrite with
  | none => exact iff_of_true hs fun command h => absurd h (Option.not_mem_none command)
  | some command =>
      have hsound : (∀ other ∈ some command, s.responses.find? (·.client = m) = some other) ↔
          s.responses.find? (·.client = m) = some command :=
        ⟨fun hall => hall command rfl, fun h other hother => Option.some.inj hother ▸ h⟩
      rw [hsound]
      cases hfind : s.responses.find? (·.client = m) with
      | none =>
          exact iff_of_false (fun h => Bool.noConfusion h.undefined)
            (Option.some_ne_none command).symm
      | some com =>
          dsimp only
          have hcom : com ∈ s.responses := List.mem_of_find?_eq_some hfind
          have htotal : ∀ x, (s.written m com command).total x + [com].count x =
              s.total x + [command].count x := by
            intro x
            rw [← total_erase_response hcom x, Nat.add_right_comm, written]
            congr 1
            exact total_tell true x
          split_ifs with hgone
          · rw [Option.some.injEq]
            constructor
            · intro ht
              have hrequest := hpending m command hcommand
              have hone : 0 < [com].count command := by
                have hcount := htotal command
                rw [ht.total command hrequest, hs.total command hrequest,
                  List.count_singleton_self] at hcount
                change s.accepted.count command + _ = _ at hcount
                omega
              exact (List.mem_singleton.mp (List.count_pos_iff.mp hone)).symm
            · rintro rfl
              refine ⟨hs.undefined, fun x hx => ?_⟩
              have hcount := htotal x
              rw [Nat.add_right_cancel_iff] at hcount
              exact hcount.trans (hs.total x hx)
          · refine iff_of_false (fun h => Bool.noConfusion h.undefined) fun h => hgone ?_
            exact Option.some.inj h ▸ hcom

/-- A step keeps account of the requests exactly if it is sound. -/
theorem accounted_step_iff (hpending : s.PendingRequests) (hs : s.Accounted)
    (h : (async utf8).step s a = some t) : t.Accounted ↔ s.Sound a := by
  obtain ⟨hsound, hsame | ⟨command, htaken⟩⟩ |
    ⟨noPendingWrites, outcome, connectState, more, timedOut, rfl, h⟩ | ⟨m, rfl, rfl⟩ := step_cases h
  · exact iff_of_true (hsame.accounted hs) hsound
  · exact iff_of_true (htaken.accounted hs) hsound
  · exact accounted_processCommand_iff h hs
  · exact accounted_writeComplete_iff hpending hs

theorem accounted_initial : Async.initial.Accounted :=
  ⟨rfl, fun _ _ => rfl⟩

/-- **The library keeps account of the requests exactly as long as all steps are sound**: each is
waiting to be written, or for a response, or its callback has been called, and nothing else. -/
theorem accounted_iff {acts : List AsyncAction} (hr : (async utf8).Run .initial acts t) :
    (∀ front s, front <+: acts → (async utf8).Run .initial front s → s.Accounted) ↔
      (async utf8).Along Sound .initial acts :=
  hr.forall_prefix_iff (I := PendingRequests) (fun _ _ _ hs h => hs.step h)
    (fun _ _ _ hpending hs h => accounted_step_iff hpending hs h)
    (fun _ command h => absurd h.symm (Option.some_ne_none command)) accounted_initial

/-- A publication with QoS 0 that cannot be written. -/
def lost : List AsyncAction :=
  [.request 0 (.pub [97] [] 0 false), .processCommand (fun _ => true) .failed 0 false false]

theorem accounted_iff_lost : ∃ t,
    (async fun _ => true).Run .initial (connecting ++ lost) t ∧
      ¬ ∀ front s, front <+: connecting ++ lost →
        (async fun _ => true).Run .initial front s → s.Accounted := by
  have hr : (async fun _ => true).Run .initial (connecting ++ lost) _ :=
    Machine.Run.exec_iff.mp rfl
  refine ⟨_, hr, fun hall => ?_⟩
  obtain ⟨_, h⟩ := (accounted_iff hr).mp hall
  obtain ⟨hsound, _⟩ := (((h _ rfl).2 _ rfl).2 _ rfl).2 _ rfl
  exact hsound ⟨1, 0, 0, .pub [97] [] 0 false⟩ rfl rfl rfl

/-- No two requests that have been accepted are the same. -/
structure Fresh (s : Async) : Prop where
  nodup : s.accepted.Nodup
  address : ∀ x ∈ s.accepted, x.address < s.next

theorem Fresh.step (hs : s.Fresh) (h : (async utf8).step s a = some t) : t.Fresh := by
  rcases keeps_step h with hkeeps | ⟨command, htaken⟩
  · refine ⟨hkeeps.accepted ▸ hs.nodup, fun x hx => ?_⟩
    rw [hkeeps.accepted] at hx
    exact (hs.address x hx).trans_le hkeeps.next
  · have hnew : command ∉ s.accepted := fun hmem =>
      absurd (hs.address command hmem) (htaken.address ▸ lt_irrefl _)
    constructor
    · rw [htaken.accepted, List.nodup_append]
      refine ⟨hs.nodup, List.nodup_singleton command, fun x hx y hy => ?_⟩
      rw [List.mem_singleton.mp hy]
      exact fun heq => hnew (heq ▸ hx)
    · intro x hx
      rw [htaken.accepted] at hx
      rw [htaken.next]
      rcases List.mem_append.mp hx with hx | hx
      · exact Nat.lt_succ_of_lt (hs.address x hx)
      · rw [List.mem_singleton.mp hx, htaken.address]
        exact Nat.lt_succ_self s.next

/-- **As long as all steps are sound the application is told once of each of its requests**, unless
the request still waits; and of nothing else. -/
theorem told_once {acts : List AsyncAction} (hr : (async utf8).Run .initial acts t)
    (hsound : (async utf8).Along Sound .initial acts) (hcommand : command.isRequest = true) :
    t.commands.count command + t.responses.count command +
      (t.called.map Prod.fst).count command = if command ∈ t.accepted then 1 else 0 := by
  have ht : t.Accounted := (accounted_iff hr).mpr hsound acts t (List.prefix_refl acts) hr
  have hfresh : t.Fresh :=
    hr.invariant (fun _ _ _ hs h => hs.step h)
      ⟨List.nodup_nil, fun _ h => absurd h List.not_mem_nil⟩
  have htotal := ht.total command hcommand
  split_ifs with hmem
  · rw [List.count_eq_one_of_mem hfresh.nodup hmem] at htotal
    exact htotal
  · rw [List.count_eq_zero_of_not_mem hmem] at htotal
    exact htotal

/-- Two publications are written, and the server acknowledges the first. -/
def acknowledging : List AsyncAction :=
  [.processCommand (fun _ => true) .complete 0 false false,
    .processCommand (fun _ => true) .interrupted 0 false false, .puback 0 1]

theorem told_once_acknowledging : ∃ t,
    (async fun _ => true).Run .initial (connecting ++ publishing ++ acknowledging) t ∧
      t.commands.count ⟨1, 0, 1, .pub [97] [] 1 false⟩ +
        t.responses.count ⟨1, 0, 1, .pub [97] [] 1 false⟩ +
          (t.called.map Prod.fst).count ⟨1, 0, 1, .pub [97] [] 1 false⟩ =
        if ⟨1, 0, 1, .pub [97] [] 1 false⟩ ∈ t.accepted then 1 else 0 := by
  have hr : (async fun _ => true).Run .initial (connecting ++ publishing ++ acknowledging) _ :=
    Machine.Run.exec_iff.mp rfl
  have hcomplete : ∀ s : Async, s.Sound (.processCommand (fun _ => true) .complete 3 false false) :=
    fun _ _ _ _ h => nomatch h
  have hwritten : ∀ s : Async, s.Sound (.processCommand (fun _ => true) .complete 0 false false) :=
    fun _ _ _ _ h => nomatch h
  have hinterrupted : ∀ s : Async,
      s.Sound (.processCommand (fun _ => true) .interrupted 0 false false) :=
    fun _ _ _ _ h => nomatch h
  refine ⟨_, hr, told_once hr ?_ rfl⟩
  exact ⟨trivial, fun _ _ => ⟨hcomplete _, fun _ _ => ⟨trivial, fun _ _ => ⟨trivial, fun _ _ =>
    ⟨trivial, fun _ _ => ⟨hwritten _, fun _ _ => ⟨hinterrupted _, fun _ _ =>
      ⟨trivial, fun _ _ => trivial⟩⟩⟩⟩⟩⟩⟩⟩

end Async

end MQTTAsync
