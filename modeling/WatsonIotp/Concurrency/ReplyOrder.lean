import WatsonIotp.Concurrency.Deadlock
import WatsonIotp.Handler.Basic

/-!
# The order of the replies

Replies are published in the order in which they came to `mReplyMsgs`, and that is the
order in which their senders got `mLock`. The record of a run keeps, of each reply, when
`IOTF_send_reply` is called with it, when its sender gets the lock, when it is put
on the queue, when the reply thread takes it and when its publication is complete.

`IOTF_send_reply` copies the caller's object before anything else. `posting` is
the machine in which these objects have contents that their owners may change.
-/

namespace Reply

/-- What happens to a reply. -/
inductive Event (τ μ : Type) where
  | sent (t : Sender τ) (reply : μ)
  | acquired (t : Sender τ) (reply : μ)
  | enqueued (reply : μ)
  | taken (reply : μ)
  | published (reply : μ)

variable {τ μ : Type}

/-- What a step of a sender or of the reply thread does with a reply. -/
def observe (s : State τ μ) : Action τ μ → List (Event τ μ)
  | .call t reply => [.sent t reply]
  | .lock t =>
      match s.sender t with
      | .locking reply => [.acquired t reply]
      | _ => []
  | .push t _ =>
      match s.sender t with
      | .pushing reply => [.enqueued reply]
      | _ => []
  | .resume false =>
      match s.mReplyMsgs with
      | reply :: _ => [.taken reply]
      | [] => []
  | .awaited true =>
      match s.reply with
      | .awaiting reply _ => [.published reply]
      | _ => []
  | _ => []

/-! ### Sequences of a record -/

namespace Event

@[simp] def asEnqueued : Event τ μ → Option μ
  | .enqueued reply => some reply
  | _ => none

@[simp] def asTaken : Event τ μ → Option μ
  | .taken reply => some reply
  | _ => none

@[simp] def asPublished : Event τ μ → Option μ
  | .published reply => some reply
  | _ => none

@[simp] def asAcquired : Event τ μ → Option μ
  | .acquired _ reply => some reply
  | _ => none

variable [DecidableEq τ]

@[simp] def asSentBy (t : Sender τ) : Event τ μ → Option μ
  | .sent t' reply => if t' = t then some reply else none
  | _ => none

@[simp] def asAcquiredBy (t : Sender τ) : Event τ μ → Option μ
  | .acquired t' reply => if t' = t then some reply else none
  | _ => none

end Event

abbrev enqueued (log : List (Event τ μ)) : List μ := log.filterMap Event.asEnqueued

abbrev taken (log : List (Event τ μ)) : List μ := log.filterMap Event.asTaken

abbrev published (log : List (Event τ μ)) : List μ := log.filterMap Event.asPublished

/-- The replies in the order in which their senders got the lock. -/
abbrev acquired (log : List (Event τ μ)) : List μ := log.filterMap Event.asAcquired

/-- The replies that a thread has called `IOTF_send_reply` with. -/
abbrev sentBy [DecidableEq τ] (t : Sender τ) (log : List (Event τ μ)) : List μ :=
  log.filterMap (Event.asSentBy t)

/-- The replies that a thread has got the lock for. -/
abbrev acquiredBy [DecidableEq τ] (t : Sender τ) (log : List (Event τ μ)) : List μ :=
  log.filterMap (Event.asAcquiredBy t)

/-! ### Replies under way -/

/-- The reply that a thread is about to get the lock for. -/
def SenderPhase.pending : SenderPhase μ → List μ
  | .locking reply => [reply]
  | _ => []

/-- The reply that the holder of the lock is about to push. -/
def State.pushing (s : State τ μ) : List μ :=
  match s.monitor.owner with
  | some (.sender t) =>
      match s.sender t with
      | .pushing reply => [reply]
      | _ => []
  | _ => []

/-- The places of a sender at which it holds the lock. -/
def SenderPhase.Holds : SenderPhase μ → Prop
  | .pushing _ | .unlocking => True
  | _ => False

/-- A sender between its lock and its unlock is the holder of the lock. -/
def SendersHold (s : State τ μ) : Prop :=
  ∀ t, (s.sender t).Holds → s.monitor.owner = some (.sender t)

@[simp] theorem setReply_mReplyMsgs (s : State τ μ) (p : ReplyPhase μ) :
    (s.setReply p).mReplyMsgs = s.mReplyMsgs := rfl

@[simp] theorem setReply_sender (s : State τ μ) (p : ReplyPhase μ) :
    (s.setReply p).sender = s.sender := rfl

@[simp] theorem setReply_pushing (s : State τ μ) (p : ReplyPhase μ) :
    (s.setReply p).pushing = s.pushing := rfl

section

variable [DecidableEq τ]

@[simp] theorem setSender_mReplyMsgs (s : State τ μ) (t : Sender τ) (p : SenderPhase μ) :
    (s.setSender t p).mReplyMsgs = s.mReplyMsgs := rfl

@[simp] theorem setSender_sender_self (s : State τ μ) (t : Sender τ) (p : SenderPhase μ) :
    (s.setSender t p).sender t = p := Function.update_self _ _ _

@[simp] theorem setSender_monitor (s : State τ μ) (t : Sender τ) (p : SenderPhase μ) :
    (s.setSender t p).monitor = s.monitor := rfl

theorem setSender_sender_ne {t t' : Sender τ} (h : t' ≠ t) (s : State τ μ) (p : SenderPhase μ) :
    (s.setSender t p).sender t' = s.sender t' := Function.update_of_ne h _ _

end

variable [DecidableEq τ]

/-- Replies leave the queue in the order in which they came to it. They came to it in
the order in which their senders got the lock, and for each sender that is the order
of its calls. -/
structure InOrder (s : State τ μ) (log : List (Event τ μ)) : Prop where
  queue : taken log ++ s.mReplyMsgs = enqueued log
  lock : acquired log = enqueued log ++ s.pushing
  sender : ∀ t, sentBy t log = acquiredBy t log ++ (s.sender t).pending

/-- The reply thread comes back from its wait when nobody holds the lock. -/
theorem owner_of_resume {s u : State τ μ} {timedOut : Bool} (h : resume s timedOut = some u) :
    s.monitor.owner = none := by
  unfold resume at h
  split at h
  · split at h
    · cases h
    · obtain ⟨monitor, hm, -⟩ := Option.map_eq_some_iff.mp h
      exact (Monitor.resume_iff.mp hm).1.1
  · cases h

theorem SendersHold.step {s u : State τ μ} {a : Action τ μ} (hs : SendersHold s)
    (hlock : HoldsLock s) (h : machine.step s a = some u) : SendersHold u := by
  cases steps_of_step h with
  | tick | exit | woken | looped | left | blocked | published | completed | awaited => exact hs
  | passed | taken =>
      intro t ht
      have howner := hs t ht
      rw [owner_of_resume h] at howner
      cases howner
  | publishFailed hreply | awaitFailed hreply | unlocked hreply =>
      intro t ht
      have howner : s.monitor.owner = some .reply := hlock (by rw [hreply]; trivial)
      have hsender := hs t ht
      rw [howner] at hsender
      cases hsender
  | @called t reply hsender =>
      intro t' ht'
      obtain rfl | hne := eq_or_ne t' t
      · simp [State.setSender, SenderPhase.Holds] at ht'
      · exact hs t' (by simpa [State.setSender, hne] using ht')
  | @locked t reply hsender howner =>
      intro t' ht'
      obtain rfl | hne := eq_or_ne t' t
      · rfl
      · have hholder := hs t' (by simpa [State.setSender, hne] using ht')
        rw [howner] at hholder
        cases hholder
  | @pushed t chosen reply monitor hsender hnotify =>
      intro t' ht'
      refine (Monitor.notifyOne_owner hnotify).trans (hs t' ?_)
      obtain rfl | hne := eq_or_ne t' t
      · rw [hsender]
        trivial
      · simpa [State.setSender, hne] using ht'
  | @released t hsender howner =>
      intro t' ht'
      obtain rfl | hne := eq_or_ne t' t
      · simp [State.setSender, SenderPhase.Holds] at ht'
      · have hholder := hs t' (by simpa [State.setSender, hne] using ht')
        rw [howner] at hholder
        cases hholder
        exact absurd rfl hne

omit [DecidableEq τ] in
/-- Nothing is being pushed when no sender holds the lock. -/
theorem pushing_eq_nil {s : State τ μ} (h : ∀ t, s.monitor.owner ≠ some (.sender t)) :
    s.pushing = [] := by
  unfold State.pushing
  split
  · next t howner => exact absurd howner (h t)
  · rfl

omit [DecidableEq τ] in
theorem pushing_eq {s : State τ μ} {t : Sender τ} (h : s.monitor.owner = some (.sender t)) :
    s.pushing = match s.sender t with
      | .pushing reply => [reply]
      | _ => [] := by
  unfold State.pushing
  rw [h]

/-- A sender that is not at `push`, before or after, has nothing to do with it. -/
theorem pushing_setSender {s : State τ μ} {t : Sender τ} {p : SenderPhase μ}
    (hs : ∀ reply, s.sender t ≠ .pushing reply) (hp : ∀ reply, p ≠ .pushing reply) :
    (s.setSender t p).pushing = s.pushing := by
  cases h : s.monitor.owner with
  | none => rw [pushing_eq_nil (by simp [h]), pushing_eq_nil (by simp [h])]
  | some holder =>
      cases holder with
      | reply => rw [pushing_eq_nil (by simp [h]), pushing_eq_nil (by simp [h])]
      | sender t' =>
          have h' : (s.setSender t p).monitor.owner = some (.sender t') := h
          rw [pushing_eq h, pushing_eq h']
          obtain rfl | hne := eq_or_ne t' t
          · rw [setSender_sender_self]
            cases p <;> cases hsender : s.sender t' <;> simp_all
          · rw [setSender_sender_ne hne]

/-- Steps that no reply takes part in. -/
theorem InOrder.frame {s u : State τ μ} {log events : List (Event τ μ)} (hs : InOrder s log)
    (hevents : events = []) (hqueue : u.mReplyMsgs = s.mReplyMsgs)
    (hpushing : u.pushing = s.pushing) (hsender : u.sender = s.sender) :
    InOrder u (log ++ events) := by
  rw [hevents, List.append_nil]
  exact ⟨hqueue ▸ hs.queue, hpushing ▸ hs.lock, hsender ▸ hs.sender⟩

/-- A record with one more event is in order if what the event adds fits. -/
theorem inOrder_append_iff {s : State τ μ} {log : List (Event τ μ)} {e : Event τ μ} :
    InOrder s (log ++ [e]) ↔
      taken log ++ (e.asTaken.toList ++ s.mReplyMsgs) = enqueued log ++ e.asEnqueued.toList ∧
      acquired log ++ e.asAcquired.toList = enqueued log ++ (e.asEnqueued.toList ++ s.pushing) ∧
      ∀ t, sentBy t log ++ (e.asSentBy t).toList =
        acquiredBy t log ++ ((e.asAcquiredBy t).toList ++ (s.sender t).pending) := by
  have hone : ∀ f : Event τ μ → Option μ, [e].filterMap f = (f e).toList := by
    intro f
    cases h : f e <;> simp [h]
  simp only [← hone]
  constructor
  · rintro ⟨hqueue, hlock, hsender⟩
    simp only [List.filterMap_append, List.append_assoc] at hqueue hlock hsender
    exact ⟨hqueue, hlock, hsender⟩
  · rintro ⟨hqueue, hlock, hsender⟩
    constructor <;> simp only [List.filterMap_append, List.append_assoc] <;> assumption

/-- The replies of a sender are in order if the event and its new place fit. -/
theorem InOrder.sender_append {s : State τ μ} {log : List (Event τ μ)} {e : Event τ μ}
    (hs : InOrder s log) {t : Sender τ} {p : SenderPhase μ}
    (hself : (s.sender t).pending ++ (e.asSentBy t).toList =
      (e.asAcquiredBy t).toList ++ p.pending)
    (hother : ∀ t' ≠ t, e.asSentBy t' = none ∧ e.asAcquiredBy t' = none) (t' : Sender τ) :
    sentBy t' log ++ (e.asSentBy t').toList =
      acquiredBy t' log ++
        ((e.asAcquiredBy t').toList ++ ((s.setSender t p).sender t').pending) := by
  obtain rfl | hne := eq_or_ne t' t
  · rw [setSender_sender_self, ← hself, hs.sender, List.append_assoc]
  · obtain ⟨hsent, hacquired⟩ := hother t' hne
    rw [setSender_sender_ne hne, hsent, hacquired, Option.toList_none, List.append_nil,
      List.nil_append, hs.sender]

/-- The step lemma. -/
theorem InOrder.step {s u : State τ μ} {log : List (Event τ μ)} {a : Action τ μ}
    (hs : InOrder s log) (hlock : HoldsLock s) (hsenders : SendersHold s)
    (h : machine.step s a = some u) : InOrder u (log ++ observe s a) := by
  have hreplier : s.monitor.owner = some .reply → s.pushing = [] := by
    intro howner
    exact pushing_eq_nil fun t => by simp [howner]
  have hnobody : s.monitor.owner = none → s.pushing = [] := by
    intro howner
    exact pushing_eq_nil fun t => by simp [howner]
  cases steps_of_step h with
  | tick | exit | woken | looped | left | blocked | published | completed =>
      exact hs.frame rfl rfl rfl rfl
  | @awaited reply hreply =>
      have hevents : observe s (.awaited true) = [.published reply] := by
        simp only [observe, hreply]
      rw [hevents, inOrder_append_iff]
      refine ⟨by simpa using hs.queue, by simpa using hs.lock, fun t => ?_⟩
      simpa using hs.sender t
  | publishFailed hreply | awaitFailed hreply | unlocked hreply =>
      have howner : s.monitor.owner = some .reply := hlock (by rw [hreply]; trivial)
      exact hs.frame rfl rfl (hreplier howner).symm rfl
  | @passed timedOut deadline hreply hwoken hpass =>
      have hevents : observe s (.resume timedOut) = [] := by
        cases timedOut with
        | true => rfl
        | false => simp only [observe, hpass.resolve_left Bool.false_ne_true]
      exact hs.frame hevents rfl (hnobody (owner_of_resume h)).symm rfl
  | @taken deadline reply rest hreply hwoken hqueue =>
      have hevents : observe s (.resume false) = [.taken reply] := by
        simp only [observe, hqueue]
      have hpushing := hnobody (owner_of_resume h)
      rw [hevents, inOrder_append_iff]
      refine ⟨?_, ?_, fun t => by simpa using hs.sender t⟩
      · simpa [hqueue] using hs.queue
      · rw [pushing_eq_nil (by simp [State.setReply])]
        simpa [hpushing] using hs.lock
  | @called t reply hsender =>
      have hpushing : (s.setSender t (.locking reply)).pushing = s.pushing :=
        pushing_setSender (by simp [hsender]) (by simp)
      rw [observe, inOrder_append_iff, hpushing]
      refine ⟨by simpa using hs.queue, by simpa using hs.lock, hs.sender_append ?_ ?_⟩
      · simp [hsender, SenderPhase.pending]
      · intro t' hne
        simp [hne.symm]
  | @locked t reply hsender howner =>
      have hevents : observe s (.lock t) = [.acquired t reply] := by
        simp only [observe, hsender]
      rw [hevents, inOrder_append_iff, @pushing_eq _ _ _ t rfl, setSender_sender_self]
      refine ⟨by simpa using hs.queue, ?_, hs.sender_append ?_ ?_⟩
      · simpa [hnobody howner] using hs.lock
      · simp [hsender, SenderPhase.pending]
      · intro t' hne
        simp [hne.symm]
  | @pushed t chosen reply monitor hsender hnotify =>
      have hevents : observe s (.push t chosen) = [.enqueued reply] := by
        simp only [observe, hsender]
      have howner : s.monitor.owner = some (.sender t) := hsenders t (by rw [hsender]; trivial)
      have hpushing : s.pushing = [reply] := by rw [pushing_eq howner, hsender]
      rw [hevents, inOrder_append_iff,
        @pushing_eq _ _ _ t ((Monitor.notifyOne_owner hnotify).trans howner),
        setSender_sender_self]
      refine ⟨?_, ?_, hs.sender_append ?_ ?_⟩
      · simpa using congrArg (· ++ [reply]) hs.queue
      · simpa [hpushing] using hs.lock
      · simp [hsender, SenderPhase.pending]
      · simp
  | @released t hsender howner =>
      have hpushing : s.pushing = [] := by rw [pushing_eq howner, hsender]
      have hevents : observe s (.release t) = [] := rfl
      rw [hevents, List.append_nil]
      refine ⟨hs.queue, ?_, fun t' => ?_⟩
      · rw [pushing_eq_nil (by simp), ← hpushing]
        exact hs.lock
      · have hsent := hs.sender t'
        obtain rfl | hne := eq_or_ne t' t
        · rw [setSender_sender_self]
          rwa [hsender] at hsent
        · rwa [setSender_sender_ne hne]

/-! ### The callers' objects -/

/-- The client, and the contents of the reply objects of its callers. -/
structure Posting (τ κ D : Type) where
  client : State τ (ReplyMessage D)
  object : κ → ReplyMessage D

inductive PostingAction (τ κ D : Type) where
  /-- `IOTF_send_reply` is called with a reply object. -/
  | send (t : Sender τ) (reply : κ)
  /-- The owner of a reply object changes its contents. -/
  | change (reply : κ) (contents : ReplyMessage D)
  /-- Any other step of the client. -/
  | other (a : Action τ (ReplyMessage D))

section Posting

variable {κ D : Type} [DecidableEq κ]

/-- `IOTP_ReplyMessage newReply(reply->getTopic(), reply->getPayload(), reply->getQos())`. -/
def newReply (reply : ReplyMessage D) : ReplyMessage D := ⟨reply.topic, reply.payload, reply.qos⟩

def Posting.step (s : Posting τ κ D) : PostingAction τ κ D → Option (Posting τ κ D)
  | .send t reply =>
      (machine.step s.client (.call t (newReply (s.object reply)))).map
        fun client => { s with client }
  | .change reply contents => some { s with object := Function.update s.object reply contents }
  | .other (.call _ _) => none
  | .other a => (machine.step s.client a).map fun client => { s with client }

omit [DecidableEq τ] [DecidableEq κ] in
def Posting.initial (object : κ → ReplyMessage D) : Posting τ κ D := ⟨.initial, object⟩

/-- What a step does with a reply: a call is one with the copy that it makes. -/
def Posting.observe (s : Posting τ κ D) : PostingAction τ κ D → List (Event τ (ReplyMessage D))
  | .send t reply => [.sent t (newReply (s.object reply))]
  | .change _ _ => []
  | .other a => Reply.observe s.client a

end Posting

end Reply
