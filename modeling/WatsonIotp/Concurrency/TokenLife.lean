import WatsonIotp.Concurrency.Tokens

/-!
# The life of a token

A request passes from its thread to the library and on to a callback, or back to its thread,
and at every moment one of them has to go on with it. `Owned` says so, and that the tokens
that are pending are those of these requests. The rest of what is needed is that the heap
has all objects that are referred to, and no others.
-/

namespace Tokens

variable {τ κ α : Type}

/-- Every pending token belongs to one request, with which one user goes on. A token is pending
from the call of the library to the end of the callback, and complete from the listener on. -/
structure Owned (uses : User τ κ → Context α → Prop) (flag : α → Option (Nat × Bool))
    (pending : List α) : Prop where
  flagged : ∀ u c, uses u c → flag c.address = some (c.number, u.done)
  listed : ∀ u c, uses u c → (c.address ∈ pending ↔ 0 < u.rank)
  alone : ∀ u u' c c', uses u c → uses u' c' → c.number = c'.number → u = u' ∧ c = c'
  tracked : ∀ a ∈ pending, ∃ u c, uses u c ∧ c.address = a

namespace Owned

variable {uses uses' : User τ κ → Context α → Prop} {flag flag' : α → Option (Nat × Bool)}
  {pending pending' : List α} {u₀ : User τ κ} {c₀ : Context α}

/-- Two requests have different tokens at different addresses. -/
theorem eq_of_address (h : Owned uses flag pending) {u u' : User τ κ} {c c' : Context α}
    (hu : uses u c) (hu' : uses u' c') (heq : c.address = c'.address) : u = u' ∧ c = c' := by
  apply h.alone u u' c c' hu hu'
  have hflag := (h.flagged u c hu).symm.trans (heq ▸ h.flagged u' c' hu')
  exact (Prod.mk.inj (Option.some.inj hflag)).1

/-- Nobody goes on. -/
theorem congr (h : Owned uses flag pending) (huses : ∀ u c, uses' u c ↔ uses u c)
    (hflag : ∀ u c, uses u c → flag' c.address = flag c.address)
    (hpending : ∀ a, a ∈ pending' ↔ a ∈ pending) : Owned uses' flag' pending' where
  flagged u c hu := (hflag u c ((huses u c).mp hu)).trans (h.flagged u c ((huses u c).mp hu))
  listed u c hu := (hpending c.address).trans (h.listed u c ((huses u c).mp hu))
  alone u u' c c' hu hu' := h.alone u u' c c' ((huses u c).mp hu) ((huses u' c').mp hu')
  tracked a ha := by
    obtain ⟨u, c, hu, hc⟩ := h.tracked a ((hpending a).mp ha)
    exact ⟨u, c, (huses u c).mpr hu, hc⟩

/-- A request passes from one user to the next. -/
theorem move (h : Owned uses flag pending) (h₀ : uses u₀ c₀) (u₁ : User τ κ)
    (huses : ∀ u c, uses' u c ↔ (u = u₁ ∧ c = c₀) ∨ uses u c ∧ ¬ (u = u₀ ∧ c = c₀))
    (hflag₀ : flag' c₀.address = some (c₀.number, u₁.done))
    (hflag : ∀ u c, uses u c → c ≠ c₀ → flag' c.address = flag c.address)
    (hrank : 0 < u₁.rank) (hpending : ∀ a, a ∈ pending' ↔ a = c₀.address ∨ a ∈ pending) :
    Owned uses' flag' pending' := by
  have hother : ∀ {u c}, uses u c → ¬ (u = u₀ ∧ c = c₀) → c.number ≠ c₀.number := by
    intro u c hu hne heq
    exact hne (h.alone u u₀ c c₀ hu h₀ heq)
  constructor
  · intro u c hu
    obtain ⟨rfl, rfl⟩ | ⟨hu, hne⟩ := (huses u c).mp hu
    · exact hflag₀
    · have hc : c ≠ c₀ := fun heq => hother hu hne (heq ▸ rfl)
      exact (hflag u c hu hc).trans (h.flagged u c hu)
  · intro u c hu
    rw [hpending]
    obtain ⟨rfl, rfl⟩ | ⟨hu, hne⟩ := (huses u c).mp hu
    · exact iff_of_true (.inl rfl) hrank
    · have hc : c.address ≠ c₀.address := fun heq => hne (h.eq_of_address hu h₀ heq)
      exact (or_iff_right hc).trans (h.listed u c hu)
  · intro u u' c c' hu hu' heq
    obtain ⟨rfl, rfl⟩ | ⟨hu, hne⟩ := (huses u c).mp hu
    · obtain ⟨rfl, rfl⟩ | ⟨hu', hne'⟩ := (huses u' c').mp hu'
      · exact ⟨rfl, rfl⟩
      · exact absurd heq.symm (hother hu' hne')
    · obtain ⟨rfl, rfl⟩ | ⟨hu', hne'⟩ := (huses u' c').mp hu'
      · exact absurd heq (hother hu hne)
      · exact h.alone u u' c c' hu hu' heq
  · intro a ha
    obtain rfl | ha := (hpending a).mp ha
    · exact ⟨u₁, c₀, (huses u₁ c₀).mpr (.inl ⟨rfl, rfl⟩), rfl⟩
    · obtain ⟨u, c, hu, rfl⟩ := h.tracked a ha
      by_cases heq : u = u₀ ∧ c = c₀
      · obtain ⟨rfl, rfl⟩ := heq
        exact ⟨u₁, c, (huses u₁ c).mpr (.inl ⟨rfl, rfl⟩), rfl⟩
      · exact ⟨u, c, (huses u c).mpr (.inr ⟨hu, heq⟩), rfl⟩

/-- A request is over, and its token is not pending any more. -/
theorem leave (h : Owned uses flag pending) (h₀ : uses u₀ c₀)
    (huses : ∀ u c, uses' u c ↔ uses u c ∧ ¬ (u = u₀ ∧ c = c₀))
    (hflag : ∀ u c, uses u c → c ≠ c₀ → flag' c.address = flag c.address)
    (hpending : ∀ a, a ∈ pending' ↔ a ∈ pending ∧ a ≠ c₀.address) :
    Owned uses' flag' pending' := by
  have hother : ∀ {u c}, uses u c → ¬ (u = u₀ ∧ c = c₀) → c ≠ c₀ ∧ c.address ≠ c₀.address := by
    intro u c hu hne
    refine ⟨fun heq => ?_, fun heq => hne (h.eq_of_address hu h₀ heq)⟩
    exact hne (h.eq_of_address hu h₀ (congrArg Context.address heq))
  constructor
  · intro u c hu
    obtain ⟨hu, hne⟩ := (huses u c).mp hu
    exact (hflag u c hu (hother hu hne).1).trans (h.flagged u c hu)
  · intro u c hu
    obtain ⟨hu, hne⟩ := (huses u c).mp hu
    rw [hpending, and_iff_left (hother hu hne).2]
    exact h.listed u c hu
  · intro u u' c c' hu hu' heq
    exact h.alone u u' c c' ((huses u c).mp hu).1 ((huses u' c').mp hu').1 heq
  · intro a ha
    obtain ⟨ha, hne⟩ := (hpending a).mp ha
    obtain ⟨u, c, hu, rfl⟩ := h.tracked a ha
    refine ⟨u, c, (huses u c).mpr ⟨hu, ?_⟩, rfl⟩
    rintro ⟨-, rfl⟩
    exact hne rfl

/-- A new request, whose token is not pending yet. -/
theorem enter (h : Owned uses flag pending) (t : τ) (c₀ : Context α)
    (huses : ∀ u c, uses' u c ↔ (u = .adding t ∧ c = c₀) ∨ uses u c)
    (hflag₀ : flag' c₀.address = some (c₀.number, false))
    (hflag : ∀ u c, uses u c → flag' c.address = flag c.address)
    (hfree : c₀.address ∉ pending) (hfresh : ∀ u c, uses u c → c.number ≠ c₀.number) :
    Owned uses' flag' pending := by
  constructor
  · intro u c hu
    obtain ⟨rfl, rfl⟩ | hu := (huses u c).mp hu
    · exact hflag₀
    · exact (hflag u c hu).trans (h.flagged u c hu)
  · intro u c hu
    obtain ⟨rfl, rfl⟩ | hu := (huses u c).mp hu
    · exact iff_of_false hfree (Nat.lt_irrefl 0)
    · exact h.listed u c hu
  · intro u u' c c' hu hu' heq
    obtain ⟨rfl, rfl⟩ | hu := (huses u c).mp hu
    · obtain ⟨rfl, rfl⟩ | hu' := (huses u' c').mp hu'
      · exact ⟨rfl, rfl⟩
      · exact absurd heq.symm (hfresh u' c' hu')
    · obtain ⟨rfl, rfl⟩ | hu' := (huses u' c').mp hu'
      · exact absurd heq (hfresh u c hu)
      · exact h.alone u u' c c' hu hu' heq
  · intro a ha
    obtain ⟨u, c, hu, hc⟩ := h.tracked a ha
    exact ⟨u, c, (huses u c).mpr (.inr hu), hc⟩

end Owned

variable [DecidableEq τ] [DecidableEq κ] [DecidableEq α]

/-- The steps that meet no object that is gone and call no request back twice, one constructor
for each thing that can happen. -/
inductive Steps (s : State τ κ α) : Action τ κ α → State τ κ α → Prop where
  | made {t a kind listener} (hplace : s.place t = .idle) (hfree : s.heap.cells a = none) :
      Steps s (.make t a kind listener) ({ s with
        heap := s.heap.alloc a { kind, listener_ := listener }
        held := (.app t, a) :: s.held } |>.setPlace t (.adding ⟨a, s.heap.made⟩))
  | addedAction {t c} (hplace : s.place t = .adding c) :
      Steps s (.add t)
        ({ s with pendingTokens := s.pendingTokens ++ [c.address] }.setPlace t (.sending c))
  | addedDelivery {t c} (hplace : s.place t = .adding c) :
      Steps s (.add t)
        ({ s with pendingDeliveryTokens := s.pendingDeliveryTokens ++ [c.address] }.setPlace t
          (.sending c))
  | sent {t c msgid} (hplace : s.place t = .sending c) :
      Steps s (.send t (.ok msgid))
        ({ s with
          inFlight := c :: s.inFlight
          accepted := c :: s.accepted }.setPlace t (.sent c msgid))
  | refused {t c rc} (hplace : s.place t = .sending c) :
      Steps s (.send t (.error rc)) (s.setPlace t (.removing c rc))
  | returned {t c msgid} (hplace : s.place t = .sent c msgid) :
      Steps s (.return t) (s.setPlace t .idle)
  | published {t c msgid} (hplace : s.place t = .sent c msgid) :
      Steps s (.return t) ({ s with
        heap := s.heap.modify c.address fun p => { p with tok_ := msgid } }.setPlace t .idle)
  | withdrawn {t c rc} (hplace : s.place t = .removing c rc) :
      Steps s (.remove t)
        (((s.removeToken c.address).release c.address).setPlace t (.throwing c rc))
  | thrown {t c rc} (hplace : s.place t = .throwing c rc) :
      Steps s (.throw t)
        (({ s with held := s.held.erase (.app t, c.address) }.release c.address).setPlace t .idle)
  | called {k c answer} (hcallback : s.callback k = .idle) (hmem : c ∈ s.inFlight) :
      Steps s (.call k c answer)
        ({ s with inFlight := s.inFlight.erase c }.setCallback k (.called c answer))
  | completed {k c answer p} (hcallback : s.callback k = .called c answer)
      (hget : s.heap.get c.address = some p) :
      Steps s (.complete k) ({ s with
        heap := s.heap.modify c.address (·.answered answer) }.setCallback k
          (.completed c p.listener_))
  | listened {k c listener} (hcallback : s.callback k = .completed c listener) :
      Steps s (.listen k) (s.setCallback k (.notifying c))
  | notified {k c} (hcallback : s.callback k = .notifying c) :
      Steps s (.notify k) (s.setCallback k (.removing c))
  | delivering {k c} (hcallback : s.callback k = .removing c)
      (hdelivers : s.delivers c.address = true) :
      Steps s (.removed k) ({ s.removeToken c.address with
        held := (.library k, c.address) :: s.held }.setCallback k (.delivering c))
  | removed {k c} (hcallback : s.callback k = .removing c)
      (hdelivers : s.delivers c.address = false) :
      Steps s (.removed k) (((s.removeToken c.address).release c.address).setCallback k .idle)
  | delivered {k c} (hcallback : s.callback k = .delivering c) :
      Steps s (.delivered k)
        (({ s with held := s.held.erase (.library k, c.address) }.release c.address).setCallback k
          .idle)
  | waited {t a timedOut p} (hplace : s.place t = .idle) (hheld : (.app t, a) ∈ s.held)
      (hget : s.heap.get a = some p) (hcomplete : p.complete_ = !timedOut) :
      Steps s (.wait t a timedOut) s
  | shared {h a t} (hheld : (h, a) ∈ s.held) :
      Steps s (.share h a t) { s with held := (.app t, a) :: s.held }
  | found {t msgID a p} (hmem : a ∈ s.pendingDeliveryTokens) (hget : s.heap.get a = some p)
      (htok : p.tok_ = msgID) :
      Steps s (.find t msgID) { s with held := (.app t, a) :: s.held }
  | notFound {t msgID} : Steps s (.find t msgID) s
  | dropped {t a} (hplace : s.place t = .idle) (hheld : (.app t, a) ∈ s.held) :
      Steps s (.drop t a) ({ s with held := s.held.erase (.app t, a) }.release a)
  | setCallback : Steps s .setCallback { s with userCallback := true }

omit [DecidableEq α] in
/-- The number of the token at an address, and whether it is complete. -/
def flag (h : Heap α Token) (a : α) : Option (Nat × Bool) :=
  (h.cells a).map fun x => (x.1, x.2.complete_)

omit [DecidableEq τ] [DecidableEq κ] [DecidableEq α] in
/-- What holds in every state. -/
structure Inv (s : State τ κ α) : Prop where
  owned : Owned s.Uses (flag s.heap) s.pending
  heap : s.heap.Wf s.refs
  tame : s.wild = false
  nodup : s.pending.Nodup
  flying : s.inFlight.Nodup
  framed : ∀ t c, (s.place t).context = some c →
    s.heap.At c.address c.number ∧ (.app t, c.address) ∈ s.held
  delivered : ∀ k c, s.callback k = .delivering c → (.library k, c.address) ∈ s.held

section Access

omit [DecidableEq τ] [DecidableEq κ] [DecidableEq α]

variable {s : State τ κ α} {c : Context α}

theorem Inv.exists_get (hi : Inv s) {a : α} (ha : a ∈ s.refs) : ∃ p, s.heap.get a = some p := by
  obtain ⟨n, hn⟩ := hi.heap.exists_at ha
  obtain ⟨p, -, hp⟩ := hn.exists_get
  exact ⟨p, hp⟩

theorem mem_refs_of_held {h : Thread τ κ} {a : α} (hheld : (h, a) ∈ s.held) : a ∈ s.refs :=
  List.mem_append_right _ (List.mem_map_of_mem hheld)

theorem mem_refs_of_pending {a : α} (ha : a ∈ s.pending) : a ∈ s.refs :=
  List.mem_append_left _ ha

/-- The token of a request that the library goes on with is there. -/
theorem Inv.get_of_use (hi : Inv s) {k : κ} {u : User τ κ}
    (huse : (s.callback k).use k = some (u, c)) : ∃ p, s.heap.get c.address = some p := by
  have hrank : 0 < u.rank := by
    cases hcallback : s.callback k <;> rw [hcallback] at huse <;> cases huse <;>
      exact Nat.succ_pos _
  have hpending := (hi.owned.listed u c (.inr (.inl ⟨k, huse⟩))).mpr hrank
  exact hi.exists_get (mem_refs_of_pending hpending)

theorem access_eq {a : α} {p : Token} (hget : s.heap.get a = some p)
    (use : Token → State τ κ α) : s.access a use = use p := by
  rw [State.access, hget]

end Access

variable {s s' : State τ κ α} {act : Action τ κ α}

theorem steps_of_request (hi : Inv s) (h : stepRequest s act = some s') : Steps s act s' := by
  cases act with
  | make t a kind listener =>
      simp only [stepRequest] at h
      split at h
      · next hplace hfree =>
        cases h
        exact .made hplace hfree
      · cases h
  | add t =>
      simp only [stepRequest] at h
      split at h
      · next c hplace =>
        obtain ⟨-, hheld⟩ := hi.framed t c (by rw [hplace]; rfl)
        obtain ⟨p, hget⟩ := hi.exists_get (mem_refs_of_held hheld)
        rw [access_eq hget] at h
        split at h
        · cases h
          exact .addedAction hplace
        · cases h
          exact .addedDelivery hplace
      · cases h
  | send t result =>
      simp only [stepRequest] at h
      split at h
      · next hplace =>
        cases h
        exact .sent hplace
      · next hplace =>
        cases h
        exact .refused hplace
      · cases h
  | «return» t =>
      simp only [stepRequest] at h
      split at h
      · next c msgid hplace =>
        obtain ⟨-, hheld⟩ := hi.framed t c (by rw [hplace]; rfl)
        obtain ⟨p, hget⟩ := hi.exists_get (mem_refs_of_held hheld)
        rw [access_eq hget] at h
        split at h
        · cases h
          exact .returned hplace
        · cases h
          exact .published hplace
      · cases h
  | remove t =>
      simp only [stepRequest] at h
      split at h
      · next hplace =>
        cases h
        exact .withdrawn hplace
      · cases h
  | throw t =>
      simp only [stepRequest] at h
      split at h
      · next hplace =>
        cases h
        exact .thrown hplace
      · cases h
  | _ => cases h

theorem steps_of_callback (hi : Inv s) (honce : Once s act) (h : stepCallback s act = some s') :
    Steps s act s' := by
  cases act with
  | call k c answer =>
      simp only [stepCallback] at h
      split at h
      · next hcallback =>
        split_ifs at h
        cases h
        exact .called hcallback honce
      · cases h
  | complete k =>
      simp only [stepCallback] at h
      split at h
      · next c answer hcallback =>
        obtain ⟨p, hget⟩ := hi.get_of_use (k := k) (by rw [hcallback]; rfl)
        rw [access_eq hget] at h
        cases h
        exact .completed hcallback hget
      · cases h
  | listen k =>
      simp only [stepCallback] at h
      split at h
      · next hcallback =>
        cases h
        exact .listened hcallback
      · cases h
  | notify k =>
      simp only [stepCallback] at h
      split at h
      · next c hcallback =>
        obtain ⟨p, hget⟩ := hi.get_of_use (k := k) (by rw [hcallback]; rfl)
        rw [access_eq hget] at h
        cases h
        exact .notified hcallback
      · cases h
  | removed k =>
      simp only [stepCallback] at h
      split at h
      · next c hcallback =>
        obtain ⟨p, hget⟩ := hi.get_of_use (k := k) (by rw [hcallback]; rfl)
        rw [access_eq hget] at h
        split_ifs at h with hdelivers
        · cases h
          exact .delivering hcallback hdelivers
        · cases h
          exact .removed hcallback (eq_false_of_ne_true hdelivers)
      · cases h
  | delivered k =>
      simp only [stepCallback] at h
      split at h
      · next hcallback =>
        cases h
        exact .delivered hcallback
      · cases h
  | _ => cases h

omit [DecidableEq τ] [DecidableEq κ] [DecidableEq α] in
/-- The search comes to a token with the id, or to none. -/
theorem find_cases {t : τ} {msgID : Int} {rest : List α}
    (hlive : ∀ a ∈ rest, ∃ p, s.heap.get a = some p) :
    s.find t msgID rest = s ∨ ∃ a ∈ rest, (∃ p, s.heap.get a = some p ∧ p.tok_ = msgID) ∧
      s.find t msgID rest = { s with held := (.app t, a) :: s.held } := by
  induction rest with
  | nil => exact .inl rfl
  | cons a rest ih =>
      obtain ⟨⟨p, hget⟩, hrest⟩ := List.forall_mem_cons.mp hlive
      rw [State.find, access_eq hget]
      split_ifs with htok
      · exact .inr ⟨a, List.mem_cons_self, ⟨p, hget, htok⟩, rfl⟩
      · obtain h | ⟨b, hb, hp, h⟩ := ih hrest
        · exact .inl h
        · exact .inr ⟨b, List.mem_cons_of_mem a hb, hp, h⟩

theorem steps_of_holder (hi : Inv s) (h : stepHolder s act = some s') : Steps s act s' := by
  cases act with
  | wait t a timedOut =>
      simp only [stepHolder] at h
      split at h
      · next p hplace hget =>
        split_ifs at h with hwait
        cases h
        exact .waited hplace hwait.1 hget hwait.2
      · next hplace hget =>
        split_ifs at h with hheld
        obtain ⟨p, hp⟩ := hi.exists_get (mem_refs_of_held hheld)
        rw [hget] at hp
        cases hp
      · cases h
  | share holder a t =>
      simp only [stepHolder] at h
      split_ifs at h with hheld
      cases h
      exact .shared hheld
  | find t msgID =>
      simp only [stepHolder] at h
      split at h
      · split_ifs at h
        · cases h
          have hlive : ∀ a ∈ s.pendingDeliveryTokens, ∃ p, s.heap.get a = some p := fun a ha =>
            hi.exists_get (mem_refs_of_pending (List.mem_append_right _ ha))
          obtain hfind | ⟨a, ha, ⟨p, hget, htok⟩, hfind⟩ := find_cases (t := t) hlive
          · rw [hfind]
            exact .notFound
          · rw [hfind]
            exact .found ha hget htok
        · cases h
          exact .notFound
      · cases h
  | drop t a =>
      simp only [stepHolder] at h
      split at h
      · next hplace =>
        split_ifs at h with hheld
        cases h
        exact .dropped hplace hheld
      · cases h
  | setCallback =>
      cases h
      exact .setCallback
  | _ => cases h

/-- Everything a step can do, from a state in which all pointers are good. -/
theorem steps_of_step (hi : Inv s) (honce : Once s act)
    (h : (machine (τ := τ)).step s act = some s') : Steps s act s' := by
  cases act with
  | make | add | send | «return» | remove | throw => exact steps_of_request hi h
  | call | complete | listen | notify | removed | delivered => exact steps_of_callback hi honce h
  | wait | share | find | drop | setCallback => exact steps_of_holder hi h

end Tokens
