import WatsonIotp.Concurrency.TokenLife

/-!
# Every step keeps the tokens in order

One lemma for each way on: a request is made, listed, accepted or refused, a callback is made
and takes its steps, and pointers come and go. `Inv.step` puts them together.
-/

namespace Tokens

variable {τ κ α : Type} [DecidableEq τ] [DecidableEq κ] [DecidableEq α] {s s' : State τ κ α}

/-! ### How the use of tokens changes -/

section Use

omit [DecidableEq τ] [DecidableEq κ] [DecidableEq α]

variable {u u₀ u₁ : User τ κ} {c c₀ : Context α} {P : Prop}

theorem use_moved : (some (u₁, c₀) = some (u, c) ∨ P ∧ some (u₀, c₀) ≠ some (u, c)) ↔
    (u = u₁ ∧ c = c₀) ∨ P ∧ ¬ (u = u₀ ∧ c = c₀) := by
  simp only [Option.some.injEq, Prod.mk.injEq, ne_eq, eq_comm]

theorem use_left : (none = some (u, c) ∨ P ∧ some (u₀, c₀) ≠ some (u, c)) ↔
    P ∧ ¬ (u = u₀ ∧ c = c₀) := by
  simp only [reduceCtorEq, false_or, Option.some.injEq, Prod.mk.injEq, ne_eq, eq_comm]

theorem use_entered : (some (u₁, c₀) = some (u, c) ∨ P ∧ none ≠ some (u, c)) ↔
    (u = u₁ ∧ c = c₀) ∨ P := by
  simp only [Option.some.injEq, Prod.mk.injEq, ne_eq, reduceCtorEq, not_false_eq_true, and_true,
    eq_comm]

theorem use_kept : (none = some (u, c) ∨ P ∧ none ≠ some (u, c)) ↔ P := by
  simp only [reduceCtorEq, false_or, ne_eq, not_false_eq_true, and_true]

theorem uses_cons : ({ s with inFlight := c₀ :: s.inFlight } : State τ κ α).Uses u c ↔
    (u = .library ∧ c = c₀) ∨ s.Uses u c := by
  simp only [State.Uses, List.mem_cons]
  tauto

end Use

omit [DecidableEq τ] [DecidableEq κ] in
theorem uses_erase {u : User τ κ} {c c₀ : Context α} (hflying : s.inFlight.Nodup) :
    ({ s with inFlight := s.inFlight.erase c₀ } : State τ κ α).Uses u c ↔
      s.Uses u c ∧ ¬ (u = .library ∧ c = c₀) := by
  simp only [State.Uses, hflying.mem_erase_iff]
  constructor
  · rintro (⟨t, h⟩ | ⟨k, h⟩ | ⟨rfl, hne, h⟩)
    · exact ⟨.inl ⟨t, h⟩, fun hu => Place.use_ne_library (hu.1 ▸ h)⟩
    · exact ⟨.inr (.inl ⟨k, h⟩), fun hu => Callback.use_ne_library (hu.1 ▸ h)⟩
    · exact ⟨.inr (.inr ⟨rfl, h⟩), fun hu => hne hu.2⟩
  · rintro ⟨⟨t, h⟩ | ⟨k, h⟩ | ⟨rfl, h⟩, hne⟩
    · exact .inl ⟨t, h⟩
    · exact .inr (.inl ⟨k, h⟩)
    · exact .inr (.inr ⟨rfl, fun heq => hne ⟨rfl, heq⟩, h⟩)

/-- What the frame of a call needs: its token, and a pointer to it. -/
def Framed (s : State τ κ α) (t : τ) (p : Place α) : Prop :=
  ∀ c, p.context = some c → s.heap.At c.address c.number ∧ (.app t, c.address) ∈ s.held

omit [DecidableEq κ] [DecidableEq α] in
theorem framed_setPlace {t : τ} {p : Place α} (hself : Framed s t p)
    (hother : ∀ t', t' ≠ t → Framed s t' (s.place t')) (t' : τ) :
    Framed s t' ((s.setPlace t p).place t') := by
  rw [State.place_setPlace]
  split_ifs with heq
  · exact heq ▸ hself
  · exact hother t' heq

section Kept

omit [DecidableEq τ] [DecidableEq κ] [DecidableEq α]

/-- The token of a request, as far as it has come. -/
theorem Inv.cells_of_use (hi : Inv s) {u : User τ κ} {c : Context α} (hu : s.Uses u c) :
    ∃ p, s.heap.cells c.address = some (c.number, p) ∧ p.complete_ = u.done := by
  obtain ⟨⟨n, p⟩, hcells, heq⟩ := Option.map_eq_some_iff.mp (hi.owned.flagged u c hu)
  obtain ⟨rfl, hdone⟩ := Prod.mk.inj heq
  exact ⟨p, hcells, hdone⟩

theorem Inv.at_of_use (hi : Inv s) {u : User τ κ} {c : Context α} (hu : s.Uses u c) :
    s.heap.At c.address c.number := by
  obtain ⟨p, hcells, -⟩ := hi.cells_of_use hu
  rw [Heap.At, Heap.number, hcells]
  rfl

/-- The token of a request is referred to. -/
theorem Inv.mem_refs_of_use (hi : Inv s) {u : User τ κ} {c : Context α} (hu : s.Uses u c) :
    c.address ∈ s.refs := hi.heap.mem_of_at (hi.at_of_use hu)

theorem flag_eq {h h' : Heap α Token} {a : α} (hcells : h'.cells a = h.cells a) :
    flag h' a = flag h a := congrArg (Option.map _) hcells

end Kept

omit [DecidableEq κ] in
/-- A request makes its token. -/
theorem Inv.made (hi : Inv s) {t : τ} {a : α} {kind : Kind} {listener : Bool}
    (hplace : s.place t = .idle) (hfree : s.heap.cells a = none) :
    Inv ({ s with
      heap := s.heap.alloc a { kind, listener_ := listener }
      held := (.app t, a) :: s.held } |>.setPlace t (.adding ⟨a, s.heap.made⟩)) where
  owned := by
    apply hi.owned.enter t ⟨a, s.heap.made⟩
    · intro u c
      rw [uses_setPlace]
      change _ ∨ s.Uses u c ∧ (s.place t).use t ≠ _ ↔ _
      rw [hplace]
      exact use_entered
    · exact congrArg (Option.map _) ((Heap.cells_alloc _ a).trans (if_pos rfl))
    · intro u c hu
      have hne : c.address ≠ a := by
        rintro rfl
        obtain ⟨p, hcells, -⟩ := hi.cells_of_use hu
        rw [hfree] at hcells
        cases hcells
      exact flag_eq ((Heap.cells_alloc _ _).trans (if_neg hne))
    · intro ha
      have hlive := (hi.heap.live a).mpr (mem_refs_of_pending ha)
      rw [hfree] at hlive
      cases hlive
    · intro u c hu heq
      have hlt := hi.heap.lt _ _ (hi.at_of_use hu)
      rw [heq] at hlt
      exact Nat.lt_irrefl _ hlt
  heap := by
    apply hi.heap.alloc
    intro x
    simp only [State.refs, State.pending, State.setPlace, List.map_cons, List.mem_append,
      List.mem_cons]
    tauto
  tame := hi.tame
  nodup := hi.nodup
  flying := hi.flying
  framed := by
    apply framed_setPlace
    · rintro c ⟨⟩
      exact ⟨Heap.at_alloc_self _, List.mem_cons_self⟩
    · intro t' _ c hc
      obtain ⟨hat, hheld⟩ := hi.framed t' c hc
      exact ⟨hat.alloc _ hfree, List.mem_cons_of_mem _ hheld⟩
  delivered k c h := List.mem_cons_of_mem _ (hi.delivered k c h)

omit [DecidableEq κ] [DecidableEq α] in
/-- `add_token`, to the one list or the other. -/
theorem Inv.added (hi : Inv s) {t : τ} {c : Context α} (hplace : s.place t = .adding c)
    {pendingTokens pendingDeliveryTokens : List α}
    (hperm : (pendingTokens ++ pendingDeliveryTokens).Perm (c.address :: s.pending)) :
    Inv ({ s with pendingTokens, pendingDeliveryTokens }.setPlace t (.sending c)) := by
  have huse : (s.place t).use t = some ((.adding t : User τ κ), c) := by
    rw [hplace]
    rfl
  have huses : s.Uses (.adding t) c := .inl ⟨t, huse⟩
  have hmem : ∀ a, a ∈ pendingTokens ++ pendingDeliveryTokens ↔ a = c.address ∨ a ∈ s.pending :=
    fun a => hperm.mem_iff.trans List.mem_cons
  obtain ⟨hat, hheld⟩ := hi.framed t c (by rw [hplace]; rfl)
  constructor
  · apply hi.owned.move huses (.sending t)
    · intro u c'
      rw [uses_setPlace]
      change _ ∨ s.Uses u c' ∧ (s.place t).use t ≠ _ ↔ _
      rw [huse]
      exact use_moved
    · exact hi.owned.flagged (.adding t) c huses
    · exact fun _ _ _ _ => rfl
    · exact Nat.succ_pos 0
    · exact hmem
  · apply hi.heap.congr
    intro a
    change a ∈ (pendingTokens ++ pendingDeliveryTokens) ++ s.held.map Prod.snd ↔ a ∈ s.refs
    rw [List.mem_append, hmem, State.refs, List.mem_append]
    constructor
    · rintro ((rfl | ha) | ha)
      · exact .inr (List.mem_map_of_mem hheld)
      · exact .inl ha
      · exact .inr ha
    · rintro (ha | ha)
      · exact .inl (.inr ha)
      · exact .inr ha
  · exact hi.tame
  · apply hperm.nodup_iff.mpr
    refine List.nodup_cons.mpr ⟨fun ha => ?_, hi.nodup⟩
    exact Nat.lt_irrefl 0 ((hi.owned.listed _ c huses).mp ha)
  · exact hi.flying
  · apply framed_setPlace
    · rintro _ ⟨⟩
      exact ⟨hat, hheld⟩
    · exact fun t' _ => hi.framed t'
  · exact hi.delivered

omit [DecidableEq κ] [DecidableEq α] in
/-- The library accepts the request. -/
theorem Inv.sent (hi : Inv s) {t : τ} {c : Context α} {msgid : Int}
    (hplace : s.place t = .sending c) :
    Inv ({ s with
      inFlight := c :: s.inFlight
      accepted := c :: s.accepted }.setPlace t (.sent c msgid)) := by
  have huse : (s.place t).use t = some ((.sending t : User τ κ), c) := by
    rw [hplace]
    rfl
  have huses : s.Uses (.sending t) c := .inl ⟨t, huse⟩
  constructor
  · apply hi.owned.move huses .library
    · intro u c'
      rw [uses_setPlace]
      change _ ∨ State.Uses { s with inFlight := c :: s.inFlight } u c' ∧ (s.place t).use t ≠ _ ↔ _
      rw [huse, Place.use, use_left, uses_cons, or_and_right]
      refine or_congr_left ⟨And.left, ?_⟩
      rintro ⟨rfl, rfl⟩
      exact ⟨⟨rfl, rfl⟩, fun h => (by cases h.1)⟩
    · exact hi.owned.flagged (.sending t) c huses
    · exact fun _ _ _ _ => rfl
    · exact Nat.succ_pos 1
    · intro a
      refine (or_iff_right_of_imp ?_).symm
      rintro rfl
      exact (hi.owned.listed _ c huses).mpr (Nat.succ_pos 0)
  · exact hi.heap
  · exact hi.tame
  · exact hi.nodup
  · refine List.nodup_cons.mpr ⟨fun hmem => ?_, hi.flying⟩
    cases (hi.owned.alone _ _ c c huses (.inr (.inr ⟨rfl, hmem⟩)) rfl).1
  · apply framed_setPlace
    · rintro _ ⟨⟩
      exact hi.framed t c (by rw [hplace]; rfl)
    · exact fun t' _ => hi.framed t'
  · exact hi.delivered

omit [DecidableEq κ] [DecidableEq α] in
/-- The library does not accept the request. -/
theorem Inv.refused (hi : Inv s) {t : τ} {c : Context α} {rc : Int}
    (hplace : s.place t = .sending c) : Inv (s.setPlace t (.removing c rc)) := by
  have huse : (s.place t).use t = some ((.sending t : User τ κ), c) := by
    rw [hplace]
    rfl
  have huses : s.Uses (.sending t) c := .inl ⟨t, huse⟩
  constructor
  · apply hi.owned.move huses (.removing t)
    · intro u c'
      rw [uses_setPlace, huse]
      exact use_moved
    · exact hi.owned.flagged (.sending t) c huses
    · exact fun _ _ _ _ => rfl
    · exact Nat.succ_pos 1
    · intro a
      refine (or_iff_right_of_imp ?_).symm
      rintro rfl
      exact (hi.owned.listed _ c huses).mpr (Nat.succ_pos 0)
  · exact hi.heap
  · exact hi.tame
  · exact hi.nodup
  · exact hi.flying
  · apply framed_setPlace
    · rintro _ ⟨⟩
      exact hi.framed t c (by rw [hplace]; rfl)
    · exact fun t' _ => hi.framed t'
  · exact hi.delivered

omit [DecidableEq κ] [DecidableEq α] in
/-- A call is over, as far as the token is concerned. -/
theorem Inv.idle (hi : Inv s) {t : τ}
    (hplace : (s.place t).use t = (none : Option (User τ κ × _))) : Inv (s.setPlace t .idle) where
  owned := by
    apply hi.owned.congr
    · intro u c
      rw [uses_setPlace, hplace]
      exact use_kept
    · exact fun _ _ _ => rfl
    · exact fun _ => Iff.rfl
  heap := hi.heap
  tame := hi.tame
  nodup := hi.nodup
  flying := hi.flying
  framed := framed_setPlace (by rintro _ ⟨⟩) fun t' _ => hi.framed t'
  delivered := hi.delivered

omit [DecidableEq τ] [DecidableEq κ] in
/-- A token is changed, but not its result. -/
theorem Inv.modified (hi : Inv s) (a : α) {f : Token → Token}
    (hf : ∀ p, (f p).complete_ = p.complete_) : Inv { s with heap := s.heap.modify a f } where
  owned := by
    apply hi.owned.congr
    · exact fun _ _ => Iff.rfl
    · intro u c _
      change Option.map _ ((s.heap.modify a f).cells c.address) = _
      rw [Heap.cells_modify, flag]
      split_ifs with heq
      · rw [heq, Option.map_map]
        exact congrArg (Option.map · _) (funext fun x => Prod.ext rfl (hf x.2))
      · rfl
    · exact fun _ => Iff.rfl
  heap := hi.heap.modify f
  tame := hi.tame
  nodup := hi.nodup
  flying := hi.flying
  framed t c hc := ⟨(Heap.at_modify f).mpr (hi.framed t c hc).1, (hi.framed t c hc).2⟩
  delivered := hi.delivered

omit [DecidableEq τ] [DecidableEq κ] [DecidableEq α] in
/-- A pointer is copied. -/
theorem Inv.copied (hi : Inv s) (h : Thread τ κ) {a : α} (ha : a ∈ s.refs) :
    Inv { s with held := (h, a) :: s.held } where
  owned := hi.owned.congr (fun _ _ => Iff.rfl) (fun _ _ _ => rfl) fun _ => Iff.rfl
  heap := by
    apply hi.heap.congr
    intro x
    simp only [State.refs, State.pending, List.map_cons, List.mem_append, List.mem_cons] at ha ⊢
    constructor
    · rintro (hx | rfl | hx)
      · exact .inl hx
      · exact ha
      · exact .inr hx
    · rintro (hx | hx)
      · exact .inl hx
      · exact .inr (.inr hx)
  tame := hi.tame
  nodup := hi.nodup
  flying := hi.flying
  framed t c hc := ⟨(hi.framed t c hc).1, List.mem_cons_of_mem _ (hi.framed t c hc).2⟩
  delivered k c hc := List.mem_cons_of_mem _ (hi.delivered k c hc)

/-- A pointer that no frame needs goes, and the token with it if it was the last. -/
theorem Inv.dropped (hi : Inv s) (x : Thread τ κ × α)
    (hframe : ∀ t c, (s.place t).context = some c → (.app t, c.address) ≠ x)
    (hdelivering : ∀ k c, s.callback k = .delivering c → (.library k, c.address) ≠ x) :
    Inv ({ s with held := s.held.erase x }.release x.2) := by
  have hframed : ∀ t c, (s.place t).context = some c → (.app t, c.address) ∈ s.held.erase x :=
    fun t c hc => (List.mem_erase_of_ne (hframe t c hc)).mpr (hi.framed t c hc).2
  have huse : ∀ u c, s.Uses u c →
      c.address ∈ ({ s with held := s.held.erase x } : State τ κ α).refs := by
    intro u c hu
    by_cases hrank : 0 < u.rank
    · exact List.mem_append_left _ ((hi.owned.listed u c hu).mpr hrank)
    · obtain ⟨t, ht⟩ | ⟨k, hk⟩ | ⟨rfl, -⟩ := hu
      · refine List.mem_append_right _ (List.mem_map_of_mem (hframed t c ?_))
        cases hplace : s.place t <;> rw [hplace] at ht <;> cases ht <;> rfl
      · cases hcallback : s.callback k <;> rw [hcallback] at hk <;> cases hk <;>
          exact absurd (Nat.succ_pos _) hrank
      · exact absurd (Nat.succ_pos _) hrank
  constructor
  · apply hi.owned.congr
    · exact fun _ _ => Iff.rfl
    · exact fun u c hu => flag_eq (Heap.cells_release_of_mem (huse u c hu))
    · exact fun _ => Iff.rfl
  · apply hi.heap.release
    · intro a ha
      simp only [State.refs, List.mem_append, List.mem_map] at ha ⊢
      exact ha.imp_right fun ⟨y, hy, heq⟩ => ⟨y, List.mem_of_mem_erase hy, heq⟩
    · intro a hne ha
      simp only [State.refs, List.mem_append, List.mem_map] at ha ⊢
      refine ha.imp_right fun ⟨y, hy, heq⟩ => ⟨y, (List.mem_erase_of_ne ?_).mpr hy, heq⟩
      rintro rfl
      exact hne heq.symm
  · exact hi.tame
  · exact hi.nodup
  · exact hi.flying
  · intro t c hc
    have hmem := hframed t c hc
    exact ⟨(hi.framed t c hc).1.release (mem_refs_of_held hmem), hmem⟩
  · exact fun k c hc => (List.mem_erase_of_ne (hdelivering k c hc)).mpr (hi.delivered k c hc)

section Remove

omit [DecidableEq τ] [DecidableEq κ]

theorem pending_removeToken (hnodup : s.pending.Nodup) (a : α) :
    (s.removeToken a).pending = s.pending.erase a := by
  unfold State.removeToken
  split_ifs with hmem
  · have hnot : a ∉ s.pendingTokens := fun ha => (List.nodup_append.mp hnodup).2.2 a ha a hmem rfl
    exact (List.erase_append_right _ hnot).symm
  · by_cases ha : a ∈ s.pendingTokens
    · exact (List.erase_append_left _ ha).symm
    · change s.pendingTokens.erase a ++ _ = _
      rw [List.erase_of_not_mem ha, List.erase_of_not_mem]
      · rfl
      · exact List.not_mem_append ha hmem

theorem heap_removeToken (s : State τ κ α) (a : α) : (s.removeToken a).heap = s.heap := by
  unfold State.removeToken
  split <;> rfl

theorem held_removeToken (s : State τ κ α) (a : α) : (s.removeToken a).held = s.held := by
  unfold State.removeToken
  split <;> rfl

theorem uses_removeToken (a : α) {u : User τ κ} {c : Context α} :
    (s.removeToken a).Uses u c ↔ s.Uses u c := by
  unfold State.removeToken
  split <;> rfl

/-- What `remove_token` leaves of the pointers. -/
theorem mem_refs_removeToken (hi : Inv s) {a x : α} :
    x ∈ (s.removeToken a).refs ↔ (x ∈ s.pending ∧ x ≠ a) ∨ x ∈ s.held.map Prod.snd := by
  rw [State.refs, pending_removeToken hi.nodup, held_removeToken, List.mem_append,
    hi.nodup.mem_erase_iff, and_comm]

/-- Objects that other requests use stay when a token is removed. -/
theorem Inv.flag_removed (hi : Inv s) {u₀ u : User τ κ} {c₀ c : Context α} (h₀ : s.Uses u₀ c₀)
    (hu : s.Uses u c) (hne : c ≠ c₀) :
    flag ((s.removeToken c₀.address).release c₀.address).heap c.address =
      flag s.heap c.address := by
  have haddress : c.address ≠ c₀.address := fun heq => hne (hi.owned.eq_of_address hu h₀ heq).2
  have hmem : c.address ∈ (s.removeToken c₀.address).refs := by
    rw [mem_refs_removeToken hi]
    exact (List.mem_append.mp (hi.mem_refs_of_use hu)).imp_left fun h => ⟨h, haddress⟩
  rw [flag_eq (h := s.heap)]
  rw [← heap_removeToken s c₀.address]
  exact Heap.cells_release_of_mem hmem

theorem Inv.heap_removed (hi : Inv s) (a : α) :
    ((s.removeToken a).release a).heap.Wf ((s.removeToken a).release a).refs := by
  have hw : (s.removeToken a).heap.Wf s.refs := (heap_removeToken s a).symm ▸ hi.heap
  apply hw.release
  · intro x hx
    exact List.mem_append.mpr (((mem_refs_removeToken hi).mp hx).imp_left And.left)
  · intro x hne hx
    exact (mem_refs_removeToken hi).mpr ((List.mem_append.mp hx).imp_left fun h => ⟨h, hne⟩)

/-- A frame keeps its token when tokens are removed. -/
theorem Inv.framed_removed (hi : Inv s) (a : α) {t : τ} {c : Context α}
    (hc : (s.place t).context = some c) :
    ((s.removeToken a).release a).heap.At c.address c.number ∧
      (.app t, c.address) ∈ ((s.removeToken a).release a).held := by
  obtain ⟨hat, hheld⟩ := hi.framed t c hc
  refine ⟨?_, (held_removeToken s a).symm ▸ hheld⟩
  have hat' : (s.removeToken a).heap.At c.address c.number := (heap_removeToken s a).symm ▸ hat
  exact hat'.release ((mem_refs_removeToken hi).mpr (.inr (List.mem_map_of_mem hheld)))

end Remove

omit [DecidableEq τ] [DecidableEq κ] in
/-- What is left of the other requests when a token is removed. -/
theorem Inv.owned_removed (hi : Inv s) {u₀ : User τ κ} {c₀ : Context α} (h₀ : s.Uses u₀ c₀)
    {uses' : User τ κ → Context α → Prop}
    (huses : ∀ u c, uses' u c ↔ s.Uses u c ∧ ¬ (u = u₀ ∧ c = c₀)) :
    Owned uses' (flag ((s.removeToken c₀.address).release c₀.address).heap)
      ((s.removeToken c₀.address).release c₀.address).pending := by
  apply hi.owned.leave h₀ huses
  · exact fun u c hu hne => hi.flag_removed h₀ hu hne
  · intro a
    change a ∈ (s.removeToken c₀.address).pending ↔ _
    rw [pending_removeToken hi.nodup, hi.nodup.mem_erase_iff, and_comm]

omit [DecidableEq τ] [DecidableEq κ] in
theorem Inv.nodup_removed (hi : Inv s) (a : α) : ((s.removeToken a).release a).pending.Nodup := by
  change (s.removeToken a).pending.Nodup
  rw [pending_removeToken hi.nodup]
  exact hi.nodup.erase a

omit [DecidableEq τ] [DecidableEq κ] in
/-- What `remove_token` does not touch. -/
theorem removeToken_frame (s : State τ κ α) (a : α) :
    (s.removeToken a).wild = s.wild ∧ (s.removeToken a).inFlight = s.inFlight ∧
      (s.removeToken a).place = s.place ∧ (s.removeToken a).callback = s.callback := by
  unfold State.removeToken
  split <;> exact ⟨rfl, rfl, rfl, rfl⟩

omit [DecidableEq κ] in
/-- A request that was not accepted removes its token. -/
theorem Inv.withdrawn (hi : Inv s) {t : τ} {c : Context α} {rc : Int}
    (hplace : s.place t = .removing c rc) :
    Inv (((s.removeToken c.address).release c.address).setPlace t (.throwing c rc)) := by
  obtain ⟨hwild, hinFlight, hplaces, hcallbacks⟩ := removeToken_frame s c.address
  have huse : (s.place t).use t = some ((.removing t : User τ κ), c) := by
    rw [hplace]
    rfl
  constructor
  · apply hi.owned_removed (.inl ⟨t, huse⟩)
    intro u c'
    rw [uses_setPlace]
    change _ ∨ (s.removeToken c.address).Uses u c' ∧
      ((s.removeToken c.address).place t).use t ≠ _ ↔ _
    rw [uses_removeToken, hplaces, huse]
    exact use_left
  · exact hi.heap_removed c.address
  · exact hwild.trans hi.tame
  · exact hi.nodup_removed c.address
  · exact hinFlight.symm ▸ hi.flying
  · apply framed_setPlace
    · rintro _ ⟨⟩
      exact hi.framed_removed c.address (by rw [hplace]; rfl)
    · intro t' _ c' hc'
      change ((s.removeToken c.address).place t').context = _ at hc'
      rw [hplaces] at hc'
      exact hi.framed_removed c.address hc'
  · intro k c' hc'
    change (s.removeToken c.address).callback k = _ at hc'
    rw [hcallbacks] at hc'
    exact (held_removeToken s c.address).symm ▸ hi.delivered k c' hc'

omit [DecidableEq τ] in
/-- A callback removes its token. -/
theorem Inv.removed (hi : Inv s) {k : κ} {c : Context α} {p : Callback α}
    (hcallback : s.callback k = .removing c) (hp : p.use k = (none : Option (User τ κ × _)))
    (hdelivering : ∀ c', p = .delivering c' → (.library k, c'.address) ∈ s.held) :
    Inv (((s.removeToken c.address).release c.address).setCallback k p) := by
  obtain ⟨hwild, hinFlight, hplaces, hcallbacks⟩ := removeToken_frame s c.address
  have huse : (s.callback k).use k = some ((.completing k : User τ κ), c) := by
    rw [hcallback]
    rfl
  constructor
  · apply hi.owned_removed (.inr (.inl ⟨k, huse⟩))
    intro u c'
    rw [uses_setCallback]
    change _ ∨ (s.removeToken c.address).Uses u c' ∧
      ((s.removeToken c.address).callback k).use k ≠ _ ↔ _
    rw [uses_removeToken, hcallbacks, huse, hp]
    exact use_left
  · exact hi.heap_removed c.address
  · exact hwild.trans hi.tame
  · exact hi.nodup_removed c.address
  · exact hinFlight.symm ▸ hi.flying
  · intro t c' hc'
    change ((s.removeToken c.address).place t).context = _ at hc'
    rw [hplaces] at hc'
    exact hi.framed_removed c.address hc'
  · intro k' c' hc'
    change _ ∈ (s.removeToken c.address).held
    rw [held_removeToken]
    rw [State.callback_setCallback] at hc'
    split_ifs at hc' with heq
    · exact heq ▸ hdelivering c' hc'
    · change (s.removeToken c.address).callback k' = _ at hc'
      rw [hcallbacks] at hc'
      exact hi.delivered k' c' hc'

omit [DecidableEq τ] [DecidableEq α] in
/-- What a callback keeps for `delivery_complete`. -/
theorem delivering_setCallback {k : κ} {p : Callback α}
    (hself : ∀ c, p = .delivering c → (.library k, c.address) ∈ s.held)
    (hother : ∀ k c, s.callback k = .delivering c → (.library k, c.address) ∈ s.held)
    (k' : κ) (c : Context α) (h : (s.setCallback k p).callback k' = .delivering c) :
    (.library k', c.address) ∈ s.held := by
  rw [State.callback_setCallback] at h
  split_ifs at h with heq
  · exact heq ▸ hself c h
  · exact hother k' c h

omit [DecidableEq τ] in
/-- The library makes a callback. -/
theorem Inv.called (hi : Inv s) {k : κ} {c : Context α} {answer : Answer}
    (hcallback : s.callback k = .idle) (hmem : c ∈ s.inFlight) :
    Inv ({ s with inFlight := s.inFlight.erase c }.setCallback k (.called c answer)) := by
  have huses : s.Uses .library c := .inr (.inr ⟨rfl, hmem⟩)
  constructor
  · apply hi.owned.move huses (.calling k)
    · intro u c'
      rw [uses_setCallback]
      change _ ∨ State.Uses { s with inFlight := s.inFlight.erase c } u c' ∧
        (s.callback k).use k ≠ _ ↔ _
      rw [uses_erase hi.flying, hcallback]
      exact use_entered
    · exact hi.owned.flagged .library c huses
    · exact fun _ _ _ _ => rfl
    · exact Nat.succ_pos 2
    · intro a
      refine (or_iff_right_of_imp ?_).symm
      rintro rfl
      exact (hi.owned.listed _ c huses).mpr (Nat.succ_pos 1)
  · exact hi.heap
  · exact hi.tame
  · exact hi.nodup
  · exact hi.flying.erase c
  · exact hi.framed
  · exact delivering_setCallback (fun c' h => by cases h) hi.delivered

omit [DecidableEq τ] in
/-- A token gets its result. -/
theorem Inv.completed (hi : Inv s) {k : κ} {c : Context α} {answer : Answer} {listener : Bool}
    (hcallback : s.callback k = .called c answer) :
    Inv ({ s with heap := s.heap.modify c.address (·.answered answer) }.setCallback k
      (.completed c listener)) := by
  have huse : (s.callback k).use k = some ((.calling k : User τ κ), c) := by
    rw [hcallback]
    rfl
  have huses : s.Uses (.calling k) c := .inr (.inl ⟨k, huse⟩)
  let f : Token → Token := fun p => p.answered answer
  constructor
  · apply hi.owned.move huses (.listening k)
    · intro u c'
      rw [uses_setCallback]
      change _ ∨ s.Uses u c' ∧ (s.callback k).use k ≠ _ ↔ _
      rw [huse]
      exact use_moved
    · obtain ⟨p, hcells, -⟩ := hi.cells_of_use huses
      refine (congrArg (Option.map _) (Heap.cells_modify f c.address)).trans ?_
      rw [if_pos rfl, hcells]
      rfl
    · intro u c' hu hne
      have haddress : c'.address ≠ c.address := fun heq =>
        hne (hi.owned.eq_of_address hu huses heq).2
      exact flag_eq ((Heap.cells_modify f _).trans (if_neg haddress))
    · exact Nat.succ_pos 3
    · intro a
      refine (or_iff_right_of_imp ?_).symm
      rintro rfl
      exact (hi.owned.listed _ c huses).mpr (Nat.succ_pos 2)
  · exact hi.heap.modify f
  · exact hi.tame
  · exact hi.nodup
  · exact hi.flying
  · intro t c' hc'
    obtain ⟨hat, hheld⟩ := hi.framed t c' hc'
    exact ⟨(Heap.at_modify f).mpr hat, hheld⟩
  · exact delivering_setCallback (fun c' h => by cases h) hi.delivered

omit [DecidableEq τ] [DecidableEq α] in
/-- A callback is behind the call of the listener. -/
theorem Inv.listened (hi : Inv s) {k : κ} {c : Context α} {listener : Bool}
    (hcallback : s.callback k = .completed c listener) : Inv (s.setCallback k (.notifying c)) := by
  have huse : (s.callback k).use k = some ((.listening k : User τ κ), c) := by
    rw [hcallback]
    rfl
  have huses : s.Uses (.listening k) c := .inr (.inl ⟨k, huse⟩)
  constructor
  · apply hi.owned.move huses (.completing k)
    · intro u c'
      rw [uses_setCallback, huse]
      exact use_moved
    · exact hi.owned.flagged (.listening k) c huses
    · exact fun _ _ _ _ => rfl
    · exact Nat.succ_pos 4
    · intro a
      refine (or_iff_right_of_imp ?_).symm
      rintro rfl
      exact (hi.owned.listed _ c huses).mpr (Nat.succ_pos 3)
  · exact hi.heap
  · exact hi.tame
  · exact hi.nodup
  · exact hi.flying
  · exact hi.framed
  · exact delivering_setCallback (fun c' h => by cases h) hi.delivered

omit [DecidableEq τ] [DecidableEq α] in
/-- A callback goes on to a place with the same use of its token, if any. -/
theorem Inv.proceeded (hi : Inv s) {k : κ} {p : Callback α}
    (huse : p.use k = ((s.callback k).use k : Option (User τ κ × _)))
    (hself : ∀ c, p = .delivering c → (.library k, c.address) ∈ s.held) :
    Inv (s.setCallback k p) where
  owned := by
    apply hi.owned.congr
    · intro u c
      rw [uses_setCallback, huse]
      constructor
      · rintro (h | ⟨h, -⟩)
        · exact .inr (.inl ⟨k, h⟩)
        · exact h
      · intro h
        by_cases hself : (s.callback k).use k = some (u, c)
        · exact .inl hself
        · exact .inr ⟨h, hself⟩
    · exact fun _ _ _ => rfl
    · exact fun _ => Iff.rfl
  heap := hi.heap
  tame := hi.tame
  nodup := hi.nodup
  flying := hi.flying
  framed := hi.framed
  delivered := delivering_setCallback hself hi.delivered

omit [DecidableEq τ] in
/-- A callback removes its token, and keeps a pointer to it for `delivery_complete`. -/
theorem Inv.delivering (hi : Inv s) {k : κ} {c : Context α}
    (hcallback : s.callback k = .removing c) :
    Inv ({ s.removeToken c.address with
      held := (.library k, c.address) :: s.held }.setCallback k (.delivering c)) := by
  have huse : s.Uses (.completing k) c := .inr (.inl ⟨k, by rw [hcallback]; rfl⟩)
  let s₁ : State τ κ α := { s with held := (.library k, c.address) :: s.held }
  have hremoved := (hi.copied (.library k) (hi.mem_refs_of_use huse)).removed
    (p := .delivering c) hcallback rfl fun c' h => by
      cases h
      exact List.mem_cons_self
  -- the new pointer keeps the token from being destroyed
  have hmem : c.address ∈ (s₁.removeToken c.address).refs := by
    apply List.mem_append_right
    rw [held_removeToken]
    exact List.mem_cons_self
  have hsame : (s₁.removeToken c.address).release c.address =
      { s.removeToken c.address with held := (.library k, c.address) :: s.held } := by
    rw [State.release, Heap.release, if_pos hmem]
    unfold State.removeToken
    split <;> rfl
  exact hsame ▸ hremoved

/-- The step lemma. -/
theorem Inv.step {act : Action τ κ α} (hi : Inv s) (h : Steps s act s') : Inv s' := by
  cases h with
  | made hplace hfree => exact hi.made hplace hfree
  | @addedAction t c hplace =>
      apply hi.added hplace
      rw [List.append_assoc]
      exact List.perm_middle
  | @addedDelivery t c hplace =>
      apply hi.added hplace
      rw [← List.append_assoc]
      exact List.perm_append_singleton _ _
  | sent hplace => exact hi.sent hplace
  | refused hplace => exact hi.refused hplace
  | returned hplace => exact hi.idle (by rw [hplace]; rfl)
  | @published t c msgid hplace =>
      exact (hi.idle (t := t) (by rw [hplace]; rfl)).modified c.address
        (f := fun p => { p with tok_ := msgid }) fun _ => rfl
  | withdrawn hplace => exact hi.withdrawn hplace
  | @thrown t c rc hplace =>
      apply (hi.idle (t := t) (by rw [hplace]; rfl)).dropped (.app t, c.address)
      · intro t' c' hc' heq
        rw [State.place_setPlace] at hc'
        split_ifs at hc' with ht
        · cases hc'
        · exact ht (Thread.app.inj (Prod.mk.inj heq).1)
      · intro k c' _ heq
        cases heq
  | called hcallback hmem => exact hi.called hcallback hmem
  | completed hcallback _ => exact hi.completed hcallback
  | listened hcallback => exact hi.listened hcallback
  | notified hcallback => exact hi.proceeded (by rw [hcallback]; rfl) fun c h => by cases h
  | @delivering k c hcallback _ => exact hi.delivering hcallback
  | removed hcallback _ => exact hi.removed hcallback rfl fun c h => by cases h
  | @delivered k c hcallback =>
      apply (hi.proceeded (k := k) (p := .idle) (by rw [hcallback]; rfl)
        fun c h => by cases h).dropped (.library k, c.address)
      · intro t c' _ heq
        cases heq
      · intro k' c' hc' heq
        rw [State.callback_setCallback] at hc'
        split_ifs at hc' with hk
        exact hk (Thread.library.inj (Prod.mk.inj heq).1)
  | waited => exact hi
  | shared hheld => exact hi.copied _ (mem_refs_of_held hheld)
  | found hmem => exact hi.copied _ (mem_refs_of_pending (List.mem_append_right _ hmem))
  | notFound => exact hi
  | @dropped t a hplace hheld =>
      apply hi.dropped (.app t, a)
      · intro t' c hc heq
        cases heq
        rw [hplace] at hc
        cases hc
      · intro k c _ heq
        cases heq
  | setCallback =>
      exact ⟨hi.owned, hi.heap, hi.tame, hi.nodup, hi.flying, hi.framed, hi.delivered⟩

end Tokens
