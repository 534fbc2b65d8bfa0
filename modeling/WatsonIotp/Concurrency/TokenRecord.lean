import Mathlib.Data.List.Pairwise
import WatsonIotp.Concurrency.TokenStep

/-!
# What happens to a token

The record of a run keeps which requests the library refuses, which token each of its
answers is applied to, which listeners and which `delivery_complete` are called, and what
waits for a token end with. An address may have had many tokens, and yet nothing is mixed
up, as long as the library calls no request back twice: an answer reaches the token of its own
request, listeners are called once, and a wait ends with the code of that answer.
-/

namespace Tokens

/-- What is seen of a step. -/
inductive Event where
  /-- The library does not accept a request. -/
  | refused (request : Nat) (rc : Int)
  /-- The answer to a request is applied to an object. -/
  | completed (request : Nat) (object : Option Nat) (answer : Answer)
  /-- The listener of a request is called. -/
  | listened (request : Nat)
  /-- `delivery_complete` is called. -/
  | delivered (request : Nat)
  /-- `wait_for_completion` returns or throws the code of the object, in time. -/
  | waited (object : Nat) (rc : Int)
  deriving DecidableEq

/-- What can come to a request from behind, in the order in which it comes. -/
inductive Stage where
  | completed
  | listened
  | delivered
  deriving DecidableEq

/-- The rank of those for which the stage is over. -/
def Stage.rank : Stage → Nat
  | .completed => 4
  | .listened => 5
  | .delivered => 6

/-- The request and the stage that it comes to. -/
def Event.stage : Event → Option (Nat × Stage)
  | .completed n _ _ => some (n, .completed)
  | .listened n => some (n, .listened)
  | .delivered n => some (n, .delivered)
  | .refused _ _ | .waited _ _ => none

abbrev stages (log : List Event) : List (Nat × Stage) := log.filterMap Event.stage

/-- What has to have been seen before. -/
def Event.Explained (past : List Event) : Event → Prop
  | .refused _ _ => True
  | .completed n object _ => object = some n
  | .listened n => ∃ answer, .completed n (some n) answer ∈ past
  | .delivered n =>
      (∃ answer, .completed n (some n) answer ∈ past) ∨ ∃ rc, .refused n rc ∈ past
  | .waited n rc => ∃ answer, .completed n (some n) answer ∈ past ∧ rc = answer.rc

variable {τ κ α : Type} [DecidableEq τ] [DecidableEq κ] [DecidableEq α]

omit [DecidableEq τ] [DecidableEq κ] in
def observe (s : State τ κ α) : Action τ κ α → List Event
  | .send t (.error rc) =>
      match s.place t with
      | .sending c => [.refused c.number rc]
      | _ => []
  | .complete k =>
      match s.callback k with
      | .called c answer => [.completed c.number (s.heap.number c.address) answer]
      | _ => []
  | .listen k =>
      match s.callback k with
      | .completed c true => [.listened c.number]
      | _ => []
  | .removed k =>
      match s.callback k with
      | .removing c => if s.delivers c.address then [.delivered c.number] else []
      | _ => []
  | .remove t =>
      match s.place t with
      | .removing c _ => if s.delivers c.address then [.delivered c.number] else []
      | _ => []
  | .wait _ a false =>
      match s.heap.cells a with
      | some (n, p) => [.waited n p.rc_]
      | none => []
  | _ => []

variable {s s' : State τ κ α} {act : Action τ κ α} {n r : Nat}

/-! ### Requests go forwards -/

omit [DecidableEq τ] [DecidableEq κ] [DecidableEq α] in
/-- The request has come so far, or is over. -/
def Past (s : State τ κ α) (n r : Nat) : Prop :=
  n < s.heap.made ∧ ∀ u c, s.Uses u c → c.number = n → r ≤ u.rank

omit [DecidableEq κ] [DecidableEq α] in
/-- A thread goes on with a request from where it was before. -/
theorem uses_of_setPlace {t : τ} {p : Place α} {u : User τ κ} {c : Context α}
    (hu : (s.setPlace t p).Uses u c)
    (hp : ∀ (u : User τ κ) (c : Context α), p.use t = some (u, c) →
      ∃ u₀, s.Uses u₀ c ∧ u₀.rank ≤ u.rank) :
    ∃ u₀, s.Uses u₀ c ∧ u₀.rank ≤ u.rank := by
  obtain h | ⟨h, -⟩ := uses_setPlace.mp hu
  · exact hp u c h
  · exact ⟨u, h, le_rfl⟩

omit [DecidableEq τ] [DecidableEq α] in
theorem uses_of_setCallback {k : κ} {p : Callback α} {u : User τ κ} {c : Context α}
    (hu : (s.setCallback k p).Uses u c)
    (hp : ∀ (u : User τ κ) (c : Context α), p.use k = some (u, c) →
      ∃ u₀, s.Uses u₀ c ∧ u₀.rank ≤ u.rank) :
    ∃ u₀, s.Uses u₀ c ∧ u₀.rank ≤ u.rank := by
  obtain h | ⟨h, -⟩ := uses_setCallback.mp hu
  · exact hp u c h
  · exact ⟨u, h, le_rfl⟩

/-- No step goes back with a request, or makes a new one with an old number. -/
theorem uses_of_steps (hi : Inv s) (h : Steps s act s') {u : User τ κ} {c : Context α}
    (hu : s'.Uses u c) : (∃ u₀, s.Uses u₀ c ∧ u₀.rank ≤ u.rank) ∨ c.number = s.heap.made := by
  have hplace : ∀ {t : τ} {u₀ : User τ κ} {c₀ : Context α},
      (s.place t).use t = some (u₀, c₀) → s.Uses u₀ c₀ := fun h => .inl ⟨_, h⟩
  have hcallback : ∀ {k : κ} {u₀ : User τ κ} {c₀ : Context α},
      (s.callback k).use k = some (u₀, c₀) → s.Uses u₀ c₀ := fun h => .inr (.inl ⟨_, h⟩)
  have hsame : ∀ {a : α} {u : User τ κ} {c : Context α}, (s.removeToken a).Uses u c →
      ∃ u₀, s.Uses u₀ c ∧ u₀.rank ≤ u.rank := fun h => ⟨_, (uses_removeToken _).mp h, le_rfl⟩
  cases h with
  | made =>
      obtain h | ⟨h, -⟩ := uses_setPlace.mp hu
      · cases h
        exact .inr rfl
      · exact .inl ⟨u, h, le_rfl⟩
  | @addedAction t c₀ hold | @addedDelivery t c₀ hold =>
      refine .inl (uses_of_setPlace hu ?_)
      rintro _ _ ⟨⟩
      exact ⟨.adding t, hplace (by rw [hold]; rfl), Nat.zero_le _⟩
  | @sent t c₀ msgid hold =>
      refine .inl ?_
      obtain ⟨u₁, hu₁, hle⟩ := uses_of_setPlace hu (by rintro _ _ ⟨⟩)
      obtain ⟨rfl, rfl⟩ | hu₁ := uses_cons.mp hu₁
      · exact ⟨.sending t, hplace (by rw [hold]; rfl), (Nat.le_succ 1).trans hle⟩
      · exact ⟨u₁, hu₁, hle⟩
  | @refused t c₀ rc hold =>
      refine .inl (uses_of_setPlace hu ?_)
      rintro _ _ ⟨⟩
      exact ⟨.sending t, hplace (by rw [hold]; rfl), Nat.le_succ 1⟩
  | returned | published | thrown => exact .inl (uses_of_setPlace hu (by rintro _ _ ⟨⟩))
  | withdrawn =>
      obtain ⟨u₁, hu₁, hle⟩ := uses_of_setPlace hu (by rintro _ _ ⟨⟩)
      exact .inl ((hsame hu₁).imp fun u₀ h => ⟨h.1, h.2.trans hle⟩)
  | @called k c₀ answer hold hmem =>
      refine .inl ?_
      obtain h | ⟨h, -⟩ := uses_setCallback.mp hu
      · cases h
        exact ⟨.library, .inr (.inr ⟨rfl, hmem⟩), Nat.le_succ 2⟩
      · exact ⟨u, ((uses_erase hi.flying).mp h).1, le_rfl⟩
  | @completed k c₀ answer p hold =>
      refine .inl (uses_of_setCallback hu ?_)
      rintro _ _ ⟨⟩
      exact ⟨.calling k, hcallback (by rw [hold]; rfl), Nat.le_succ 3⟩
  | @listened k c₀ listener hold =>
      refine .inl (uses_of_setCallback hu ?_)
      rintro _ _ ⟨⟩
      exact ⟨.listening k, hcallback (by rw [hold]; rfl), Nat.le_succ 4⟩
  | @notified k c₀ hold =>
      refine .inl (uses_of_setCallback hu ?_)
      rintro _ _ ⟨⟩
      exact ⟨.completing k, hcallback (by rw [hold]; rfl), le_rfl⟩
  | delivering | removed =>
      obtain ⟨u₁, hu₁, hle⟩ := uses_of_setCallback hu (by rintro _ _ ⟨⟩)
      exact .inl ((hsame hu₁).imp fun u₀ h => ⟨h.1, h.2.trans hle⟩)
  | delivered => exact .inl (uses_of_setCallback hu (by rintro _ _ ⟨⟩))
  | waited | notFound | shared | found | dropped | setCallback => exact .inl ⟨u, hu, le_rfl⟩

theorem made_of_steps (h : Steps s act s') : s.heap.made ≤ s'.heap.made := by
  cases h <;> simp [State.setPlace, State.setCallback, State.release, Heap.alloc, Heap.modify,
    heap_removeToken]

theorem Past.step (hi : Inv s) (h : Steps s act s') (hp : Past s n r) : Past s' n r := by
  refine ⟨hp.1.trans_le (made_of_steps h), fun u c hu hc => ?_⟩
  obtain ⟨u₀, hu₀, hle⟩ | hnew := uses_of_steps hi h hu
  · exact (hp.2 u₀ c hu₀ hc).trans hle
  · exact absurd (hc ▸ hp.1) (hnew ▸ Nat.lt_irrefl _)

omit [DecidableEq τ] [DecidableEq κ] [DecidableEq α] in
/-- The one who goes on with a request shows how far it has come. -/
theorem Inv.past_of_use (hi : Inv s) {u : User τ κ} {c : Context α} (hu : s.Uses u c) :
    Past s c.number r ↔ r ≤ u.rank := by
  refine ⟨fun hp => hp.2 u c hu rfl, fun hr => ⟨hi.heap.lt _ _ (hi.at_of_use hu), ?_⟩⟩
  intro u' c' hu' heq
  obtain ⟨rfl, -⟩ := hi.owned.alone u' u c' c hu' hu heq
  exact hr

/-! ### What a step shows -/

omit [DecidableEq τ] [DecidableEq κ] [DecidableEq α] in
/-- In which states an event is due. -/
def Event.Due (s : State τ κ α) : Event → Prop
  | .refused n _ => ∃ t c, s.place t = .sending c ∧ c.number = n
  | .completed n object _ => object = some n ∧ ∃ k c, s.Uses (.calling k) c ∧ c.number = n
  | .listened n => ∃ k c, s.Uses (.listening k) c ∧ c.number = n
  | .delivered n => (∃ k c, s.Uses (.completing k) c ∧ c.number = n) ∨
      ∃ t c rc, s.place t = .removing c rc ∧ c.number = n
  | .waited n rc => ∃ a p, s.heap.cells a = some (n, p) ∧ p.complete_ = true ∧ p.rc_ = rc

theorem observe_due (hi : Inv s) (h : Steps s act s') : ∀ e ∈ observe s act, e.Due s := by
  cases h with
  | @refused t c rc hplace =>
      simp only [observe, hplace, List.forall_mem_singleton]
      exact ⟨t, c, hplace, rfl⟩
  | @completed k c answer p hcallback =>
      have hu : s.Uses (.calling k) c := .inr (.inl ⟨k, by rw [hcallback]; rfl⟩)
      simp only [observe, hcallback, List.forall_mem_singleton]
      exact ⟨hi.at_of_use hu, k, c, hu, rfl⟩
  | @listened k c listener hcallback =>
      have hu : s.Uses (.listening k) c := .inr (.inl ⟨k, by rw [hcallback]; rfl⟩)
      cases listener <;> simp only [observe, hcallback, List.forall_mem_singleton]
      · exact fun e he => absurd he List.not_mem_nil
      · exact ⟨k, c, hu, rfl⟩
  | @delivering k c hcallback hdelivers =>
      have hu : s.Uses (.completing k) c := .inr (.inl ⟨k, by rw [hcallback]; rfl⟩)
      simp only [observe, hcallback, if_pos hdelivers, List.forall_mem_singleton]
      exact .inl ⟨k, c, hu, rfl⟩
  | @removed k c hcallback hdelivers =>
      simp only [observe, hcallback, hdelivers, Bool.false_eq_true, if_false]
      exact fun e he => absurd he List.not_mem_nil
  | @withdrawn t c rc hplace =>
      simp only [observe, hplace]
      split_ifs
      · exact List.forall_mem_singleton.mpr (.inr ⟨t, c, rc, hplace, rfl⟩)
      · exact fun e he => absurd he List.not_mem_nil
  | @waited t a timedOut p hplace hheld hget hcomplete =>
      obtain ⟨⟨n, p⟩, hcells, rfl⟩ := Option.map_eq_some_iff.mp hget
      cases timedOut <;> simp only [observe, hcells, List.forall_mem_singleton]
      · exact ⟨a, p, hcells, hcomplete, rfl⟩
      · exact fun e he => absurd he List.not_mem_nil
  | _ => exact fun e he => absurd he List.not_mem_nil

omit [DecidableEq τ] [DecidableEq κ] in
/-- One thing at a time. -/
theorem observe_cases (s : State τ κ α) (act : Action τ κ α) :
    observe s act = [] ∨ ∃ e, observe s act = [e] := by
  unfold observe
  repeat' split
  all_goals first | exact .inl rfl | exact .inr ⟨_, rfl⟩

omit [DecidableEq τ] [DecidableEq κ] [DecidableEq α] in
/-- A request that nobody goes on with any more is over. -/
theorem past_of_left (hi : Inv s) {u₀ : User τ κ} {c₀ : Context α} (h₀ : s.Uses u₀ c₀)
    (hmade : s'.heap.made = s.heap.made)
    (hleft : ∀ u c, s'.Uses u c → s.Uses u c ∧ ¬ (u = u₀ ∧ c = c₀)) : Past s' c₀.number r := by
  refine ⟨hmade.symm ▸ hi.heap.lt _ _ (hi.at_of_use h₀), fun u c hu heq => ?_⟩
  obtain ⟨hu, hne⟩ := hleft u c hu
  exact absurd (hi.owned.alone u u₀ c c₀ hu h₀ heq) hne

/-- What has been shown is over. -/
theorem observe_past (hi : Inv s) (h : Steps s act s') {e : Event} (he : e ∈ observe s act)
    {stage : Stage} (hstage : e.stage = some (n, stage)) : Past s' n stage.rank := by
  have hi' : Inv s' := hi.step h
  cases h with
  | @refused t c rc hplace =>
      simp only [observe, hplace, List.mem_singleton] at he
      subst he
      cases hstage
  | @completed k c answer p hcallback =>
      simp only [observe, hcallback, List.mem_singleton] at he
      subst he
      cases hstage
      refine (hi'.past_of_use (u := .listening k) (c := c) (.inr (.inl ⟨k, ?_⟩))).mpr le_rfl
      rw [State.callback_setCallback, if_pos rfl]
      rfl
  | @listened k c listener hcallback =>
      cases listener <;> simp only [observe, hcallback, List.mem_singleton] at he
      · cases he
      · subst he
        cases hstage
        refine (hi'.past_of_use (u := .completing k) (c := c) (.inr (.inl ⟨k, ?_⟩))).mpr le_rfl
        rw [State.callback_setCallback, if_pos rfl]
        rfl
  | @delivering k c hcallback hdelivers =>
      simp only [observe, hcallback, if_pos hdelivers, List.mem_singleton] at he
      subst he
      cases hstage
      have huse : (s.callback k).use k = some ((.completing k : User τ κ), c) := by
        rw [hcallback]
        rfl
      obtain ⟨-, -, -, hcallbacks⟩ := removeToken_frame s c.address
      refine past_of_left hi (.inr (.inl ⟨k, huse⟩)) ?_ fun u c' hu => ?_
      · exact congrArg Heap.made (heap_removeToken s c.address)
      · apply use_left.mp
        rw [uses_setCallback] at hu
        change _ ∨ (s.removeToken c.address).Uses u c' ∧
          ((s.removeToken c.address).callback k).use k ≠ _ at hu
        rwa [uses_removeToken, hcallbacks, huse] at hu
  | @removed k c hcallback hdelivers =>
      simp only [observe, hcallback, hdelivers, Bool.false_eq_true, if_false] at he
      cases he
  | @withdrawn t c rc hplace =>
      have huse : (s.place t).use t = some ((.removing t : User τ κ), c) := by
        rw [hplace]
        rfl
      obtain ⟨-, -, hplaces, -⟩ := removeToken_frame s c.address
      simp only [observe, hplace] at he
      split_ifs at he
      · cases List.mem_singleton.mp he
        cases hstage
        refine past_of_left hi (.inl ⟨t, huse⟩) ?_ fun u c' hu => ?_
        · exact Heap.made_release.trans (congrArg Heap.made (heap_removeToken s c.address))
        · apply use_left.mp
          rw [uses_setPlace] at hu
          change _ ∨ (s.removeToken c.address).Uses u c' ∧
            ((s.removeToken c.address).place t).use t ≠ _ at hu
          rwa [uses_removeToken, hplaces, huse] at hu
      · cases he
  | @waited t a timedOut p hplace hheld hget hcomplete =>
      obtain ⟨⟨n, p⟩, hcells, rfl⟩ := Option.map_eq_some_iff.mp hget
      cases timedOut <;> simp only [observe, hcells, List.mem_singleton] at he
      · subst he
        cases hstage
      · cases he
  | _ => cases he

/-! ### The record of a run -/

/-- What the record tells about the state. -/
structure Log (s : State τ κ α) (log : List Event) : Prop where
  inv : Inv s
  past : ∀ n stage, (n, stage) ∈ stages log → Past s n stage.rank
  nodup : (stages log).Nodup
  refused : ∀ t c rc, s.place t = .removing c rc → .refused c.number rc ∈ log
  answered : ∀ a n p, s.heap.cells a = some (n, p) → p.complete_ = true →
    ∃ answer, .completed n (some n) answer ∈ log ∧ p.rc_ = answer.rc
  explained : ∀ front e, front ++ [e] <+: log → e.Explained front

variable {log : List Event} {e : Event}

omit [DecidableEq τ] [DecidableEq κ] [DecidableEq α] in
/-- What is due has its reasons. -/
theorem Log.explained_of_due (hl : Log s log) (hdue : e.Due s) : e.Explained log := by
  have hdone : ∀ {u : User τ κ} {c : Context α}, s.Uses u c → u.done = true →
      ∃ answer, .completed c.number (some c.number) answer ∈ log := by
    intro u c hu hdone
    obtain ⟨p, hcells, hcomplete⟩ := hl.inv.cells_of_use hu
    obtain ⟨answer, hmem, -⟩ := hl.answered _ _ p hcells (hcomplete.trans hdone)
    exact ⟨answer, hmem⟩
  cases e with
  | refused => trivial
  | completed => exact hdue.1
  | listened =>
      obtain ⟨k, c, hu, rfl⟩ := hdue
      exact hdone hu rfl
  | delivered =>
      obtain ⟨k, c, hu, rfl⟩ | ⟨t, c, rc, hplace, rfl⟩ := hdue
      · exact .inl (hdone hu rfl)
      · exact .inr ⟨rc, hl.refused t c rc hplace⟩
  | waited =>
      obtain ⟨a, p, hcells, hcomplete, rfl⟩ := hdue
      exact hl.answered a _ p hcells hcomplete

omit [DecidableEq τ] [DecidableEq κ] [DecidableEq α] in
/-- What is due has not been yet. -/
theorem Log.fresh_of_due (hl : Log s log) (hdue : e.Due s) {stage : Stage}
    (hstage : e.stage = some (n, stage)) : (n, stage) ∉ stages log := by
  intro hmem
  have hpast := hl.past n stage hmem
  have hbelow : ∀ {u : User τ κ} {c : Context α}, s.Uses u c → c.number = n →
      stage.rank ≤ u.rank := fun hu hc => hpast.2 _ _ hu hc
  cases e with
  | refused => cases hstage
  | completed =>
      cases hstage
      obtain ⟨-, k, c, hu, hc⟩ := hdue
      exact absurd (hbelow hu hc) (Nat.lt_irrefl 3)
  | listened =>
      cases hstage
      obtain ⟨k, c, hu, hc⟩ := hdue
      exact absurd (hbelow hu hc) (Nat.lt_irrefl 4)
  | delivered =>
      cases hstage
      obtain ⟨k, c, hu, hc⟩ | ⟨t, c, rc, hplace, hc⟩ := hdue
      · exact absurd (hbelow hu hc) (Nat.lt_irrefl 5)
      · have hu : s.Uses (.removing t) c := .inl ⟨t, by rw [hplace]; rfl⟩
        exact absurd (hbelow hu hc) (Nat.not_le_of_lt (show 2 < 6 by omega))
  | waited => cases hstage

/-- A complete token has been complete with the same code, or its answer is seen. -/
theorem answered_of_steps (hi : Inv s) (h : Steps s act s') {a : α} {p : Token}
    (hcells : s'.heap.cells a = some (n, p)) (hcomplete : p.complete_ = true) :
    (∃ p₀, s.heap.cells a = some (n, p₀) ∧ p₀.complete_ = true ∧ p₀.rc_ = p.rc_) ∨
      ∃ answer, .completed n (some n) answer ∈ observe s act ∧ p.rc_ = answer.rc := by
  have hreleased : ∀ {a' : α}, ((s.removeToken a').release a').heap.cells a = some (n, p) →
      s.heap.cells a = some (n, p) := fun h => heap_removeToken s _ ▸ Heap.cells_of_release h
  cases h with
  | made =>
      change (s.heap.alloc _ _).cells a = _ at hcells
      rw [Heap.cells_alloc] at hcells
      split_ifs at hcells
      · cases hcells
        cases hcomplete
      · exact .inl ⟨p, hcells, hcomplete, rfl⟩
  | published =>
      simp only [State.setPlace, Heap.cells_modify] at hcells
      split_ifs at hcells with heq
      · obtain ⟨⟨m, p₀⟩, hp₀, hp⟩ := Option.map_eq_some_iff.mp hcells
        cases hp
        exact .inl ⟨p₀, heq ▸ hp₀, hcomplete, rfl⟩
      · exact .inl ⟨p, hcells, hcomplete, rfl⟩
  | @completed k c answer _ hcallback =>
      have hu : s.Uses (.calling k) c := .inr (.inl ⟨k, by rw [hcallback]; rfl⟩)
      simp only [State.setCallback, Heap.cells_modify] at hcells
      split_ifs at hcells with heq
      · obtain ⟨p₀, hp₀, -⟩ := hi.cells_of_use hu
        rw [hp₀] at hcells
        cases hcells
        refine .inr ⟨answer, ?_, rfl⟩
        rw [observe, hcallback]
        exact List.mem_singleton.mpr (congrArg (Event.completed _ · _) (hi.at_of_use hu).symm)
      · exact .inl ⟨p, hcells, hcomplete, rfl⟩
  | withdrawn | removed => exact .inl ⟨p, hreleased hcells, hcomplete, rfl⟩
  | thrown | delivered | dropped =>
      exact .inl ⟨p, Heap.cells_of_release hcells, hcomplete, rfl⟩
  | delivering => exact .inl ⟨p, heap_removeToken s _ ▸ hcells, hcomplete, rfl⟩
  | _ => exact .inl ⟨p, hcells, hcomplete, rfl⟩

/-- A request that is to be withdrawn was so before, or its refusal is seen. -/
theorem refused_of_steps (h : Steps s act s') {t : τ} {c : Context α} {rc : Int}
    (hplace : s'.place t = .removing c rc) :
    s.place t = .removing c rc ∨ .refused c.number rc ∈ observe s act := by
  have hother : ∀ {s : State τ κ α} {t' : τ} {p : Place α},
      (s.setPlace t' p).place t = .removing c rc → (∀ c rc, p ≠ .removing c rc) →
        s.place t = .removing c rc := by
    intro s t' p h hne
    rw [State.place_setPlace] at h
    split_ifs at h
    · exact absurd h (hne c rc)
    · exact h
  obtain hplaces := fun a => (removeToken_frame s a).2.2.1
  cases h with
  | made | addedAction | addedDelivery | sent | returned | published | thrown =>
      exact .inl (hother hplace fun _ _ h => by cases h)
  | withdrawn =>
      have h := hother hplace fun _ _ h => by cases h
      exact .inl (hplaces _ ▸ h)
  | @refused t' c' rc' hsending =>
      rw [State.place_setPlace] at hplace
      split_ifs at hplace with heq
      · cases hplace
        refine .inr ?_
        rw [observe, hsending]
        exact List.mem_singleton_self _
      · exact .inl hplace
  | delivering | removed => exact .inl (hplaces _ ▸ hplace)
  | _ => exact .inl hplace

/-- The step lemma for states with records. -/
theorem Log.step (hl : Log s log) (h : Steps s act s') : Log s' (log ++ observe s act) where
  inv := hl.inv.step h
  past n stage hmem := by
    rw [stages, List.filterMap_append, List.mem_append] at hmem
    obtain hmem | hmem := hmem
    · exact (hl.past n stage hmem).step hl.inv h
    · obtain ⟨e, he, hstage⟩ := List.mem_filterMap.mp hmem
      exact observe_past hl.inv h he hstage
  nodup := by
    rw [stages, List.filterMap_append, List.nodup_append]
    refine ⟨hl.nodup, ?_, ?_⟩
    · obtain hnil | ⟨e, he⟩ := observe_cases s act
      · rw [hnil]
        exact List.nodup_nil
      · rw [he, List.filterMap_cons]
        split <;> simp
    · rintro ⟨n, stage⟩ hmem _ hmem' rfl
      obtain ⟨e, he, hstage⟩ := List.mem_filterMap.mp hmem'
      exact hl.fresh_of_due (observe_due hl.inv h e he) hstage hmem
  refused t c rc hplace := by
    rw [List.mem_append]
    exact (refused_of_steps h hplace).imp_left (hl.refused t c rc)
  answered a n p hcells hcomplete := by
    obtain ⟨p₀, hp₀, hdone, hrc⟩ | ⟨answer, hmem, hrc⟩ :=
      answered_of_steps hl.inv h hcells hcomplete
    · obtain ⟨answer, hmem, heq⟩ := hl.answered a n p₀ hp₀ hdone
      exact ⟨answer, List.mem_append_left _ hmem, hrc.symm.trans heq⟩
    · exact ⟨answer, List.mem_append_right _ hmem, hrc⟩
  explained front e hfront := by
    obtain hnil | ⟨e', he'⟩ := observe_cases s act
    · rw [hnil, List.append_nil] at hfront
      exact hl.explained front e hfront
    · rw [he', List.prefix_concat_iff] at hfront
      obtain hlast | hfront := hfront
      · obtain ⟨rfl, hsingle⟩ := List.append_inj' hlast rfl
        cases List.singleton_inj.mp hsingle
        exact hl.explained_of_due (observe_due hl.inv h e (he' ▸ List.mem_singleton_self e))
      · exact hl.explained front e hfront

/-- A request comes to a stage by one event. -/
theorem eq_of_stage (hnodup : (stages log).Nodup) {e' : Event} (he : e ∈ log) (he' : e' ∈ log)
    {x : Nat × Stage} (hx : e.stage = some x) (hx' : e'.stage = some x) : e = e' := by
  have hsymm : Std.Symm fun e e' : Event =>
      ∀ x, e.stage = some x → ∀ x', e'.stage = some x' → x ≠ x' :=
    ⟨fun _ _ h x hx x' hx' => (h x' hx' x hx).symm⟩
  by_contra hne
  exact (List.pairwise_filterMap.mp hnodup).forall he he' hne x hx x hx' rfl

/-! ### Every run -/

omit [DecidableEq τ] [DecidableEq κ] [DecidableEq α] in
theorem inv_initial : Inv (.initial : State τ κ α) where
  owned := by
    have hnone : ∀ u c, ¬ (State.initial : State τ κ α).Uses u c := by
      rintro u c (⟨t, h⟩ | ⟨k, h⟩ | ⟨-, h⟩) <;> cases h
    exact ⟨fun u c hu => absurd hu (hnone u c), fun u c hu => absurd hu (hnone u c),
      fun u _ c _ hu => absurd hu (hnone u c), fun a ha => absurd ha List.not_mem_nil⟩
  heap := Heap.wf_empty
  tame := rfl
  nodup := List.nodup_nil
  flying := List.nodup_nil
  framed t c h := by cases h
  delivered k c h := by cases h

omit [DecidableEq τ] [DecidableEq κ] [DecidableEq α] in
theorem log_initial : Log (.initial : State τ κ α) [] where
  inv := inv_initial
  past n stage h := absurd h List.not_mem_nil
  nodup := List.nodup_nil
  refused t c rc h := by cases h
  answered a n p h := by cases h
  explained front e h := by
    have hnil : front ++ [e] = [] := List.prefix_nil.mp h
    simp at hnil

theorem inv_of_run {acts : List (Action τ κ α)} (hr : machine.Run .initial acts s)
    (honce : machine.Along Once .initial acts) : Inv s :=
  hr.invariant_along (fun _ _ _ hi ha h => hi.step (steps_of_step hi ha h)) honce inv_initial

theorem log_of_run {acts : List (Action τ κ α)}
    (hr : (machine.recorded observe).Run (.initial, []) acts (s, log))
    (honce : machine.Along Once .initial acts) : Log s log :=
  hr.recorded_invariant_along (I := Log)
    (fun _ _ _ _ hl ha h => hl.step (steps_of_step hl.inv ha h)) honce log_initial

/-- Two requests whose tokens have the same address, one after the other. -/
def reused : List (Action Unit Unit Unit) :=
  [.make () () .action true, .add (), .send () (.ok 1), .call () ⟨(), 0⟩ (.success (some 1)),
    .complete (), .return (), .drop () (), .listen (), .notify (), .removed (), .setCallback,
    .make () () (.delivery 1) false, .add (), .send () (.ok 2),
    .call () ⟨(), 1⟩ (.failure (some (2, -5))), .complete (), .return (), .wait () () false,
    .listen (), .notify (), .removed (), .delivered ()]

theorem once_reused : machine.Along Once .initial reused := by
  iterate 3 refine (Machine.along_cons rfl).mpr ⟨trivial, ?_⟩
  refine (Machine.along_cons rfl).mpr ⟨List.mem_cons_self, ?_⟩
  iterate 10 refine (Machine.along_cons rfl).mpr ⟨trivial, ?_⟩
  refine (Machine.along_cons rfl).mpr ⟨List.mem_cons_self, ?_⟩
  iterate 7 refine (Machine.along_cons rfl).mpr ⟨trivial, ?_⟩
  trivial

/-- However the requests, the callbacks and the application's dealings with its tokens
interleave, as long as no request is called back twice, no token is used after it is gone: the
address that the library has of a request is that of its own token, which is pending until its
callback has removed it. A token is there as long as something refers to it, and what is pending
has somebody to go on with it. -/
theorem tokens_alive {acts : List (Action τ κ α)} (hr : machine.Run .initial acts s)
    (honce : machine.Along Once .initial acts) :
    s.wild = false ∧ (∀ a, (s.heap.cells a).isSome ↔ a ∈ s.refs) ∧ s.pending.Nodup ∧
      (∀ u c, s.Uses u c → s.heap.At c.address c.number ∧ (c.address ∈ s.pending ↔ 0 < u.rank)) ∧
        ∀ a ∈ s.pending, ∃ u c, s.Uses u c ∧ c.address = a := by
  have hi : Inv s := inv_of_run hr honce
  refine ⟨hi.tame, hi.heap.live, hi.nodup, fun u c hu => ?_, hi.owned.tracked⟩
  exact ⟨hi.at_of_use hu, hi.owned.listed u c hu⟩

/-- Both requests are under way at the same address. -/
theorem tokens_alive_reused : ∃ s, machine.Run .initial (reused.take 15) s ∧
    s.wild = false ∧ s.heap.At () 1 := by
  have hr : machine.Run .initial (reused.take 15) _ := Machine.Run.exec_iff.mp rfl
  have hall : machine.Along Once .initial (reused.take 15 ++ reused.drop 15) := once_reused
  obtain ⟨hwild, -, -, huse, -⟩ := tokens_alive hr hall.of_append
  exact ⟨_, hr, hwild, (huse (.calling ()) ⟨(), 1⟩ (.inr (.inl ⟨(), rfl⟩))).1⟩

/-- A second callback finds the first token gone. -/
example : (machine.exec .initial (reused.take 10 ++
    [.call () ⟨(), 0⟩ (.failure none), .complete ()])).map State.wild = some true := rfl

/-- When everybody has come to rest, and the library has called back each request that it has
accepted, and none twice, nothing is pending, and the tokens that are left are those that the
application holds itself. -/
theorem nothing_left {acts : List (Action τ κ α)} (hr : machine.Run .initial acts s)
    (honce : machine.Along Once .initial acts)
    (hplace : ∀ t, s.place t = .idle) (hcallback : ∀ k, s.callback k = .idle)
    (hflight : s.inFlight = []) :
    s.pendingTokens = [] ∧ s.pendingDeliveryTokens = [] ∧
      ∀ a, (s.heap.cells a).isSome ↔ a ∈ s.held.map Prod.snd := by
  have hi : Inv s := inv_of_run hr honce
  have hpending : s.pending = [] := by
    rw [List.eq_nil_iff_forall_not_mem]
    intro a ha
    obtain ⟨u, c, ⟨t, h⟩ | ⟨k, h⟩ | ⟨-, h⟩, -⟩ := hi.owned.tracked a ha
    · rw [hplace] at h
      cases h
    · rw [hcallback] at h
      cases h
    · rw [hflight] at h
      exact absurd h List.not_mem_nil
  obtain ⟨htokens, hdeliveries⟩ := List.append_eq_nil_iff.mp hpending
  refine ⟨htokens, hdeliveries, fun a => ?_⟩
  rw [hi.heap.live a, State.refs, hpending, List.nil_append]

/-- The application still holds the second token. -/
theorem nothing_left_reused : ∃ s : State Unit Unit Unit, machine.Run .initial reused s ∧
    s.pendingTokens = [] ∧ s.pendingDeliveryTokens = [] ∧ (s.heap.cells ()).isSome := by
  have hr : machine.Run .initial reused _ := Machine.Run.exec_iff.mp rfl
  obtain ⟨htokens, hdeliveries, hlive⟩ :=
    nothing_left hr once_reused (fun _ => rfl) (fun _ => rfl) rfl
  exact ⟨_, hr, htokens, hdeliveries, (hlive ()).mpr (List.mem_singleton_self ())⟩

/-- As long as the library calls no request back twice, none is completed twice, nor its
listener or `delivery_complete` called twice. The answer goes to the token of the request, and
the listener comes behind it; so does `delivery_complete`, unless the library has refused the
publication. -/
theorem callbacks_once {acts : List (Action τ κ α)}
    (hr : (machine.recorded observe).Run (.initial, []) acts (s, log))
    (honce : machine.Along Once .initial acts) :
    (stages log).Nodup ∧ ∀ front e, front ++ [e] <+: log → e.Explained front :=
  ⟨(log_of_run hr honce).nodup, (log_of_run hr honce).explained⟩

theorem callbacks_once_reused : (stages [.completed 0 (some 0) (.success (some 1)), .listened 0,
    .completed 1 (some 1) (.failure (some (2, -5))), .waited 1 (-5), .delivered 1]).Nodup := by
  have hr : (machine.recorded observe).Run (.initial, []) reused (_, _) :=
    Machine.Run.exec_iff.mp rfl
  exact (callbacks_once hr once_reused).1

/-- As long as the library calls no request back twice, a wait ends with the code of the one
answer that there is to the request of the token, whatever else has had the address of the
token before. -/
theorem waits_answered {acts : List (Action τ κ α)}
    (hr : (machine.recorded observe).Run (.initial, []) acts (s, log))
    (honce : machine.Along Once .initial acts) {rc : Int} {front back : List Event}
    (hlog : log = front ++ .waited n rc :: back) :
    ∃ answer, .completed n (some n) answer ∈ front ∧ rc = answer.rc ∧
      ∀ object answer', .completed n object answer' ∈ log → answer' = answer := by
  have hl : Log s log := log_of_run hr honce
  obtain ⟨answer, hmem, hrc⟩ := hl.explained front (.waited n rc) (by simp [hlog])
  refine ⟨answer, hmem, hrc, fun object answer' hmem' => ?_⟩
  have hmem : .completed n (some n) answer ∈ log := hlog ▸ List.mem_append_left _ hmem
  have heq := eq_of_stage hl.nodup hmem' hmem rfl rfl
  exact (Event.completed.inj heq).2.2

/-- The wait is for the second token, whose request fails. -/
theorem waits_answered_reused : ∃ answer,
    Event.completed 1 (some 1) answer ∈ [.completed 0 (some 0) (.success (some 1)), .listened 0,
      .completed 1 (some 1) (.failure (some (2, -5)))] ∧ -5 = answer.rc := by
  have hr : (machine.recorded observe).Run (.initial, []) reused
      (_, [.completed 0 (some 0) (.success (some 1)), .listened 0,
        .completed 1 (some 1) (.failure (some (2, -5))), .waited 1 (-5), .delivered 1]) :=
    Machine.Run.exec_iff.mp rfl
  obtain ⟨answer, hmem, hrc, -⟩ :=
    waits_answered hr once_reused (show _ = [_, _, _] ++ _ :: _ from rfl)
  exact ⟨answer, hmem, hrc⟩

end Tokens
