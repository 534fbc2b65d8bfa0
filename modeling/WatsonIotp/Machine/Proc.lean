import Mathlib.Init

/-!
# Procedures with state and exceptions

A procedure reads and writes a state and either returns or throws. What it has
written before it throws stays written, as in a language with exceptions and
objects. The monad is the standard one; this file has the equations of its runs
and the rules over them: `Keeps` for what every run of a procedure preserves,
`Returns` for when a run does not throw, and the rules for loops over a list.
-/

/-- Procedures over the state `σ` that may throw `ε`. -/
abbrev Proc (σ ε : Type) : Type → Type := ExceptT ε (StateM σ)

namespace Proc

variable {σ τ ε α β : Type}

/-- Run the procedure from a state: its outcome and the state it leaves. -/
def exec (x : Proc σ ε α) (s : σ) : Except ε α × σ := x.run s

@[simp] theorem exec_pure (a : α) (s : σ) : (pure a : Proc σ ε α).exec s = (.ok a, s) := rfl

@[simp] theorem exec_throw (e : ε) (s : σ) :
    (throw e : Proc σ ε α).exec s = (.error e, s) := rfl

@[simp] theorem exec_get (s : σ) : (get : Proc σ ε σ).exec s = (.ok s, s) := rfl

@[simp] theorem exec_set (s t : σ) : (set t : Proc σ ε PUnit).exec s = (.ok ⟨⟩, t) := rfl

@[simp] theorem exec_modify (f : σ → σ) (s : σ) :
    (modify f : Proc σ ε PUnit).exec s = (.ok ⟨⟩, f s) := rfl

theorem exec_bind (x : Proc σ ε α) (f : α → Proc σ ε β) (s : σ) :
    (x >>= f).exec s = match x.exec s with
      | (.ok a, t) => (f a).exec t
      | (.error e, t) => (.error e, t) := by
  change ExceptT.bindCont f (x.exec s).1 (x.exec s).2 = _
  obtain ⟨a | a, t⟩ := x.exec s <;> rfl

@[simp] theorem exec_bind_ok {x : Proc σ ε α} {f : α → Proc σ ε β} {s t : σ} {a : α}
    (h : x.exec s = (.ok a, t)) : (x >>= f).exec s = (f a).exec t := by
  rw [exec_bind, h]

@[simp] theorem exec_bind_error {x : Proc σ ε α} {f : α → Proc σ ε β} {s t : σ} {e : ε}
    (h : x.exec s = (.error e, t)) : (x >>= f).exec s = (.error e, t) := by
  rw [exec_bind, h]

/-- A sequence returns if both of its parts do. -/
theorem exec_bind_eq_ok_iff {x : Proc σ ε α} {f : α → Proc σ ε β} {s u : σ} {b : β} :
    (x >>= f).exec s = (.ok b, u) ↔
      ∃ a t, x.exec s = (.ok a, t) ∧ (f a).exec t = (.ok b, u) := by
  rw [exec_bind]
  cases x.exec s with
  | mk outcome t =>
      cases outcome with
      | error e => simp
      | ok a =>
          constructor
          · intro h
            exact ⟨a, t, rfl, h⟩
          · rintro ⟨a', t', heq, h⟩
            cases heq
            exact h

@[simp] theorem exec_map (f : α → β) (x : Proc σ ε α) (s : σ) :
    (f <$> x).exec s = ((x.exec s).1.map f, (x.exec s).2) := by
  rw [map_eq_pure_bind, exec_bind]
  cases x.exec s with
  | mk outcome t => cases outcome <;> rfl

@[simp] theorem exec_ite {c : Prop} [Decidable c] (x y : Proc σ ε α) (s : σ) :
    (if c then x else y).exec s = if c then x.exec s else y.exec s := by
  split <;> rfl

/-- A value that may be missing, with the exception for when it is. -/
def ofOption (o : Option α) (e : ε) : Proc σ ε α :=
  match o with
  | some a => pure a
  | none => throw e

/-- The outcome of a function that may throw something else. -/
def ofExcept {ε' : Type} (wrap : ε' → ε) (x : Except ε' α) : Proc σ ε α :=
  match x with
  | .ok a => pure a
  | .error e => throw (wrap e)

/-- Run a procedure on a part of the state. -/
def zoom (part : σ → τ) (update : τ → σ → σ) (x : Proc τ ε α) : Proc σ ε α :=
  ExceptT.mk fun s => ((x.exec (part s)).1, update (x.exec (part s)).2 s)

@[simp] theorem exec_ofOption (o : Option α) (e : ε) (s : σ) :
    (ofOption o e).exec s = (o.elim (.error e) .ok, s) := by
  cases o <;> rfl

@[simp] theorem exec_ofExcept {ε' : Type} (wrap : ε' → ε) (x : Except ε' α) (s : σ) :
    (ofExcept wrap x).exec s = (x.mapError wrap, s) := by
  cases x <;> rfl

theorem exec_ofExcept_eq_ok_iff {ε' : Type} {wrap : ε' → ε} {x : Except ε' α} {s t : σ} {a : α} :
    (ofExcept wrap x).exec s = (.ok a, t) ↔ x = .ok a ∧ t = s := by
  cases x <;> simp [ofExcept, eq_comm]

@[simp] theorem exec_zoom (part : σ → τ) (update : τ → σ → σ) (x : Proc τ ε α) (s : σ) :
    (zoom part update x).exec s = ((x.exec (part s)).1, update (x.exec (part s)).2 s) := rfl

/-! ### What every run preserves -/

/-- Whatever comes of the procedure, it leaves a state of `I` where it found one. -/
def Keeps (I : σ → Prop) (x : Proc σ ε α) : Prop := ∀ s, I s → I (x.exec s).2

namespace Keeps

variable {I : σ → Prop}

theorem pure (a : α) : Keeps I (pure a : Proc σ ε α) := fun _ h => h

theorem bind {x : Proc σ ε α} {f : α → Proc σ ε β} (hx : Keeps I x) (hf : ∀ a, Keeps I (f a)) :
    Keeps I (x >>= f) := by
  intro s hs
  have ht := hx s hs
  cases hexec : x.exec s with
  | mk outcome t =>
      rw [hexec] at ht
      cases outcome with
      | error e => rwa [exec_bind_error hexec]
      | ok a =>
          rw [exec_bind_ok hexec]
          exact hf a t ht

theorem ofExcept {ε' : Type} (wrap : ε' → ε) (x : Except ε' α) :
    Keeps I (ofExcept wrap x : Proc σ ε α) := by
  intro s hs
  rwa [exec_ofExcept]

theorem ite {c : Prop} [Decidable c] {x y : Proc σ ε α} (hx : c → Keeps I x)
    (hy : ¬ c → Keeps I y) : Keeps I (if c then x else y) := by
  split
  · next h => exact hx h
  · next h => exact hy h

end Keeps

/-! ### When a run returns -/

/-- The run from `s` does not throw. -/
def Returns (x : Proc σ ε α) (s : σ) : Prop := ∃ a, (x.exec s).1 = .ok a

@[simp] theorem returns_pure (a : α) (s : σ) : (pure a : Proc σ ε α).Returns s := ⟨a, rfl⟩

@[simp] theorem not_returns_throw (e : ε) (s : σ) : ¬ (throw e : Proc σ ε α).Returns s := by
  rintro ⟨a, h⟩
  cases h

theorem returns_bind_iff {x : Proc σ ε α} {f : α → Proc σ ε β} {s : σ} :
    (x >>= f).Returns s ↔ ∃ a t, x.exec s = (.ok a, t) ∧ (f a).Returns t := by
  have hreturns : ∀ {γ : Type} {y : Proc σ ε γ} {t : σ},
      y.Returns t ↔ ∃ c u, y.exec t = (.ok c, u) := by
    intro γ y t
    exact ⟨fun ⟨c, h⟩ => ⟨c, _, Prod.ext h rfl⟩, fun ⟨c, _, h⟩ => ⟨c, congrArg Prod.fst h⟩⟩
  simp only [hreturns, exec_bind_eq_ok_iff]
  constructor
  · rintro ⟨b, u, a, t, hx, hf⟩
    exact ⟨a, t, hx, b, u, hf⟩
  · rintro ⟨a, t, hx, b, u, hf⟩
    exact ⟨b, u, a, t, hx, hf⟩

theorem map_isOk_iff {x : Except ε α} {f : α → β} :
    (∃ b, x.map f = .ok b) ↔ ∃ a, x = .ok a := by
  cases x <;> simp [Except.map]

/-! ### Loops over a list -/

section Loop

variable {act : α → Proc σ ε PUnit}

/-- What is known after each pass of a loop, of the elements it has been through and
the state, is known after the loop. -/
theorem forM_ok {M : List α → σ → Prop}
    (hact : ∀ done a s t, M done s → (act a).exec s = (.ok ⟨⟩, t) → M (done ++ [a]) t)
    (l : List α) {done : List α} {s t : σ} (hs : M done s)
    (h : (forM l act).exec s = (.ok ⟨⟩, t)) : M (done ++ l) t := by
  induction l generalizing done s with
  | nil =>
      rw [List.forM_nil, exec_pure] at h
      cases h
      rwa [List.append_nil]
  | cons a l ih =>
      rw [List.forM_cons] at h
      cases hexec : (act a).exec s with
      | mk outcome u =>
          cases outcome with
          | error e =>
              rw [exec_bind_error hexec] at h
              cases h
          | ok _ =>
              rw [exec_bind_ok hexec] at h
              have := ih (hact done a s u hs hexec) h
              rwa [List.append_assoc] at this

/-- A loop that throws does so in one of its passes, and before it everything is as
after the passes so far. -/
theorem forM_error {M : List α → σ → Prop}
    (hact : ∀ done a s t, M done s → (act a).exec s = (.ok ⟨⟩, t) → M (done ++ [a]) t)
    (l : List α) {done : List α} {s t : σ} {e : ε} (hs : M done s)
    (h : (forM l act).exec s = (.error e, t)) :
    ∃ done' u, ∃ a ∈ l, M done' u ∧ (act a).exec u = (.error e, t) := by
  induction l generalizing done s with
  | nil =>
      rw [List.forM_nil, exec_pure] at h
      cases h
  | cons a l ih =>
      rw [List.forM_cons] at h
      cases hexec : (act a).exec s with
      | mk outcome u =>
          cases outcome with
          | error e' =>
              rw [exec_bind_error hexec] at h
              cases h
              exact ⟨done, s, a, List.mem_cons_self, hs, hexec⟩
          | ok _ =>
              rw [exec_bind_ok hexec] at h
              obtain ⟨done', v, b, hb, hM, hthrow⟩ := ih (hact done a s u hs hexec) h
              exact ⟨done', v, b, List.mem_cons_of_mem _ hb, hM, hthrow⟩

theorem exec_forM_append (l l' : List α) (s : σ) :
    (forM (l ++ l') act).exec s = match (forM l act).exec s with
      | (.ok _, t) => (forM l' act).exec t
      | (.error e, t) => (.error e, t) := by
  rw [List.forM_append, exec_bind]
  cases (forM l act).exec s with
  | mk outcome t => cases outcome <;> rfl

/-- If a loop returns, so does the loop over the first part of its list. -/
theorem Returns.of_append {l l' : List α} {s : σ} (h : (forM (l ++ l') act).Returns s) :
    (forM l act).Returns s := by
  obtain ⟨a, h⟩ := h
  rw [exec_forM_append] at h
  cases hexec : (forM l act).exec s with
  | mk outcome t =>
      cases outcome with
      | ok _ => exact ⟨⟨⟩, congrArg Prod.fst hexec⟩
      | error e =>
          rw [hexec] at h
          cases h

/-- What each pass that a loop gets to does to the state, the loop does. -/
theorem forM_related {R : σ → σ → Prop} (hrefl : ∀ s, R s s)
    (htrans : ∀ {s t u}, R s t → R t u → R s u) {l : List α} {s : σ}
    (hact : ∀ front a back u, l = front ++ a :: back → (forM front act).exec s = (.ok ⟨⟩, u) →
      R u ((act a).exec u).2) : R s ((forM l act).exec s).2 := by
  suffices h : ∀ rest done u, l = done ++ rest → (forM done act).exec s = (.ok ⟨⟩, u) →
      R u ((forM rest act).exec u).2 from h l [] s rfl rfl
  intro rest
  induction rest with
  | nil => exact fun _ u _ _ => hrefl u
  | cons a rest ih =>
      intro done u hl hdone
      have hpass := hact done a rest u hl hdone
      rw [List.forM_cons]
      cases hexec : (act a).exec u with
      | mk outcome t =>
          rw [hexec] at hpass
          cases outcome with
          | error e => rwa [exec_bind_error hexec]
          | ok _ =>
              have hdone' : (forM (done ++ [a]) act).exec s = (.ok ⟨⟩, t) := by
                rw [exec_forM_append, hdone]
                change (forM [a] act).exec u = _
                rw [List.forM_cons, exec_bind_ok hexec]
                rfl
              rw [exec_bind_ok hexec]
              exact htrans hpass (ih (done ++ [a]) t (by simp [hl]) hdone')

/-- A loop returns if every pass would return at the start and no pass stands in the
way of a later one: `hafter` says what a pass takes away from the others. -/
theorem returns_forM_iff {I : σ → Prop} {A : σ → α → Prop} {C : α → α → Prop} {l : List α}
    (hpass : ∀ s, ∀ a ∈ l, I s → ((act a).Returns s ↔ A s a))
    (hafter : ∀ s t, ∀ a ∈ l, I s → (act a).exec s = (.ok ⟨⟩, t) →
      I t ∧ ∀ b, A t b ↔ A s b ∧ C a b)
    {s : σ} (hs : I s) : (forM l act).Returns s ↔ (∀ a ∈ l, A s a) ∧ l.Pairwise C := by
  induction l generalizing s with
  | nil => simp
  | cons a l ih =>
      have hmem : a ∈ a :: l := List.mem_cons_self
      have ih' := @ih (fun s b hb => hpass s b (List.mem_cons_of_mem _ hb))
        (fun s t b hb => hafter s t b (List.mem_cons_of_mem _ hb))
      rw [List.forM_cons, returns_bind_iff, List.forall_mem_cons, List.pairwise_cons]
      constructor
      · rintro ⟨_, t, hexec, hrest⟩
        obtain ⟨ht, hb⟩ := hafter s t a hmem hs hexec
        obtain ⟨hall, hpair⟩ := (ih' ht).mp hrest
        have ha : A s a := (hpass s a hmem hs).mp ⟨⟨⟩, by rw [hexec]⟩
        exact ⟨⟨ha, fun b hmem => ((hb b).mp (hall b hmem)).1⟩,
          fun b hmem => ((hb b).mp (hall b hmem)).2, hpair⟩
      · rintro ⟨⟨ha, hall⟩, hC, hpair⟩
        obtain ⟨_, hok⟩ := (hpass s a hmem hs).mpr ha
        have hexec : (act a).exec s = (.ok ⟨⟩, ((act a).exec s).2) := Prod.ext hok rfl
        obtain ⟨ht, hb⟩ := hafter s _ a hmem hs hexec
        refine ⟨⟨⟩, _, hexec, (ih' ht).mpr ⟨fun b hmem => ?_, hpair⟩⟩
        exact (hb b).mpr ⟨hall b hmem, hC b hmem⟩

end Loop

end Proc
