import WatsonIotp.Concurrency.Response

/-!
# Responses that stay

A response leaves `mResponseMessages` in one way only: a wait for its id finds it. One that
arrives when no such wait is left to come, or whose wait ends by its timeout, stays for good.
`noResidue_of_punctual` says which runs leave nothing behind.

The destructor goes over the map and erases each element before it advances the iterator
past it, so it is well defined for an empty map only.
-/

open Json

namespace ResponseWait

open ResponseHandler

/-- The destructor of `IOTP_ResponseHandler`; `none` where it advances an iterator whose
element is erased. -/
def destroy {D : Type} (messages : ResponseMessages D) : Option (ResponseMessages D) :=
  match messages.entries with
  | [] => some messages
  | _ :: _ => none

variable {τ D : Type}

/-- The thread has sent the request `r`, and its wait has not returned. -/
def Phase.Pending (r : StdString) : Phase D → Prop
  | .requested _ r' | .waiting _ r' _ => r' = r
  | .idle | .returned .. | .notifying | .failed => False

/-- Some wait for `r` is still to return. -/
def Outstanding (s : State τ D) (r : StdString) : Prop := ∃ t, (s.phase t).Pending r

/-- When every request has had its wait return, no response is stored, and the destructor
has nothing to do. -/
def NoResidue (s : State τ D) : Prop :=
  (∀ r, ¬ Outstanding s r) →
    s.mResponseMessages = ∅ ∧ destroy s.mResponseMessages = some s.mResponseMessages

/-- Every stored response is for a request whose wait is still to return. -/
def Awaited (s : State τ D) : Prop := ∀ r ∈ s.mResponseMessages, Outstanding s r

theorem Awaited.noResidue {s : State τ D} (h : Awaited s) : NoResidue s := by
  intro hnone
  have hempty : s.mResponseMessages = ∅ := by
    apply AList.ext
    apply List.eq_nil_iff_forall_not_mem.mpr
    intro entry hentry
    exact hnone entry.1 (h entry.1 (List.mem_keys_of_mem hentry))
  exact ⟨hempty, by rw [hempty]; rfl⟩

variable [DecidableEq τ] [CxxDouble D]

/-- A response arrives for a request whose wait is still to return, and a wait that ends by
its timeout leaves no response behind that nobody else waits for. -/
def Punctual (s : State τ D) : Action τ D → Prop
  | .arrive _ jsonPayload => ∀ r, reqId jsonPayload = .ok r → r ≠ [] → Outstanding s r
  | .resume t timedOut => timedOut = true → ∀ r ∈ s.mResponseMessages,
      (s.phase t).Pending r → ∃ t', t' ≠ t ∧ (s.phase t').Pending r
  | _ => True

/-! ### Who moves when -/

theorem phase_of_arrive {s u : State τ D} {t : τ} {jsonPayload : Value D}
    (h : machine.step s (.arrive t jsonPayload) = some u) : s.phase t = .idle := by
  change arrive s t jsonPayload = some u at h
  unfold arrive at h
  split at h
  · assumption
  · cases h

theorem phase_of_notify {s u : State τ D} {t : τ} (h : machine.step s (.notify t) = some u) :
    s.phase t = .notifying := by
  change notify s t = some u at h
  unfold notify at h
  split at h
  · assumption
  · cases h

theorem phase_of_request {s u : State τ D} {t : τ} {c : Caller} {r : StdString}
    (h : machine.step s (.request t c r) = some u) : s.phase t = .idle := by
  change request s t c r = some u at h
  unfold request at h
  split at h
  · assumption
  · assumption
  · cases h

/-! ### Nothing is left behind -/

omit [CxxDouble D] in
/-- One thread moves. What is stored afterwards was awaited before, and still is. -/
theorem Awaited.move {s u : State τ D} {t : τ} {p : Phase D}
    (hphase : u.phase = Function.update s.phase t p)
    (hbefore : ∀ r ∈ u.mResponseMessages, Outstanding s r)
    (hafter : ∀ r ∈ u.mResponseMessages, (s.phase t).Pending r →
      p.Pending r ∨ ∃ t', t' ≠ t ∧ (s.phase t').Pending r) : Awaited u := by
  intro r hr
  have hother : ∀ t', t' ≠ t → (s.phase t').Pending r → Outstanding u r := by
    intro t' hne hpending
    exact ⟨t', by rwa [hphase, Function.update_of_ne hne]⟩
  obtain ⟨t', hpending⟩ := hbefore r hr
  by_cases hne : t' = t
  · subst hne
    obtain hp | ⟨t'', hne, hpending⟩ := hafter r hr hpending
    · exact ⟨t', by rwa [hphase, Function.update_self]⟩
    · exact hother t'' hne hpending
  · exact hother t' hne hpending

omit [CxxDouble D] in
/-- A thread that waits for nothing moves. -/
theorem Awaited.move_free {s u : State τ D} {t : τ} {p : Phase D}
    (hphase : u.phase = Function.update s.phase t p)
    (hbefore : ∀ r ∈ u.mResponseMessages, Outstanding s r)
    (hfree : ∀ r, ¬ (s.phase t).Pending r) : Awaited u :=
  move hphase hbefore fun r _ hpending => absurd hpending (hfree r)

/-- The step lemma: a punctual step leaves only responses that are awaited. -/
theorem Awaited.step {s u : State τ D} {a : Action τ D} (hs : Awaited s) (ha : Punctual s a)
    (h : machine.step s a = some u) : Awaited u := by
  cases steps_of_step h with
  | tick | woken | refused => exact hs
  | @stored t jsonPayload r hid hne =>
      refine move_free rfl (fun r' hr' => ?_) (by rw [phase_of_arrive h]; exact fun _ => id)
      obtain rfl | hr' := (AList.mem_insert _).mp hr'
      · exact ha r' hid hne
      · exact hs r' hr'
  | ignored | thrown => exact move_free rfl hs (by rw [phase_of_arrive h]; exact fun _ => id)
  | notified => exact move_free rfl hs (by rw [phase_of_notify h]; exact fun _ => id)
  | requested => exact move_free rfl hs (by rw [phase_of_request h]; exact fun _ => id)
  | abandoned hphase | answered hphase =>
      exact move_free rfl hs (by rw [hphase]; exact fun _ => id)
  | blocked hphase =>
      refine move rfl hs fun r _ hpending => .inl ?_
      rwa [hphase] at hpending
  | timedOut hphase =>
      exact move rfl hs fun r hr hpending => .inr (ha rfl r hr hpending)
  | @found t c r deadline res monitor hphase hlookup =>
      -- The response that the wait was for is gone.
      refine move rfl (fun r' hr' => hs r' (AList.mem_erase.mp hr').2) fun r' hr' hpending => ?_
      rw [hphase] at hpending
      exact absurd hpending.symm (AList.mem_erase.mp hr').1
  | @missed t c r deadline monitor hphase hlookup =>
      refine move rfl hs fun r' hr' hpending => ?_
      rw [hphase] at hpending
      exact absurd (hpending ▸ hr') (AList.lookup_eq_none.mp hlookup)

/-- In a run in which responses arrive for waits that are still to return, and no wait ends by
its timeout with its response stored, none is stored when all waits have returned. -/
theorem noResidue_of_punctual {s : State τ D} {acts : List (Action τ D)}
    (hr : machine.Run .initial acts s) (hc : machine.Along Punctual State.initial acts) :
    NoResidue s := by
  have hawaited : Awaited s := by
    apply hr.invariant_along (I := Awaited) _ hc
    · intro r hr
      exact absurd hr (AList.notMem_empty r)
    · exact fun _ _ _ hs ha h => hs.step ha h
  exact hawaited.noResidue

/-- The response arrives while thread 0 waits for it, and is taken. -/
theorem noResidue_101 :
    let acts : List (Action Nat Int) := [.request 0 .pushManageMessage "101".toList, .block 0,
      .arrive 1 response101, .notify 1, .resume 0 false, .finish 0 true]
    ∃ s, machine.Run .initial acts s ∧ NoResidue s := by
  intro acts
  have hr : machine.Run .initial acts _ := Machine.Run.exec_iff.mp rfl
  have hc : machine.Along Punctual (.initial : State Nat Int) acts := by
    iterate 2 refine (Machine.along_cons rfl).mpr ⟨trivial, ?_⟩
    refine (Machine.along_cons rfl).mpr ⟨?_, ?_⟩
    · intro r hid _
      cases hid
      exact ⟨0, rfl⟩
    · refine (Machine.along_cons rfl).mpr ⟨trivial, ?_⟩
      refine (Machine.along_cons rfl).mpr ⟨nofun, ?_⟩
      exact (Machine.along_cons rfl).mpr ⟨trivial, trivial⟩
  exact ⟨_, hr, noResidue_of_punctual hr hc⟩

/-- The wait times out, and the response arrives after it. -/
theorem noResidue_fails : ¬ ∀ (acts : List (Action Bool Int)) (s : State Bool Int),
    machine.Run .initial acts s → NoResidue s := by
  intro h
  have hexec : ∃ s, machine.exec (.initial : State Bool Int)
      [.request false .pushManageMessage "101".toList, .block false, .tick 10000, .wake false,
        .resume false true, .finish false true, .arrive true response101, .notify true] = some s ∧
      (∀ t, s.phase t = .idle) ∧ s.mResponseMessages.lookup "101".toList = some response101 :=
    ⟨_, rfl, fun | false => rfl | true => rfl, rfl⟩
  obtain ⟨s, hexec, hidle, hstored⟩ := hexec
  have hempty := (h _ s (Machine.Run.exec_iff.mp hexec) (by
    rintro r ⟨t, hpending⟩
    rwa [hidle t] at hpending)).1
  rw [hempty, AList.lookup_empty] at hstored
  cases hstored

end ResponseWait
