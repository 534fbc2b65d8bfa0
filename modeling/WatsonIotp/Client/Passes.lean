import WatsonIotp.Client.Acceptance
import Mathlib.Data.List.Nodup
import Mathlib.Data.List.TakeWhile

/-!
# The handlers that a message gets to

`message_arrived` goes through the handlers of the topic in the order of their
registration, and an exception ends the loop. A message is therefore passed to
the handlers that are registered on the topic itself, up to the first that throws.
-/

open Json

namespace Callback

variable {ι D : Type} [DecidableEq ι] [CxxDouble D]

/-- The loop of `message_arrived` gets to a handler, and calls it. -/
def PassedTo (s : Callback ι D) (m : Arrival ι D) (i : ι) : Prop :=
  ∃ front call back, s.calls m = front ++ call :: back ∧ call.1 = i ∧
    (forM front (pass true m)).Returns s.counted ∧ ∃ v, Reader.parse (D := D) m.payload = .ok v

/-- The calls that come before that of a handler. -/
def ahead (s : Callback ι D) (m : Arrival ι D) (i : ι) : List (ι × Hooks D) :=
  (s.calls m).takeWhile fun call => decide (call.1 ≠ i)

/-- The handlers that are registered ahead of this one accept the message, and it is not
nested so deeply that the parser throws. -/
def Unobstructed (s : Callback ι D) (m : Arrival ι D) (i : ι) : Prop :=
  match Reader.parse m.payload with
  | .error _ => False
  | .ok none => ∀ call ∈ s.ahead m i, (s.handler call.1).role ≠ .devAttribute
  | .ok (some v) =>
      (∀ call ∈ s.ahead m i, (s.handler call.1).Accepts call.2 m.topic v ∧
          (s.handler call.1).Answers call.2 m.topic v) ∧
        (s.ahead m i).Pairwise fun call call' => ¬ s.Clash m call call'

variable {s : Callback ι D} {m : Arrival ι D} {i : ι}

omit [CxxDouble D] in
/-- A handler that is registered on the topic has a call, right behind those ahead of it. -/
theorem exists_calls_eq (h : (m.topic, i) ∈ s.mHandlers) :
    ∃ call back, s.calls m = s.ahead m i ++ call :: back ∧ call.1 = i := by
  obtain ⟨call, hcall, hi⟩ := exists_mem_calls h
  have hsplit := List.takeWhile_append_dropWhile
    (p := fun call : ι × Hooks D => decide (call.1 ≠ i)) (l := s.calls m)
  cases hback : (s.calls m).dropWhile fun call => decide (call.1 ≠ i) with
  | nil =>
      have hall := List.dropWhile_eq_nil_iff.mp hback call hcall
      simp [hi] at hall
  | cons call' back =>
      have hfirst := List.head_dropWhile_not (fun call : ι × Hooks D => decide (call.1 ≠ i))
        (l := s.calls m) (by rw [hback]; exact List.cons_ne_nil _ _)
      simp only [hback, List.head_cons, decide_eq_false_iff_not, not_not] at hfirst
      exact ⟨call', back, by rw [ahead, ← hback, hsplit], hfirst⟩

/-- Nothing is in the way of a message from which the handlers ahead return. -/
theorem unobstructed_iff : s.Unobstructed m i ↔
    (forM (s.ahead m i) (pass true m)).Returns s.counted ∧
      ∃ v, Reader.parse (D := D) m.payload = .ok v := by
  rw [Unobstructed]
  by_cases hahead : s.ahead m i = []
  · have hreturns : (forM (s.ahead m i) (pass true m)).Returns s.counted := by
      rw [hahead]
      exact ⟨⟨⟩, rfl⟩
    rw [and_iff_right hreturns, hahead]
    cases Reader.parse (D := D) m.payload with
    | error e => simp
    | ok v => cases v <;> simp
  · rw [loop_returns_iff hahead]
    cases Reader.parse (D := D) m.payload with
    | error e => simp
    | ok v => exact (and_iff_left ⟨v, rfl⟩).symm

/-- A message gets to the handlers of its topic that have nothing in their way. -/
theorem passedTo_iff : s.PassedTo m i ↔ (m.topic, i) ∈ s.mHandlers ∧ s.Unobstructed m i := by
  constructor
  · rintro ⟨front, call, back, hcalls, hi, hreturns, hparse⟩
    have hmem : call ∈ s.calls m := by simp [hcalls]
    refine ⟨hi ▸ (of_mem_calls hmem).1, unobstructed_iff.mpr ⟨?_, hparse⟩⟩
    obtain ⟨rest, hrest⟩ : s.ahead m i <+: front := by
      rw [ahead, hcalls, List.takeWhile_append]
      split
      · simp [hi]
      · exact List.takeWhile_prefix _
    rw [← hrest] at hreturns
    exact hreturns.of_append
  · rintro ⟨hmem, hfree⟩
    obtain ⟨hreturns, hparse⟩ := unobstructed_iff.mp hfree
    obtain ⟨call, back, hcalls, hi⟩ := exists_calls_eq hmem
    exact ⟨_, call, back, hcalls, hi, hreturns, hparse⟩

/-! ### How often a handler is called -/

/-- The handlers that the loop over some calls gets to, up to the first that throws. -/
def reached (m : Arrival ι D) : List (ι × Hooks D) → Callback ι D → List ι
  | [], _ => []
  | call :: calls, s => call.1 ::
      match (pass true m call).exec s with
      | (.ok _, t) => reached m calls t
      | (.error _, _) => []

/-- The handlers that a message is passed to, as often as it is. -/
def handedTo (s : Callback ι D) (m : Arrival ι D) : List ι :=
  match Reader.parse (D := D) m.payload with
  | .ok _ => reached m (s.calls m) s.counted
  | .error _ => []

theorem reached_isPrefix (calls : List (ι × Hooks D)) (s : Callback ι D) :
    reached m calls s <+: calls.map Prod.fst := by
  induction calls generalizing s with
  | nil => exact List.prefix_rfl
  | cons call calls ih =>
      rw [reached, List.map_cons, List.prefix_cons_inj]
      split
      · next t _ => exact ih t
      · exact List.nil_prefix

theorem mem_reached_iff {calls : List (ι × Hooks D)} {s : Callback ι D} :
    i ∈ reached m calls s ↔ ∃ front call back, calls = front ++ call :: back ∧ call.1 = i ∧
      (forM front (pass true m)).Returns s := by
  induction calls generalizing s with
  | nil => simp [reached]
  | cons first calls ih =>
      rw [reached, List.mem_cons]
      constructor
      · rintro (rfl | hmem)
        · exact ⟨[], first, calls, rfl, rfl, ⟨⟨⟩, rfl⟩⟩
        · split at hmem
          · next t hexec =>
              obtain ⟨front, call, back, rfl, hi, hreturns⟩ := ih.mp hmem
              refine ⟨first :: front, call, back, rfl, hi, ?_⟩
              rw [List.forM_cons, Proc.returns_bind_iff]
              exact ⟨⟨⟩, t, hexec, hreturns⟩
          · cases hmem
      · rintro ⟨front, call, back, hcalls, hi, hreturns⟩
        cases front with
        | nil =>
            cases hcalls
            exact .inl hi.symm
        | cons first' front =>
            cases hcalls
            rw [List.forM_cons, Proc.returns_bind_iff] at hreturns
            obtain ⟨_, t, hexec, hreturns⟩ := hreturns
            right
            rw [hexec]
            exact ih.mpr ⟨front, call, back, rfl, hi, hreturns⟩

/-- These are the handlers that the message is passed to. -/
theorem mem_handedTo_iff : i ∈ s.handedTo m ↔ s.PassedTo m i := by
  rw [handedTo, PassedTo]
  cases hparse : Reader.parse (D := D) m.payload with
  | error e => simp
  | ok v =>
      rw [mem_reached_iff]
      simp

omit [DecidableEq ι] [CxxDouble D] in
theorem map_fst_calls : (s.calls m).map Prod.fst = s.equalRange m.topic := by
  apply List.ext_getElem?
  intro k
  rw [calls, List.getElem?_map, List.getElem?_mapIdx, Option.map_map]
  exact Option.map_id'

omit [DecidableEq ι] [CxxDouble D] in
/-- Handlers that are registered once on a topic are found once. -/
theorem nodup_equalRange (h : s.mHandlers.Nodup) (topic : StdString) :
    (s.equalRange topic).Nodup := by
  apply (h.filter _).map_on
  rintro ⟨topic₁, i₁⟩ h₁ ⟨topic₂, i₂⟩ h₂ rfl
  simp only [List.mem_filter, decide_eq_true_eq] at h₁ h₂
  rw [h₁.2, h₂.2]

/-- Without a pair twice in `mHandlers`, no message is passed to a handler twice. -/
theorem nodup_handedTo (h : s.mHandlers.Nodup) : (s.handedTo m).Nodup := by
  rw [handedTo]
  split
  · apply (reached_isPrefix _ _).sublist.nodup
    rw [map_fst_calls]
    exact nodup_equalRange h m.topic
  · exact List.nodup_nil

end Callback
