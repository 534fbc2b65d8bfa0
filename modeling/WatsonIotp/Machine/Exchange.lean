import Mathlib.Logic.Function.Basic

/-!
# Handing over in two steps

Whoever hands over a value that must not come twice offers it under a key at first, as often as
it takes, and then releases the key, again as often as it takes. The receiver keeps the last value
that was offered under a key, and passes it on when the key is released; a key under which nothing
is kept passes nothing on. Values that may come twice are passed on at once.

Repeating a step passes nothing on as long as the same key has not moved on (`Repeats.passed`).
-/

namespace Exchange

/-- What the receiver is told. -/
inductive Event (κ α : Type*) where
  | once (a : α)
  | offer (key : κ) (a : α)
  | release (key : κ)

variable {κ α : Type*}

/-- The key that an event is about. -/
def Event.key : Event κ α → Option κ
  | .once _ => none
  | .offer key _ => some key
  | .release key => some key

variable [DecidableEq κ]

/-- What is kept after an event. -/
def next (store : κ → Option α) : Event κ α → κ → Option α
  | .once _ => store
  | .offer key a => Function.update store key (some a)
  | .release key => Function.update store key none

/-- What is passed on at an event. -/
def out (store : κ → Option α) : Event κ α → List α
  | .once a => [a]
  | .offer _ _ => []
  | .release key => (store key).toList

/-- What is kept after the events. -/
def held (store : κ → Option α) (events : List (Event κ α)) : κ → Option α :=
  events.foldl next store

/-- What is passed on at the events. -/
def passed (store : κ → Option α) : List (Event κ α) → List α
  | [] => []
  | event :: events => out store event ++ passed (next store event) events

theorem held_append (store : κ → Option α) (events more : List (Event κ α)) :
    held store (events ++ more) = held (held store events) more :=
  List.foldl_append

theorem passed_append (store : κ → Option α) (events more : List (Event κ α)) :
    passed store (events ++ more) = passed store events ++ passed (held store events) more := by
  induction events generalizing store with
  | nil => rfl
  | cons event events ih =>
      show out store event ++ passed _ (events ++ more) =
        (out store event ++ passed _ events) ++ _
      rw [ih, List.append_assoc]
      rfl

/-- Nothing is kept under any key. -/
def empty : κ → Option α := fun _ => none

/-! ### Keeping less -/

/-- What the first receiver keeps, the second one keeps too. -/
def Within (store store' : κ → Option α) : Prop :=
  ∀ key a, store key = some a → store' key = some a

theorem within_next {store store' : κ → Option α} (h : Within store store')
    (event : Event κ α) : Within (next store event) (next store' event) := by
  cases event with
  | once a => exact h
  | offer key a =>
      intro other b hb
      obtain rfl | hne := eq_or_ne other key
      · have hsame : some a = some b := by simpa [next] using hb
        show Function.update store' other (some a) other = some b
        rw [Function.update_self, hsame]
      · show Function.update store' key (some a) other = some b
        rw [Function.update_of_ne hne]
        exact h other b (by simpa [next, hne] using hb)
  | release key =>
      intro other b hb
      obtain rfl | hne := eq_or_ne other key
      · exact absurd hb (by simp [next])
      · show Function.update store' key none other = some b
        rw [Function.update_of_ne hne]
        exact h other b (by simpa [next, hne] using hb)

omit [DecidableEq κ] in
theorem out_sublist {store store' : κ → Option α} (h : Within store store')
    (event : Event κ α) : (out store event).Sublist (out store' event) := by
  cases event with
  | once a => exact List.Sublist.refl _
  | offer key a => exact List.Sublist.refl _
  | release key =>
      show (store key).toList.Sublist (store' key).toList
      cases hkey : store key with
      | none => exact List.nil_sublist _
      | some a => exact h key a hkey ▸ List.Sublist.refl _

theorem held_within {store store' : κ → Option α} (h : Within store store')
    (events : List (Event κ α)) : Within (held store events) (held store' events) := by
  induction events generalizing store store' with
  | nil => exact h
  | cons event events ih => exact ih (within_next h event)

/-- Who keeps less passes less on, and nothing else. -/
theorem passed_sublist {store store' : κ → Option α} (h : Within store store')
    (events : List (Event κ α)) : (passed store events).Sublist (passed store' events) := by
  induction events generalizing store store' with
  | nil => exact List.Sublist.refl _
  | cons event events ih => exact (out_sublist h event).append (ih (within_next h event))

/-! ### Repetitions -/

/-- An event that would change nothing. -/
def Settled (store : κ → Option α) (event : Event κ α) : Prop :=
  next store event = store ∧ out store event = []

/-- What an event on a key leaves is settled for it. -/
theorem settled_next {event : Event κ α} (h : event.key ≠ none) (store : κ → Option α) :
    Settled (next store event) event := by
  cases event with
  | once a => exact absurd rfl h
  | offer key a =>
      constructor
      · show Function.update (Function.update store key (some a)) key (some a) = _
        rw [Function.update_idem]
        rfl
      · rfl
  | release key =>
      constructor
      · show Function.update (Function.update store key none) key none = _
        rw [Function.update_idem]
        rfl
      · show (Function.update store key none key).toList = []
        rw [Function.update_self]
        rfl

/-- Only what is kept under its key matters to an event. -/
theorem Settled.congr {store store' : κ → Option α} {event : Event κ α} (h : Settled store event)
    (hkey : ∀ key, event.key = some key → store' key = store key) : Settled store' event := by
  cases event with
  | once a => exact absurd h.2 (List.cons_ne_nil a [])
  | offer key a =>
      have hsame : store key = some a := by
        rw [← h.1]
        exact Function.update_self key _ store
      refine ⟨?_, rfl⟩
      show Function.update store' key (some a) = store'
      rw [← hsame, ← hkey key rfl, Function.update_eq_self]
  | release key =>
      have hsame : store key = none := by
        rw [← h.1]
        exact Function.update_self key _ store
      constructor
      · show Function.update store' key none = store'
        rw [← hsame, ← hkey key rfl, Function.update_eq_self]
      · show (store' key).toList = []
        rw [hkey key rfl, hsame]
        rfl

/-- The other keys keep what they have. -/
theorem held_other {key : κ} {events : List (Event κ α)}
    (h : ∀ event ∈ events, event.key ≠ some key) (store : κ → Option α) :
    held store events key = store key := by
  induction events generalizing store with
  | nil => rfl
  | cons event events ih =>
      rw [List.forall_mem_cons] at h
      show held (next store event) events key = store key
      rw [ih h.2]
      cases event with
      | once a => rfl
      | offer other a => exact Function.update_of_ne (fun he => h.1 (congrArg some he.symm)) _ _
      | release other => exact Function.update_of_ne (fun he => h.1 (congrArg some he.symm)) _ _

/-- The second history is the first one with events told again, each before the next other event
on its key. -/
inductive Repeats : List (Event κ α) → List (Event κ α) → Prop where
  | refl (events) : Repeats events events
  | again {events front mid back : List (Event κ α)} {event : Event κ α}
      (first : Repeats events (front ++ event :: (mid ++ back))) (keyed : event.key ≠ none)
      (others : ∀ other ∈ mid, other.key ≠ event.key) :
      Repeats events (front ++ event :: (mid ++ event :: back))

/-- An event that is told again passes nothing on. -/
theorem passed_again {mid : List (Event κ α)} {event : Event κ α} (h : event.key ≠ none)
    (others : ∀ other ∈ mid, other.key ≠ event.key) (store : κ → Option α)
    (back : List (Event κ α)) :
    passed store (event :: (mid ++ event :: back)) = passed store (event :: (mid ++ back)) := by
  have hsettled : Settled (held (next store event) mid) event := by
    apply (settled_next h store).congr
    intro key hkey
    exact held_other (fun other hother => hkey ▸ others other hother) _
  show out store event ++ passed _ (mid ++ event :: back) =
    out store event ++ passed _ (mid ++ back)
  rw [passed_append, passed_append]
  show _ ++ (_ ++ (out _ event ++ passed (next _ event) back)) = _
  rw [hsettled.1, hsettled.2]
  rfl

/-- Repetitions pass nothing on. -/
theorem Repeats.passed {events events' : List (Event κ α)} (h : Repeats events events')
    (store : κ → Option α) : passed store events' = passed store events := by
  induction h with
  | refl => rfl
  | again _ keyed others ih =>
      rw [← ih, passed_append, passed_append, passed_again keyed others]

end Exchange
