import Mathlib.Logic.Function.Basic
import Mathlib.Tactic.SplitIfs

/-!
# Objects with shared owners

An object lives as long as somebody refers to it, and its address is used again when it is
gone. So an address does not tell which object is meant; the number that each object gets
when it is made does. `Heap.Wf` relates a heap to the references that there are: an
address has an object exactly if it is referred to.
-/

/-- Objects at addresses, each with its number. -/
structure Heap (α β : Type*) where
  /-- How many objects have been made. -/
  made : Nat
  cells : α → Option (Nat × β)

namespace Heap

variable {α β : Type*}

def empty : Heap α β := ⟨0, fun _ => none⟩

/-- The object at an address. -/
def get (h : Heap α β) (a : α) : Option β := (h.cells a).map Prod.snd

/-- The number of the object at an address. -/
def number (h : Heap α β) (a : α) : Option Nat := (h.cells a).map Prod.fst

/-- The object of that number is at the address. -/
def At (h : Heap α β) (a : α) (n : Nat) : Prop := h.number a = some n

theorem At.isSome {h : Heap α β} {a : α} {n : Nat} (hat : h.At a n) : (h.cells a).isSome := by
  obtain ⟨c, hc, -⟩ := Option.map_eq_some_iff.mp hat
  rw [hc]
  rfl

theorem At.exists_get {h : Heap α β} {a : α} {n : Nat} (hat : h.At a n) :
    ∃ b, h.cells a = some (n, b) ∧ h.get a = some b := by
  obtain ⟨⟨m, b⟩, hc, rfl⟩ := Option.map_eq_some_iff.mp hat
  exact ⟨b, hc, by rw [get, hc]; rfl⟩

/-- The references that there are keep the objects alive, and no others are; numbers have
been given out once. -/
structure Wf (h : Heap α β) (refs : List α) : Prop where
  live : ∀ a, (h.cells a).isSome ↔ a ∈ refs
  lt : ∀ a n, h.At a n → n < h.made
  inj : ∀ a a' n, h.At a n → h.At a' n → a = a'

theorem wf_empty : (empty : Heap α β).Wf [] where
  live a := ⟨fun h => (by cases h), fun h => absurd h List.not_mem_nil⟩
  lt a n h := by cases h
  inj a a' n h := by cases h

theorem Wf.exists_at {h : Heap α β} {refs : List α} (hw : h.Wf refs) {a : α} (ha : a ∈ refs) :
    ∃ n, h.At a n := by
  obtain ⟨c, hc⟩ := Option.isSome_iff_exists.mp ((hw.live a).mpr ha)
  exact ⟨c.1, by rw [At, number, hc]; rfl⟩

theorem Wf.mem_of_at {h : Heap α β} {refs : List α} (hw : h.Wf refs) {a : α} {n : Nat}
    (hat : h.At a n) : a ∈ refs := (hw.live a).mp hat.isSome

/-- Other references to the same objects. -/
theorem Wf.congr {h : Heap α β} {refs refs' : List α} (hw : h.Wf refs)
    (hsame : ∀ a, a ∈ refs' ↔ a ∈ refs) : h.Wf refs' where
  live a := (hw.live a).trans (hsame a).symm
  lt := hw.lt
  inj := hw.inj

variable [DecidableEq α]

/-- Make an object at an address that is free. -/
def alloc (h : Heap α β) (a : α) (b : β) : Heap α β :=
  ⟨h.made + 1, Function.update h.cells a (some (h.made, b))⟩

/-- Change the object at an address. -/
def modify (h : Heap α β) (a : α) (f : β → β) : Heap α β :=
  { h with cells := Function.update h.cells a ((h.cells a).map fun c => (c.1, f c.2)) }

/-- Destroy the object at an address that a reference has gone from, if it was the last. -/
def release (h : Heap α β) (refs : List α) (a : α) : Heap α β :=
  if a ∈ refs then h else { h with cells := Function.update h.cells a none }

section Alloc

variable {h : Heap α β} {a : α} (b : β)

theorem cells_alloc (x : α) :
    (h.alloc a b).cells x = if x = a then some (h.made, b) else h.cells x :=
  Function.update_apply _ _ _ _

theorem number_alloc (x : α) :
    (h.alloc a b).number x = if x = a then some h.made else h.number x := by
  rw [number, cells_alloc]
  split <;> rfl

theorem at_alloc_self : (h.alloc a b).At a h.made := (number_alloc b a).trans (if_pos rfl)

theorem At.alloc {x : α} {n : Nat} (hat : h.At x n) (hfree : h.cells a = none) :
    (h.alloc a b).At x n := by
  have hne : x ≠ a := by
    rintro rfl
    have hsome := hat.isSome
    rw [hfree] at hsome
    cases hsome
  rwa [At, number_alloc, if_neg hne]

theorem Wf.alloc {refs refs' : List α} (hw : h.Wf refs)
    (hrefs : ∀ x, x ∈ refs' ↔ x = a ∨ x ∈ refs) : (h.alloc a b).Wf refs' where
  live x := by
    rw [hrefs x, ← hw.live x, cells_alloc]
    split_ifs with hx
    · exact iff_of_true rfl (.inl hx)
    · exact (or_iff_right hx).symm
  lt x n hat := by
    rw [At, number_alloc] at hat
    split_ifs at hat with hx
    · cases hat
      exact Nat.lt_succ_self _
    · exact Nat.lt_succ_of_lt (hw.lt x n hat)
  inj x y n hx hy := by
    rw [At, number_alloc] at hx hy
    split_ifs at hx hy with hxa hya hya
    · exact hxa.trans hya.symm
    · cases hx
      exact absurd (hw.lt y _ hy) (Nat.lt_irrefl _)
    · cases hy
      exact absurd (hw.lt x _ hx) (Nat.lt_irrefl _)
    · exact hw.inj x y n hx hy

end Alloc

section Modify

variable {h : Heap α β} {a : α} (f : β → β)

theorem cells_modify (x : α) : (h.modify a f).cells x =
    if x = a then (h.cells a).map fun c => (c.1, f c.2) else h.cells x :=
  Function.update_apply _ _ _ _

theorem number_modify (x : α) : (h.modify a f).number x = h.number x := by
  rw [number, cells_modify]
  split_ifs with hx
  · rw [hx, Option.map_map]
    rfl
  · rfl

theorem at_modify {x : α} {n : Nat} : (h.modify a f).At x n ↔ h.At x n := by
  rw [At, number_modify, At]

theorem Wf.modify {refs : List α} (hw : h.Wf refs) : (h.modify a f).Wf refs where
  live x := by
    have hnumber := congrArg Option.isSome (number_modify (h := h) (a := a) f x)
    rw [number, number, Option.isSome_map, Option.isSome_map] at hnumber
    rw [hnumber]
    exact hw.live x
  lt x n hat := hw.lt x n ((at_modify f).mp hat)
  inj x y n hx hy := hw.inj x y n ((at_modify f).mp hx) ((at_modify f).mp hy)

end Modify

section Release

variable {h : Heap α β} {a : α} {refs : List α}

theorem cells_release (x : α) : (h.release refs a).cells x =
    if x = a ∧ a ∉ refs then none else h.cells x := by
  unfold release
  by_cases ha : a ∈ refs
  · rw [if_pos ha, if_neg fun hx => hx.2 ha]
  · rw [if_neg ha]
    by_cases hx : x = a
    · subst hx
      rw [if_pos ⟨rfl, ha⟩]
      exact Function.update_self _ _ _
    · rw [if_neg fun hx' => hx hx'.1]
      exact Function.update_of_ne hx _ _

@[simp] theorem made_release : (h.release refs a).made = h.made := by
  unfold release
  split <;> rfl

theorem cells_of_release {x : α} {c : Nat × β} (hc : (h.release refs a).cells x = some c) :
    h.cells x = some c := by
  rw [cells_release] at hc
  split_ifs at hc
  exact hc

/-- What is still referred to stays. -/
theorem cells_release_of_mem {x : α} (hx : x ∈ refs) :
    (h.release refs a).cells x = h.cells x := by
  rw [cells_release, if_neg]
  rintro ⟨rfl, ha⟩
  exact ha hx

theorem At.release {x : α} {n : Nat} (hat : h.At x n) (hx : x ∈ refs) :
    (h.release refs a).At x n := by
  rwa [At, number, cells_release_of_mem hx]

theorem At.of_release {x : α} {n : Nat} (hat : (h.release refs a).At x n) : h.At x n := by
  obtain ⟨c, hc, rfl⟩ := Option.map_eq_some_iff.mp hat
  rw [At, number, cells_of_release hc]
  rfl

theorem Wf.release {old : List α} (hw : h.Wf old) (hsub : ∀ x, x ∈ refs → x ∈ old)
    (hother : ∀ x, x ≠ a → x ∈ old → x ∈ refs) : (h.release refs a).Wf refs where
  live x := by
    rw [cells_release]
    split_ifs with hx
    · obtain ⟨rfl, ha⟩ := hx
      exact iff_of_false (fun h => (by cases h)) ha
    · rw [hw.live x]
      refine ⟨fun hold => ?_, hsub x⟩
      by_cases hxa : x = a
      · by_contra hnot
        exact hx ⟨hxa, hxa ▸ hnot⟩
      · exact hother x hxa hold
  lt x n hat := by
    rw [made_release]
    exact hw.lt x n hat.of_release
  inj x y n hx hy := hw.inj x y n hx.of_release hy.of_release

end Release

end Heap
