import Mathlib.Data.List.Forall2

/-!
# Filters with wildcards

A name is a sequence of levels. In a filter one level stands for any level, and
another one, at the end, for all the levels that follow. Levels may be of any type.
-/

namespace Wildcard

variable {β : Type*} [DecidableEq β]

/-- The filter matches the name, with the wildcards `one` and `rest`. -/
def Matches (one rest : β) : List β → List β → Prop
  | [], name => name = []
  | level :: filter, name =>
      if level = rest then filter = []
      else match name with
        | [] => False
        | part :: name => (level = one ∨ level = part) ∧ Matches one rest filter name

/-- Plain levels and `one`, with an optional `rest` at the end. -/
def IsFilter (one rest : β) (Plain : β → Prop) : List β → Prop
  | [] => True
  | [level] => level = one ∨ level = rest ∨ Plain level
  | level :: next :: filter =>
      (level = one ∨ Plain level) ∧ IsFilter one rest Plain (next :: filter)

instance decidableMatches (one rest : β) : ∀ filter name : List β,
    Decidable (Matches one rest filter name)
  | [], name => inferInstanceAs (Decidable (name = []))
  | level :: filter, [] => inferInstanceAs (Decidable (if level = rest then filter = [] else False))
  | level :: filter, part :: name =>
      have := decidableMatches one rest filter name
      inferInstanceAs (Decidable (if level = rest then filter = []
        else (level = one ∨ level = part) ∧ Matches one rest filter name))

instance decidableIsFilter (one rest : β) (Plain : β → Prop) [DecidablePred Plain] :
    ∀ filter : List β, Decidable (IsFilter one rest Plain filter)
  | [] => inferInstanceAs (Decidable True)
  | [level] => inferInstanceAs (Decidable (level = one ∨ level = rest ∨ Plain level))
  | level :: next :: filter =>
      have := decidableIsFilter one rest Plain (next :: filter)
      inferInstanceAs (Decidable ((level = one ∨ Plain level) ∧ _))

variable {one rest level part : β} {filter name : List β}

theorem matches_cons (hlevel : level ≠ rest) :
    Matches one rest (level :: filter) (part :: name) ↔
      (level = one ∨ level = part) ∧ Matches one rest filter name := by
  rw [Matches, if_neg hlevel]

theorem matches_nil (hlevel : level ≠ rest) : ¬ Matches one rest (level :: filter) [] := by
  rw [Matches, if_neg hlevel]
  exact id

omit [DecidableEq β] in
/-- Plain levels are a filter. -/
theorem isFilter_of_plain {Plain : β → Prop} (h : ∀ level ∈ filter, Plain level) :
    IsFilter one rest Plain filter := by
  induction filter with
  | nil => trivial
  | cons level filter ih =>
      rw [List.forall_mem_cons] at h
      cases filter with
      | nil => exact Or.inr (Or.inr h.1)
      | cons next filter => exact ⟨Or.inr h.1, ih h.2⟩

/-- A filter without wildcards matches itself only. -/
theorem matches_iff_eq (hone : one ∉ filter) (hrest : rest ∉ filter) :
    Matches one rest filter name ↔ filter = name := by
  induction filter generalizing name with
  | nil => exact eq_comm
  | cons level filter ih =>
      rw [List.mem_cons, not_or] at hone hrest
      cases name with
      | nil => exact iff_of_false (matches_nil (Ne.symm hrest.1)) (List.cons_ne_nil _ _)
      | cons part name =>
          rw [matches_cons (Ne.symm hrest.1), ih hone.2 hrest.2, List.cons.injEq,
            or_iff_right (Ne.symm hone.1)]

/-- The wildcard for all the rest only matches at the end. -/
theorem Matches.rest_notMem (h : Matches one rest filter name) : rest ∉ filter.dropLast := by
  induction filter generalizing name with
  | nil => exact List.not_mem_nil
  | cons level filter ih =>
      cases filter with
      | nil => exact List.not_mem_nil
      | cons next filter =>
          by_cases hlevel : level = rest
          · unfold Matches at h
            rw [if_pos hlevel] at h
            cases h
          · cases name with
            | nil => exact absurd h (matches_nil hlevel)
            | cons part name =>
                rw [List.dropLast_cons_cons, List.mem_cons, not_or]
                exact ⟨Ne.symm hlevel, ih ((matches_cons hlevel).mp h).2⟩

end Wildcard
