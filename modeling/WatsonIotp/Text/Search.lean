import Mathlib.Data.List.Infix

/-!
# Searching for a marked level in a separated text

A text such as a topic is a sequence of levels joined by a separator. Looking
for `w` followed by the separator finds the first level, other than the last,
that ends in `w`; what stands behind the match is the rest of the levels. The
search itself knows nothing of levels, so this is the exact account of what a
program gets that finds its fields by such markers.
-/

namespace Text

variable {α : Type*} [DecidableEq α]

/-- The position of the first occurrence of `needle`. -/
def occurrence (needle : List α) : List α → Option Nat
  | [] => if needle = [] then some 0 else none
  | c :: s => if needle <+: c :: s then some 0 else (occurrence needle s).map (· + 1)

/-- The levels joined by the separator. -/
def joined (sep : α) : List (List α) → List α
  | [] => []
  | [level] => level
  | level :: next :: rest => level ++ sep :: joined sep (next :: rest)

/-- What stands in a piece of a split text stands in the text. -/
theorem mem_of_mem_splitOn {sep c : α} {s piece : List α} (hpiece : piece ∈ s.splitOn sep)
    (hc : c ∈ piece) : c ∈ s := by
  have hjoin : ∀ pieces : List (List α), piece ∈ pieces → c ∈ [sep].intercalate pieces := by
    intro pieces hmem
    induction pieces with
    | nil => exact absurd hmem List.not_mem_nil
    | cons first pieces ih =>
        cases pieces with
        | nil =>
            obtain rfl := List.mem_singleton.mp hmem
            rwa [List.intercalate_singleton]
        | cons next rest =>
            rw [List.intercalate_cons_cons, List.append_assoc]
            rcases List.mem_cons.mp hmem with rfl | hmem
            · exact List.mem_append_left _ hc
            · exact List.mem_append_right _ (List.mem_append_right _ (ih hmem))
  have hmem := hjoin _ hpiece
  rwa [List.intercalate_splitOn] at hmem

/-- Levels with as many separators in them end at the same place. -/
theorem append_sep_inj {sep : α} {rest rest' : List α} : ∀ {level level' : List α},
    level ++ sep :: rest = level' ++ sep :: rest' → level.count sep = level'.count sep →
      level = level' ∧ rest = rest'
  | [], [], h, _ => ⟨rfl, (List.cons.inj h).2⟩
  | [], c :: level', h, hcount => by
      obtain ⟨rfl, -⟩ := List.cons.inj h
      rw [List.count_nil, List.count_cons_self] at hcount
      omega
  | c :: level, [], h, hcount => by
      obtain ⟨rfl, -⟩ := List.cons.inj h
      rw [List.count_nil, List.count_cons_self] at hcount
      omega
  | c :: level, c' :: level', h, hcount => by
      obtain ⟨rfl, htail⟩ := List.cons.inj h
      rw [List.count_cons, List.count_cons] at hcount
      have hlevel : level = level' ∧ rest = rest' :=
        append_sep_inj htail (Nat.add_right_cancel hcount)
      exact ⟨congrArg (c :: ·) hlevel.1, hlevel.2⟩

/-- The levels behind the first level, other than the last, that ends in `w`. -/
def after (w : List α) : List (List α) → Option (List (List α))
  | [] => none
  | [_] => none
  | level :: next :: rest => if w <:+ level then some (next :: rest) else after w (next :: rest)

theorem after_of_suffix {w level next : List α} {rest : List (List α)} (h : w <:+ level) :
    after w (level :: next :: rest) = some (next :: rest) := by
  rw [after, if_pos h]

theorem after_of_not_suffix {w level next : List α} {rest : List (List α)}
    (h : ¬ w <:+ level) : after w (level :: next :: rest) = after w (next :: rest) := by
  rw [after, if_neg h]

theorem after_suffix {w : List α} {levels rest : List (List α)}
    (h : after w levels = some rest) : rest <:+ levels := by
  induction levels with
  | nil => cases h
  | cons level levels ih =>
      cases levels with
      | nil => cases h
      | cons next tail =>
          rw [after] at h
          split at h
          · cases h
            exact List.suffix_cons _ _
          · exact (ih h).trans (List.suffix_cons _ _)

omit [DecidableEq α] in
theorem drop_level (level rest : List α) (sep : α) (n : Nat) :
    (level ++ sep :: rest).drop (level.length + 1 + n) = rest.drop n := by
  rw [← List.drop_drop, List.drop_append, List.drop_eq_nil_of_le (Nat.le_succ _)]
  simp

omit [DecidableEq α] in
/-- The first separator of both texts is at the end of the compared prefix. -/
theorem marker_prefix_iff {sep : α} {w level rest : List α} (hw : sep ∉ w)
    (hlevel : sep ∉ level) : w ++ [sep] <+: level ++ sep :: rest ↔ w = level := by
  induction w generalizing level with
  | nil =>
      cases level with
      | nil => simp
      | cons c level =>
          have hne : sep ≠ c := fun h => hlevel (h ▸ List.mem_cons_self)
          simp [hne]
  | cons a w ih =>
      have hw' : sep ∉ w := fun h => hw (List.mem_cons_of_mem _ h)
      cases level with
      | nil =>
          have hne : a ≠ sep := fun h => hw (h ▸ List.mem_cons_self)
          simp [hne]
      | cons c level =>
          have hlevel' : sep ∉ level := fun h => hlevel (List.mem_cons_of_mem _ h)
          simp only [List.cons_append, List.cons_prefix_cons, List.cons.injEq,
            ih hw' hlevel']

/-- A marker is found at the end of the first level or behind that level. -/
theorem occurrence_level {sep : α} {w level rest : List α} (hw : sep ∉ w)
    (hlevel : sep ∉ level) : occurrence (w ++ [sep]) (level ++ sep :: rest) =
      if w <:+ level then some (level.length - w.length)
      else (occurrence (w ++ [sep]) rest).map (· + (level.length + 1)) := by
  induction level with
  | nil =>
      have hmatch : w ++ [sep] <+: sep :: rest ↔ w = [] := marker_prefix_iff hw hlevel
      simp only [List.nil_append, occurrence, hmatch, List.suffix_nil, List.length_nil]
      by_cases hnil : w = []
      · simp [hnil]
      · simp [hnil]
  | cons c level ih =>
      have hlevel' : sep ∉ level := fun h => hlevel (List.mem_cons_of_mem _ h)
      have hmatch : w ++ [sep] <+: c :: (level ++ sep :: rest) ↔ w = c :: level :=
        marker_prefix_iff hw hlevel
      rw [List.cons_append, occurrence, if_congr hmatch rfl rfl, ih hlevel']
      by_cases hfull : w = c :: level
      · simp [hfull]
      · have hcons : w <:+ c :: level ↔ w <:+ level := by
          rw [List.suffix_cons_iff]
          exact or_iff_right hfull
        rw [if_neg hfull, if_congr hcons rfl rfl]
        by_cases hsuffix : w <:+ level
        · have hlen := hsuffix.length_le
          simp only [if_pos hsuffix, Option.map_some, List.length_cons, Option.some.injEq]
          omega
        · simp only [if_neg hsuffix, Option.map_map, List.length_cons]
          rfl

/-- A text without the separator holds no marker. -/
theorem occurrence_eq_none {sep : α} {w s : List α} (hs : sep ∉ s) :
    occurrence (w ++ [sep]) s = none := by
  induction s with
  | nil => simp [occurrence]
  | cons c s ih =>
      have hnot : ¬ w ++ [sep] <+: c :: s := fun h =>
        hs (h.subset (List.mem_append_right _ List.mem_cons_self))
      rw [occurrence, if_neg hnot, ih fun h => hs (List.mem_cons_of_mem _ h)]
      rfl

/-- Searching for a marker in joined levels finds what `after` describes: the
text behind the match is the join of the levels behind the marked one. -/
theorem occurrence_joined {sep : α} {w : List α} (hw : sep ∉ w) {levels : List (List α)}
    (hlevels : ∀ level ∈ levels, sep ∉ level) :
    match after w levels with
    | none => occurrence (w ++ [sep]) (joined sep levels) = none
    | some rest => ∃ i, occurrence (w ++ [sep]) (joined sep levels) = some i ∧
        i + (w.length + 1) ≤ (joined sep levels).length ∧
        (joined sep levels).drop (i + (w.length + 1)) = joined sep rest := by
  induction levels with
  | nil => simp [after, joined, occurrence]
  | cons level levels ih =>
      have hlevel : sep ∉ level := hlevels level List.mem_cons_self
      cases levels with
      | nil => exact occurrence_eq_none hlevel
      | cons next rest =>
          have hrest := ih fun l hl => hlevels l (List.mem_cons_of_mem _ hl)
          simp only [after, joined, occurrence_level hw hlevel]
          by_cases hsuffix : w <:+ level
          · have hlen := hsuffix.length_le
            simp only [if_pos hsuffix]
            refine ⟨_, rfl, ?_, ?_⟩
            · simp only [List.length_append, List.length_cons]
              omega
            · rw [show level.length - w.length + (w.length + 1) = level.length + 1 + 0 by omega,
                drop_level, List.drop_zero]
          · simp only [if_neg hsuffix]
            cases hafter : after w (next :: rest) with
            | none =>
                rw [hafter] at hrest
                simp only at hrest
                simp [hrest]
            | some tail =>
                rw [hafter] at hrest
                obtain ⟨i, hi, hle, hdrop⟩ := hrest
                refine ⟨i + (level.length + 1), by rw [hi]; rfl, ?_, ?_⟩
                · simp only [List.length_append, List.length_cons]
                  omega
                · rw [← hdrop, show i + (level.length + 1) + (w.length + 1) =
                      level.length + 1 + (i + (w.length + 1)) by omega, drop_level]

end Text
