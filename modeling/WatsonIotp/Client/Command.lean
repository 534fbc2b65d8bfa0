import WatsonIotp.Text.StdString

/-!
# Commands

A message on a topic without handlers is a command for the application. Device
type, device id, command name and format are cut out of the topic: each is the
text behind a marker such as `id/`, up to the next slash. The markers are looked
for anywhere in the topic, not at the beginning of a level, and a marker that is
not there leaves the position `npos` to compute with.

The text behind a marker is a level of the topic again, the one behind the first
level that ends in the marker's word (`Begins.field_eq`).
-/

/-- `Command`, as it is passed to `processCommand`. -/
structure Command where
  deviceType : StdString
  deviceId : StdString
  command : StdString
  format : StdString
  payload : StdString
  deriving DecidableEq

namespace Command

open StdString

/-- Where the text behind a marker begins. -/
def fieldStart (topic marker : StdString) : Nat := plus (find topic marker 0) marker.length

/-- The slash behind that text, if there is one. -/
def fieldEnd (topic marker : StdString) : Option Nat :=
  findFirstOf topic '/' (fieldStart topic marker)

/-- The text behind a marker, up to the next slash. -/
def field (topic marker : StdString) : Option StdString :=
  substr topic (fieldStart topic marker)
    (minus (fieldEnd topic marker) (fieldStart topic marker))

/-- The text behind the marker `fmt/`, looked for from behind the command. The
position of the next slash is taken for the length of the text. -/
def formatField (topic : StdString) (nxtpos : Option Nat) : Option StdString :=
  let pos := find topic "fmt/".toList (plus nxtpos 1)
  let nxtpos := findFirstOf topic '/' (plus pos 4)
  substr topic (plus pos 4) nxtpos

/-- The command parsing of `message_arrived`; `none` where `substr` throws. -/
def parse (topic payload : StdString) : Option Command := do
  let deviceType ← field topic "type/".toList
  let deviceId ← field topic "id/".toList
  let command ← field topic "cmd/".toList
  let format ← formatField topic (fieldEnd topic "cmd/".toList)
  return { deviceType, deviceId, command, format, payload }

example : parse "iot-2/type/T/id/I/cmd/C/fmt/json".toList [] =
    some ⟨"T".toList, "I".toList, "C".toList, "json".toList, []⟩ := by decide

/-! ### When the parsing throws -/

/-- A marker is found inside the topic, or leaves a fixed position. -/
theorem plus_find_le_iff {topic marker : StdString} {pos : Nat} :
    plus (find topic marker pos) marker.length ≤ topic.length ↔
      (find topic marker pos = none → marker.length - 1 ≤ topic.length) := by
  cases hfind : find topic marker pos with
  | none => simp
  | some i => simp [find_add_le hfind]

theorem parse_isSome_iff {topic payload : StdString} :
    (parse topic payload).isSome ↔ 4 ≤ topic.length := by
  have hfield : ∀ marker, (field topic marker).isSome ↔
      (find topic marker 0 = none → marker.length - 1 ≤ topic.length) := by
    intro marker
    rw [field, substr_isSome_iff, fieldStart, plus_find_le_iff]
  have hformat : ∀ nxtpos, (formatField topic nxtpos).isSome ↔
      (find topic "fmt/".toList (plus nxtpos 1) = none → 3 ≤ topic.length) := by
    intro nxtpos
    rw [formatField, substr_isSome_iff]
    exact plus_find_le_iff
  have hparse : (parse topic payload).isSome ↔ (field topic "type/".toList).isSome ∧
      (field topic "id/".toList).isSome ∧ (field topic "cmd/".toList).isSome ∧
      (formatField topic (fieldEnd topic "cmd/".toList)).isSome := by
    rw [parse]
    cases field topic "type/".toList <;> cases field topic "id/".toList <;>
      cases field topic "cmd/".toList <;>
      cases formatField topic (fieldEnd topic "cmd/".toList) <;> simp
  rw [hparse, hfield, hfield, hfield, hformat]
  constructor
  · rintro ⟨htype, -, -, -⟩
    cases hfind : find topic "type/".toList 0 with
    | none => exact htype hfind
    | some i =>
        have hle : i + 5 ≤ topic.length := find_add_le hfind
        omega
  · intro h
    refine ⟨fun _ => h, fun _ => ?_, fun _ => ?_, fun _ => ?_⟩
    · exact (by decide : "id/".toList.length - 1 ≤ 4).trans h
    · exact (by decide : "cmd/".toList.length - 1 ≤ 4).trans h
    · exact (by decide : 3 ≤ 4).trans h

/-! ### Topics given by their levels -/

/-- The rest of the topic from the position on is the join of the levels. -/
structure Begins (topic : StdString) (p : Nat) (levels : List StdString) : Prop where
  le : p ≤ topic.length
  drop : topic.drop p = Text.joined '/' levels
  level : ∀ level ∈ levels, '/' ∉ level

namespace Begins

variable {topic level next w : StdString} {levels rest : List StdString} {p : Nat}

theorem findFirstOf_last (h : Begins topic p [level]) : findFirstOf topic '/' p = none := by
  have hnone := Text.occurrence_eq_none (w := []) (h.level level List.mem_cons_self)
  rw [findFirstOf, find, if_pos h.le, h.drop]
  exact Option.map_eq_none_iff.mpr hnone

theorem findFirstOf_level (h : Begins topic p (level :: next :: rest)) :
    findFirstOf topic '/' p = some (p + level.length) := by
  have hlevel :
      Text.occurrence ([] ++ ['/']) (level ++ '/' :: Text.joined '/' (next :: rest)) = _ :=
    Text.occurrence_level List.not_mem_nil (h.level level List.mem_cons_self)
  rw [if_pos (List.nil_suffix)] at hlevel
  rw [findFirstOf, find, if_pos h.le, h.drop]
  exact congrArg (Option.map (p + ·)) hlevel

/-- The text up to the next slash is the first level. -/
theorem substr_level (h : Begins topic p (level :: levels)) :
    substr topic p (minus (findFirstOf topic '/' p) p) = some level := by
  cases levels with
  | nil => rw [h.findFirstOf_last, minus_none, substr, if_pos h.le, h.drop]; rfl
  | cons next rest =>
      rw [h.findFirstOf_level, minus_some, substr, if_pos h.le, h.drop, Nat.add_sub_cancel_left]
      simp [Text.joined]

theorem next_level (h : Begins topic p (level :: next :: rest)) :
    Begins topic (p + level.length + 1) (next :: rest) := by
  have hdrop : topic.drop (p + level.length + 1) = Text.joined '/' (next :: rest) := by
    have := Text.drop_level level (Text.joined '/' (next :: rest)) '/' 0
    rw [Nat.add_assoc, ← List.drop_drop, h.drop]
    exact this
  refine ⟨?_, hdrop, fun l hl => h.level l (List.mem_cons_of_mem _ hl)⟩
  have hlen := congrArg List.length h.drop
  simp only [List.length_drop, Text.joined, List.length_append, List.length_cons] at hlen
  have := h.le
  omega

/-- Inside a level, the rest of that level begins. -/
theorem drop_level (h : Begins topic p (level :: levels)) {k : Nat} (hk : k ≤ level.length) :
    Begins topic (p + k) (level.drop k :: levels) := by
  have hdrop : topic.drop (p + k) = Text.joined '/' (level.drop k :: levels) := by
    rw [← List.drop_drop, h.drop]
    cases levels with
    | nil => rfl
    | cons next rest => exact List.drop_append_of_le_length hk
  have hlen : level.length ≤ (topic.drop p).length := by
    rw [h.drop]
    cases levels with
    | nil => exact le_rfl
    | cons next rest => simp [Text.joined]
  refine ⟨?_, hdrop, List.forall_mem_cons.mpr ⟨fun hslash => ?_, fun l hl => ?_⟩⟩
  · rw [List.length_drop] at hlen
    have := h.le
    omega
  · exact h.level level List.mem_cons_self (List.mem_of_mem_drop hslash)
  · exact h.level l (List.mem_cons_of_mem _ hl)

theorem find_eq_none (h : Begins topic p levels) (hw : '/' ∉ w)
    (hafter : Text.after w levels = none) : find topic (w ++ ['/']) p = none := by
  have hocc := Text.occurrence_joined hw h.level
  rw [hafter] at hocc
  rw [find, if_pos h.le, h.drop, hocc]
  rfl

theorem find_eq_some (h : Begins topic p levels) (hw : '/' ∉ w)
    (hafter : Text.after w levels = some rest) :
    ∃ i, find topic (w ++ ['/']) p = some i ∧ Begins topic (i + (w.length + 1)) rest := by
  have hocc := Text.occurrence_joined hw h.level
  rw [hafter] at hocc
  obtain ⟨i, hi, hle, hdrop⟩ := hocc
  rw [← h.drop, List.length_drop] at hle
  refine ⟨p + i, ?_, ?_, ?_, ?_⟩
  · rw [find, if_pos h.le, h.drop, hi]
    rfl
  · have := h.le
    omega
  · rw [Nat.add_assoc, ← List.drop_drop, h.drop, hdrop]
  · intro level hlevel
    exact h.level level ((Text.after_suffix hafter).subset hlevel)

/-- A marker at the end of a level gives the level behind it. -/
theorem field_eq (h : Begins topic 0 levels) (hw : '/' ∉ w)
    (hafter : Text.after w levels = some (level :: rest)) :
    field topic (w ++ ['/']) = some level ∧
      ∃ p, fieldEnd topic (w ++ ['/']) = findFirstOf topic '/' p ∧
        Begins topic p (level :: rest) := by
  obtain ⟨i, hi, hbegins⟩ := h.find_eq_some hw hafter
  have hstart : fieldStart topic (w ++ ['/']) = i + (w.length + 1) := by
    rw [fieldStart, hi, plus_some, List.length_append]
    rfl
  refine ⟨?_, i + (w.length + 1), ?_, hbegins⟩
  · rw [field, fieldEnd, hstart]
    exact hbegins.substr_level
  · rw [fieldEnd, hstart]

/-- Behind that level the next one begins. -/
theorem begins_fieldEnd (h : Begins topic 0 levels) (hw : '/' ∉ w)
    (hafter : Text.after w levels = some (level :: next :: rest)) :
    Begins topic (plus (fieldEnd topic (w ++ ['/'])) 1) (next :: rest) := by
  obtain ⟨-, p, hend, hbegins⟩ := h.field_eq hw hafter
  rw [hend, hbegins.findFirstOf_level, plus_some]
  exact hbegins.next_level

/-- A marker that is not there gives the rest of the level at a fixed position. -/
theorem field_eq_of_missing (h : Begins topic 0 levels) (hw : '/' ∉ w)
    (hafter : Text.after w levels = none) (hbegins : Begins topic w.length (level :: rest)) :
    field topic (w ++ ['/']) = some level := by
  have hstart : fieldStart topic (w ++ ['/']) = w.length := by
    rw [fieldStart, h.find_eq_none hw hafter, plus_none, List.length_append]
    rfl
  rw [field, fieldEnd, hstart]
  exact hbegins.substr_level

/-- The last level is taken for the format as it is. -/
theorem formatField_last {nxtpos : Option Nat} (h : Begins topic (plus nxtpos 1) levels)
    (hafter : Text.after "fmt".toList levels = some [level]) :
    formatField topic nxtpos = some level := by
  obtain ⟨i, hi, hbegins⟩ := h.find_eq_some (by decide) hafter
  change find topic "fmt/".toList (plus nxtpos 1) = some i at hi
  rw [formatField, hi]
  have hfield := hbegins.substr_level
  have hend := hbegins.findFirstOf_last
  rw [hend] at hfield
  exact hend ▸ hfield

/-- A level before the last one is taken together with slashes behind it. -/
theorem formatField_inner {nxtpos : Option Nat} (h : Begins topic (plus nxtpos 1) levels)
    (hafter : Text.after "fmt".toList levels = some (level :: next :: rest)) :
    ∃ format, formatField topic nxtpos = some format ∧ '/' ∈ format := by
  obtain ⟨i, hi, hbegins⟩ := h.find_eq_some (by decide) hafter
  change find topic "fmt/".toList (plus nxtpos 1) = some i at hi
  change Begins topic (i + 4) _ at hbegins
  refine ⟨(Text.joined '/' (level :: next :: rest)).take (i + 4 + level.length), ?_, ?_⟩
  · rw [formatField, hi, plus_some, hbegins.findFirstOf_level, substr, if_pos hbegins.le,
      hbegins.drop]
  · rw [Text.joined, List.take_append, List.mem_append]
    refine .inr ?_
    rw [show i + 4 + level.length - level.length = i + 3 + 1 by omega, List.take_succ_cons]
    exact List.mem_cons_self

end Begins

end Command
