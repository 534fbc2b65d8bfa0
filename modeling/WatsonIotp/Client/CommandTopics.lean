import WatsonIotp.Client.Dispatch

/-!
# Commands on the subscribed topics

Gateways subscribe `iot-2/type/T/id/I/cmd/+/fmt/+`, devices `iot-2/cmd/+/fmt/+`. On
the first the parsing is right unless names end in the word of a marker; on the
second it cuts device type and device id out of the levels that are there. What it
makes of each topic is computed level by level, with `Text.after` for the searches.
-/

open Json

/-- A level of a topic, without wildcards. -/
def IsLevel (s : StdString) : Prop := s ≠ [] ∧ '/' ∉ s ∧ '+' ∉ s ∧ '#' ∉ s

instance : DecidablePred IsLevel := fun _ => inferInstanceAs (Decidable (_ ∧ _))

abbrev Level := { s : StdString // IsLevel s }

/-- The levels of a command topic of a gateway. -/
def gatewayLevels (T I C F : Level) : List StdString :=
  ["iot-2".toList, "type".toList, T, "id".toList, I, "cmd".toList, C, "fmt".toList, F]

def gatewayTopic (T I C F : Level) : StdString := Text.joined '/' (gatewayLevels T I C F)

/-- The levels of a command topic of a device. -/
def deviceLevels (C F : Level) : List StdString :=
  ["iot-2".toList, "cmd".toList, C, "fmt".toList, F]

def deviceTopic (C F : Level) : StdString := Text.joined '/' (deviceLevels C F)

namespace Command

variable {T I C F : Level} {topic payload : StdString}

theorem parse_eq_some_iff {cmd : Command} : parse topic payload = some cmd ↔
    field topic "type/".toList = some cmd.deviceType ∧
      field topic "id/".toList = some cmd.deviceId ∧
      field topic "cmd/".toList = some cmd.command ∧
      formatField topic (fieldEnd topic "cmd/".toList) = some cmd.format ∧
      payload = cmd.payload := by
  obtain ⟨deviceType, deviceId, command, format, payload'⟩ := cmd
  rw [parse]
  cases field topic "type/".toList <;> cases field topic "id/".toList <;>
    cases field topic "cmd/".toList <;>
    cases formatField topic (fieldEnd topic "cmd/".toList) <;> simp

theorem begins_gateway (T I C F : Level) :
    Begins (gatewayTopic T I C F) 0 (gatewayLevels T I C F) where
  le := Nat.zero_le _
  drop := rfl
  level := by
    simp only [gatewayLevels, List.forall_mem_cons, List.not_mem_nil, false_imp_iff, implies_true,
      and_true]
    exact ⟨by decide, by decide, T.2.2.1, by decide, I.2.2.1, by decide, C.2.2.1, by decide,
      F.2.2.1⟩

theorem begins_device (C F : Level) : Begins (deviceTopic C F) 0 (deviceLevels C F) where
  le := Nat.zero_le _
  drop := rfl
  level := by
    simp only [deviceLevels, List.forall_mem_cons, List.not_mem_nil, false_imp_iff, implies_true,
      and_true]
    exact ⟨by decide, by decide, C.2.2.1, by decide, F.2.2.1⟩

/-! ### Gateway topics -/

theorem gateway_type : field (gatewayTopic T I C F) "type/".toList = some T.val := by
  have hafter : Text.after "type".toList (gatewayLevels T I C F) =
      some (T.val :: ["id".toList, I.val, "cmd".toList, C.val, "fmt".toList, F.val]) := by
    rw [gatewayLevels, Text.after_of_not_suffix (by decide), Text.after_of_suffix (by decide)]
  exact ((begins_gateway T I C F).field_eq (by decide) hafter).1

theorem gateway_id_iff : field (gatewayTopic T I C F) "id/".toList = some I.val ↔
    ("id".toList <:+ T.val → I.val = "id".toList) := by
  have hskip : Text.after "id".toList (gatewayLevels T I C F) = Text.after "id".toList
      [T.val, "id".toList, I.val, "cmd".toList, C.val, "fmt".toList, F.val] := by
    rw [gatewayLevels, Text.after_of_not_suffix (by decide), Text.after_of_not_suffix (by decide)]
  by_cases hT : "id".toList <:+ T.val
  · have hafter := hskip.trans (Text.after_of_suffix hT)
    have hfield : field (gatewayTopic T I C F) "id/".toList = some "id".toList :=
      ((begins_gateway T I C F).field_eq (by decide) hafter).1
    rw [hfield, Option.some.injEq, imp_iff_right hT, eq_comm]
  · have hafter := hskip.trans ((Text.after_of_not_suffix hT).trans
      (Text.after_of_suffix (by decide)))
    have hfield : field (gatewayTopic T I C F) "id/".toList = some I.val :=
      ((begins_gateway T I C F).field_eq (by decide) hafter).1
    exact iff_of_true hfield fun h => absurd h hT

/-- The command name and the format are right. -/
def CommandDecoded (topic : StdString) (C F : Level) : Prop :=
  field topic "cmd/".toList = some C.val ∧
    formatField topic (fieldEnd topic "cmd/".toList) = some F.val

/-- What stands behind the first level that ends in `cmd` decides about both. -/
theorem commandDecoded_iff {levels rest : List StdString} {name next : StdString}
    (h : Begins topic 0 levels)
    (hafter : Text.after "cmd".toList levels = some (name :: next :: rest)) :
    CommandDecoded topic C F ↔ name = C.val ∧
      formatField topic (fieldEnd topic "cmd/".toList) = some F.val := by
  have hfield : field topic "cmd/".toList = some name := (h.field_eq (by decide) hafter).1
  rw [CommandDecoded, hfield, Option.some.injEq]

/-- The format is what stands behind `fmt` at the end. -/
theorem format_eq {levels rest : List StdString} {name next : StdString}
    (h : Begins topic 0 levels)
    (hafter : Text.after "cmd".toList levels = some (name :: next :: rest))
    (hformat : Text.after "fmt".toList (next :: rest) = some [F.val]) :
    formatField topic (fieldEnd topic "cmd/".toList) = some F.val :=
  (h.begins_fieldEnd (by decide) hafter).formatField_last hformat

theorem gateway_command_iff : CommandDecoded (gatewayTopic T I C F) C F ↔
    ("cmd".toList <:+ T.val → C.val = "id".toList ∧ ¬ "fmt".toList <:+ I.val) ∧
      (¬ "cmd".toList <:+ T.val → "cmd".toList <:+ I.val → C.val = "cmd".toList) := by
  have hbegins := begins_gateway T I C F
  have hskip : Text.after "cmd".toList (gatewayLevels T I C F) = Text.after "cmd".toList
      [T.val, "id".toList, I.val, "cmd".toList, C.val, "fmt".toList, F.val] := by
    rw [gatewayLevels, Text.after_of_not_suffix (by decide), Text.after_of_not_suffix (by decide)]
  by_cases hT : "cmd".toList <:+ T.val
  · -- the level behind the device type, which is `id`, is taken for the command name
    have hafter := hskip.trans (Text.after_of_suffix hT)
    rw [commandDecoded_iff hbegins hafter, imp_iff_right hT,
      and_iff_left fun h => absurd hT h, eq_comm]
    apply and_congr_right
    intro hC
    by_cases hI : "fmt".toList <:+ I.val
    · obtain ⟨format, hformat, hslash⟩ := (hbegins.begins_fieldEnd (by decide)
        hafter).formatField_inner (Text.after_of_suffix hI)
      have hne : format ≠ F.val := fun heq => F.2.2.1 (heq ▸ hslash)
      refine iff_of_false (fun h => hne ?_) fun h => h hI
      exact Option.some.inj (hformat.symm.trans h)
    · refine iff_of_true (format_eq hbegins hafter ?_) hI
      rw [Text.after_of_not_suffix hI, Text.after_of_not_suffix (by decide), hC,
        Text.after_of_not_suffix (by decide), Text.after_of_suffix (by decide)]
  · have hskip' := hskip.trans ((Text.after_of_not_suffix hT).trans
      (Text.after_of_not_suffix (by decide)))
    rw [imp_iff_right hT, and_iff_right fun h => absurd h hT]
    by_cases hI : "cmd".toList <:+ I.val
    · -- the level behind the device id, which is `cmd`, is taken for the command name
      have hafter := hskip'.trans (Text.after_of_suffix hI)
      rw [commandDecoded_iff hbegins hafter, imp_iff_right hI, eq_comm]
      refine and_iff_left_of_imp fun hC => format_eq hbegins hafter ?_
      rw [hC, Text.after_of_not_suffix (by decide), Text.after_of_suffix (by decide)]
    · have hafter := hskip'.trans ((Text.after_of_not_suffix hI).trans
        (Text.after_of_suffix (by decide)))
      rw [commandDecoded_iff hbegins hafter]
      exact iff_of_true ⟨rfl, format_eq hbegins hafter (Text.after_of_suffix (by decide))⟩
        fun h => absurd h hI

/-! ### Device topics -/

/-- A field without a level of its own: what comes of it depends on the command name. -/
theorem device_field {w : StdString} (hw : '/' ∉ w) (hlen : w.length ≤ 5)
    (hlevels : ∀ level ∈ ["iot-2".toList, "cmd".toList, "fmt".toList], ¬ w <:+ level) :
    field (deviceTopic C F) (w ++ ['/']) =
      some (if w <:+ C.val then "fmt".toList else "iot-2".toList.drop w.length) := by
  have hbegins := begins_device C F
  have hskip : Text.after w (deviceLevels C F) = Text.after w [C.val, "fmt".toList, F.val] := by
    rw [deviceLevels, Text.after_of_not_suffix (hlevels _ (by decide)),
      Text.after_of_not_suffix (hlevels _ (by decide))]
  by_cases hC : w <:+ C.val
  · rw [if_pos hC]
    exact (hbegins.field_eq hw (hskip.trans (Text.after_of_suffix hC))).1
  · rw [if_neg hC]
    have hafter : Text.after w (deviceLevels C F) = none := by
      rw [hskip, Text.after_of_not_suffix hC,
        Text.after_of_not_suffix (hlevels _ (by decide))]
      rfl
    have hinside := hbegins.drop_level (k := w.length) hlen
    rw [Nat.zero_add] at hinside
    exact hbegins.field_eq_of_missing hw hafter hinside

theorem device_command : CommandDecoded (deviceTopic C F) C F := by
  have hafter : Text.after "cmd".toList (deviceLevels C F) =
      some [C.val, "fmt".toList, F.val] := by
    rw [deviceLevels, Text.after_of_not_suffix (by decide), Text.after_of_suffix (by decide)]
  rw [commandDecoded_iff (begins_device C F) hafter]
  exact ⟨rfl, format_eq (begins_device C F) hafter (Text.after_of_suffix (by decide))⟩

/-- The command that is made of a message to a device. -/
theorem parse_device (C F : Level) (payload : StdString) :
    parse (deviceTopic C F) payload = some {
      deviceType := if "type".toList <:+ C.val then "fmt".toList else "2".toList
      deviceId := if "id".toList <:+ C.val then "fmt".toList else "t-2".toList
      command := C
      format := F
      payload } := by
  have htype := @device_field C F "type".toList (by decide) (by decide) (by decide)
  have hid := @device_field C F "id".toList (by decide) (by decide) (by decide)
  have hcommand : CommandDecoded (deviceTopic C F) C F := device_command
  exact parse_eq_some_iff.mpr ⟨htype, hid, hcommand.1, hcommand.2, rfl⟩

end Command

namespace Callback

variable {ι D : Type} [CxxDouble D] [DecidableEq ι]

/-- The message is passed to `processCommand`, as a command of which `P` holds. -/
def Passes (terminating : Bool) (s : Callback ι D) (m : Arrival ι D) (P : Command → Prop) : Prop :=
  ∃ cmd t, (messageArrived terminating m).exec s = (.ok ⟨⟩, t) ∧
    t.commands = s.commands ++ [cmd] ∧ P cmd

/-- The command has the names in the levels of the topic. -/
def GatewayDecoded (terminating : Bool) (s : Callback ι D) (m : Arrival ι D)
    (T I C F : Level) : Prop :=
  s.Passes terminating m fun cmd => cmd = ⟨T, I, C, F, m.payload⟩

/-- The command has the name and the format in the levels of the topic, and for the rest
nothing or the client's own. -/
def DeviceDecoded (terminating : Bool) (s : Callback ι D) (m : Arrival ι D) (C F : Level)
    (ownType ownId : StdString) : Prop :=
  s.Passes terminating m fun cmd => cmd.command = C.val ∧ cmd.format = F.val ∧
    (cmd.deviceType = [] ∨ cmd.deviceType = ownType) ∧
    (cmd.deviceId = [] ∨ cmd.deviceId = ownId)

theorem passes_iff {terminating : Bool} {s : Callback ι D} {m : Arrival ι D} {P : Command → Prop}
    (hrange : s.equalRange m.topic = []) (huser : s.userCallback = true) :
    s.Passes terminating m P ↔ ∃ cmd, Command.parse m.topic m.payload = some cmd ∧ P cmd := by
  rw [Passes, exec_messageArrived_of_no_handler hrange, if_pos huser, exec_processCommand]
  cases Command.parse m.topic m.payload with
  | none => simp
  | some cmd =>
      constructor
      · rintro ⟨cmd', t, hexec, hcommands, hP⟩
        cases hexec
        have heq : [cmd] = [cmd'] := List.append_cancel_left hcommands
        cases heq
        exact ⟨cmd, rfl, hP⟩
      · rintro ⟨cmd', heq, hP⟩
        cases heq
        exact ⟨cmd, _, rfl, rfl, hP⟩

/-- The commands are decoded exactly if no name on the topic of a gateway is mistaken for
a marker, and if a device happens to be called what the parsing makes of its topic. -/
theorem commands_decoded_iff (terminating : Bool) (s : Callback ι D) (m : Arrival ι D)
    (hrange : s.equalRange m.topic = []) (huser : s.userCallback = true) (T I C F : Level)
    (ownType ownId : StdString) :
    (m.topic = gatewayTopic T I C F → (s.GatewayDecoded terminating m T I C F ↔
      ("id".toList <:+ T.val → I.val = "id".toList) ∧
      ("cmd".toList <:+ T.val → C.val = "id".toList ∧ ¬ "fmt".toList <:+ I.val) ∧
      (¬ "cmd".toList <:+ T.val → "cmd".toList <:+ I.val → C.val = "cmd".toList))) ∧
    (m.topic = deviceTopic C F → (s.DeviceDecoded terminating m C F ownType ownId ↔
      ownType = (if "type".toList <:+ C.val then "fmt".toList else "2".toList) ∧
      ownId = (if "id".toList <:+ C.val then "fmt".toList else "t-2".toList))) := by
  constructor
  · intro htopic
    rw [GatewayDecoded, passes_iff hrange huser, htopic]
    simp only [exists_eq_right, Command.parse_eq_some_iff, and_true]
    rw [← Command.gateway_id_iff, ← Command.gateway_command_iff]
    exact and_iff_right Command.gateway_type
  · intro htopic
    rw [DeviceDecoded, passes_iff hrange huser, htopic, Command.parse_device]
    simp only [Option.some.injEq, exists_eq_left', true_and]
    have hempty : ∀ {c : Prop} [Decidable c] {a b own : StdString}, a ≠ [] → b ≠ [] →
        (((if c then a else b) = [] ∨ (if c then a else b) = own) ↔
          own = if c then a else b) := by
      intro c _ a b own ha hb
      rw [or_iff_right (by split <;> assumption), eq_comm]
    exact and_congr (hempty (by decide) (by decide)) (hempty (by decide) (by decide))

/-- A client with a callback for commands and without handlers. -/
def bare : Callback Unit Int where
  mArrivedMessages := 0
  mHandlers := []
  userCallback := true
  handler _ := .action
  replies := []
  commands := []

/-- A command for a device behind a gateway is decoded. -/
theorem commands_decoded_temperature :
    let T : Level := ⟨"devicetest".toList, by decide⟩
    let I : Level := ⟨"haridevice".toList, by decide⟩
    let C : Level := ⟨"temperature".toList, by decide⟩
    let F : Level := ⟨"json".toList, by decide⟩
    bare.GatewayDecoded true (.agreeable (gatewayTopic T I C F) "21".toList) T I C F :=
  ((commands_decoded_iff true bare _ rfl rfl _ _ _ _ [] []).1 rfl).mpr
    ⟨by decide, by decide, by decide⟩

/-- The device `pi-1` of type `raspi` is told of a command for the device `t-2` of type `2`. -/
theorem commands_decoded_fails : ¬ ∀ (s : Callback Unit Int) (m : Arrival Unit Int)
    (T I C F : Level) (ownType ownId : StdString),
    s.equalRange m.topic = [] → s.userCallback = true →
    (m.topic = gatewayTopic T I C F → s.GatewayDecoded true m T I C F) ∧
      (m.topic = deviceTopic C F → s.DeviceDecoded true m C F ownType ownId) := by
  intro h
  let C : Level := ⟨"reboot".toList, by decide⟩
  let F : Level := ⟨"json".toList, by decide⟩
  have hdecoded := (h bare (.agreeable (deviceTopic C F) []) C C C F "raspi".toList "pi-1".toList
    rfl rfl).2 rfl
  rw [DeviceDecoded, passes_iff rfl rfl] at hdecoded
  obtain ⟨cmd, hparse, -, -, htype, -⟩ := hdecoded
  cases (Command.parse_device C F []).symm.trans hparse
  exact absurd htype (by decide)

end Callback
