import WatsonIotp.Client.Passes
import WatsonIotp.Text.Wildcard

/-!
# Handlers and topic filters

The topic that a handler is registered on is the filter of a subscription, and may
have wildcards. The broker sends the messages whose topics match the filter;
`message_arrived` looks up the handlers under the topic of the message.
`dispatchedByFilter_iff` says when that finds the handlers whose filters match.
-/

open Json

/-! ### Topics and filters -/

/-- The levels of a topic or a topic filter. -/
def topicLevels (topic : StdString) : List StdString := topic.splitOn '/'

/-- No wildcards, as in the topic of a message. -/
def IsTopicName (topic : StdString) : Prop := '+' ∉ topic ∧ '#' ∉ topic

instance : DecidablePred IsTopicName := fun _ => inferInstanceAs (Decidable (_ ∧ _))

/-- The levels are plain text or `+`, with an optional `#` at the end. -/
def IsTopicFilter (filter : StdString) : Prop :=
  Wildcard.IsFilter ['+'] ['#'] IsTopicName (topicLevels filter)

instance : DecidablePred IsTopicFilter := fun _ =>
  inferInstanceAs (Decidable (Wildcard.IsFilter _ _ _ _))

/-- The topic matches the filter by the rules of MQTT, which keep topics that begin with
`$` from filters that begin with a wildcard. -/
def TopicMatches (filter topic : StdString) : Prop :=
  Wildcard.Matches ['+'] ['#'] (topicLevels filter) (topicLevels topic) ∧
    (topic.head? = some '$' → filter.head? ≠ some '+' ∧ filter.head? ≠ some '#')

instance (filter topic : StdString) : Decidable (TopicMatches filter topic) :=
  inferInstanceAs (Decidable (_ ∧ _))

theorem topicLevels_inj {topic topic' : StdString} :
    topicLevels topic = topicLevels topic' ↔ topic = topic' := by
  refine ⟨fun h => ?_, fun h => h ▸ rfl⟩
  have := congrArg (['/'].intercalate ·) h
  simpa only [topicLevels, List.intercalate_splitOn] using this

namespace IsTopicName

variable {topic filter : StdString}

theorem level (h : IsTopicName topic) {level : StdString} (hlevel : level ∈ topicLevels topic) :
    IsTopicName level :=
  ⟨fun hc => h.1 (Text.mem_of_mem_splitOn hlevel hc),
    fun hc => h.2 (Text.mem_of_mem_splitOn hlevel hc)⟩

theorem one_notMem (h : IsTopicName topic) : ['+'] ∉ topicLevels topic := fun hmem =>
  (h.level hmem).1 (List.mem_singleton_self _)

theorem rest_notMem (h : IsTopicName topic) : ['#'] ∉ topicLevels topic := fun hmem =>
  (h.level hmem).2 (List.mem_singleton_self _)

theorem head_ne (h : IsTopicName topic) : topic.head? ≠ some '+' ∧ topic.head? ≠ some '#' :=
  ⟨fun hc => h.1 (List.mem_of_mem_head? hc), fun hc => h.2 (List.mem_of_mem_head? hc)⟩

/-- A topic is a filter. -/
theorem isTopicFilter (h : IsTopicName topic) : IsTopicFilter topic :=
  Wildcard.isFilter_of_plain fun _ hlevel => h.level hlevel

/-- A filter without wildcards matches the topic that it is. -/
theorem topicMatches_iff (h : IsTopicName filter) : TopicMatches filter topic ↔ filter = topic := by
  rw [TopicMatches, Wildcard.matches_iff_eq h.one_notMem h.rest_notMem, topicLevels_inj]
  exact and_iff_left_of_imp fun _ _ => h.head_ne

end IsTopicName

/-! ### Dispatch -/

namespace Callback

variable {ι D : Type} [DecidableEq ι] [CxxDouble D]

/-- A message is passed to the handlers that have a filter which its topic matches. -/
structure DispatchedByFilter (s : Callback ι D) (m : Arrival ι D) : Prop where
  passedTo : ∀ filter i, (filter, i) ∈ s.mHandlers → IsTopicFilter filter →
    TopicMatches filter m.topic → s.PassedTo m i
  exists_filter : ∀ i, s.PassedTo m i → ∃ filter, (filter, i) ∈ s.mHandlers ∧
    IsTopicFilter filter ∧ TopicMatches filter m.topic

variable {s : Callback ι D} {m : Arrival ι D}

/-- A handler that is called has the topic of the message for a filter. -/
theorem exists_filter_of_passedTo (htopic : IsTopicName m.topic) {i : ι} (h : s.PassedTo m i) :
    ∃ filter, (filter, i) ∈ s.mHandlers ∧ IsTopicFilter filter ∧ TopicMatches filter m.topic :=
  ⟨m.topic, (passedTo_iff.mp h).1, htopic.isTopicFilter, htopic.topicMatches_iff.mpr rfl⟩

/-- Where all filters are topics, the lookup finds the handlers, and what can keep the
message from them is a handler that throws. -/
theorem dispatchedByFilter_of_names (htopic : IsTopicName m.topic)
    (hnames : ∀ p ∈ s.mHandlers, IsTopicName p.1) :
    s.DispatchedByFilter m ↔ ∀ i, (m.topic, i) ∈ s.mHandlers → s.Unobstructed m i := by
  constructor
  · intro h i hmem
    have hself : TopicMatches m.topic m.topic := htopic.topicMatches_iff.mpr rfl
    exact (passedTo_iff.mp (h.passedTo _ i hmem htopic.isTopicFilter hself)).2
  · intro h
    refine ⟨fun filter i hmem _ hmatches => ?_, fun i => exists_filter_of_passedTo htopic⟩
    obtain rfl := (hnames _ hmem).topicMatches_iff.mp hmatches
    exact passedTo_iff.mpr ⟨hmem, h i hmem⟩

/-- A message is dispatched by topic filter exactly if every handler with a filter that its
topic matches is registered on the topic itself as well, and is not kept from it. -/
theorem dispatchedByFilter_iff (s : Callback ι D) (m : Arrival ι D)
    (htopic : IsTopicName m.topic) : s.DispatchedByFilter m ↔
      ∀ filter i, (filter, i) ∈ s.mHandlers → IsTopicFilter filter →
        TopicMatches filter m.topic → (m.topic, i) ∈ s.mHandlers ∧ s.Unobstructed m i := by
  constructor
  · intro h filter i hmem hfilter hmatches
    exact passedTo_iff.mp (h.passedTo filter i hmem hfilter hmatches)
  · intro h
    refine ⟨fun filter i hmem hfilter hmatches => ?_, fun i => exists_filter_of_passedTo htopic⟩
    exact passedTo_iff.mpr (h filter i hmem hfilter hmatches)

/-- A command on a topic that a handler is registered on. -/
theorem dispatchedByFilter_command :
    let s := single "iot-2/cmd/on/fmt/json".toList .action
    let m := Arrival.agreeable "iot-2/cmd/on/fmt/json".toList "\x7b\x7d".toList
    IsTopicName m.topic ∧ (s.DispatchedByFilter m ↔
      ∀ filter i, (filter, i) ∈ s.mHandlers → IsTopicFilter filter →
        TopicMatches filter m.topic → (m.topic, i) ∈ s.mHandlers ∧ s.Unobstructed m i) := by
  intro s m
  have htopic : IsTopicName m.topic := by decide
  exact ⟨htopic, dispatchedByFilter_iff s m htopic⟩

/-- A handler registered for all commands in one format is not called for any. -/
theorem dispatchedByFilter_fails : ¬ ∀ (s : Callback Unit Int) (m : Arrival Unit Int),
    (∀ p ∈ s.mHandlers, IsTopicFilter p.1) → IsTopicName m.topic → s.DispatchedByFilter m := by
  intro h
  let s := single "iot-2/cmd/+/fmt/json".toList .action
  let m := Arrival.agreeable "iot-2/cmd/on/fmt/json".toList "\x7b\x7d".toList
  have hmem : ("iot-2/cmd/+/fmt/json".toList, ()) ∈ s.mHandlers := List.mem_cons_self
  have hfilter : IsTopicFilter "iot-2/cmd/+/fmt/json".toList := by decide
  have hdispatched := h s m (by simpa [s, single] using hfilter) (by decide)
  have hpassed := hdispatched.passedTo _ () hmem hfilter (by decide)
  have htopic : (m.topic, ()) ∈ s.mHandlers := (passedTo_iff.mp hpassed).1
  exact absurd htopic (by decide)

end Callback
