import WatsonIotp.Handler.Accepts
import Mathlib.Data.List.Perm.Basic

/-!
# Updates of several fields

An update request lists the fields to update, and a firmware and an attribute
handler each look for a field of their own. Both look at the first element of
the list only. What they hand to their hooks is therefore the content of the
field they are after if that field comes first, and otherwise the values they
start from. `appliesFields_iff` says when an update does not depend on that.
-/

open Json

/-! ### Readers of the first element -/

section Head

variable {α β : Type}

/-- The content of the first element, if it is of the kind `P`, or a default. -/
def headContent (P : β → Prop) [DecidablePred P] (content : β → α) (blank : α) : List β → α
  | [] => blank
  | f :: _ => if P f then content f else blank

/-- With at most one element of the kind, a reader of the first element finds it in every
order exactly if there is no other element or the content is the default. -/
theorem headContent_iff {P : β → Prop} [DecidablePred P] {content : β → α} {blank : α}
    {l : List β} (honce : l.Pairwise fun f g => ¬ (P f ∧ P g)) :
    ((∀ f ∈ l, P f → headContent P content blank l = content f) ∧
        ∀ l', l'.Perm l → headContent P content blank l' = headContent P content blank l) ↔
      l.length ≤ 1 ∨ ∀ f ∈ l, P f → content f = blank := by
  constructor
  · rintro ⟨hfinds, hperm⟩
    match l with
    | [] => exact .inl (Nat.zero_le _)
    | [f] => exact .inl (Nat.le_refl _)
    | f :: g :: rest =>
        right
        intro f' hf' hP
        rw [← hfinds f' hf' hP]
        by_cases hf : P f
        · -- behind `g`, which is of another kind, `f` is not found
          have hg : ¬ P g := fun hg => List.rel_of_pairwise_cons honce List.mem_cons_self ⟨hf, hg⟩
          rw [← hperm (g :: f :: rest) (.swap f g rest), headContent, if_neg hg]
        · rw [headContent, if_neg hf]
  · rintro (hshort | hblank)
    · match l, hshort with
      | [], _ =>
          refine ⟨by simp, fun l' hl' => ?_⟩
          rw [hl'.eq_nil]
      | [f], _ =>
          constructor
          · intro f' hf' hP
            obtain rfl := List.mem_singleton.mp hf'
            rw [headContent, if_pos hP]
          · intro l' hl'
            rw [List.perm_singleton.mp hl']
    · have hall : ∀ l' : List β, l'.Perm l → headContent P content blank l' = blank := by
        intro l' hl'
        cases l' with
        | nil => rfl
        | cons f rest =>
            rw [headContent]
            split
            · next hP => exact hblank f (hl'.subset List.mem_cons_self) hP
            · rfl
      refine ⟨fun f hf hP => ?_, fun l' hl' => ?_⟩
      · rw [hall l (.refl l), hblank f hf hP]
      · rw [hall l' hl', hall l (.refl l)]

end Head

variable {D : Type}

namespace Json.Value

/-- The elements of `fields` in `d`. -/
def fields (v : Value D) : List (Value D) :=
  match (v.memberOr "d".toList .nullValue).memberOr "fields".toList .nullValue with
  | .arrayValue elements => elements
  | _ => []

theorem firstField_eq (v : Value D) : v.firstField = v.fields.headD .nullValue := by
  rw [firstField, fields]
  split
  · next elements h => cases elements <;> rw [h] <;> rfl
  · next h =>
      cases hv : (v.memberOr "d".toList .nullValue).memberOr "fields".toList .nullValue with
      | arrayValue elements => exact absurd hv (h elements)
      | _ => rfl

/-- An update request with these fields. -/
def updateOf (fields : List (Value D)) : Value D :=
  .objectValue [("d".toList, .objectValue [("fields".toList, .arrayValue fields)])]

@[simp] theorem fields_updateOf (fields : List (Value D)) : (updateOf fields).fields = fields := rfl

variable [CxxDouble D]

instance (field : Value D) (name : StdString) : Decidable (field.IsNamed name) :=
  decidable_of_iff (field.fieldName.asString.toOption = some name) <| by
    rw [IsNamed]
    cases field.fieldName.asString <;> simp [Except.toOption]

/-- The text of a value, or the empty one where it has none. -/
def text (v : Value D) : StdString := v.asString.toOption.getD []

/-- The number of a value, or zero where it has none. -/
def number (v : Value D) : D := v.asDouble.toOption.getD (CxxDouble.ofInt 0)

/-- The text under a name, or the empty one. -/
def textUnder (v : Value D) (key : StdString) : StdString :=
  (v.memberOr key (.stringValue [])).text

/-- The number under a name, or zero. -/
def numberUnder (v : Value D) (key : StdString) : D :=
  (v.memberOr key (.realValue (CxxDouble.ofInt 0))).number

theorem asString_eq_text {v : Value D} (h : v.Textual) : v.asString = .ok v.text := by
  obtain ⟨s, hs⟩ := asString_isOk_iff.mpr h
  rw [text, hs]
  rfl

theorem asDouble_eq_number {v : Value D} (h : v.Numeric) : v.asDouble = .ok v.number := by
  obtain ⟨d, hd⟩ := asDouble_isOk_iff.mpr h
  rw [number, hd]
  rfl

/-- An element of the list: a field with a name, and with a value that fits the name. -/
structure IsField (field : Value D) : Prop where
  object : field.ObjectLike
  name : field.fieldName.Textual
  details : field.IsNamed "mgmt.firmware".toList → field.fieldValue.HasDetails
  location : field.IsNamed "location".toList → field.fieldValue.HasLocation

/-- A well-shaped update request, with any number of fields. -/
structure IsUpdate (v : Value D) : Prop where
  object : v.ObjectLike
  d : (v.memberOr "d".toList .nullValue).ObjectLike
  fields : ((v.memberOr "d".toList .nullValue).memberOr "fields".toList .nullValue).ArrayLike
  reqId : (v.memberOr "reqId".toList (.stringValue [])).Textual
  field : ∀ field ∈ v.fields, field.IsField

/-- One of the fields has this name. -/
def Addresses (v : Value D) (name : StdString) : Prop := ∃ field ∈ v.fields, field.IsNamed name

/-- No name is there twice. -/
def DistinctNames (v : Value D) : Prop :=
  v.fields.Pairwise fun f g => ∀ name, ¬ (f.IsNamed name ∧ g.IsNamed name)

theorem isUpdate_updateOf {fields : List (Value D)} (h : ∀ field ∈ fields, field.IsField) :
    (updateOf fields).IsUpdate := ⟨trivial, trivial, trivial, trivial, h⟩

theorem not_isNamed_nullValue {name : StdString} (h : name ≠ []) :
    ¬ (Value.nullValue : Value D).IsNamed name := by
  intro hnamed
  exact h (Except.ok.inj hnamed).symm

theorem isField_nullValue : (Value.nullValue : Value D).IsField where
  object := trivial
  name := trivial
  details h := absurd h (not_isNamed_nullValue (by decide))
  location h := absurd h (not_isNamed_nullValue (by decide))

theorem IsUpdate.firstField {v : Value D} (h : v.IsUpdate) : v.firstField.IsField := by
  rw [firstField_eq]
  cases hfields : v.fields with
  | nil => exact isField_nullValue
  | cons f rest => exact h.field f (by simp [hfields])

theorem IsUpdate.hasField {v : Value D} (h : v.IsUpdate) : v.HasField :=
  ⟨h.object, h.d, h.fields, h.firstField.object, h.firstField.name⟩

end Json.Value

/-! ### What the handlers read -/

section Reading

variable {α β : Type}

theorem get_bind_eq {v defaultValue : Value D} {key : StdString} {f : Value D → Except Error α}
    (h : v.ObjectLike) : (v.get key defaultValue >>= f) = f (v.memberOr key defaultValue) := by
  cases v with
  | objectValue members => rfl
  | nullValue => rfl
  | _ => exact h.elim

/-- A member that converts is handed on. -/
theorem member_bind_eq {v defaultValue : Value D} {key : StdString}
    {convert : Value D → Except Error α} {f : α → Except Error β} {a : α} (h : v.ObjectLike)
    (ha : convert (v.memberOr key defaultValue) = .ok a) :
    ((v.get key defaultValue).bind convert >>= f) = f a := by
  have hmember : (v.get key defaultValue).bind convert = .ok a := (get_bind_eq h).trans ha
  rw [hmember]
  rfl

variable [CxxDouble D]

/-- The reading that the firmware and the attribute handler have in common. -/
theorem namedField_eq {v : Value D} (h : v.HasField) {name : StdString}
    {read : Value D → Except Error α} {otherwise : α} :
    (do
      let field ← firstField v
      let name' ← fieldName field
      if name' = name then
        let value ← field.get "value".toList .nullValue
        read value
      else pure otherwise) =
      if v.firstField.IsNamed name then read v.firstField.fieldValue else .ok otherwise := by
  have hfield : firstField v = .ok v.firstField :=
    firstField_eq_ok_iff.mpr ⟨h.object, h.d, h.fields, rfl⟩
  obtain ⟨name', hname'⟩ := Value.asString_isOk_iff.mpr h.name
  have hname : fieldName v.firstField = .ok name' := fieldName_eq_ok_iff.mpr ⟨h.field, hname'⟩
  have hnamed : v.firstField.IsNamed name ↔ name' = name := by
    rw [Value.IsNamed, hname', Except.ok.injEq]
  rw [hfield]
  change (fieldName v.firstField >>= _) = _
  rw [hname]
  change (if name' = name then _ else _) = _
  simp only [hnamed]
  split
  · rw [get_bind_eq h.field]
    rfl
  · rfl

end Reading

variable [CxxDouble D]

/-- The details in the value of a field. -/
def FirmwareDetails.ofField (field : Value D) : FirmwareDetails where
  name := (field.fieldValue.memberOr "name".toList (.stringValue [])).text
  version := (field.fieldValue.memberOr "version".toList (.stringValue [])).text
  uri := (field.fieldValue.memberOr "uri".toList (.stringValue [])).text
  verifier := (field.fieldValue.memberOr "verifier".toList (.stringValue [])).text

namespace DeviceLocation

omit [CxxDouble D] in
/-- The JSON text of a location. -/
def jsonValue (p : DeviceLocation D) : Value D := .objectValue
  [("accuracy".toList, .realValue p.mAccuracy), ("elevation".toList, .realValue p.mElevation),
    ("latitude".toList, .realValue p.mLatitude), ("longitude".toList, .realValue p.mLongitude),
    ("measuredDateTime".toList, .stringValue (DateTime.text p.measuredDateTime))]

omit [CxxDouble D] in
/-- The JSON text of a location is written over that of another. -/
theorem setJsonValue_eq {p q : DeviceLocation D} (h : p.json = q.jsonValue) :
    p.setJsonValue = { p with json := p.jsonValue } := by
  rw [setJsonValue, h]
  rfl

theorem new_eq (latitude longitude elevation : D) (now : Int) :
    new latitude longitude elevation now =
      let p : DeviceLocation D :=
        ⟨latitude, longitude, elevation, CxxDouble.ofInt 0, now, .nullValue⟩
      { p with json := p.jsonValue } := rfl

end DeviceLocation

/-- What `UpdateLocation` is to get of a location. -/
structure Coordinates (D : Type) where
  latitude : D
  longitude : D
  elevation : D

namespace Coordinates

/-- The location that the attribute handler starts from. -/
def zero : Coordinates D := ⟨CxxDouble.ofInt 0, CxxDouble.ofInt 0, CxxDouble.ofInt 0⟩

/-- The coordinates in the value of a field. -/
def ofField (field : Value D) : Coordinates D where
  latitude := (field.fieldValue.memberOr "latitude".toList
    (.realValue (CxxDouble.ofInt 0))).number
  longitude := (field.fieldValue.memberOr "longitude".toList
    (.realValue (CxxDouble.ofInt 0))).number
  elevation := (field.fieldValue.memberOr "elevation".toList
    (.realValue (CxxDouble.ofInt 0))).number

omit [CxxDouble D] in
def ofLocation (p : DeviceLocation D) : Coordinates D := ⟨p.mLatitude, p.mLongitude, p.mElevation⟩

/-- The location that the setters make of the coordinates. -/
def located (now : Int) (c : Coordinates D) : DeviceLocation D :=
  let zero : D := CxxDouble.ofInt 0
  (((DeviceLocation.new zero zero zero now).setLatitude c.latitude now).setLongitude
    c.longitude now).setElevation c.elevation now

theorem ofLocation_located (now : Int) (c : Coordinates D) : ofLocation (located now c) = c := rfl

theorem located_eq (now : Int) (c : Coordinates D) : located now c =
    DeviceLocation.new c.latitude c.longitude c.elevation now := by
  simp only [located, DeviceLocation.new_eq, DeviceLocation.setLatitude,
    DeviceLocation.setLongitude, DeviceLocation.setElevation, DeviceLocation.setLocation]
  rw [DeviceLocation.setJsonValue_eq rfl, DeviceLocation.setJsonValue_eq rfl,
    DeviceLocation.setJsonValue_eq rfl]
  rfl

end Coordinates

namespace FirmwareHandler

theorem requestedDetails_eq {v : Value D} (h : v.IsUpdate) : requestedDetails v =
    .ok (if v.firstField.IsNamed "mgmt.firmware".toList then
      some (FirmwareDetails.ofField v.firstField) else none) := by
  refine (namedField_eq h.hasField).trans ?_
  split
  · next hnamed =>
      have hdetails := h.firstField.details hnamed
      rw [member_bind_eq hdetails.object (Value.asString_eq_text hdetails.version),
        member_bind_eq hdetails.object (Value.asString_eq_text hdetails.name),
        member_bind_eq hdetails.object (Value.asString_eq_text hdetails.uri),
        member_bind_eq hdetails.object (Value.asString_eq_text hdetails.verifier)]
      rfl
  · rfl

end FirmwareHandler

namespace AttributeHandler

theorem requestedLocation_eq {now : Int} {v : Value D} (h : Readable v) :
    requestedLocation now v = .ok ((if v.firstField.IsNamed "location".toList then
      Coordinates.ofField v.firstField else .zero).located now) := by
  refine (namedField_eq h.field).trans ?_
  split
  · next hnamed =>
      have hlocation := h.location hnamed
      rw [member_bind_eq hlocation.object (Value.asDouble_eq_number hlocation.latitude),
        member_bind_eq hlocation.object (Value.asDouble_eq_number hlocation.longitude),
        member_bind_eq hlocation.object (Value.asDouble_eq_number hlocation.elevation)]
      rfl
  · rw [Coordinates.located_eq]
    rfl

end AttributeHandler

/-! ### What the hooks receive -/

/-- The handlers see of the list of fields what is in its first element. -/
theorem ite_firstField_eq {α : Type} {v : Value D} {name : StdString} (hname : name ≠ [])
    (content : Value D → α) (blank : α) :
    (if v.firstField.IsNamed name then content v.firstField else blank) =
      headContent (·.IsNamed name) content blank v.fields := by
  rw [Value.firstField_eq]
  cases v.fields with
  | nil => exact if_neg (Value.not_isNamed_nullValue hname)
  | cons f rest => rfl

namespace FirmwareHandler

/-- On the update request `v`, the hook `verify` is called, and it is given `p`. -/
def Verifies (s : FirmwareHandler D) (v : Value D) (p : FirmwareInfo D) : Prop :=
  ∀ hooks : FirmwareHooks D, ((messageArrived true hooks serverUpdateTopic v).exec s).2.calls =
    ⟨v, .verify, p, hooks.verify p⟩ :: s.calls

/-- The details that `verify` is given. -/
def verifiedDetails (s : FirmwareHandler D) (fields : List (Value D)) : FirmwareDetails :=
  headContent (·.IsNamed "mgmt.firmware".toList) FirmwareDetails.ofField
    (FirmwareDetails.ofInfo s.fwinfo) fields

theorem infoFor_update {s : FirmwareHandler D} {v : Value D} (h : v.IsUpdate) :
    s.infoFor serverUpdateTopic v =
      .ok (received s.fwinfo (some (s.verifiedDetails v.fields))) := by
  rw [infoFor, if_pos rfl, requestedDetails_eq h, verifiedDetails,
    ← ite_firstField_eq (by decide)]
  split <;> rfl

theorem calls_update {s : FirmwareHandler D} {v : Value D} (h : v.IsUpdate)
    (hooks : FirmwareHooks D) :
    let p := received s.fwinfo (some (s.verifiedDetails v.fields))
    ((messageArrived true hooks serverUpdateTopic v).exec s).2.calls =
      ⟨v, .verify, p, hooks.verify p⟩ :: s.calls := by
  intro p
  have hhook : hookOf serverUpdateTopic = some .verify := if_pos rfl
  rw [exec_messageArrived, outcome, hhook]
  simp only [infoFor_update h]
  exact (answered_calls _ _ _ _).1

theorem verifies_iff {s : FirmwareHandler D} {v : Value D} (h : v.IsUpdate) {p : FirmwareInfo D} :
    Verifies s v p ↔ p = received s.fwinfo (some (s.verifiedDetails v.fields)) := by
  constructor
  · intro hv
    have hcalls := hv ⟨fun _ => none, fun _ => none, fun _ => none, fun _ => none⟩
    rw [calls_update h, List.cons.injEq] at hcalls
    exact (congrArg FirmwareCall.info hcalls.1).symm
  · rintro rfl hooks
    exact calls_update h hooks

/-- Two requests are the same to `verify` if it is given the same details. -/
theorem verifies_congr_iff {s : FirmwareHandler D} {v v' : Value D} (h : v.IsUpdate)
    (h' : v'.IsUpdate) : (∀ p, Verifies s v' p ↔ Verifies s v p) ↔
      s.verifiedDetails v'.fields = s.verifiedDetails v.fields := by
  simp only [verifies_iff h, verifies_iff h']
  constructor
  · intro hp
    exact congrArg FirmwareDetails.ofInfo ((hp _).mp rfl)
  · intro heq p
    rw [heq]

end FirmwareHandler

namespace AttributeHandler

/-- On the update request `v`, `UpdateLocation` is called, and it is given `p`. -/
def Updates (now : Int) (v : Value D) (p : DeviceLocation D) : Prop :=
  ∀ locations, ((messageArrived now serverUpdateTopic v).exec locations).2 = p :: locations

/-- The coordinates that `UpdateLocation` is given. -/
def updatedCoordinates (fields : List (Value D)) : Coordinates D :=
  headContent (·.IsNamed "location".toList) Coordinates.ofField .zero fields

theorem locations_update {now : Int} {v : Value D} (h : v.IsUpdate)
    (locations : List (DeviceLocation D)) :
    ((messageArrived now serverUpdateTopic v).exec locations).2 =
      (updatedCoordinates v.fields).located now :: locations := by
  have hreadable : Readable v := ⟨h.hasField, h.firstField.location⟩
  rw [exec_messageArrived, if_pos rfl, requestedLocation_eq hreadable,
    ite_firstField_eq (by decide)]
  rfl

theorem updates_iff {now : Int} {v : Value D} (h : v.IsUpdate) {p : DeviceLocation D} :
    Updates now v p ↔ p = (updatedCoordinates v.fields).located now := by
  constructor
  · intro hv
    have hlocations := hv []
    rw [locations_update h, List.cons.injEq] at hlocations
    exact hlocations.1.symm
  · rintro rfl locations
    exact locations_update h locations

/-- Two requests are the same to `UpdateLocation` if it is given the same coordinates. -/
theorem updates_congr_iff {now : Int} {v v' : Value D} (h : v.IsUpdate) (h' : v'.IsUpdate) :
    (∀ p, Updates now v' p ↔ Updates now v p) ↔
      updatedCoordinates v'.fields = updatedCoordinates v.fields := by
  simp only [updates_iff h, updates_iff h']
  constructor
  · intro hp
    exact congrArg Coordinates.ofLocation ((hp _).mp rfl)
  · intro heq p
    rw [heq]

end AttributeHandler

/-! ### Fields that are applied wherever they stand -/

/-- The hooks of a firmware handler and of an attribute handler get of the update what it
has for them, and get the same of the update with its fields in another order. -/
structure AppliesFields (s : FirmwareHandler D) (now : Int) (v : Value D) : Prop where
  firmware : ∀ field ∈ v.fields, field.IsNamed "mgmt.firmware".toList →
    ∃ p, s.Verifies v p ∧ FirmwareDetails.ofInfo p = .ofField field
  location : ∀ field ∈ v.fields, field.IsNamed "location".toList →
    ∃ p, AttributeHandler.Updates now v p ∧ Coordinates.ofLocation p = .ofField field
  permuted : ∀ v' : Value D, v'.IsUpdate → v'.fields.Perm v.fields →
    (∀ p, s.Verifies v' p ↔ s.Verifies v p) ∧
      ∀ p, AttributeHandler.Updates now v' p ↔ AttributeHandler.Updates now v p

/-- A firmware field has the details that the handler has anyway, and a location field
has coordinates that are zero. -/
def BlankFields (s : FirmwareHandler D) (v : Value D) : Prop :=
  ∀ field ∈ v.fields,
    (field.IsNamed "mgmt.firmware".toList →
      FirmwareDetails.ofField field = FirmwareDetails.ofInfo s.fwinfo) ∧
    (field.IsNamed "location".toList → Coordinates.ofField field = .zero)

/-- The requests with the fields of `v` in another order have all orders of the fields. -/
theorem forall_permuted_iff {v : Value D} (h : v.IsUpdate) {Q : List (Value D) → Prop} :
    (∀ v' : Value D, v'.IsUpdate → v'.fields.Perm v.fields → Q v'.fields) ↔
      ∀ fields, fields.Perm v.fields → Q fields := by
  constructor
  · intro hall fields hperm
    have hv' : (Value.updateOf fields).IsUpdate :=
      Value.isUpdate_updateOf fun field hfield => h.field field (hperm.subset hfield)
    exact hall _ hv' hperm
  · intro hall v' _ hperm
    exact hall _ hperm

/-- In terms of what a reader of the first element gets. -/
theorem appliesFields_iff_headContent {s : FirmwareHandler D} {now : Int} {v : Value D}
    (h : v.IsUpdate) : AppliesFields s now v ↔
      ((∀ field ∈ v.fields, field.IsNamed "mgmt.firmware".toList →
          s.verifiedDetails v.fields = FirmwareDetails.ofField field) ∧
        ∀ fields, fields.Perm v.fields → s.verifiedDetails fields = s.verifiedDetails v.fields) ∧
      (∀ field ∈ v.fields, field.IsNamed "location".toList →
          AttributeHandler.updatedCoordinates v.fields = Coordinates.ofField field) ∧
        ∀ fields, fields.Perm v.fields →
          AttributeHandler.updatedCoordinates fields =
            AttributeHandler.updatedCoordinates v.fields := by
  have hfirmware : ∀ d, (∃ p, s.Verifies v p ∧ FirmwareDetails.ofInfo p = d) ↔
      s.verifiedDetails v.fields = d := by
    intro d
    simp only [FirmwareHandler.verifies_iff h, exists_eq_left]
    rfl
  have hlocation : ∀ c, (∃ p, AttributeHandler.Updates now v p ∧ Coordinates.ofLocation p = c) ↔
      AttributeHandler.updatedCoordinates v.fields = c := by
    intro c
    simp only [AttributeHandler.updates_iff h, exists_eq_left, Coordinates.ofLocation_located]
  have hpermuted := forall_permuted_iff h (Q := fun fields =>
    s.verifiedDetails fields = s.verifiedDetails v.fields ∧
      AttributeHandler.updatedCoordinates fields =
        AttributeHandler.updatedCoordinates v.fields)
  constructor
  · rintro ⟨hf, hl, hp⟩
    have hp' := hpermuted.mp fun v' hv' hperm =>
      ⟨(FirmwareHandler.verifies_congr_iff h hv').mp (hp v' hv' hperm).1,
        (AttributeHandler.updates_congr_iff h hv').mp (hp v' hv' hperm).2⟩
    exact ⟨⟨fun field hmem hnamed => (hfirmware _).mp (hf field hmem hnamed),
        fun fields hperm => (hp' fields hperm).1⟩,
      fun field hmem hnamed => (hlocation _).mp (hl field hmem hnamed),
        fun fields hperm => (hp' fields hperm).2⟩
  · rintro ⟨⟨hf, hpf⟩, hl, hpl⟩
    refine ⟨fun field hmem hnamed => (hfirmware _).mpr (hf field hmem hnamed),
      fun field hmem hnamed => (hlocation _).mpr (hl field hmem hnamed), ?_⟩
    intro v' hv' hperm
    exact ⟨(FirmwareHandler.verifies_congr_iff h hv').mpr (hpf _ hperm),
      (AttributeHandler.updates_congr_iff h hv').mpr (hpl _ hperm)⟩

/-- An update with distinct fields is applied, in every order, exactly if it has one
field at most or has in its fields nothing but what the handlers start from. -/
theorem appliesFields_iff (s : FirmwareHandler D) (now : Int) (v : Value D) (h : v.IsUpdate)
    (hdistinct : v.DistinctNames) :
    AppliesFields s now v ↔ v.fields.length ≤ 1 ∨ BlankFields s v := by
  have honce : ∀ name : StdString,
      v.fields.Pairwise fun f g => ¬ (f.IsNamed name ∧ g.IsNamed name) :=
    fun name => hdistinct.imp fun hfg => hfg name
  have hblank : BlankFields s v ↔
      (∀ field ∈ v.fields, field.IsNamed "mgmt.firmware".toList →
        FirmwareDetails.ofField field = FirmwareDetails.ofInfo s.fwinfo) ∧
      ∀ field ∈ v.fields, field.IsNamed "location".toList →
        Coordinates.ofField field = .zero :=
    ⟨fun hb => ⟨fun f hf => (hb f hf).1, fun f hf => (hb f hf).2⟩,
      fun hb f hf => ⟨hb.1 f hf, hb.2 f hf⟩⟩
  rw [appliesFields_iff_headContent h, hblank, or_and_left]
  exact and_congr (headContent_iff (honce _)) (headContent_iff (honce _))

/-- A field of an update request that sets the latitude. -/
def latitudeField (latitude : Int) : Value Int := .objectValue
  [("field".toList, .stringValue "location".toList),
    ("value".toList, .objectValue [("latitude".toList, .realValue latitude)])]

/-- A field of an update request that sets the version. -/
def versionField (version : StdString) : Value Int := .objectValue
  [("field".toList, .stringValue "mgmt.firmware".toList),
    ("value".toList, .objectValue [("version".toList, .stringValue version)])]

theorem latitudeField_isField (latitude : Int) : (latitudeField latitude).IsField :=
  ⟨trivial, trivial,
    fun h => absurd (Except.ok.inj h) (by decide : "location".toList ≠ "mgmt.firmware".toList),
    fun _ => ⟨trivial, trivial, trivial, trivial⟩⟩

theorem versionField_isField (version : StdString) : (versionField version).IsField :=
  ⟨trivial, trivial, fun _ => ⟨trivial, trivial, trivial, trivial, trivial⟩,
    fun h => absurd (Except.ok.inj h) (by decide : "mgmt.firmware".toList ≠ "location".toList)⟩

/-- Two fields, for the two handlers. -/
theorem isField_pair (latitude : Int) (version : StdString) :
    ∀ field ∈ [latitudeField latitude, versionField version], field.IsField := by
  intro field hfield
  simp only [List.mem_cons, List.not_mem_nil, or_false] at hfield
  obtain rfl | rfl := hfield
  · exact latitudeField_isField latitude
  · exact versionField_isField version

theorem distinctNames_pair (latitude : Int) (version : StdString) :
    (Value.updateOf [latitudeField latitude, versionField version]).DistinctNames := by
  refine List.pairwise_pair.mpr fun name hboth => ?_
  obtain ⟨hlocation, hfirmware⟩ := hboth
  have hname : "location".toList = name := Except.ok.inj hlocation
  have hname' : "mgmt.firmware".toList = name := Except.ok.inj hfirmware
  exact absurd (hname.trans hname'.symm) (by decide)

/-- A location of zeros and a firmware without details make no difference in any order. -/
theorem appliesFields_location :
    BlankFields .new (.updateOf [latitudeField 0, versionField []]) ∧
      AppliesFields .new 0 (.updateOf [latitudeField 0, versionField []]) := by
  have hblank : BlankFields .new (.updateOf [latitudeField 0, versionField []]) := by
    intro field hfield
    have hfield : field ∈ [latitudeField 0, versionField []] := hfield
    simp only [List.mem_cons, List.not_mem_nil, or_false] at hfield
    obtain rfl | rfl := hfield
    · refine ⟨fun hnamed => ?_, fun _ => rfl⟩
      exact absurd (Except.ok.inj hnamed) (by decide : "location".toList ≠ "mgmt.firmware".toList)
    · refine ⟨fun _ => rfl, fun hnamed => ?_⟩
      exact absurd (Except.ok.inj hnamed) (by decide : "mgmt.firmware".toList ≠ "location".toList)
  exact ⟨hblank, (appliesFields_iff .new 0 _ (Value.isUpdate_updateOf (isField_pair 0 []))
    (distinctNames_pair 0 [])).mpr (.inr hblank)⟩

/-- Behind a location, the details of a firmware are not looked at. -/
theorem appliesFields_fails : ¬ ∀ (s : FirmwareHandler Int) (now : Int) (v : Value Int),
    v.IsUpdate → v.DistinctNames → AppliesFields s now v := by
  intro h
  have hfields := isField_pair 3 "2".toList
  have happlies := h .new 0 _ (Value.isUpdate_updateOf hfields)
    (distinctNames_pair 3 "2".toList)
  obtain ⟨p, hp, hdetails⟩ := happlies.firmware (versionField "2".toList) (by simp) rfl
  rw [FirmwareHandler.verifies_iff (Value.isUpdate_updateOf hfields)] at hp
  rw [hp] at hdetails
  exact absurd (congrArg FirmwareDetails.version hdetails) (by decide)
