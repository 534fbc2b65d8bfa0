import WatsonIotp.Handler.Polling
import WatsonIotp.Handler.Update
import WatsonIotp.Json.Object
import WatsonIotp.Machine.Basic

/-!
# The JSON text of a firmware information

An `IOTP_FirmwareInfo` keeps its JSON text beside its fields. The constructors and three
of the seven setters write the text anew; they assign the members that have a value and
leave the others as they are. The time goes through a buffer that has no room for a year of
more than four characters. `inStep_iff` says for which setters the text goes with the
fields. A message that brings the text of an information is another matter: the decoder
looks for the uri under a name of its own (`verifies_encoded_iff`).
-/

open Json Value

variable {D : Type}

/-- The values of the fields of an information. -/
structure FirmwareFields where
  name : StdString
  version : StdString
  uri : StdString
  verifier : StdString
  state : Int
  updateStatus : Int
  updatedDateTime : Int

namespace FirmwareInfo

/-- The constructor with a state. -/
def newWithState (name version uri verifier : StdString)
    (state updateStatus updatedDateTime : Int) : FirmwareInfo D :=
  setJsonValue ⟨name, version, uri, verifier, state, updateStatus, updatedDateTime, .nullValue,
    false⟩

def fields (p : FirmwareInfo D) : FirmwareFields :=
  ⟨p.mName, p.mVersion, p.mURI, p.mVerifier, p.mState, p.mUpdateStatus, p.mUpdatedDateTime⟩

/-- A number that is not -1, which stands for none. -/
def ofNumber (n : Int) (value : Value D) : Option (Value D) := if n = -1 then none else some value

/-- The members that the fields make, in the order of `setJsonValue`. -/
def table (p : FirmwareInfo D) : List (StdString × Option (Value D)) :=
  [("name".toList, ofText p.mName), ("version".toList, ofText p.mVersion),
    ("url".toList, ofText p.mURI), ("verifier".toList, ofText p.mVerifier),
    ("state".toList, some (.intValue p.mState)),
    ("updateStatus".toList, ofNumber p.mUpdateStatus (.intValue p.mUpdateStatus)),
    ("updatedDateTime".toList,
      ofNumber p.mUpdatedDateTime (.stringValue (DateTime.text p.mUpdatedDateTime)))]

theorem table_names (p : FirmwareInfo D) : (p.table.map Prod.fst).Nodup := by
  change ["name".toList, "version".toList, "url".toList, "verifier".toList, "state".toList,
    "updateStatus".toList, "updatedDateTime".toList].Nodup
  decide

/-- The time that stands for none would have room. -/
theorem fits_neg_one : DateTime.Fits (-1) := by decide

theorem undefined_setJsonValue (p : FirmwareInfo D) : p.setJsonValue.undefined = false ↔
    p.undefined = false ∧ DateTime.Fits p.mUpdatedDateTime := by
  change (p.undefined || (p.mUpdatedDateTime ≠ -1 &&
    (DateTime.strftime 21 p.mUpdatedDateTime).isNone)) = false ↔ _
  rw [DateTime.strftime_eq, Bool.or_eq_false_iff]
  refine and_congr_right fun _ => ?_
  by_cases hfits : DateTime.Fits p.mUpdatedDateTime
  · simp [hfits]
  · have hne : p.mUpdatedDateTime ≠ -1 := fun h => hfits (h ▸ fits_neg_one)
    simp [hfits, hne]

theorem json_setJsonValue {p : FirmwareInfo D} (h : DateTime.Fits p.mUpdatedDateTime) :
    p.setJsonValue.json = p.json.putAll p.table := by
  simp only [setJsonValue, DateTime.strftime_eq, if_pos h, Option.elim_some, ite_assign_eq_put]
  rfl

/-- The JSON text is that of the fields: it has exactly the members of the table. -/
def InStep (p : FirmwareInfo D) : Prop := p.undefined = false ∧ p.json.Has (tabled p.table)

/-- An information that has just been constructed, and what it has been constructed of. -/
inductive Constructed : FirmwareFields → FirmwareInfo D → Prop where
  | new (name version uri verifier) :
      Constructed ⟨name, version, uri, verifier, 0, -1, -1⟩ (new name version uri verifier)
  | newWithState (f : FirmwareFields) : Constructed f (newWithState f.name f.version f.uri
      f.verifier f.state f.updateStatus f.updatedDateTime)

theorem Constructed.fields_eq {f : FirmwareFields} {p : FirmwareInfo D} (h : Constructed f p) :
    p.fields = f := by
  cases h with
  | new => rfl
  | newWithState => rfl

/-- A first text is that of the fields if there is room for the time. -/
theorem Constructed.inStep {f : FirmwareFields} {p : FirmwareInfo D} (h : Constructed f p) :
    InStep p ↔ DateTime.Fits f.updatedDateTime := by
  have hnull : ∀ q : FirmwareInfo D, q.json = .nullValue → q.undefined = false →
      (InStep q.setJsonValue ↔ DateTime.Fits q.mUpdatedDateTime) := by
    intro q hjson hdefined
    rw [InStep, undefined_setJsonValue, and_iff_right hdefined, and_iff_left_iff_imp]
    intro hfits
    rw [json_setJsonValue hfits, hjson]
    exact has_putAll_nullValue q.table_names
  cases h with
  | new => exact hnull _ rfl rfl
  | newWithState => exact hnull _ rfl rfl

end FirmwareInfo

/-! ### The setters -/

namespace FirmwareSetter

/-- The name of the member for the field. -/
def key : FirmwareSetter → StdString
  | .name _ => "name".toList
  | .version _ => "version".toList
  | .uri _ => "url".toList
  | .verifier _ => "verifier".toList
  | .state _ => "state".toList
  | .updateStatus _ => "updateStatus".toList
  | .updatedDateTime _ => "updatedDateTime".toList

/-- The member that the new value makes. -/
def member : FirmwareSetter → Option (Value D)
  | .name value | .version value | .uri value | .verifier value => ofText value
  | .state value => some (.intValue value)
  | .updateStatus value => FirmwareInfo.ofNumber value (.intValue value)
  | .updatedDateTime value => FirmwareInfo.ofNumber value (.stringValue (DateTime.text value))

/-- The field alone is set. -/
def assignField (p : FirmwareInfo D) : FirmwareSetter → FirmwareInfo D
  | .name value => { p with mName := value }
  | .version value => { p with mVersion := value }
  | .uri value => { p with mURI := value }
  | .verifier value => { p with mVerifier := value }
  | .state value => { p with mState := value }
  | .updateStatus value => { p with mUpdateStatus := value }
  | .updatedDateTime value => { p with mUpdatedDateTime := value }

theorem tabled_assignField (p : FirmwareInfo D) (setter : FirmwareSetter) (key : StdString) :
    tabled (setter.assignField p).table key =
      if key = setter.key then setter.member else tabled p.table key := by
  have hnames := p.table_names
  cases setter with
  | name value => exact tabled_replace [] hnames key
  | version value => exact tabled_replace [_] hnames key
  | uri value => exact tabled_replace [_, _] hnames key
  | verifier value => exact tabled_replace [_, _, _] hnames key
  | state value => exact tabled_replace [_, _, _, _] hnames key
  | updateStatus value => exact tabled_replace [_, _, _, _, _] hnames key
  | updatedDateTime value => exact tabled_replace [_, _, _, _, _, _] hnames key

theorem tabled_key {p : FirmwareInfo D} (setter : FirmwareSetter)
    (h : setter.assignField p = p) : tabled p.table setter.key = setter.member := by
  have hkey := tabled_assignField p setter setter.key
  rwa [h, if_pos rfl] at hkey

open FirmwareInfo

theorem assignField_json (p : FirmwareInfo D) (setter : FirmwareSetter) :
    (setter.assignField p).json = p.json := by
  cases setter <;> rfl

theorem assignField_undefined (p : FirmwareInfo D) (setter : FirmwareSetter) :
    (setter.assignField p).undefined = p.undefined := by
  cases setter <;> rfl

/-- A field is set, and the text left as it is. -/
theorem inStep_assignField_iff {p : FirmwareInfo D} (h : InStep p) (setter : FirmwareSetter) :
    InStep (setter.assignField p) ↔ setter.member = tabled p.table setter.key := by
  rw [InStep, assignField_json, assignField_undefined, and_iff_right h.1]
  constructor
  · intro hstep
    have hkey := hstep.content_eq h.2 setter.key
    rwa [tabled_assignField, if_pos rfl] at hkey
  · intro hmember
    refine h.2.congr fun key => ?_
    rw [tabled_assignField]
    split_ifs with hkey
    · rw [hkey, hmember]
    · rfl

/-- A field is set, and the text written anew. -/
theorem inStep_setJsonValue_iff {p : FirmwareInfo D} (h : InStep p) (setter : FirmwareSetter) :
    InStep (setter.assignField p).setJsonValue ↔
      DateTime.Fits (setter.assignField p).mUpdatedDateTime ∧
        ((setter.member : Option (Value D)) = none → tabled p.table setter.key = none) := by
  have hhas := h.2.putAll (setter.assignField p).table_names
  rw [InStep, undefined_setJsonValue, assignField_undefined, and_iff_right h.1]
  refine and_congr_right fun hfits => ?_
  rw [json_setJsonValue hfits, assignField_json]
  constructor
  · intro hstep hmember
    have hkey := hhas.content_eq hstep setter.key
    change Option.or _ _ = tabled (setter.assignField p).table setter.key at hkey
    rwa [tabled_assignField, if_pos rfl, hmember, Option.none_or] at hkey
  · intro hmember
    refine hhas.congr fun key => ?_
    change Option.or _ _ = tabled (setter.assignField p).table key
    rw [tabled_assignField]
    split_ifs with hkey
    · cases hvalue : (setter.member : Option (Value D)) with
      | none => rw [hkey, hmember hvalue, Option.or_none]
      | some value => rfl
    · exact Option.or_self

/-- The setter leaves a text of the fields as one of the fields: it sets the value that is
there already, or writes the text anew, has no member to take out of it and finds room for
the time. -/
def Clean (p : FirmwareInfo D) : FirmwareSetter → Prop
  | .name value => value = p.mName
  | .version value => value = p.mVersion
  | .uri value => value = p.mURI
  | .verifier value => value = p.mVerifier
  | .state _ => True
  | .updateStatus value => value = -1 → p.mUpdateStatus = -1
  | .updatedDateTime value =>
      DateTime.Fits value ∧ (value = -1 → p.mUpdatedDateTime = -1)

theorem ofNumber_eq_none_iff {n : Int} {value : Value D} : ofNumber n value = none ↔ n = -1 := by
  rw [ofNumber]
  split_ifs with hn
  · exact iff_of_true rfl hn
  · exact iff_of_false id hn

/-- The step lemma. -/
theorem inStep_apply_iff {p : FirmwareInfo D} (h : InStep p)
    (hfits : DateTime.Fits p.mUpdatedDateTime) (setter : FirmwareSetter) :
    InStep (setter.apply p) ↔ setter.Clean p := by
  cases setter with
  | name value =>
      refine (inStep_assignField_iff h (.name value)).trans ?_
      exact (Eq.congr_right (tabled_key (.name p.mName) rfl)).trans ofText_inj
  | version value =>
      refine (inStep_assignField_iff h (.version value)).trans ?_
      exact (Eq.congr_right (tabled_key (.version p.mVersion) rfl)).trans ofText_inj
  | uri value =>
      refine (inStep_assignField_iff h (.uri value)).trans ?_
      exact (Eq.congr_right (tabled_key (.uri p.mURI) rfl)).trans ofText_inj
  | verifier value =>
      refine (inStep_assignField_iff h (.verifier value)).trans ?_
      exact (Eq.congr_right (tabled_key (.verifier p.mVerifier) rfl)).trans ofText_inj
  | state value =>
      refine (inStep_setJsonValue_iff h (.state value)).trans (iff_of_true ⟨hfits, ?_⟩ trivial)
      intro hnone
      cases hnone
  | updateStatus value =>
      refine (inStep_setJsonValue_iff h (.updateStatus value)).trans ?_
      refine (and_iff_right hfits).trans (imp_congr ?_ ?_)
      · exact ofNumber_eq_none_iff
      · exact (Eq.congr_left (tabled_key (.updateStatus p.mUpdateStatus) rfl)).trans
          ofNumber_eq_none_iff
  | updatedDateTime value =>
      refine (inStep_setJsonValue_iff h (.updatedDateTime value)).trans ?_
      refine and_congr_right fun _ => imp_congr ?_ ?_
      · exact ofNumber_eq_none_iff
      · exact (Eq.congr_left (tabled_key (.updatedDateTime p.mUpdatedDateTime) rfl)).trans
          ofNumber_eq_none_iff

/-- With nothing undefined done, there has been room for the time of the information. -/
theorem fits_apply {p : FirmwareInfo D}
    (h : p.undefined = false → DateTime.Fits p.mUpdatedDateTime) (setter : FirmwareSetter)
    (hdefined : (setter.apply p).undefined = false) :
    DateTime.Fits (setter.apply p).mUpdatedDateTime := by
  cases setter with
  | name => exact h hdefined
  | version => exact h hdefined
  | uri => exact h hdefined
  | verifier => exact h hdefined
  | state => exact ((undefined_setJsonValue _).mp hdefined).2
  | updateStatus => exact ((undefined_setJsonValue _).mp hdefined).2
  | updatedDateTime => exact ((undefined_setJsonValue _).mp hdefined).2

/-- The step lemma: what the buffer has to have room for. -/
theorem undefined_apply {p : FirmwareInfo D}
    (h : p.undefined = false → DateTime.Fits p.mUpdatedDateTime) (setter : FirmwareSetter) :
    (setter.apply p).undefined = false ↔
      p.undefined = false ∧ ∀ time, setter = .updatedDateTime time → DateTime.Fits time := by
  cases setter with
  | name value => exact (and_iff_left (by simp)).symm
  | version value => exact (and_iff_left (by simp)).symm
  | uri value => exact (and_iff_left (by simp)).symm
  | verifier value => exact (and_iff_left (by simp)).symm
  | state value =>
      refine (undefined_setJsonValue _).trans (and_congr_right fun hdefined => ?_)
      exact iff_of_true (h hdefined) (by simp)
  | updateStatus value =>
      refine (undefined_setJsonValue _).trans (and_congr_right fun hdefined => ?_)
      exact iff_of_true (h hdefined) (by simp)
  | updatedDateTime value =>
      refine (undefined_setJsonValue _).trans (and_congr_right fun _ => ?_)
      simp

/-- The run lemma. -/
theorem undefined_foldl {p : FirmwareInfo D}
    (h : p.undefined = false → DateTime.Fits p.mUpdatedDateTime) (setters : List FirmwareSetter) :
    (setters.foldl apply p).undefined = false ↔
      p.undefined = false ∧ ∀ time, .updatedDateTime time ∈ setters → DateTime.Fits time := by
  induction setters generalizing p with
  | nil => simp
  | cons setter setters ih =>
      rw [List.foldl_cons, ih (fits_apply h setter), undefined_apply h, and_assoc]
      refine and_congr_right fun _ => ?_
      simp only [List.mem_cons, or_imp, forall_and, eq_comm]

/-- What the call is for. -/
def set (f : FirmwareFields) : FirmwareSetter → FirmwareFields
  | .name value => { f with name := value }
  | .version value => { f with version := value }
  | .uri value => { f with uri := value }
  | .verifier value => { f with verifier := value }
  | .state value => { f with state := value }
  | .updateStatus value => { f with updateStatus := value }
  | .updatedDateTime value => { f with updatedDateTime := value }

theorem fields_apply (p : FirmwareInfo D) (setter : FirmwareSetter) :
    (setter.apply p).fields = setter.set p.fields := by
  cases setter <;> rfl

theorem fields_foldl (setters : List FirmwareSetter) (p : FirmwareInfo D) :
    (setters.foldl apply p).fields = setters.foldl set p.fields := by
  induction setters generalizing p with
  | nil => rfl
  | cons setter setters ih => rw [List.foldl_cons, List.foldl_cons, ih, fields_apply]

end FirmwareSetter

namespace FirmwareInfo

/-- The setters called on an information, one after the other. -/
def machine : Machine (FirmwareInfo D) FirmwareSetter where
  step p setter := some (setter.apply p)

theorem eq_foldl_of_run {p q : FirmwareInfo D} {setters : List FirmwareSetter}
    (hr : machine.Run p setters q) : q = setters.foldl FirmwareSetter.apply p := by
  induction hr with
  | nil => rfl
  | cons hstep _ ih =>
      obtain rfl := Option.some.inj hstep
      exact ih

/-- The fields are what has been set last. The JSON text of an information goes with them,
from its construction on, as long as the setters are clean and there is room for the time. -/
theorem inStep_iff {f : FirmwareFields} {p q : FirmwareInfo D} {setters : List FirmwareSetter}
    (hp : Constructed f p) (hr : machine.Run p setters q) :
    q.fields = setters.foldl FirmwareSetter.set f ∧
      ((∀ front u, front <+: setters → machine.Run p front u → InStep u) ↔
        DateTime.Fits f.updatedDateTime ∧
          machine.Along (fun p setter => setter.Clean p) p setters) := by
  constructor
  · rw [eq_foldl_of_run hr, FirmwareSetter.fields_foldl, hp.fields_eq]
  by_cases hfits : DateTime.Fits f.updatedDateTime
  · rw [and_iff_right hfits]
    apply hr.forall_prefix_iff (P := InStep)
      (I := fun p => p.undefined = false → DateTime.Fits p.mUpdatedDateTime)
    · intro s setter u hs hstep
      obtain rfl := Option.some.inj hstep
      exact FirmwareSetter.fits_apply hs setter
    · intro s setter u hinv hs hstep
      obtain rfl := Option.some.inj hstep
      exact FirmwareSetter.inStep_apply_iff hs (hinv hs.1) setter
    · intro _
      have htime : p.mUpdatedDateTime = f.updatedDateTime :=
        congrArg FirmwareFields.updatedDateTime hp.fields_eq
      rwa [htime]
    · exact hp.inStep.mpr hfits
  · refine iff_of_false (fun h => hfits ?_) fun h => hfits h.1
    exact hp.inStep.mp (h [] p (List.nil_prefix) (.nil p))

/-- Reports of an update that has been successful. -/
theorem inStep_updated :
    let setters := [FirmwareSetter.updateStatus 1, .updateStatus 0, .updatedDateTime 951782400]
    let p : FirmwareInfo Int := new "fw".toList "2".toList [] []
    let f : FirmwareFields := ⟨"fw".toList, "2".toList, [], [], 0, -1, -1⟩
    ∃ q, machine.Run p setters q ∧ q.fields = setters.foldl FirmwareSetter.set f ∧
      ((∀ front u, front <+: setters → machine.Run p front u → InStep u) ↔
        DateTime.Fits f.updatedDateTime ∧
          machine.Along (fun p setter => setter.Clean p) p setters) := by
  intro setters p f
  have hr : machine.Run p setters _ := Machine.Run.exec_iff.mp rfl
  exact ⟨_, hr, inStep_iff (.new _ _ _ _) hr⟩

/-- A new name is not in the JSON text. -/
theorem inStep_fails : ¬ ∀ (f : FirmwareFields) (p q : FirmwareInfo Int)
    (setters : List FirmwareSetter), Constructed f p → machine.Run p setters q → InStep q := by
  intro h
  let p : FirmwareInfo Int := new "fw".toList "1".toList [] []
  have hr : machine.Run p [.name "fw2".toList] _ := Machine.Run.exec_iff.mp rfl
  have hstep := h _ _ _ _ (.new _ _ _ _) hr
  have hkey := hstep.2.2.2 "name".toList
  cases hkey

end FirmwareInfo

/-! ### Decoding what has been encoded -/

namespace FirmwareDetails

/-- The JSON text of an information that is constructed of the details. -/
def encode (d : FirmwareDetails) : Value D :=
  (FirmwareInfo.new d.name d.version d.uri d.verifier).json

theorem has_encode (d : FirmwareDetails) : (d.encode : Value D).Has
    (tabled (FirmwareInfo.new d.name d.version d.uri d.verifier : FirmwareInfo D).table) :=
  ((FirmwareInfo.Constructed.new _ _ _ _).inStep.mpr FirmwareInfo.fits_neg_one).2

variable [CxxDouble D]

omit [CxxDouble D] in
/-- A member that the table has as a text is read as this text. -/
theorem memberOr_encode {d : FirmwareDetails} {key s : StdString}
    (hkey : tabled (FirmwareInfo.new d.name d.version d.uri d.verifier : FirmwareInfo D).table
      key = ofText s) :
    (d.encode : Value D).memberOr key (.stringValue []) = .stringValue s := by
  rw [d.has_encode.memberOr, hkey, getD_ofText]

/-- The details that are read from the text; the uri is written under another name than
it is read from. -/
theorem ofField_encode {field : Value D} {d : FirmwareDetails}
    (hvalue : field.fieldValue = d.encode) : ofField field = { d with uri := [] } := by
  rw [ofField, hvalue, memberOr_encode (s := d.name) rfl, memberOr_encode (s := d.version) rfl,
    memberOr_encode (s := []) rfl, memberOr_encode (s := d.verifier) rfl]
  rfl

end FirmwareDetails

namespace FirmwareHandler

variable [CxxDouble D]

/-- Of an information that a message brings as JSON, `verify` gets all the details if its
field is the first and there is no uri. From a field behind another one it gets nothing: what
it is given is what the first field has, or the handler if that is no field of a firmware. -/
theorem verifies_encoded_iff {s : FirmwareHandler D} {v field : Value D} {d : FirmwareDetails}
    (h : v.IsUpdate) (hmem : field ∈ v.fields) (hnamed : field.IsNamed "mgmt.firmware".toList)
    (hvalue : field.fieldValue = d.encode) :
    (∃ p, Verifies s v p ∧ FirmwareDetails.ofInfo p = d) ↔
      (v.fields.head? = some field ∧ d.uri = []) ∨
        ∃ f, v.fields.head? = some f ∧ f ≠ field ∧
          d = if f.IsNamed "mgmt.firmware".toList then FirmwareDetails.ofField f
            else FirmwareDetails.ofInfo s.fwinfo := by
  have hverified : (∃ p, Verifies s v p ∧ FirmwareDetails.ofInfo p = d) ↔
      s.verifiedDetails v.fields = d := by
    simp only [verifies_iff h]
    exact ⟨fun ⟨p, hp, hd⟩ => hd ▸ hp ▸ rfl, fun hd => ⟨_, rfl, hd⟩⟩
  obtain ⟨f, rest, hfields⟩ := List.exists_cons_of_ne_nil (List.ne_nil_of_mem hmem)
  rw [hverified, verifiedDetails, hfields]
  simp only [List.head?_cons, headContent, Option.some_inj, exists_eq_left']
  by_cases hfirst : f = field
  · rw [hfirst, if_pos hnamed, FirmwareDetails.ofField_encode hvalue,
      or_iff_left fun h => h.1 rfl, and_iff_right rfl]
    exact ⟨fun heq => heq ▸ rfl, fun huri => by rw [← huri]⟩
  · rw [or_iff_right fun h => hfirst h.1, and_iff_right hfirst, eq_comm]

/-- A field of an update request with the JSON text of the details. -/
def encodedField (d : FirmwareDetails) : Value D := .objectValue
  [("field".toList, .stringValue "mgmt.firmware".toList), ("value".toList, d.encode)]

theorem encodedField_isField (d : FirmwareDetails) : (encodedField d : Value D).IsField := by
  refine ⟨trivial, trivial, fun _ => ?_,
    fun h => absurd (Except.ok.inj h) (by decide : "mgmt.firmware".toList ≠ "location".toList)⟩
  have htextual : ∀ {key s : StdString},
      (d.encode : Value D).memberOr key (.stringValue []) = .stringValue s →
        ((d.encode : Value D).memberOr key (.stringValue [])).Textual :=
    fun h => h ▸ trivial
  open FirmwareDetails in
  exact ⟨d.has_encode.objectLike, htextual (memberOr_encode (s := d.version) rfl),
    htextual (memberOr_encode (s := d.name) rfl), htextual (memberOr_encode (s := []) rfl),
    htextual (memberOr_encode (s := d.verifier) rfl)⟩

theorem isUpdate_encodedField (d : FirmwareDetails) :
    (Value.updateOf [encodedField d] : Value D).IsUpdate := by
  apply Value.isUpdate_updateOf
  intro field hfield
  obtain rfl := List.mem_singleton.mp hfield
  exact encodedField_isField d

/-- Without a uri, the details come through. -/
theorem verifies_encoded_version :
    let d : FirmwareDetails := ⟨"fw".toList, "2".toList, [], "abc".toList⟩
    ∃ p : FirmwareInfo Int, Verifies .new (.updateOf [encodedField d]) p ∧
      FirmwareDetails.ofInfo p = d := by
  intro d
  have hmem : encodedField d ∈ (Value.updateOf [encodedField d] : Value Int).fields :=
    List.mem_singleton_self _
  exact (verifies_encoded_iff (isUpdate_encodedField d) hmem rfl rfl).mpr (.inl ⟨rfl, rfl⟩)

/-- The uri does not come through. -/
theorem verifies_encoded_fails : ¬ ∀ (s : FirmwareHandler Int) (v field : Value Int)
    (d : FirmwareDetails), v.IsUpdate → field ∈ v.fields →
      field.IsNamed "mgmt.firmware".toList → field.fieldValue = d.encode →
        ∃ p, Verifies s v p ∧ FirmwareDetails.ofInfo p = d := by
  intro h
  let d : FirmwareDetails := ⟨"fw".toList, "2".toList, "http://host/fw".toList, []⟩
  have hupdate : (Value.updateOf [encodedField d] : Value Int).IsUpdate := isUpdate_encodedField d
  obtain ⟨p, hp, hd⟩ := h .new (.updateOf [encodedField d]) (encodedField d) d hupdate
    (List.mem_singleton_self _) rfl rfl
  rw [verifies_iff hupdate] at hp
  rw [hp] at hd
  exact absurd (congrArg FirmwareDetails.uri hd) (by decide)

end FirmwareHandler
