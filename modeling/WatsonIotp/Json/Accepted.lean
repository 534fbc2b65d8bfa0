import WatsonIotp.Json.RoundTrip

/-!
# What the reader accepts

The values that the reader makes are well-formed, so the client can pass on what it got:
the text it writes for a value it has read is read again. Doubles without a fraction come
back as integers the first time, and after that nothing changes any more.
-/

namespace Json

open FastWriter Reader

variable {D : Type} [CxxDouble D]

/-! ### Values of the reader -/

section Loops

variable {P : Value D → Prop} {element : StdString → Result D}

omit [CxxDouble D] in
theorem readObject_accepts (hel : ∀ cs v rest, element cs = .value v rest → P v) {fuel : Nat}
    {name : StdString} {members : List (StdString × Value D)} {cs rest : StdString} {v : Value D}
    (hordered : Ordered members) (hmembers : ∀ m ∈ members, P m.2)
    (h : readObject element fuel name members cs = .value v rest) :
    ∃ members', v = .objectValue members' ∧ Ordered members' ∧ ∀ m ∈ members', P m.2 := by
  have hstore : ∀ {name : StdString} {w : Value D} {members : List (StdString × Value D)},
      P w → (∀ m ∈ members, P m.2) → ∀ m ∈ setMember name w members, P m.2 := by
    intro name w members hw hmembers m hm
    obtain rfl | hm := mem_setMember hm
    · exact hw
    · exact hmembers m hm
  fun_induction readObject element fuel name members cs with
  | case2 =>
      cases h
      exact ⟨_, rfl, hordered, hmembers⟩
  | case5 _ _ _ _ _ _ _ _ _ _ _ _ _ _ hw =>
      cases h
      exact ⟨_, rfl, hordered.setMember, hstore (hel _ _ _ hw) hmembers⟩
  | case6 _ _ _ _ _ _ _ _ _ _ _ _ _ _ hw _ ih =>
      exact ih hordered.setMember (hstore (hel _ _ _ hw) hmembers) h
  | case7 _ _ _ _ _ _ _ _ _ _ _ _ _ _ hw =>
      cases h
      exact ⟨_, rfl, hordered.setMember, hstore (hel _ _ _ hw) hmembers⟩
  | case8 _ _ _ _ _ _ _ _ _ _ _ _ _ _ hw _ _ _ _ _ ih =>
      exact ih hordered.setMember (hstore (hel _ _ _ hw) hmembers) h
  | _ => cases h

omit [CxxDouble D] in
theorem readArray_accepts (hel : ∀ cs v rest, element cs = .value v rest → P v) {fuel : Nat}
    {elements : List (Value D)} {cs rest : StdString} {v : Value D}
    (helements : ∀ w ∈ elements, P w) (h : readArray element fuel elements cs = .value v rest) :
    ∃ elements', v = .arrayValue elements' ∧ ∀ w ∈ elements', P w := by
  have hstore : ∀ {elements : List (Value D)} {w : Value D},
      (∀ w ∈ elements, P w) → P w → ∀ w' ∈ elements ++ [w], P w' := by
    intro elements w helements hw w' hw'
    obtain hw' | hw' := List.mem_append.mp hw'
    · exact helements w' hw'
    · rwa [List.mem_singleton.mp hw']
  fun_induction readArray element fuel elements cs with
  | case2 _ _ _ _ _ hw =>
      cases h
      exact ⟨_, rfl, hstore helements (hel _ _ _ hw)⟩
  | case3 _ _ _ _ _ hw _ _ _ ih => exact ih (hstore helements (hel _ _ _ hw)) h
  | _ => cases h

end Loops

theorem SmallestType.wellFormed {v : Value D} (h : SmallestType v) : WellFormed v := by
  cases v with
  | intValue i =>
      obtain ⟨hlow, hhigh⟩ := h
      unfold maxInt at hhigh
      exact .intValue hlow (by omega)
  | uintValue n => exact .uintValue h.2
  | _ => exact h.elim

omit [CxxDouble D] in
theorem SmallestType.nesting_eq {v : Value D} (h : SmallestType v) : nesting v = 1 := by
  cases v with
  | intValue i => rfl
  | uintValue n => rfl
  | _ => exact h.elim

/-- An integer of the smallest type stays as it is. -/
theorem SmallestType.reread_eq {v : Value D} (h : SmallestType v) : reread v = v := by
  cases v with
  | intValue i =>
      have hhigh := h.2
      rw [reread]
      split_ifs with hneg
      · rfl
      · have htoNat : (i.toNat : Int) = i := Int.toNat_of_nonneg (by omega)
        rw [unsignedValue, htoNat, if_pos hhigh]
  | uintValue n => exact if_neg (by have := h.1; omega)
  | _ => exact h.elim

omit [CxxDouble D] in
theorem smallestType_unsignedValue {n : Nat} (h : n < 2 ^ 64) :
    SmallestType (unsignedValue n : Value D) := by
  unfold unsignedValue
  split_ifs with hsmall
  · exact ⟨by omega, hsmall⟩
  · exact ⟨by omega, h⟩

/-! ### Values that went through once -/

/-- A double comes back as null, as an integer of the smallest type or as it was. -/
theorem rereadReal_cases {d : D} (h : Readable d) : rereadReal d = .nullValue ∨
    SmallestType (rereadReal d) ∨ rereadReal d = .realValue d := by
  unfold rereadReal
  obtain hnull | ⟨hnumber, htoken⟩ := h
  · exact .inl (if_pos hnull)
  · obtain ⟨w, hw⟩ := decodeNumber_isSome htoken
    rw [if_neg hnumber.ne_null, hw, Option.getD_some]
    obtain hsmall | ⟨d', hd', rfl⟩ := decodeNumber_cases hw
    · exact .inr (.inl hsmall)
    · rw [Option.some.inj (htoken.symm.trans hd')]
      exact .inr (.inr rfl)

section Nesting

omit [CxxDouble D]

variable {f : Value D → Value D}

theorem nestingElements_map {elements : List (Value D)}
    (h : ∀ v ∈ elements, nesting (f v) = nesting v) :
    nestingElements (elements.map f) = nestingElements elements := by
  apply eq_of_forall_ge_iff
  intro limit
  rw [nestingElements_le_iff, nestingElements_le_iff, List.forall_mem_map]
  exact forall₂_congr fun v hv => by rw [h v hv]

theorem nestingMembers_map {members : List (StdString × Value D)}
    (h : ∀ m ∈ members, nesting (f m.2) = nesting m.2) :
    nestingMembers (members.map fun m => (m.1, f m.2)) = nestingMembers members := by
  apply eq_of_forall_ge_iff
  intro limit
  rw [nestingMembers_le_iff, nestingMembers_le_iff, List.forall_mem_map]
  exact forall₂_congr fun m hm => by rw [h m hm]

end Nesting

/-- What comes back is well-formed, nested as before, and comes back as it is from then on. -/
theorem reread_spec {v : Value D} (hv : WellFormed v) :
    WellFormed (reread v) ∧ nesting (reread v) = nesting v ∧ reread (reread v) = reread v := by
  induction hv with
  | nullValue => exact ⟨.nullValue, rfl, rfl⟩
  | @intValue i hlow hhigh =>
      have hsmall : SmallestType (reread (.intValue i) : Value D) := by
        rw [reread]
        split_ifs with hneg
        · exact ⟨hlow, by unfold maxInt; omega⟩
        · exact smallestType_unsignedValue (by omega)
      exact ⟨hsmall.wellFormed, hsmall.nesting_eq, hsmall.reread_eq⟩
  | uintValue hn =>
      have hsmall := smallestType_unsignedValue (D := D) hn
      exact ⟨hsmall.wellFormed, hsmall.nesting_eq, hsmall.reread_eq⟩
  | @realValue d hd =>
      rw [reread]
      obtain hnull | hsmall | hself := rereadReal_cases hd
      · rw [hnull]
        exact ⟨.nullValue, rfl, rfl⟩
      · exact ⟨hsmall.wellFormed, hsmall.nesting_eq, hsmall.reread_eq⟩
      · rw [hself, reread]
        exact ⟨.realValue hd, rfl, hself⟩
  | stringValue s => exact ⟨.stringValue s, rfl, rfl⟩
  | booleanValue b => exact ⟨.booleanValue b, rfl, rfl⟩
  | @arrayValue elements _ ih =>
      rw [reread, rereadElements_eq_map]
      refine ⟨.arrayValue (List.forall_mem_map.mpr fun v hv => (ih v hv).1), ?_, ?_⟩
      · exact congrArg (1 + ·) (nestingElements_map fun v hv => (ih v hv).2.1)
      · rw [reread, rereadElements_eq_map, List.map_map]
        exact congrArg _ (List.map_congr_left fun v hv => (ih v hv).2.2)
  | @objectValue members hordered _ ih =>
      rw [reread, rereadMembers_eq_map]
      refine ⟨.objectValue (List.pairwise_map.mpr hordered)
        (List.forall_mem_map.mpr fun m hm => (ih m hm).1), ?_, ?_⟩
      · exact congrArg (1 + ·) (nestingMembers_map fun m hm => (ih m hm).2.1)
      · rw [reread, rereadMembers_eq_map, List.map_map]
        exact congrArg _ (List.map_congr_left fun m hm =>
          congrArg (Prod.mk m.1) (ih m hm).2.2)

/-- Texts that were put one behind the other can be told apart: no payload's text goes on as
another one, and equal texts stand for values that are read the same. -/
theorem jsonValueToString_unique {v w : Value D} (hv : WellFormed v) (hw : WellFormed w)
    {rest rest' : StdString} (h : jsonValueToString v ++ rest = jsonValueToString w ++ rest') :
    reread v = reread w ∧ rest = rest' := by
  let limit := max (nesting v) (nesting w)
  have hv' := rereads_of_wellFormed hv limit '\n' (by decide) rest
  have hw' := rereads_of_wellFormed hw limit '\n' (by decide) rest'
  rw [if_pos (Nat.le_max_left _ _)] at hv'
  rw [if_pos (Nat.le_max_right _ _)] at hw'
  have htext : writeValue v ++ '\n' :: rest = writeValue w ++ '\n' :: rest' := by
    simpa [jsonValueToString, FastWriter.write] using h
  rw [htext, hw'] at hv'
  obtain ⟨hsame, hrest⟩ := Result.value.inj hv'
  exact ⟨hsame.symm, (List.cons.inj hrest).2.symm⟩

/-- One text for the two types of a number. -/
theorem jsonValueToString_unique_number :
    reread (.intValue 3 : Value Int) = reread (.uintValue 3) ∧ "x".toList = "x".toList :=
  jsonValueToString_unique (.intValue (by decide) (by decide)) (.uintValue (by decide)) rfl

/-- Doubles that were read from digits are finite, and 17 digits tell them apart. -/
def ReadsReadable (D : Type) [CxxDouble D] : Prop :=
  ∀ (token : StdString) (d : D), CxxDouble.ofToken token = some d → Readable d

variable (hdouble : ReadsReadable D)

include hdouble

/-- A value that was read is well-formed and within the limit. -/
theorem readValue_accepts (limit : Nat) : ∀ {cs rest : StdString} {v : Value D},
    readValue limit cs = .value v rest → WellFormed v ∧ nesting v ≤ limit := by
  induction limit with
  | zero =>
      intro cs rest v h
      cases h
  | succ limit ih =>
      intro cs rest v h
      rw [readValue] at h
      split at h
      · obtain ⟨members, rfl, hordered, hmembers⟩ :=
          readObject_accepts (P := fun w => WellFormed w ∧ nesting w ≤ limit)
            (fun _ _ _ => ih) List.Pairwise.nil (fun m hm => absurd hm List.not_mem_nil) h
        have hnesting := nestingMembers_le_iff.mpr fun m hm => (hmembers m hm).2
        refine ⟨.objectValue hordered fun m hm => (hmembers m hm).1, ?_⟩
        rw [nesting]
        omega
      · split at h
        · cases h
          exact ⟨.arrayValue fun w hw => absurd hw List.not_mem_nil, Nat.le_add_left 1 limit⟩
        · obtain ⟨elements, rfl, helements⟩ :=
            readArray_accepts (P := fun w => WellFormed w ∧ nesting w ≤ limit)
              (fun _ _ _ => ih) (fun w hw => absurd hw List.not_mem_nil) h
          have hnesting := nestingElements_le_iff.mpr fun w hw => (helements w hw).2
          refine ⟨.arrayValue fun w hw => (helements w hw).1, ?_⟩
          rw [nesting]
          omega
      · split at h
        · next w hdecode =>
          cases h
          obtain hsmall | ⟨d, hd, rfl⟩ := decodeNumber_cases hdecode
          · exact ⟨hsmall.wellFormed, hsmall.nesting_eq.trans_le (Nat.le_add_left 1 limit)⟩
          · exact ⟨.realValue (hdouble _ d hd), Nat.le_add_left 1 limit⟩
        · cases h
      · split at h
        · cases h
          exact ⟨.stringValue _, Nat.le_add_left 1 limit⟩
        · cases h
      · cases h
        exact ⟨.booleanValue true, Nat.le_add_left 1 limit⟩
      · cases h
        exact ⟨.booleanValue false, Nat.le_add_left 1 limit⟩
      · cases h
        exact ⟨.nullValue, Nat.le_add_left 1 limit⟩
      · cases h

/-- Whatever document the client accepts, its own encoding of what it got is accepted in turn,
by a reader with the same limit; and from the second reading on nothing changes any more. -/
theorem parse_reencoded {document : StdString} {v : Value D} (h : parse document = .ok (some v)) :
    parse (jsonValueToString v) = .ok (some (reread v)) ∧
      parse (jsonValueToString (reread v)) = .ok (some (reread v)) := by
  obtain ⟨rest, hread⟩ : ∃ rest, readValue stackLimit document = .value v rest := by
    unfold parse at h
    split at h <;> cases h
    exact ⟨_, ‹_›⟩
  obtain ⟨hv, hnesting⟩ := readValue_accepts hdouble stackLimit hread
  obtain ⟨hv', hnesting', hsame⟩ := reread_spec hv
  refine ⟨?_, ?_⟩
  · rw [parse_jsonValueToString hv, if_pos hnesting]
  · rw [parse_jsonValueToString hv', if_pos (hnesting'.trans_le hnesting), hsame]

omit hdouble in
/-- The members come out in their order, and no blank comes out at all. -/
theorem parse_reencoded_members :
    parse (D := Int) (jsonValueToString (D := Int) (.objectValue [("a".toList, .booleanValue true),
      ("b".toList, .intValue (-2))])) =
        .ok (some (.objectValue [("a".toList, .booleanValue true),
          ("b".toList, .intValue (-2))])) := by
  have hparse : parse (D := Int) "\x7b \"b\" : -2, \"a\" : true \x7d".toList = .ok (some
      (.objectValue [("a".toList, .booleanValue true), ("b".toList, .intValue (-2))])) := rfl
  exact (parse_reencoded (fun _ _ h => by cases h) hparse).1

end Json
