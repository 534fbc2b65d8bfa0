import WatsonIotp.Json.Object
import WatsonIotp.Json.Progress
import WatsonIotp.Json.QuotedText

/-!
# Reading what was written

The client writes its payloads with one class of jsoncpp and the other side reads them with
another. `readValue_writeValue` says how the two fit for every well-formed value: what was
written is read back as `reread` tells, up to the nesting that the reader allows, and from
there on the reader throws. The writer itself has no limit.
-/

namespace Json

open FastWriter Reader

variable {D : Type} [CxxDouble D]

/-- The writer gives the double as null, or as a number with digits enough to tell it from
all others. -/
def Readable (d : D) : Prop := CxxDouble.toText d = "null".toList ∨
  IsNumber (CxxDouble.toText d) ∧ CxxDouble.ofToken (CxxDouble.toText d) = some d

/-- A value that can be in the memory of the client: integers are of 64 bits, the members of
objects in order. Infinite doubles are left out, since no reader takes what is written for
them. -/
inductive WellFormed : Value D → Prop where
  | nullValue : WellFormed .nullValue
  | intValue {i : Int} : -2 ^ 63 ≤ i → i < 2 ^ 63 → WellFormed (.intValue i)
  | uintValue {n : Nat} : n < 2 ^ 64 → WellFormed (.uintValue n)
  | realValue {d : D} : Readable d → WellFormed (.realValue d)
  | stringValue (s : StdString) : WellFormed (.stringValue s)
  | booleanValue (b : Bool) : WellFormed (.booleanValue b)
  | arrayValue {elements : List (Value D)} :
      (∀ v ∈ elements, WellFormed v) → WellFormed (.arrayValue elements)
  | objectValue {members : List (StdString × Value D)} :
      Ordered members → (∀ m ∈ members, WellFormed m.2) → WellFormed (.objectValue members)

/-- A double after it was written and read. -/
def rereadReal (d : D) : Value D :=
  if CxxDouble.toText d = "null".toList then .nullValue
  else (decodeNumber (CxxDouble.toText d)).getD .nullValue

mutual

/-- A value after it was written and read: integers have the smallest type that holds them,
and so has a double without fraction and exponent. -/
def reread : Value D → Value D
  | .intValue i => if i < 0 then .intValue i else unsignedValue i.toNat
  | .uintValue n => unsignedValue n
  | .realValue d => rereadReal d
  | .arrayValue elements => .arrayValue (rereadElements elements)
  | .objectValue members => .objectValue (rereadMembers members)
  | v => v

def rereadElements : List (Value D) → List (Value D)
  | [] => []
  | v :: elements => reread v :: rereadElements elements

def rereadMembers : List (StdString × Value D) → List (StdString × Value D)
  | [] => []
  | (name, v) :: members => (name, reread v) :: rereadMembers members

end

omit [CxxDouble D] in
mutual

/-- The calls of `readValue` that are open at once while the value is read. -/
def nesting : Value D → Nat
  | .arrayValue elements => 1 + nestingElements elements
  | .objectValue members => 1 + nestingMembers members
  | _ => 1

def nestingElements : List (Value D) → Nat
  | [] => 0
  | v :: elements => max (nesting v) (nestingElements elements)

def nestingMembers : List (StdString × Value D) → Nat
  | [] => 0
  | (_, v) :: members => max (nesting v) (nestingMembers members)

end

theorem rereadElements_eq_map (elements : List (Value D)) :
    rereadElements elements = elements.map reread := by
  induction elements with
  | nil => rfl
  | cons v elements ih => rw [rereadElements, ih, List.map_cons]

theorem rereadMembers_eq_map (members : List (StdString × Value D)) :
    rereadMembers members = members.map fun m => (m.1, reread m.2) := by
  induction members with
  | nil => rfl
  | cons m members ih =>
      obtain ⟨name, v⟩ := m
      rw [rereadMembers, ih, List.map_cons]

section

omit [CxxDouble D]

theorem nestingElements_le_iff {elements : List (Value D)} {limit : Nat} :
    nestingElements elements ≤ limit ↔ ∀ v ∈ elements, nesting v ≤ limit := by
  induction elements with
  | nil => exact ⟨fun _ _ h => absurd h List.not_mem_nil, fun _ => Nat.zero_le _⟩
  | cons v elements ih => rw [nestingElements, Nat.max_le, ih, List.forall_mem_cons]

theorem nestingMembers_le_iff {members : List (StdString × Value D)} {limit : Nat} :
    nestingMembers members ≤ limit ↔ ∀ m ∈ members, nesting m.2 ≤ limit := by
  induction members with
  | nil => exact ⟨fun _ _ h => absurd h List.not_mem_nil, fun _ => Nat.zero_le _⟩
  | cons m members ih =>
      obtain ⟨name, v⟩ := m
      rw [nestingMembers, Nat.max_le, ih, List.forall_mem_cons]

theorem nesting_pos (v : Value D) : 1 ≤ nesting v := by
  cases v <;> simp only [nesting] <;> omega

end

/-! ### Loops over elements and members -/

/-- What `readValue` throws where the nesting is too deep. -/
def stackError : Error := .runtimeError "Exceeded stackLimit in readValue()."

/-- What a reader with this limit makes of a written value, in front of a delimiter. -/
def Rereads (limit : Nat) (element : StdString → Result D) (v : Value D) : Prop :=
  ∀ d ∈ delimiters, ∀ rest, element (writeValue v ++ d :: rest) =
    if nesting v ≤ limit then .value (reread v) (d :: rest) else .thrown stackError

theorem skipCommentTokens_eq {cs rest : StdString} {token : Token}
    (h : readToken cs = (token, rest)) (hne : token.type ≠ .comment) :
    skipCommentTokens cs = (token, rest) := by
  cases cs with
  | nil => exact h
  | cons c cs =>
      have htoken : (readToken (c :: cs)).1.type ≠ .comment := by rwa [h]
      exact (if_neg htoken).trans h

variable {limit : Nat} {element : StdString → Result D}

/-- The elements from the second one on have a comma in front. -/
theorem writeElements_false (v : Value D) (elements : List (Value D)) :
    writeElements false (v :: elements) = ',' :: writeElements true (v :: elements) := rfl

theorem readArray_writeElements {v : Value D} {elements : List (Value D)}
    (hel : ∀ w ∈ v :: elements, Rereads limit element w) {fuel : Nat}
    (hfuel : elements.length < fuel) (acc : List (Value D)) (rest : StdString) :
    readArray element fuel acc (writeElements true (v :: elements) ++ ']' :: rest) =
      if nestingElements (v :: elements) ≤ limit then
        .value (.arrayValue (acc ++ rereadElements (v :: elements))) rest
      else .thrown stackError := by
  induction elements generalizing v fuel acc with
  | nil =>
      obtain ⟨fuel, rfl⟩ := Nat.exists_eq_succ_of_ne_zero (Nat.ne_zero_of_lt hfuel)
      have hv := hel v List.mem_cons_self ']' (by decide) rest
      have hend : skipCommentTokens (']' :: rest) = (⟨.arrayEnd, []⟩, rest) :=
        skipCommentTokens_eq rfl (by decide)
      simp only [writeElements, List.append_nil, if_true, List.nil_append]
      rw [readArray, hv, nestingElements, nestingElements, Nat.max_zero]
      split_ifs
      · simp only [hend]
        rfl
      · rfl
  | cons w elements ih =>
      obtain ⟨fuel, rfl⟩ := Nat.exists_eq_succ_of_ne_zero (Nat.ne_zero_of_lt hfuel)
      obtain ⟨hv, hws⟩ := List.forall_mem_cons.mp hel
      have hv := hv ',' (by decide) (writeElements true (w :: elements) ++ ']' :: rest)
      have hsep : skipCommentTokens (',' :: (writeElements true (w :: elements) ++ ']' :: rest)) =
          (⟨.arraySeparator, []⟩, writeElements true (w :: elements) ++ ']' :: rest) :=
        skipCommentTokens_eq rfl (by decide)
      have htext : writeElements true (v :: w :: elements) ++ ']' :: rest =
          writeValue v ++ ',' :: (writeElements true (w :: elements) ++ ']' :: rest) := by
        rw [writeElements, writeElements_false, if_pos rfl, List.nil_append, List.append_assoc,
          List.cons_append]
      rw [htext, readArray, hv, nestingElements]
      by_cases hnesting : nesting v ≤ limit
      · have hrest := ih hws (Nat.lt_of_succ_lt_succ hfuel) (acc ++ [reread v])
        rw [List.append_assoc] at hrest
        rw [if_pos hnesting]
        simp only [hsep, Nat.max_le, hnesting, true_and]
        exact hrest
      · rw [if_neg hnesting, if_neg fun h => hnesting (Nat.max_le.mp h).1]

/-- A quoted text is a string token. -/
theorem readToken_quoted (s rest : StdString) :
    readToken (valueToQuotedStringN s ++ rest) = (⟨.string, s.flatMap escaped⟩, rest) := by
  have hskip : skipSpaces ('"' :: (s.flatMap escaped ++ '"' :: rest)) =
      '"' :: (s.flatMap escaped ++ '"' :: rest) := skipSpaces_cons (by decide) _
  have htext : valueToQuotedStringN s ++ rest = '"' :: (s.flatMap escaped ++ '"' :: rest) := by
    rw [valueToQuotedStringN_eq, List.append_assoc]
    rfl
  rw [htext, readToken, hskip]
  simp only [readString_quoted]

omit [CxxDouble D] in
/-- A name behind all others is stored at the end. -/
theorem setMember_last {name : StdString} {v : Value D} {front back : List (StdString × Value D)}
    (h : Ordered (front ++ (name, v) :: back)) : setMember name v front = front ++ [(name, v)] := by
  induction front with
  | nil => rfl
  | cons m front ih =>
      obtain ⟨name', v'⟩ := m
      obtain ⟨hfirst, hfront⟩ := List.pairwise_cons.mp h
      have hlt : name' < name := hfirst (name, v) (List.mem_append_right _ List.mem_cons_self)
      rw [setMember, if_neg fun hgt => List.lt_irrefl _ (List.lt_trans hgt hlt),
        if_neg fun heq => ne_of_lt hlt heq.symm, ih hfront]
      rfl

theorem writeMembers_false (m : StdString × Value D) (members : List (StdString × Value D)) :
    writeMembers false (m :: members) = ',' :: writeMembers true (m :: members) := rfl

theorem writeMembers_true (name : StdString) (v : Value D)
    (members : List (StdString × Value D)) (rest : StdString) :
    writeMembers true ((name, v) :: members) ++ rest =
      valueToQuotedStringN name ++
        ':' :: (writeValue v ++ (writeMembers false members ++ rest)) := by
  rw [writeMembers, if_pos rfl, List.nil_append, List.append_assoc, List.append_assoc]
  rfl

section Member

variable {name : StdString} {v : Value D} (hv : Rereads limit element v) (fuel : Nat)
  (previous : StdString) (acc : List (StdString × Value D)) (rest : StdString)

include hv

/-- One round of the loop over members, of the last one. -/
theorem readObject_last :
    readObject element (fuel + 1) previous acc
        (valueToQuotedStringN name ++ ':' :: (writeValue v ++ '}' :: rest)) =
      if nesting v ≤ limit then .value (.objectValue (setMember name (reread v) acc)) rest
      else .thrown stackError := by
  have hname := skipCommentTokens_eq
    (readToken_quoted name (':' :: (writeValue v ++ '}' :: rest))) (by simp)
  have hcolon : readToken (':' :: (writeValue v ++ '}' :: rest)) =
      (⟨.memberSeparator, []⟩, writeValue v ++ '}' :: rest) := rfl
  have hend : readToken ('}' :: rest) = (⟨.objectEnd, []⟩, rest) := rfl
  rw [readObject, hname]
  simp only [decodeString_quoted, hcolon, hv '}' (by decide) rest]
  by_cases hnesting : nesting v ≤ limit
  · simp only [if_pos hnesting, hend]
  · simp only [if_neg hnesting]

/-- One round of the loop over members, with a comma behind. -/
theorem readObject_next :
    readObject element (fuel + 1) previous acc
        (valueToQuotedStringN name ++ ':' :: (writeValue v ++ ',' :: rest)) =
      if nesting v ≤ limit then
        readObject element fuel name (setMember name (reread v) acc) rest
      else .thrown stackError := by
  have hname := skipCommentTokens_eq
    (readToken_quoted name (':' :: (writeValue v ++ ',' :: rest))) (by simp)
  have hcolon : readToken (':' :: (writeValue v ++ ',' :: rest)) =
      (⟨.memberSeparator, []⟩, writeValue v ++ ',' :: rest) := rfl
  have hsep : readToken (',' :: rest) = (⟨.arraySeparator, []⟩, rest) := rfl
  rw [readObject, hname]
  simp only [decodeString_quoted, hcolon, hv ',' (by decide) rest]
  by_cases hnesting : nesting v ≤ limit
  · simp only [if_pos hnesting, hsep]
  · simp only [if_neg hnesting]

end Member

theorem readObject_writeMembers {name : StdString} {v : Value D}
    {members : List (StdString × Value D)}
    (hel : ∀ m ∈ (name, v) :: members, Rereads limit element m.2) {fuel : Nat}
    (hfuel : members.length < fuel) (previous : StdString) {acc : List (StdString × Value D)}
    (hordered : Ordered (acc ++ rereadMembers ((name, v) :: members))) (rest : StdString) :
    readObject element fuel previous acc (writeMembers true ((name, v) :: members) ++ '}' :: rest) =
      if nestingMembers ((name, v) :: members) ≤ limit then
        .value (.objectValue (acc ++ rereadMembers ((name, v) :: members))) rest
      else .thrown stackError := by
  induction members generalizing name v fuel previous acc with
  | nil =>
      obtain ⟨fuel, rfl⟩ := Nat.exists_eq_succ_of_ne_zero (Nat.ne_zero_of_lt hfuel)
      have hv := hel (name, v) List.mem_cons_self
      rw [writeMembers_true, writeMembers, List.nil_append, Nat.succ_eq_add_one, readObject_last hv,
        setMember_last hordered, nestingMembers, nestingMembers, Nat.max_zero]
      rfl
  | cons m members ih =>
      obtain ⟨name', v'⟩ := m
      obtain ⟨fuel, rfl⟩ := Nat.exists_eq_succ_of_ne_zero (Nat.ne_zero_of_lt hfuel)
      obtain ⟨hv, hel'⟩ := List.forall_mem_cons.mp hel
      have hordered' : Ordered ((acc ++ [(name, reread v)]) ++
          rereadMembers ((name', v') :: members)) := by
        rw [List.append_assoc]
        exact hordered
      have hrest := ih hel' (Nat.lt_of_succ_lt_succ hfuel) name hordered'
      rw [List.append_assoc] at hrest
      have hmax : nestingMembers ((name, v) :: (name', v') :: members) =
          max (nesting v) (nestingMembers ((name', v') :: members)) := rfl
      rw [writeMembers_true, writeMembers_false, List.cons_append, Nat.succ_eq_add_one,
        readObject_next hv, setMember_last hordered, hrest, hmax]
      by_cases hnesting : nesting v ≤ limit
      · rw [if_pos hnesting]
        simp only [Nat.max_le, hnesting, true_and]
        rfl
      · rw [if_neg hnesting, if_neg fun h => hnesting (Nat.max_le.mp h).1]

/-! ### Values -/

theorem matchWord_append (type : TokenType) (word rest : StdString) :
    matchWord type word (word ++ rest) = (⟨type, []⟩, rest) := by
  rw [matchWord, if_pos (List.prefix_append word rest), List.drop_left]

theorem readValue_null (limit : Nat) (rest : StdString) :
    readValue (D := D) (limit + 1) ("null".toList ++ rest) = .value .nullValue rest := by
  have htoken : skipCommentTokens ("null".toList ++ rest) = (⟨.null, []⟩, rest) :=
    skipCommentTokens_eq (matchWord_append .null "ull".toList rest) (by simp)
  rw [readValue, htoken]

theorem readValue_true (limit : Nat) (rest : StdString) :
    readValue (D := D) (limit + 1) ("true".toList ++ rest) = .value (.booleanValue true) rest := by
  have htoken : skipCommentTokens ("true".toList ++ rest) = (⟨.true, []⟩, rest) :=
    skipCommentTokens_eq (matchWord_append .true "rue".toList rest) (by simp)
  rw [readValue, htoken]

theorem readValue_false (limit : Nat) (rest : StdString) :
    readValue (D := D) (limit + 1) ("false".toList ++ rest) =
      .value (.booleanValue false) rest := by
  have htoken : skipCommentTokens ("false".toList ++ rest) = (⟨.false, []⟩, rest) :=
    skipCommentTokens_eq (matchWord_append .false "alse".toList rest) (by simp)
  rw [readValue, htoken]

theorem readValue_number {text : StdString} {v : Value D} (hnumber : IsNumber text)
    (hdecode : decodeNumber text = some v) (limit : Nat) {d : Char} (hd : d ∈ delimiters)
    (rest : StdString) : readValue (limit + 1) (text ++ d :: rest) = .value v (d :: rest) := by
  have htoken := skipCommentTokens_eq (readToken_number hnumber hd rest) (by simp)
  rw [readValue, htoken]
  simp only [hdecode]

/-- Nothing that the reader skips, and no closing bracket, is in front of a written value. -/
theorem writeValue_head {v : Value D} (hv : WellFormed v) :
    ∃ c cs, writeValue v = c :: cs ∧ isSpace c = false ∧ c ≠ ']' := by
  have hnumber : ∀ {text : StdString}, IsNumber text →
      ∃ c cs, text = c :: cs ∧ isSpace c = false ∧ c ≠ ']' := by
    rintro _ ⟨c, cs, rfl, hc, -⟩
    exact ⟨c, cs, rfl, isSpace_of_number hc⟩
  cases hv with
  | nullValue => exact ⟨'n', _, rfl, by decide, by decide⟩
  | intValue _ _ => exact hnumber (isNumber_intText _)
  | uintValue _ => exact hnumber (isNumber_toDigits _)
  | realValue hd =>
      obtain htext | ⟨htext, -⟩ := hd
      · exact ⟨'n', _, htext, by decide, by decide⟩
      · exact hnumber htext
  | stringValue s => exact ⟨'"', _, valueToQuotedStringN_eq s, by decide, by decide⟩
  | booleanValue b => cases b
                      · exact ⟨'f', _, rfl, by decide, by decide⟩
                      · exact ⟨'t', _, rfl, by decide, by decide⟩
  | arrayValue _ => exact ⟨'[', _, rfl, by decide, by decide⟩
  | objectValue _ _ => exact ⟨'{', _, rfl, by decide, by decide⟩

theorem length_writeElements_false (elements : List (Value D)) :
    elements.length ≤ (writeElements false elements).length := by
  induction elements with
  | nil => exact Nat.zero_le _
  | cons v elements ih =>
      rw [writeElements, List.length_append, List.length_append, List.length_cons]
      have hcomma : (if false = true then [] else [',']).length = 1 := rfl
      omega

theorem length_writeMembers_false (members : List (StdString × Value D)) :
    members.length ≤ (writeMembers false members).length := by
  induction members with
  | nil => exact Nat.zero_le _
  | cons m members ih =>
      obtain ⟨name, v⟩ := m
      rw [writeMembers_false, List.length_cons, List.length_cons]
      have hrest : (writeMembers false members).length ≤
          (writeMembers true ((name, v) :: members)).length := by
        rw [writeMembers, List.length_append]
        omega
      omega

theorem Reader.IsNumber.ne_null {text : StdString} (h : IsNumber text) : text ≠ "null".toList := by
  rintro rfl
  obtain ⟨c, cs, htext, hc, -⟩ := h
  obtain ⟨rfl, -⟩ := List.cons.inj htext
  exact absurd hc (by decide)

/-- An integer as the reader has it: of type `int` if it fits, of 64 bits otherwise. -/
def SmallestType : Value D → Prop
  | .intValue i => -2 ^ 63 ≤ i ∧ i ≤ maxInt
  | .uintValue n => maxInt < n ∧ n < 2 ^ 64
  | _ => False

/-- A number token is an integer of 64 bits, or what `double` makes of it. -/
theorem decodeNumber_cases {text : StdString} {w : Value D} (h : decodeNumber text = some w) :
    SmallestType w ∨ ∃ d, CxxDouble.ofToken text = some d ∧ w = .realValue d := by
  unfold decodeNumber at h
  split at h
  · next digits =>
    cases hdecode : decodeDigits (2 ^ 63) 0 digits with
    | none =>
        rw [hdecode] at h
        obtain ⟨d, hd, rfl⟩ := Option.map_eq_some_iff.mp h
        exact .inr ⟨d, hd, rfl⟩
    | some value =>
        have hle := decodeDigits_le (by decide) hdecode
        rw [hdecode] at h
        cases h
        exact .inl ⟨by omega, by unfold maxInt; omega⟩
  · cases hdecode : decodeDigits (2 ^ 64 - 1) 0 text with
    | none =>
        rw [hdecode] at h
        obtain ⟨d, hd, rfl⟩ := Option.map_eq_some_iff.mp h
        exact .inr ⟨d, hd, rfl⟩
    | some value =>
        have hle := decodeDigits_le (by decide) hdecode
        simp only [hdecode] at h
        split_ifs at h with hsmall
        · cases h
          exact .inl ⟨by omega, hsmall⟩
        · cases h
          exact .inl ⟨by omega, by omega⟩

/-- What `double` takes is decoded, one way or the other. -/
theorem decodeNumber_isSome {text : StdString} {d : D} (h : CxxDouble.ofToken text = some d) :
    ∃ w : Value D, decodeNumber text = some w := by
  unfold decodeNumber
  simp only [h, Option.map_some]
  split <;> split
  · exact ⟨_, rfl⟩
  · exact ⟨_, rfl⟩
  · split <;> exact ⟨_, rfl⟩
  · exact ⟨_, rfl⟩

/-- Without a level left, nothing is read. -/
theorem rereads_of_succ {v : Value D}
    (h : ∀ limit, Rereads (limit + 1) (readValue (limit + 1)) v) (limit : Nat) :
    Rereads limit (readValue limit) v := by
  cases limit with
  | zero =>
      intro d _ rest
      have hpos := nesting_pos v
      rw [if_neg (by omega)]
      rfl
  | succ limit => exact h limit

/-- A value without parts needs one level. -/
theorem rereads_scalar {v w : Value D} {limit : Nat} (hnesting : nesting v = 1)
    (hw : reread v = w)
    (h : ∀ d ∈ delimiters, ∀ rest, readValue (limit + 1) (writeValue v ++ d :: rest) =
      .value w (d :: rest)) : Rereads (limit + 1) (readValue (limit + 1)) v := by
  intro d hd rest
  rw [if_pos (by omega), hw]
  exact h d hd rest

theorem rereads_arrayValue {elements : List (Value D)} (hwf : ∀ v ∈ elements, WellFormed v)
    {limit : Nat} (hel : ∀ v ∈ elements, Rereads limit (readValue limit) v) :
    Rereads (limit + 1) (readValue (limit + 1)) (.arrayValue elements) := by
  intro d hd rest
  have htext : writeValue (.arrayValue elements) ++ d :: rest =
      '[' :: (writeElements true elements ++ ']' :: d :: rest) := by
    rw [writeValue, List.append_assoc]
    rfl
  have hbegin : skipCommentTokens ('[' :: (writeElements true elements ++ ']' :: d :: rest)) =
      (⟨.arrayBegin, []⟩, writeElements true elements ++ ']' :: d :: rest) :=
    skipCommentTokens_eq rfl (by decide)
  rw [htext, readValue, hbegin]
  cases elements with
  | nil =>
      rw [nesting, nestingElements, if_pos (by omega)]
      rfl
  | cons v elements =>
      obtain ⟨c, cs, hhead, hspace, hbracket⟩ := writeValue_head (hwf v List.mem_cons_self)
      have hfirst : writeElements true (v :: elements) ++ ']' :: d :: rest =
          c :: (cs ++ (writeElements false elements ++ ']' :: d :: rest)) := by
        rw [writeElements, if_pos rfl, List.nil_append, hhead, List.append_assoc]
        rfl
      have hskip := skipSpaces_cons hspace
        (cs ++ (writeElements false elements ++ ']' :: d :: rest))
      have hlength : elements.length < (writeElements true (v :: elements) ++
          ']' :: d :: rest).length + 1 := by
        have := length_writeElements_false elements
        rw [writeElements, List.length_append, List.length_append]
        omega
      have hread := readArray_writeElements hel hlength [] (d :: rest)
      simp only [hfirst, hskip] at hread ⊢
      split
      · next heq => exact absurd (List.cons.inj heq).1 hbracket
      · rw [hread, nesting]
        simp only [Nat.add_comm 1, Nat.add_le_add_iff_right]
        rfl

theorem rereads_objectValue {members : List (StdString × Value D)} (hordered : Ordered members)
    {limit : Nat} (hel : ∀ m ∈ members, Rereads limit (readValue limit) m.2) :
    Rereads (limit + 1) (readValue (limit + 1)) (.objectValue members) := by
  intro d hd rest
  have htext : writeValue (.objectValue members) ++ d :: rest =
      '{' :: (writeMembers true members ++ '}' :: d :: rest) := by
    rw [writeValue, List.append_assoc]
    rfl
  have hbegin : skipCommentTokens ('{' :: (writeMembers true members ++ '}' :: d :: rest)) =
      (⟨.objectBegin, []⟩, writeMembers true members ++ '}' :: d :: rest) :=
    skipCommentTokens_eq rfl (by decide)
  rw [htext, readValue, hbegin]
  cases members with
  | nil =>
      rw [nesting, nestingMembers, if_pos (by omega)]
      rfl
  | cons m members =>
      obtain ⟨name, v⟩ := m
      have hordered' : Ordered ([] ++ rereadMembers ((name, v) :: members)) := by
        rw [rereadMembers_eq_map]
        exact List.pairwise_map.mpr hordered
      have hlength : members.length < (writeMembers true ((name, v) :: members) ++
          '}' :: d :: rest).length + 1 := by
        have := length_writeMembers_false members
        rw [writeMembers, List.length_append, List.length_append]
        omega
      have hread := readObject_writeMembers hel hlength [] hordered' (d :: rest)
      simp only [hread, nesting, Nat.add_comm 1, Nat.add_le_add_iff_right]
      rfl

/-- What is written for a well-formed value is read back, unless it is nested too deep. -/
theorem rereads_of_wellFormed {v : Value D} (hv : WellFormed v) (limit : Nat) :
    Rereads limit (readValue limit) v := by
  induction hv generalizing limit with
  | nullValue =>
      refine rereads_of_succ (fun limit => rereads_scalar rfl rfl fun d _ rest => ?_) limit
      exact readValue_null limit (d :: rest)
  | intValue hlow hhigh =>
      refine rereads_of_succ (fun limit => rereads_scalar rfl rfl fun d hd rest => ?_) limit
      exact readValue_number (isNumber_intText _) (decodeNumber_intText hlow hhigh) limit hd rest
  | uintValue hn =>
      refine rereads_of_succ (fun limit => rereads_scalar rfl rfl fun d hd rest => ?_) limit
      exact readValue_number (isNumber_toDigits _) (decodeNumber_toDigits hn) limit hd rest
  | @realValue x hx =>
      refine rereads_of_succ (fun limit => rereads_scalar rfl rfl fun d hd rest => ?_) limit
      rw [writeValue, reread, rereadReal]
      obtain hnull | ⟨hnumber, htoken⟩ := hx
      · rw [if_pos hnull, hnull]
        exact readValue_null limit (d :: rest)
      · rw [if_neg hnumber.ne_null]
        obtain ⟨w, hw⟩ := decodeNumber_isSome htoken
        rw [hw]
        exact readValue_number hnumber hw limit hd rest
  | stringValue s =>
      refine rereads_of_succ (fun limit => rereads_scalar rfl rfl fun d hd rest => ?_) limit
      have htoken := skipCommentTokens_eq (readToken_quoted s (d :: rest)) (by simp)
      rw [writeValue, readValue, htoken]
      simp only [decodeString_quoted]
      rfl
  | booleanValue b =>
      refine rereads_of_succ (fun limit => rereads_scalar rfl rfl fun d _ rest => ?_) limit
      cases b
      · exact readValue_false limit (d :: rest)
      · exact readValue_true limit (d :: rest)
  | arrayValue hwf ih =>
      exact rereads_of_succ (fun limit => rereads_arrayValue hwf fun v hv => ih v hv limit) limit
  | objectValue hordered _ ih =>
      exact rereads_of_succ
        (fun limit => rereads_objectValue hordered fun m hm => ih m hm limit) limit

/-- The client's encoding of a well-formed value is read back, up to 1000 levels of nesting. A
value nested deeper is written all the same, and the reader throws on the text. -/
theorem parse_jsonValueToString {v : Value D} (hv : WellFormed v) :
    parse (jsonValueToString v) =
      if nesting v ≤ stackLimit then .ok (some (reread v)) else .error stackError := by
  have hread := rereads_of_wellFormed hv stackLimit '\n' (by decide) []
  rw [parse, jsonValueToString, FastWriter.write, hread]
  by_cases hnesting : nesting v ≤ stackLimit
  · rw [if_pos hnesting, if_pos hnesting]
  · rw [if_neg hnesting, if_neg hnesting]

theorem parse_jsonValueToString_mixed :
    parse (D := Int) (jsonValueToString (D := Int)
      (.arrayValue [.intValue (-3), .stringValue "\"\n".toList])) =
        .ok (some (.arrayValue [.intValue (-3), .stringValue "\"\n".toList])) := by
  refine (parse_jsonValueToString (.arrayValue ?_)).trans (if_pos (by decide))
  intro v hv
  simp only [List.mem_cons, List.not_mem_nil, or_false] at hv
  obtain rfl | rfl := hv
  · exact .intValue (by decide) (by decide)
  · exact .stringValue _

end Json
