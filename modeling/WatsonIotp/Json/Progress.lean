import WatsonIotp.Json.Reader

/-!
# The JSON reader makes progress

Every token consumes characters unless the document is at its end, so every
value that is read leaves a shorter document behind. Two things follow. The fuel
that `readValue` gives to the loops over members and elements is enough, since more
of it changes nothing (`readValue_fuel`). And a document that is read within some
number of nesting levels is read the same way within more, so what `parse` answers
can be computed with a small limit (`parse_of_readValue`).
-/

namespace Json.Reader

variable {D : Type}

theorem readString_length {cs : StdString} {r : StdString × StdString}
    (h : readString cs = some r) : r.2.length < cs.length := by
  fun_induction readString cs generalizing r with
  | case1 => simp at h
  | case2 cs =>
      cases h
      simp
  | case3 => simp at h
  | case4 c cs ih =>
      obtain ⟨r', hr', rfl⟩ := Option.map_eq_some_iff.mp h
      have := ih hr'
      simp only [List.length_cons]
      omega
  | case5 c cs _ _ _ ih =>
      obtain ⟨r', hr', rfl⟩ := Option.map_eq_some_iff.mp h
      have := ih hr'
      simp only [List.length_cons]
      omega

theorem readCStyleComment_length (cs : StdString) :
    (readCStyleComment cs).2.length ≤ cs.length := by
  fun_induction readCStyleComment cs <;> simp_all <;> omega

theorem readCppStyleComment_length (cs : StdString) :
    (readCppStyleComment cs).length ≤ cs.length := by
  fun_induction readCppStyleComment cs <;> simp_all <;> omega

theorem readComment_length {cs rest : StdString} {closed : Bool}
    (h : readComment cs = (closed, rest)) : rest.length ≤ cs.length := by
  have hlen : (readComment cs).2.length ≤ cs.length := by
    fun_cases readComment cs with
    | case1 cs => exact (readCStyleComment_length cs).trans (Nat.le_succ _)
    | case2 cs => exact (readCppStyleComment_length cs).trans (Nat.le_succ _)
    | case3 => exact Nat.le_succ _
    | case4 => exact le_rfl
  simpa only [h] using hlen

theorem span_length (p : Char → Bool) (cs : StdString) : (cs.span p).2.length ≤ cs.length := by
  rw [List.span_eq_takeWhile_dropWhile]
  exact (List.dropWhile_suffix p).length_le

theorem readNumber_length (cs : StdString) : (readNumber cs).2.length ≤ cs.length := by
  have hspan := span_length isDigit
  unfold readNumber
  grind

theorem matchWord_length (type : TokenType) (word cs : StdString) :
    (matchWord type word cs).2.length ≤ cs.length := by
  unfold matchWord
  split <;> simp

/-- A token consumes a character, unless there is none left. -/
theorem readToken_shortens (cs : StdString) : (readToken cs).2.length < cs.length ∨
    (readToken cs).1.type = .endOfStream ∧ (readToken cs).2 = [] := by
  have hlt : ∀ {c : Char} {rest : StdString}, skipSpaces cs = c :: rest →
      rest.length < cs.length := by
    intro c rest heq
    have hskip : (skipSpaces cs).length ≤ cs.length := (List.dropWhile_suffix _).length_le
    simp only [heq, List.length_cons] at hskip
    omega
  fun_cases readToken cs
  case case1 => exact .inr ⟨rfl, rfl⟩
  case case6 heq _ _ hr => exact .inl ((readString_length hr).trans (hlt heq))
  case case7 heq _ => exact .inl ((Nat.zero_le _).trans_lt (hlt heq))
  case case8 heq _ hr => exact .inl ((readComment_length hr).trans_lt (hlt heq))
  case case9 heq _ hr => exact .inl ((readComment_length hr).trans_lt (hlt heq))
  case case10 | case11 | case12 => exact .inl ((matchWord_length _ _ _).trans_lt (hlt ‹_›))
  case case16 => exact .inl ((readNumber_length _).trans_lt (hlt ‹_›))
  all_goals exact .inl (hlt ‹_›)

theorem readToken_length (cs : StdString) : (readToken cs).2.length ≤ cs.length := by
  obtain h | ⟨-, h⟩ := readToken_shortens cs
  · exact h.le
  · simp [h]

theorem skipComments_shortens (fuel : Nat) (cs : StdString) :
    (skipComments fuel cs).2.length < cs.length ∨
      (skipComments fuel cs).1.type = .endOfStream ∧ (skipComments fuel cs).2 = [] := by
  induction fuel generalizing cs with
  | zero => exact readToken_shortens cs
  | succ fuel ih =>
      rw [skipComments]
      split
      · obtain h | h := ih (readToken cs).2
        · exact .inl (h.trans_le (readToken_length cs))
        · exact .inr h
      · exact readToken_shortens cs

variable {element larger : StdString → Result D}

theorem skipCommentTokens_shortens {cs rest : StdString} {token : Token}
    (h : skipCommentTokens cs = (token, rest)) :
    rest.length < cs.length ∨ token.type = .endOfStream ∧ rest = [] := by
  have hs := skipComments_shortens cs.length cs
  rw [skipCommentTokens] at h
  simpa only [h] using hs

theorem skipCommentTokens_lt {cs rest : StdString} {token : Token}
    (h : skipCommentTokens cs = (token, rest)) (hne : token.type ≠ .endOfStream) :
    rest.length < cs.length :=
  (skipCommentTokens_shortens h).resolve_right fun hend => hne hend.1

theorem skipCommentTokens_le {cs rest : StdString} {token : Token}
    (h : skipCommentTokens cs = (token, rest)) : rest.length ≤ cs.length := by
  obtain hlt | ⟨-, rfl⟩ := skipCommentTokens_shortens h
  · exact hlt.le
  · exact Nat.zero_le _

/-- A reader of elements that consumes characters whenever it succeeds. -/
def Consumes (element : StdString → Result D) : Prop :=
  ∀ cs v rest, element cs = .value v rest → rest.length < cs.length

/-- A name, a colon and a value take characters. -/
theorem member_lt (hel : Consumes element) {cs cs₁ cs₂ cs₃ : StdString}
    {token token' : Token} {v : Value D}
    (hname : skipCommentTokens cs = (token, cs₁)) (hcolon : readToken cs₁ = (token', cs₂))
    (hv : element cs₂ = .value v cs₃) : cs₃.length < cs.length := by
  have h₁ := skipCommentTokens_le hname
  have h₂ := readToken_length cs₁
  rw [hcolon] at h₂
  exact (hel _ _ _ hv).trans_le (h₂.trans h₁)

theorem readObject_consumes (hel : Consumes element) {fuel : Nat} {name : StdString}
    {members : List (StdString × Value D)} {cs rest : StdString} {v : Value D}
    (h : readObject element fuel name members cs = .value v rest) :
    rest.length < cs.length := by
  fun_induction readObject element fuel name members cs with
  | case2 _ _ _ _ _ hend =>
      cases h
      exact skipCommentTokens_lt hend (by simp)
  | case5 _ _ _ _ _ _ hs _ _ _ _ hr _ _ hv =>
      cases h
      exact (readToken_length _).trans_lt (member_lt hel hs hr hv)
  | case6 _ _ _ _ _ _ hs _ _ _ _ hr _ _ hv _ ih =>
      have := readToken_length ‹StdString›
      have := (ih h).trans_le (readToken_length _)
      exact this.trans (member_lt hel hs hr hv)
  | case7 _ _ _ _ _ _ hs _ _ _ _ hr _ rest hv _ _ _ hend =>
      cases h
      have := (skipCommentTokens_le hend).trans (readToken_length _)
      exact this.trans_lt (member_lt hel hs hr hv)
  | case8 _ _ _ _ _ _ hs _ _ _ _ hr _ _ hv _ _ _ _ hc ih =>
      have := (ih h).le.trans ((skipCommentTokens_le hc).trans (readToken_length _))
      exact this.trans_lt (member_lt hel hs hr hv)
  | _ => cases h

theorem readObject_fuel (hel : Consumes element) (fuel : Nat) (name : StdString)
    (members : List (StdString × Value D)) (cs : StdString) (h : cs.length < fuel) :
    readObject element (fuel + 1) name members cs = readObject element fuel name members cs := by
  fun_induction readObject element fuel name members cs with
  | case1 => omega
  | case6 _ _ _ _ _ _ hs _ _ _ _ hr _ rest hv _ ih =>
      rw [readObject]
      simp only [*]
      apply ih
      have := member_lt hel hs hr hv
      have := readToken_length rest
      omega
  | case8 _ _ _ _ _ _ hs _ _ _ _ hr _ rest hv _ _ _ _ hc ih =>
      rw [readObject]
      simp only [*]
      apply ih
      have := member_lt hel hs hr hv
      have := readToken_length rest
      have := skipCommentTokens_le hc
      omega
  | _ => simp only [readObject, *, if_true, if_false]

theorem readArray_consumes (hel : Consumes element) {fuel : Nat} {elements : List (Value D)}
    {cs rest : StdString} {v : Value D} (h : readArray element fuel elements cs = .value v rest) :
    rest.length < cs.length := by
  fun_induction readArray element fuel elements cs with
  | case2 _ _ _ _ _ hv _ _ hend =>
      cases h
      exact (skipCommentTokens_le hend).trans_lt (hel _ _ _ hv)
  | case3 _ _ _ _ _ hv _ _ hsep ih =>
      exact (ih h).trans ((skipCommentTokens_le hsep).trans_lt (hel _ _ _ hv))
  | _ => cases h

theorem readArray_fuel (hel : Consumes element) (fuel : Nat) (elements : List (Value D))
    (cs : StdString) (h : cs.length < fuel) :
    readArray element (fuel + 1) elements cs = readArray element fuel elements cs := by
  fun_induction readArray element fuel elements cs with
  | case1 => omega
  | case3 _ _ _ _ _ hv _ _ hsep ih =>
      rw [readArray]
      simp only [*]
      apply ih
      have := skipCommentTokens_le hsep
      have := hel _ _ _ hv
      omega
  | _ => simp only [readArray, *]

theorem readValue_consumes [CxxDouble D] (limit : Nat) : Consumes (readValue (D := D) limit) := by
  intro cs v rest h
  induction limit generalizing cs v rest with
  | zero => cases h
  | succ limit ih =>
      rw [readValue] at h
      split at h
      · next htoken =>
          exact (readObject_consumes ih h).trans (skipCommentTokens_lt htoken (by simp))
      · next tail htoken =>
          have htail := skipCommentTokens_lt htoken (by simp)
          have hskip : (skipSpaces tail).length ≤ tail.length :=
            (List.dropWhile_suffix _).length_le
          split at h
          · next heq =>
              cases h
              simp only [heq, List.length_cons] at hskip
              omega
          · exact (readArray_consumes ih h).trans_le (hskip.trans htail.le)
      · next htoken =>
          split at h <;> cases h
          exact skipCommentTokens_lt htoken (by simp)
      · next htoken =>
          split at h <;> cases h
          exact skipCommentTokens_lt htoken (by simp)
      all_goals cases h
      all_goals exact skipCommentTokens_lt ‹_› (by simp)

theorem readObject_of_lt (hel : Consumes element) {fuel : Nat} {cs : StdString}
    (h : cs.length < fuel) (name : StdString) (members : List (StdString × Value D)) :
    readObject element fuel name members cs =
      readObject element (cs.length + 1) name members cs := by
  induction fuel, h using Nat.le_induction with
  | base => rfl
  | succ fuel hle ih => rw [readObject_fuel hel fuel name members cs hle, ih]

theorem readArray_of_lt (hel : Consumes element) {fuel : Nat} {cs : StdString}
    (h : cs.length < fuel) (elements : List (Value D)) :
    readArray element fuel elements cs = readArray element (cs.length + 1) elements cs := by
  induction fuel, h using Nat.le_induction with
  | base => rfl
  | succ fuel hle ih => rw [readArray_fuel hel fuel elements cs hle, ih]

/-- `readValue` reads objects and arrays as it would with any other fuel that is more than the
characters there are. -/
theorem readValue_fuel [CxxDouble D] (limit : Nat) {fuel : Nat} {cs text rest : StdString}
    (hfuel : rest.length < fuel) :
    (skipCommentTokens cs = (⟨.objectBegin, text⟩, rest) →
      readValue (D := D) (limit + 1) cs = readObject (readValue limit) fuel [] [] rest) ∧
    ∀ tail, skipCommentTokens cs = (⟨.arrayBegin, text⟩, tail) → skipSpaces tail = rest →
      rest.head? ≠ some ']' →
        readValue (D := D) (limit + 1) cs = readArray (readValue limit) fuel [] rest := by
  have hel := readValue_consumes (D := D) limit
  constructor
  · intro htoken
    rw [readValue, htoken, readObject_of_lt hel hfuel]
  · intro tail htoken hskip hopen
    rw [readValue, htoken, readArray_of_lt hel hfuel]
    dsimp only
    rw [hskip]
    split
    · exact absurd rfl hopen
    · rfl

/-- The loop over members uses only values and failures of its element reader. -/
theorem readObject_of_agree (agree : ∀ cs, (∀ e, element cs ≠ .thrown e) → larger cs = element cs)
    (fuel : Nat) (name : StdString) (members : List (StdString × Value D)) (cs : StdString)
    (h : ∀ e, readObject element fuel name members cs ≠ .thrown e) :
    readObject larger fuel name members cs = readObject element fuel name members cs := by
  fun_induction readObject element fuel name members cs <;> simp_all [readObject]

theorem readArray_of_agree (agree : ∀ cs, (∀ e, element cs ≠ .thrown e) → larger cs = element cs)
    (fuel : Nat) (elements : List (Value D)) (cs : StdString)
    (h : ∀ e, readArray element fuel elements cs ≠ .thrown e) :
    readArray larger fuel elements cs = readArray element fuel elements cs := by
  fun_induction readArray element fuel elements cs <;> simp_all [readArray]

/-- One more level of nesting changes nothing unless the limit was reached. -/
theorem readValue_succ [CxxDouble D] (limit : Nat) (cs : StdString)
    (h : ∀ e, readValue (D := D) limit cs ≠ .thrown e) :
    readValue (D := D) (limit + 1) cs = readValue limit cs := by
  induction limit generalizing cs with
  | zero => exact absurd rfl (h _)
  | succ limit ih =>
      rw [readValue]
      rw [readValue] at h ⊢
      split
      · next heq =>
        simp only [heq] at h
        exact readObject_of_agree ih _ _ _ _ h
      · next heq =>
        simp only [heq] at h
        split
        · rfl
        · next hne =>
            split at h
            · next heq' => exact absurd heq' (hne _)
            · exact readArray_of_agree ih _ _ _ h
      all_goals rfl

theorem readValue_of_le [CxxDouble D] {limit limit' : Nat} (hle : limit ≤ limit')
    {cs rest : StdString} {v : Value D} (h : readValue limit cs = .value v rest) :
    readValue limit' cs = .value v rest := by
  induction hle with
  | refl => exact h
  | step _ ih => rw [readValue_succ _ _ (by simp [ih]), ih]

/-- A document read within fewer levels than the limit is parsed. -/
theorem parse_of_readValue [CxxDouble D] {limit : Nat} (hle : limit ≤ stackLimit)
    {document rest : StdString} {v : Value D} (h : readValue limit document = .value v rest) :
    parse document = .ok (some v) := by
  rw [parse, readValue_of_le hle h]

end Json.Reader
