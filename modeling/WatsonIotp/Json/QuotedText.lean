import WatsonIotp.Json.Reader
import WatsonIotp.Json.Writer
import Mathlib.Data.List.TakeWhile
import Mathlib.Tactic.IntervalCases
import Mathlib.Tactic.Linarith

/-!
# Texts and numbers on their way through writer and reader

What the writer puts between quotes is one string token, whatever bytes are in it, and
decodes to the text that was written. An integer of at most 64 bits is one number token and
decodes to itself; whether as an `intValue` or a `uintValue` is the reader's choice.
-/

namespace Json

/-! ### Quoted texts -/

/-- The writer gives the character by its code, unless it has a letter. -/
def Coded (c : Char) : Prop := (isControlCharacter c || c = '\x00') = true

theorem Coded.toNat_lt {c : Char} (h : Coded c) : c.toNat < 32 := by
  obtain h | h := (Bool.or_eq_true _ _).mp h
  · obtain ⟨-, hle⟩ := (Bool.and_eq_true _ _).mp h
    have hval : c.toNat ≤ 31 := of_decide_eq_true hle
    omega
  · rw [of_decide_eq_true h]
    decide

/-- A character is written as it is, by a letter that stands for it, or by its code. -/
theorem escaped_cases (c : Char) : c ∉ escapes ∧ ¬ Coded c ∧ escaped c = [c] ∨
    (c ∈ escapes ∧ ∃ letter, letter ≠ 'u' ∧ Reader.escapedChar letter = some c ∧
      escaped c = ['\\', letter]) ∨
    Coded c ∧ escaped c = '\\' :: 'u' :: hexText c.toNat := by
  fun_cases escaped c with
  | case1 => exact .inr (.inl ⟨by decide, '"', by decide, rfl, rfl⟩)
  | case2 => exact .inr (.inl ⟨by decide, '\\', by decide, rfl, rfl⟩)
  | case3 => exact .inr (.inl ⟨by decide, 'b', by decide, rfl, rfl⟩)
  | case4 => exact .inr (.inl ⟨by decide, 'f', by decide, rfl, rfl⟩)
  | case5 => exact .inr (.inl ⟨by decide, 'n', by decide, rfl, rfl⟩)
  | case6 => exact .inr (.inl ⟨by decide, 'r', by decide, rfl, rfl⟩)
  | case7 => exact .inr (.inl ⟨by decide, 't', by decide, rfl, rfl⟩)
  | case8 _ _ _ _ _ _ _ _ hcoded => exact .inr (.inr ⟨hcoded, rfl⟩)
  | case9 _ h₁ h₂ h₃ h₄ h₅ h₆ h₇ hcoded =>
      refine .inl ⟨?_, hcoded, rfl⟩
      simp only [escapes, List.mem_cons, List.not_mem_nil, or_false, not_or]
      exact ⟨h₁, h₂, h₃, h₄, h₅, h₆, h₇⟩

/-- The text needs no walk: the writer copies it. -/
theorem flatMap_escaped {s : StdString} (h : ∀ c ∈ s, c ∉ escapes ∧ ¬ Coded c) :
    s.flatMap escaped = s := by
  induction s with
  | nil => rfl
  | cons c s ih =>
      obtain ⟨⟨hletter, hcoded⟩, hs⟩ := List.forall_mem_cons.mp h
      have hself : escaped c = [c] := by
        obtain ⟨-, -, hself⟩ | ⟨hletter', -⟩ | ⟨hcoded', -⟩ := escaped_cases c
        · exact hself
        · exact absurd hletter' hletter
        · exact absurd hcoded' hcoded
      rw [List.flatMap_cons, hself, ih hs]
      rfl

/-- The short cut for a text without anything to escape agrees with the walk. -/
theorem valueToQuotedStringN_eq (value : StdString) :
    valueToQuotedStringN value = '"' :: value.flatMap escaped ++ ['"'] := by
  unfold valueToQuotedStringN
  split_ifs with hplain
  · simp only [strnpbrk, containsControlCharacter0, Bool.and_eq_true, Bool.not_eq_true',
      List.any_eq_false] at hplain
    have hchar : ∀ c ∈ value, c ∉ escapes ∧ ¬ Coded c := by
      intro c hc
      exact ⟨fun hletter => hplain.1 c hc (List.contains_iff_mem.mpr hletter), hplain.2 c hc⟩
    have hzero : value.takeWhile (· ≠ '\x00') = value := by
      apply List.takeWhile_eq_self_iff.mpr
      intro c hc
      rw [decide_eq_true_eq]
      rintro rfl
      exact (hchar _ hc).2 rfl
    rw [flatMap_escaped hchar, hzero]
  · rfl

/-- The four digits of a code below 32 are read as that code. -/
theorem hexText_cases {n : Nat} (h : n < 32) : ∃ a b, hexText n = ['0', '0', a, b] ∧
    a ∉ escapes ∧ b ∉ escapes ∧
    Reader.decodeUnicodeEscapeSequence ['0', '0', a, b] = some n := by
  interval_cases n <;> exact ⟨_, _, rfl, by decide, by decide, rfl⟩

namespace Reader

theorem readString_plain {c : Char} (hletter : c ∉ escapes) (cs : StdString) :
    readString (c :: cs) = (readString cs).map fun r => (c :: r.1, r.2) := by
  have hquote : c ≠ '"' := fun h => hletter (h ▸ by decide)
  have hslash : c ≠ '\\' := fun h => hletter (h ▸ by decide)
  rw [readString]
  · exact hquote
  · exact fun h _ => hslash h
  · exact fun _ _ h _ => hslash h

theorem readString_escaped (c : Char) (cs : StdString) :
    readString (escaped c ++ cs) = (readString cs).map fun r => (escaped c ++ r.1, r.2) := by
  obtain ⟨hletter, -, hself⟩ | ⟨-, letter, -, -, hself⟩ | ⟨hcoded, hself⟩ := escaped_cases c
  · rw [hself]
    exact readString_plain hletter cs
  · rw [hself]
    rfl
  · obtain ⟨a, b, htext, ha, hb, -⟩ := hexText_cases hcoded.toNat_lt
    have hzero : '0' ∉ escapes := by decide
    rw [hself, htext]
    change (readString ('0' :: '0' :: a :: b :: cs)).map _ = _
    rw [readString_plain hzero, readString_plain hzero, readString_plain ha, readString_plain hb]
    simp only [Option.map_map]
    rfl

/-- What is written between quotes is one token. -/
theorem readString_quoted (s rest : StdString) :
    readString (s.flatMap escaped ++ '"' :: rest) = some (s.flatMap escaped, rest) := by
  induction s with
  | nil => rfl
  | cons c s ih =>
      rw [List.flatMap_cons, List.append_assoc, readString_escaped, ih, Option.map_some]

theorem decodeString_escaped (c : Char) (cs : StdString) :
    decodeString (escaped c ++ cs) = (decodeString cs).map (c :: ·) := by
  obtain ⟨hletter, -, hself⟩ | ⟨-, letter, hu, hletter, hself⟩ | ⟨hcoded, hself⟩ := escaped_cases c
  · have hquote : c ≠ '"' := fun h => hletter (h ▸ by decide)
    have hslash : c ≠ '\\' := fun h => hletter (h ▸ by decide)
    rw [hself, List.singleton_append, decodeString]
    · exact hquote
    · exact fun _ _ _ _ _ h _ => hslash h
    · exact fun h _ => hslash h
    · exact fun _ _ h _ => hslash h
  · rw [hself]
    change decodeString ('\\' :: letter :: cs) = _
    rw [decodeString, hletter]
    exact fun _ _ _ _ _ h _ => hu h
  · obtain ⟨a, b, htext, ha, hb, hcode⟩ := hexText_cases hcoded.toNat_lt
    have hlt := hcoded.toNat_lt
    have hchar : codePointToUTF8 c.toNat = [c] := by
      rw [codePointToUTF8, if_pos (by omega), Char.ofNat_toNat]
    rw [hself, htext]
    change decodeString ('\\' :: 'u' :: '0' :: '0' :: a :: b :: cs) = _
    rw [decodeString, hcode]
    simp only [hchar, if_neg (show ¬ (0xD800 ≤ c.toNat ∧ c.toNat ≤ 0xDBFF) by omega)]
    rfl

/-- What is written between quotes decodes to the text. -/
theorem decodeString_quoted (s : StdString) : decodeString (s.flatMap escaped) = some s := by
  induction s with
  | nil => rfl
  | cons c s ih => rw [List.flatMap_cons, decodeString_escaped, ih, Option.map_some]

/-! ### Integers -/

theorem isDigit_of_isDigit {c : Char} (h : c.isDigit = true) : isDigit c = true := by
  rw [Char.isDigit, Bool.and_eq_true] at h
  exact (Bool.and_eq_true _ _).mpr ⟨decide_eq_true (of_decide_eq_true h.1), h.2⟩

/-- The value of the digits behind a value is no less than ten times that value. -/
theorem le_ofDigitChars (value : Nat) (cs : StdString) (h : cs ≠ []) :
    10 * value ≤ Nat.ofDigitChars 10 cs value := by
  obtain ⟨c, cs, rfl⟩ := List.exists_cons_of_ne_nil h
  rw [Nat.ofDigitChars_cons, Nat.ofDigitChars_eq_ofDigitChars_zero]
  have hpos : 1 ≤ 10 ^ cs.length := Nat.one_le_pow _ _ (by decide)
  nlinarith

/-- Digits of a value within the bound decode to it. -/
theorem decodeDigits_eq {maxIntegerValue : Nat} (hmax : 10 ≤ maxIntegerValue) {cs : StdString}
    {value : Nat} (hdigits : ∀ c ∈ cs, isDigit c = true)
    (hle : Nat.ofDigitChars 10 cs value ≤ maxIntegerValue) :
    decodeDigits maxIntegerValue value cs = some (Nat.ofDigitChars 10 cs value) := by
  induction cs generalizing value with
  | nil => rfl
  | cons c cs ih =>
      obtain ⟨hc, hcs⟩ := List.forall_mem_cons.mp hdigits
      rw [Nat.ofDigitChars_cons] at hle ⊢
      have hstep : value * 10 + (c.toNat - '0'.toNat) = 10 * value + (c.toNat - '0'.toNat) := by
        omega
      rw [decodeDigits, if_neg (Bool.not_eq_false _ ▸ hc), if_neg, hstep, ih hcs hle]
      -- a digit that overflows makes the whole value too large
      rintro ⟨hge, hover⟩
      by_cases hnil : cs = []
      · subst hnil
        rw [Nat.ofDigitChars_nil] at hle
        obtain hlt | hne | hlt := hover
        · omega
        · exact hne rfl
        · omega
      · have := le_ofDigitChars (10 * value + (c.toNat - '0'.toNat)) cs hnil
        omega

/-- What digits decode to is within the bound. -/
theorem decodeDigits_le {maxIntegerValue value n : Nat} {cs : StdString}
    (hvalue : value ≤ maxIntegerValue) (h : decodeDigits maxIntegerValue value cs = some n) :
    n ≤ maxIntegerValue := by
  induction cs generalizing value with
  | nil =>
      cases h
      exact hvalue
  | cons c cs ih =>
      rw [decodeDigits] at h
      split_ifs at h with hdigit hover
      have hle : c.toNat - '0'.toNat ≤ 9 := by
        rw [Bool.not_eq_false, isDigit, Bool.and_eq_true] at hdigit
        have hnine : c.toNat ≤ '9'.toNat := of_decide_eq_true hdigit.2
        have : '9'.toNat = 57 ∧ '0'.toNat = 48 := ⟨rfl, rfl⟩
        omega
      apply ih _ h
      omega

/-! ### Number tokens -/

/-- What the writer puts behind a value. -/
def delimiters : StdString := [',', ']', '}', '\n']

/-- The text is one number token. -/
def IsNumber (text : StdString) : Prop :=
  ∃ c cs, text = c :: cs ∧ (isDigit c ∨ c = '-') ∧ readNumber cs = (cs, [])

theorem span_append {p : Char → Bool} {d : Char} (hd : p d = false) (cs rest : StdString) :
    (cs ++ d :: rest).span p = ((cs.span p).1, (cs.span p).2 ++ d :: rest) := by
  simp only [List.span_eq_takeWhile_dropWhile]
  induction cs with
  | nil => simp [hd]
  | cons c cs ih =>
      obtain ⟨htake, hdrop⟩ := Prod.mk.inj ih
      simp only [List.cons_append, List.takeWhile_cons, List.dropWhile_cons]
      split
      · rw [htake, hdrop]
      · rfl

/-- The fractional part of a number, if there is one. -/
def readFraction : StdString → StdString × StdString
  | '.' :: rest => ('.' :: (rest.span isDigit).1, (rest.span isDigit).2)
  | rest => ([], rest)

/-- The exponential part of a number, if there is one. -/
def readExponent : StdString → StdString × StdString
  | c :: rest =>
      if c = 'e' ∨ c = 'E' then
        match rest with
        | sign :: digits =>
            if sign = '+' ∨ sign = '-' then
              (c :: sign :: (digits.span isDigit).1, (digits.span isDigit).2)
            else (c :: (rest.span isDigit).1, (rest.span isDigit).2)
        | [] => ([c], [])
      else ([], c :: rest)
  | [] => ([], [])

theorem readNumber_eq (cs : StdString) : readNumber cs =
    ((cs.span isDigit).1 ++ (readFraction (cs.span isDigit).2).1 ++
        (readExponent (readFraction (cs.span isDigit).2).2).1,
      (readExponent (readFraction (cs.span isDigit).2).2).2) := rfl

section Delimiter

variable {d : Char} (hd : d ∈ delimiters)

include hd

theorem isDigit_delimiter : isDigit d = false := by
  simp only [delimiters, List.mem_cons, List.not_mem_nil, or_false] at hd
  obtain rfl | rfl | rfl | rfl := hd <;> rfl

theorem readFraction_append (cs rest : StdString) :
    readFraction (cs ++ d :: rest) = ((readFraction cs).1, (readFraction cs).2 ++ d :: rest) := by
  have hspan := span_append (isDigit_delimiter hd)
  have hdot : d ≠ '.' := fun h => absurd hd (h ▸ by decide)
  fun_cases readFraction cs with
  | case1 cs => simp only [List.cons_append, readFraction, hspan]
  | case2 cs hcs =>
      rw [readFraction]
      intro rest' h
      cases cs with
      | nil => exact hdot (List.cons.inj h).1
      | cons c cs => exact hcs cs (congrArg (· :: cs) (List.cons.inj h).1)

theorem readExponent_append (cs rest : StdString) :
    readExponent (cs ++ d :: rest) = ((readExponent cs).1, (readExponent cs).2 ++ d :: rest) := by
  have hspan := span_append (isDigit_delimiter hd)
  have hletter : ¬ (d = 'e' ∨ d = 'E') := by
    rintro (rfl | rfl) <;> exact absurd hd (by decide)
  have hsign : ¬ (d = '+' ∨ d = '-') := by
    rintro (rfl | rfl) <;> exact absurd hd (by decide)
  fun_cases readExponent cs with
  | case1 c hc sign digits hs =>
      simp only [List.cons_append, readExponent, if_pos hc, if_pos hs, hspan]
  | case2 c hc sign digits hs =>
      have hall := hspan (sign :: digits) rest
      simp only [List.cons_append] at hall
      simp only [List.cons_append, readExponent, if_pos hc, if_neg hs, hall]
  | case3 c hc =>
      have hnone : (d :: rest).span isDigit = ([], d :: rest) := hspan [] rest
      simp only [List.cons_append, List.nil_append, readExponent, if_pos hc, if_neg hsign, hnone]
  | case4 c rest hc => simp only [List.cons_append, readExponent, if_neg hc]
  | case5 => simp only [List.nil_append, readExponent, if_neg hletter]

/-- A delimiter ends a number. -/
theorem readNumber_append (cs rest : StdString) :
    readNumber (cs ++ d :: rest) = ((readNumber cs).1, (readNumber cs).2 ++ d :: rest) := by
  simp only [readNumber_eq, span_append (isDigit_delimiter hd), readFraction_append hd,
    readExponent_append hd]

end Delimiter

/-- Spaces are skipped in front of a token, and it has none. -/
theorem skipSpaces_cons {c : Char} (hc : isSpace c = false) (cs : StdString) :
    skipSpaces (c :: cs) = c :: cs :=
  List.dropWhile_cons_of_neg (ne_true_of_eq_false hc)

/-- A number does not start like what the reader skips, or like the end of an array. -/
theorem isSpace_of_number {c : Char} (hc : isDigit c ∨ c = '-') : isSpace c = false ∧ c ≠ ']' := by
  refine ⟨?_, ?_⟩
  · by_contra h
    rw [Bool.not_eq_false] at h
    obtain rfl | rfl | rfl | rfl : c = ' ' ∨ c = '\t' ∨ c = '\r' ∨ c = '\n' := by
      simpa [isSpace, or_assoc] using h
    all_goals
      revert hc
      decide
  · rintro rfl
    revert hc
    decide

theorem readToken_number {text : StdString} (h : IsNumber text) {d : Char} (hd : d ∈ delimiters)
    (rest : StdString) : readToken (text ++ d :: rest) = (⟨.number, text⟩, d :: rest) := by
  obtain ⟨c, cs, rfl, hc, hnumber⟩ := h
  have hskip := skipSpaces_cons (isSpace_of_number hc).1 (cs ++ d :: rest)
  unfold readToken
  rw [List.cons_append, hskip]
  split
  · next heq => cases heq
  all_goals try
    rename_i heq
    obtain ⟨rfl, -⟩ := List.cons.inj heq
    exact absurd hc (by decide)
  next heq =>
    obtain ⟨rfl, rfl⟩ := List.cons.inj heq
    rw [if_pos hc, readNumber_append hd, hnumber]
    rfl

theorem isNumber_of_digits {c : Char} {cs : StdString} (hc : isDigit c ∨ c = '-')
    (hcs : ∀ c ∈ cs, isDigit c = true) : IsNumber (c :: cs) := by
  refine ⟨c, cs, rfl, hc, ?_⟩
  have hspan : cs.span isDigit = (cs, []) := by
    rw [List.span_eq_takeWhile_dropWhile, List.takeWhile_eq_self_iff.mpr hcs,
      List.dropWhile_eq_nil_iff.mpr hcs]
  rw [readNumber_eq, hspan]
  change (cs ++ [] ++ [], []) = _
  rw [List.append_nil, List.append_nil]

theorem isDigit_toDigits {n : Nat} {c : Char} (h : c ∈ Nat.toDigits 10 n) : isDigit c = true :=
  isDigit_of_isDigit (Nat.isDigit_of_mem_toDigits (by decide) (by decide) h)

theorem isNumber_toDigits (n : Nat) : IsNumber (Nat.toDigits 10 n) := by
  obtain ⟨c, cs, hcs⟩ := List.exists_cons_of_ne_nil (Nat.toDigits_ne_nil (n := n) (b := 10))
  have hdigits : ∀ c' ∈ c :: cs, isDigit c' = true := fun c' h => isDigit_toDigits (hcs ▸ h)
  rw [hcs]
  exact isNumber_of_digits (.inl (hdigits c List.mem_cons_self))
    fun c' h => hdigits c' (List.mem_cons_of_mem c h)

theorem isNumber_intText (i : Int) : IsNumber (Value.intText i) := by
  unfold Value.intText
  split_ifs
  · exact isNumber_of_digits (.inr rfl) fun c h => isDigit_toDigits h
  · exact isNumber_toDigits _

variable {D : Type} [CxxDouble D]

/-- What an integer that is not negative is read as. -/
def unsignedValue (n : Nat) : Value D := if (n : Int) ≤ maxInt then .intValue n else .uintValue n

theorem decodeNumber_toDigits {n : Nat} (h : n < 2 ^ 64) :
    decodeNumber (D := D) (Nat.toDigits 10 n) = some (unsignedValue n) := by
  have hdecode : decodeDigits (2 ^ 64 - 1) 0 (Nat.toDigits 10 n) = some n := by
    have hvalue : Nat.ofDigitChars 10 (Nat.toDigits 10 n) 0 = n := Nat.ofDigitChars_ten_toDigits
    rw [decodeDigits_eq (by decide) (fun c hc => isDigit_toDigits hc) (by omega), hvalue]
  unfold decodeNumber
  split
  · next digits heq =>
    have hdigit : isDigit '-' = true := isDigit_toDigits (n := n) (heq ▸ List.mem_cons_self)
    cases hdigit
  · rw [hdecode, unsignedValue]
    simp only [apply_ite some]

theorem decodeNumber_intText {i : Int} (hlow : -2 ^ 63 ≤ i) (hhigh : i < 2 ^ 63) :
    decodeNumber (D := D) (Value.intText i) =
      some (if i < 0 then .intValue i else unsignedValue i.toNat) := by
  unfold Value.intText
  split_ifs with hneg
  · have hdecode : decodeDigits (2 ^ 63) 0 (Nat.toDigits 10 i.natAbs) = some i.natAbs := by
      have hvalue : Nat.ofDigitChars 10 (Nat.toDigits 10 i.natAbs) 0 = i.natAbs :=
        Nat.ofDigitChars_ten_toDigits
      rw [decodeDigits_eq (by decide) (fun c hc => isDigit_toDigits hc) (by omega), hvalue]
    have habs : -(i.natAbs : Int) = i := by omega
    rw [decodeNumber, hdecode]
    simp only [habs]
  · have habs : i.natAbs = i.toNat := by omega
    rw [habs, decodeNumber_toDigits (by omega)]

end Reader

end Json
