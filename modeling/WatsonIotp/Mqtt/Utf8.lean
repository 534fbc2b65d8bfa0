import Mathlib.Data.List.Forall2
import Mathlib.Tactic.SplitIfs

/-!
# UTF-8 validation

The library refuses topics that are not UTF-8. It looks for each character in a table of byte
ranges, and it always compares with the length of the whole text, not of what is left of it;
what keeps the search inside the buffer is the NUL at the end. `Char` has the scalar
values of Unicode, so the texts that have to be accepted are those that lists of
`Char` are encoded as.
-/

abbrev Bytes := List UInt8

namespace Utf8

/-! ### The code -/

/-- The value of a `char`, which is signed on some platforms. -/
def charValue (signed : Bool) (c : UInt8) : Int :=
  if signed = true ∧ 128 ≤ c.toNat then c.toNat - 256 else c.toNat

/-- `valid_ranges`, without the lengths that are those of the rows. -/
def validRanges : List (List (UInt8 × UInt8)) :=
  [[(0x00, 0x7F)],
    [(0xC2, 0xDF), (0x80, 0xBF)],
    [(0xE0, 0xE0), (0xA0, 0xBF), (0x80, 0xBF)],
    [(0xE1, 0xEC), (0x80, 0xBF), (0x80, 0xBF)],
    [(0xED, 0xED), (0x80, 0x9F), (0x80, 0xBF)],
    [(0xEE, 0xEF), (0x80, 0xBF), (0x80, 0xBF)],
    [(0xF0, 0xF0), (0x90, 0xBF), (0x80, 0xBF), (0x80, 0xBF)],
    [(0xF1, 0xF3), (0x80, 0xBF), (0x80, 0xBF), (0x80, 0xBF)],
    [(0xF4, 0xF4), (0x80, 0x8F), (0x80, 0xBF), (0x80, 0xBF)]]

/-- The number of bytes that a character seems to have. -/
def charLength (c : UInt8) : Nat :=
  if c &&& 128 = 0 then 1
  else if c &&& 0xF0 = 0xF0 then 4
  else if c &&& 0xE0 = 0xE0 then 3
  else 2

/-- Compare the bytes with a row of the table; `none` is a read behind the end of the buffer. -/
def matchesRow (signed : Bool) : List (UInt8 × UInt8) → Bytes → Option Bool
  | [], _ => some true
  | _ :: _, [] => none
  | (lower, upper) :: row, c :: data =>
      if charValue signed c < charValue signed lower ∨ charValue signed upper < charValue signed c
      then some false
      else matchesRow signed row data

/-- Just one of the rows of the right length has to match. -/
def matchesTable (signed : Bool) (charlen : Nat) : List (List (UInt8 × UInt8)) → Bytes → Option Bool
  | [], _ => some false
  | row :: rows, data =>
      if row.length = charlen then
        match matchesRow signed row data with
        | some false => matchesTable signed charlen rows data
        | good => good
      else matchesTable signed charlen rows data

/-- `UTF8_char_validate(len, data)`: what follows the character, or `NULL`. The buffer ends
where `data` does. -/
def charValidate (signed : Bool) (len : Int) (data : Bytes) : Option (Option Bytes) :=
  match data with
  | [] => none
  | c :: _ =>
      if len < charLength c then some none
      else (matchesTable signed (charLength c) validRanges data).map fun good =>
        if good then some (data.drop (charLength c)) else none

theorem charLength_pos (c : UInt8) : 0 < charLength c := by
  unfold charLength
  split_ifs <;> omega

theorem charValidate_shortens {signed : Bool} {len : Int} {data rest : Bytes}
    (h : charValidate signed len data = some (some rest)) : rest.length < data.length := by
  unfold charValidate at h
  split at h
  · cases h
  · next c tail =>
    split_ifs at h
    · cases h
    · obtain ⟨good, -, hgood⟩ := Option.map_eq_some_iff.mp h
      split_ifs at hgood
      cases hgood
      have hpos := charLength_pos c
      rw [List.length_drop, List.length_cons]
      omega

/-- The loop of `UTF8_validate` with `curdata` at a position of the text. -/
def validateFrom (signed : Bool) (len : Int) (position : Nat) (curdata : Bytes) : Option Bool :=
  if (position : Int) < len then
    match _hchar : charValidate signed len curdata with
    | none => none
    | some none => some false
    | some (some rest) =>
        validateFrom signed len (position + (curdata.length - rest.length)) rest
  else some true
termination_by curdata.length
decreasing_by exact charValidate_shortens _hchar

/-- `UTF8_validate(len, data)`. -/
def validate (signed : Bool) (len : Int) (data : Bytes) : Option Bool :=
  if len = 0 then some true
  else match charValidate signed len data with
  | none => none
  | some none => some false
  | some (some rest) => validateFrom signed len (data.length - rest.length) rest

/-- `UTF8_validateString(string)`, with the conversion of the length to `int`. -/
def validateString (signed : Bool) (string : Bytes) : Option Bool :=
  validate signed (Int.bmod string.length 4294967296) (string ++ [0])

/-! ### One character -/

/-- The byte is in the range. -/
def InRange (range : UInt8 × UInt8) (c : UInt8) : Prop :=
  range.1.toNat ≤ c.toNat ∧ c.toNat ≤ range.2.toNat

/-- The bytes are in the ranges of the row. -/
abbrev Fits : List (UInt8 × UInt8) → Bytes → Prop := List.Forall₂ InRange

/-- The range is on one side of the sign. -/
def Sided (range : UInt8 × UInt8) : Prop :=
  range.1.toNat ≤ range.2.toNat ∧ (range.2.toNat < 128 ∨ 128 ≤ range.1.toNat)

theorem outOfRange_iff {signed : Bool} {range : UInt8 × UInt8} (h : Sided range) (c : UInt8) :
    charValue signed c < charValue signed range.1 ∨ charValue signed range.2 < charValue signed c ↔
      ¬ InRange range c := by
  have h₁ := range.1.toNat_lt
  have h₂ := range.2.toNat_lt
  have hc := c.toNat_lt
  unfold charValue InRange
  obtain ⟨hle, hside⟩ := h
  cases signed
  · simp only [Bool.false_eq_true, false_and, if_false]
    omega
  · simp only [true_and]
    split_ifs <;> omega

/-- What the comparison with a row tells: the text begins with bytes in the ranges. -/
def Tells (signed : Bool) (row : List (UInt8 × UInt8)) (s tail : Bytes) : Prop :=
  ∃ good, matchesRow signed row (s ++ 0 :: tail) = some good ∧
    (good = true ↔ ∃ front back, s = front ++ back ∧ Fits row front)

theorem Tells.cons {signed : Bool} {range : UInt8 × UInt8} {row : List (UInt8 × UInt8)}
    {s tail : Bytes} (hsided : Sided range) (h : Tells signed row s tail) (c : UInt8) :
    Tells signed (range :: row) (c :: s) tail := by
  by_cases hin : InRange range c
  · obtain ⟨good, hgood, hiff⟩ := h
    refine ⟨good, (if_neg (mt (outOfRange_iff hsided c).mp (not_not.mpr hin))).trans hgood,
      hiff.trans ⟨?_, ?_⟩⟩
    · rintro ⟨front, back, rfl, hfits⟩
      exact ⟨c :: front, back, rfl, .cons hin hfits⟩
    · rintro ⟨front, back, hs, hfits⟩
      cases hfits with
      | cons _ hfits => exact ⟨_, back, (List.cons.inj hs).2, hfits⟩
  · refine ⟨false, if_pos ((outOfRange_iff hsided c).mpr hin), ?_⟩
    refine iff_of_false Bool.false_ne_true ?_
    rintro ⟨front, back, hs, hfits⟩
    cases hfits with
    | cons hin' =>
        obtain ⟨rfl, -⟩ := List.cons.inj hs
        exact hin hin'

/-- No look behind the end of the text, since the NUL is in none of the ranges. -/
theorem tells_of_ranges {signed : Bool} {row : List (UInt8 × UInt8)} {s : Bytes} (tail : Bytes)
    (hsided : ∀ range ∈ row, Sided range) (hnul : ∀ range ∈ row, 0 < range.1.toNat) :
    Tells signed row s tail := by
  induction row generalizing s with
  | nil =>
      refine ⟨true, ?_, iff_of_true rfl ⟨[], s, rfl, .nil⟩⟩
      cases s <;> rfl
  | cons range row ih =>
      obtain ⟨hsided₀, hsided⟩ := List.forall_mem_cons.mp hsided
      obtain ⟨hnul₀, hnul⟩ := List.forall_mem_cons.mp hnul
      cases s with
      | nil =>
          have hout : ¬ InRange range 0 := fun h => absurd h.1 (Nat.not_le_of_lt hnul₀)
          refine ⟨false, if_pos ((outOfRange_iff hsided₀ 0).mpr hout), ?_⟩
          refine iff_of_false Bool.false_ne_true ?_
          rintro ⟨front, back, hs, hfits⟩
          obtain ⟨rfl, -⟩ := List.append_eq_nil_iff.mp hs.symm
          cases hfits
      | cons c s => exact (ih hsided hnul).cons hsided₀ c

/-- The rows of the table are compared in this way, where there is a byte at all. -/
theorem tells_of_mem (signed : Bool) {row : List (UInt8 × UInt8)} (hrow : row ∈ validRanges)
    (c : UInt8) (s tail : Bytes) : Tells signed row (c :: s) tail := by
  have htable : ∀ row ∈ validRanges, row ≠ [] ∧ (∀ range ∈ row,
      range.1.toNat ≤ range.2.toNat ∧ (range.2.toNat < 128 ∨ 128 ≤ range.1.toNat)) ∧
        ∀ range ∈ row.tail, 0 < range.1.toNat := by
    simp only [validRanges, List.forall_mem_cons, List.tail_cons]
    simp
  obtain ⟨hne, hsided, hnul⟩ := htable row hrow
  cases row with
  | nil => exact absurd rfl hne
  | cons range row =>
      obtain ⟨hsided₀, hsided⟩ := List.forall_mem_cons.mp hsided
      exact (tells_of_ranges tail hsided hnul).cons hsided₀ c

theorem matchesTable_eq (signed : Bool) (charlen : Nat) {rows : List (List (UInt8 × UInt8))}
    (hrows : ∀ row ∈ rows, row ∈ validRanges) (c : UInt8) (s tail : Bytes) :
    ∃ good, matchesTable signed charlen rows (c :: s ++ 0 :: tail) = some good ∧
      (good = true ↔ ∃ row ∈ rows, row.length = charlen ∧
        ∃ front back, c :: s = front ++ back ∧ Fits row front) := by
  induction rows with
  | nil => exact ⟨false, rfl, iff_of_false Bool.false_ne_true fun ⟨_, h, _⟩ => (by cases h)⟩
  | cons row rows ih =>
      obtain ⟨hrow, hrows⟩ := List.forall_mem_cons.mp hrows
      obtain ⟨good, hgood, hiff⟩ := ih hrows
      simp only [List.mem_cons, exists_eq_or_imp]
      rw [matchesTable]
      split_ifs with hlength
      · obtain ⟨first, hfirst, htells⟩ := tells_of_mem signed hrow c s tail
        rw [hfirst]
        cases first with
        | true => exact ⟨true, rfl, iff_of_true rfl (.inl ⟨hlength, htells.mp rfl⟩)⟩
        | false =>
            refine ⟨good, hgood, hiff.trans (or_iff_right ?_).symm⟩
            exact fun h => Bool.false_ne_true (htells.mpr h.2)
      · exact ⟨good, hgood, hiff.trans (or_iff_right fun h => hlength h.1).symm⟩

/-! ### Characters -/

set_option maxRecDepth 4000 in
theorem charLength_eq (c : UInt8) : charLength c =
    if c.toNat < 128 then 1 else if c.toNat < 224 then 2 else if c.toNat < 240 then 3 else 4 := by
  have hall : ∀ n : Fin 256, charLength (UInt8.ofNat n) =
      if (UInt8.ofNat n).toNat < 128 then 1 else if (UInt8.ofNat n).toNat < 224 then 2
        else if (UInt8.ofNat n).toNat < 240 then 3 else 4 := by
    decide
  have h := hall ⟨c.toNat, c.toNat_lt⟩
  rwa [UInt8.ofNat_toNat] at h

/-- The length that the first byte seems to tell is that of the row that it fits. -/
theorem charLength_of_fits {row : List (UInt8 × UInt8)} (hrow : row ∈ validRanges) {c : UInt8}
    {front : Bytes} (h : Fits row (c :: front)) : charLength c = row.length := by
  have htable : ∀ row ∈ validRanges, ∀ range ∈ row.head?,
      (row.length = 1 ∧ range.2.toNat < 128) ∨
      (row.length = 2 ∧ 128 ≤ range.1.toNat ∧ range.2.toNat < 224) ∨
      (row.length = 3 ∧ 224 ≤ range.1.toNat ∧ range.2.toNat < 240) ∨
      (row.length = 4 ∧ 240 ≤ range.1.toNat) := by
    simp [validRanges]
  cases h with
  | cons hin _ =>
      have hlength := htable _ hrow _ rfl
      obtain ⟨hlower, hupper⟩ := hin
      rw [charLength_eq]
      split_ifs <;> omega

theorem exists_char {n : Nat} (h : n.isValidChar) : ∃ ch : Char, ch.val.toNat = n :=
  ⟨Char.ofNatAux n h, rfl⟩

theorem eq_ofNat {c : UInt8} {n : Nat} (h : c.toNat = n) : c = UInt8.ofNat n := by
  rw [← h, UInt8.ofNat_toNat]

theorem inRange_ofNat {range : UInt8 × UInt8} {n : Nat} (hlower : range.1.toNat ≤ n)
    (hupper : n ≤ range.2.toNat) : InRange range (UInt8.ofNat n) := by
  have h₂ := range.2.toNat_lt
  unfold InRange
  rw [UInt8.toNat_ofNat', Nat.mod_eq_of_lt (by omega)]
  exact ⟨hlower, hupper⟩

theorem encoded_one {c₀ : UInt8} (h₀ : c₀.toNat ≤ 127) :
    ∃ ch : Char, [c₀] = String.utf8EncodeChar ch := by
  obtain ⟨ch, hch⟩ := exists_char (n := c₀.toNat) (by omega)
  refine ⟨ch, ?_⟩
  simp only [String.utf8EncodeChar, hch]
  rw [if_pos h₀, UInt8.ofNat_toNat]

theorem encoded_two {c₀ c₁ : UInt8} (h₀ : 194 ≤ c₀.toNat ∧ c₀.toNat ≤ 223)
    (h₁ : 128 ≤ c₁.toNat ∧ c₁.toNat ≤ 191) : ∃ ch : Char, [c₀, c₁] = String.utf8EncodeChar ch := by
  obtain ⟨ch, hch⟩ := exists_char (n := (c₀.toNat - 192) * 64 + (c₁.toNat - 128)) (by omega)
  refine ⟨ch, ?_⟩
  simp only [String.utf8EncodeChar, hch]
  rw [if_neg (by omega), if_pos (by omega)]
  simp only [List.cons.injEq]
  refine ⟨eq_ofNat ?_, eq_ofNat ?_, trivial⟩ <;> omega

theorem encoded_three {c₀ c₁ c₂ : UInt8} (h₀ : 224 ≤ c₀.toNat ∧ c₀.toNat ≤ 239)
    (h₁ : 128 ≤ c₁.toNat ∧ c₁.toNat ≤ 191) (h₂ : 128 ≤ c₂.toNat ∧ c₂.toNat ≤ 191)
    (hlong : c₀.toNat = 224 → 160 ≤ c₁.toNat) (hsurrogate : c₀.toNat = 237 → c₁.toNat ≤ 159) :
    ∃ ch : Char, [c₀, c₁, c₂] = String.utf8EncodeChar ch := by
  obtain ⟨ch, hch⟩ := exists_char
    (n := (c₀.toNat - 224) * 4096 + (c₁.toNat - 128) * 64 + (c₂.toNat - 128)) (by omega)
  refine ⟨ch, ?_⟩
  simp only [String.utf8EncodeChar, hch]
  rw [if_neg (by omega), if_neg (by omega), if_pos (by omega)]
  simp only [List.cons.injEq]
  refine ⟨eq_ofNat ?_, eq_ofNat ?_, eq_ofNat ?_, trivial⟩ <;> omega

theorem encoded_four {c₀ c₁ c₂ c₃ : UInt8} (h₀ : 240 ≤ c₀.toNat ∧ c₀.toNat ≤ 244)
    (h₁ : 128 ≤ c₁.toNat ∧ c₁.toNat ≤ 191) (h₂ : 128 ≤ c₂.toNat ∧ c₂.toNat ≤ 191)
    (h₃ : 128 ≤ c₃.toNat ∧ c₃.toNat ≤ 191)
    (hlong : c₀.toNat = 240 → 144 ≤ c₁.toNat) (hlast : c₀.toNat = 244 → c₁.toNat ≤ 143) :
    ∃ ch : Char, [c₀, c₁, c₂, c₃] = String.utf8EncodeChar ch := by
  obtain ⟨ch, hch⟩ := exists_char
    (n := (c₀.toNat - 240) * 262144 + (c₁.toNat - 128) * 4096 + (c₂.toNat - 128) * 64 +
      (c₃.toNat - 128)) (by omega)
  refine ⟨ch, ?_⟩
  simp only [String.utf8EncodeChar, hch]
  rw [if_neg (by omega), if_neg (by omega), if_neg (by omega)]
  simp only [List.cons.injEq]
  refine ⟨eq_ofNat ?_, eq_ofNat ?_, eq_ofNat ?_, eq_ofNat ?_, trivial⟩ <;> omega

theorem fits_one {r₀ : UInt8 × UInt8} {front : Bytes} (h : Fits [r₀] front) :
    ∃ c₀, front = [c₀] ∧ InRange r₀ c₀ := by
  cases h with
  | cons h₀ h => cases h; exact ⟨_, rfl, h₀⟩

theorem fits_cons {range : UInt8 × UInt8} {row : List (UInt8 × UInt8)} {front : Bytes}
    (h : Fits (range :: row) front) :
    ∃ c rest, front = c :: rest ∧ InRange range c ∧ Fits row rest := by
  cases h with
  | cons h₀ h => exact ⟨_, _, rfl, h₀, h⟩

theorem encoded_of_fits {row : List (UInt8 × UInt8)} (hrow : row ∈ validRanges) {front : Bytes}
    (hfits : Fits row front) : ∃ ch : Char, front = String.utf8EncodeChar ch := by
  simp only [validRanges, List.mem_cons, List.not_mem_nil, or_false] at hrow
  obtain rfl | rfl | hrow := hrow
  · obtain ⟨c₀, rfl, h₀⟩ := fits_one hfits
    exact encoded_one h₀.2
  · obtain ⟨c₀, rest, rfl, h₀, hfits⟩ := fits_cons hfits
    obtain ⟨c₁, rfl, h₁⟩ := fits_one hfits
    exact encoded_two h₀ h₁
  rw [← or_assoc, ← or_assoc, ← or_assoc] at hrow
  obtain hrow | hrow := hrow
  · obtain ((rfl | rfl) | rfl) | rfl := hrow <;>
    · obtain ⟨c₀, rest, rfl, h₀, hfits⟩ := fits_cons hfits
      obtain ⟨c₁, rest, rfl, h₁, hfits⟩ := fits_cons hfits
      obtain ⟨c₂, rfl, h₂⟩ := fits_one hfits
      simp only [InRange, UInt8.reduceToNat] at h₀ h₁ h₂
      apply encoded_three <;> omega
  · obtain rfl | rfl | rfl := hrow <;>
    · obtain ⟨c₀, rest, rfl, h₀, hfits⟩ := fits_cons hfits
      obtain ⟨c₁, rest, rfl, h₁, hfits⟩ := fits_cons hfits
      obtain ⟨c₂, rest, rfl, h₂, hfits⟩ := fits_cons hfits
      obtain ⟨c₃, rfl, h₃⟩ := fits_one hfits
      simp only [InRange, UInt8.reduceToNat] at h₀ h₁ h₂ h₃
      apply encoded_four <;> omega

theorem fits_three {r₀ r₁ r₂ : UInt8 × UInt8} {n₀ n₁ n₂ : Nat}
    (h₀ : r₀.1.toNat ≤ n₀ ∧ n₀ ≤ r₀.2.toNat) (h₁ : r₁.1.toNat ≤ n₁ ∧ n₁ ≤ r₁.2.toNat)
    (h₂ : r₂.1.toNat ≤ n₂ ∧ n₂ ≤ r₂.2.toNat) :
    Fits [r₀, r₁, r₂] [UInt8.ofNat n₀, UInt8.ofNat n₁, UInt8.ofNat n₂] :=
  .cons (inRange_ofNat h₀.1 h₀.2) (.cons (inRange_ofNat h₁.1 h₁.2)
    (.cons (inRange_ofNat h₂.1 h₂.2) .nil))

theorem fits_encoded (ch : Char) : ∃ row ∈ validRanges, Fits row (String.utf8EncodeChar ch) := by
  have hvalid : ch.val.toNat < 0xD800 ∨ 0xDFFF < ch.val.toNat ∧ ch.val.toNat < 0x110000 := ch.valid
  simp only [String.utf8EncodeChar]
  generalize ch.val.toNat = n at hvalid
  split_ifs with h₁ h₂ h₃
  · exact ⟨_, .head _, .cons (inRange_ofNat (Nat.zero_le _) h₁) .nil⟩
  · refine ⟨[(0xC2, 0xDF), (0x80, 0xBF)], by decide, ?_⟩
    refine .cons (inRange_ofNat ?_ ?_) (.cons (inRange_ofNat ?_ ?_) .nil) <;>
      simp only [UInt8.reduceToNat] <;> omega
  · have hrow : n < 0x1000 ∨ (0x1000 ≤ n ∧ n < 0xD000) ∨ (0xD000 ≤ n ∧ n < 0xD800) ∨
        0xE000 ≤ n := by
      omega
    obtain hrow | hrow | hrow | hrow := hrow
    · refine ⟨[(0xE0, 0xE0), (0xA0, 0xBF), (0x80, 0xBF)], by decide, fits_three ?_ ?_ ?_⟩ <;>
        simp only [UInt8.reduceToNat] <;> omega
    · refine ⟨[(0xE1, 0xEC), (0x80, 0xBF), (0x80, 0xBF)], by decide, fits_three ?_ ?_ ?_⟩ <;>
        simp only [UInt8.reduceToNat] <;> omega
    · refine ⟨[(0xED, 0xED), (0x80, 0x9F), (0x80, 0xBF)], by decide, fits_three ?_ ?_ ?_⟩ <;>
        simp only [UInt8.reduceToNat] <;> omega
    · refine ⟨[(0xEE, 0xEF), (0x80, 0xBF), (0x80, 0xBF)], by decide, fits_three ?_ ?_ ?_⟩ <;>
        simp only [UInt8.reduceToNat] <;> omega
  · have hrow : n < 0x40000 ∨ (0x40000 ≤ n ∧ n < 0x100000) ∨ 0x100000 ≤ n := by
      omega
    obtain hrow | hrow | hrow := hrow
    · refine ⟨[(0xF0, 0xF0), (0x90, 0xBF), (0x80, 0xBF), (0x80, 0xBF)], by decide,
        .cons (inRange_ofNat ?_ ?_) (fits_three ?_ ?_ ?_)⟩ <;>
        simp only [UInt8.reduceToNat] <;> omega
    · refine ⟨[(0xF1, 0xF3), (0x80, 0xBF), (0x80, 0xBF), (0x80, 0xBF)], by decide,
        .cons (inRange_ofNat ?_ ?_) (fits_three ?_ ?_ ?_)⟩ <;>
        simp only [UInt8.reduceToNat] <;> omega
    · refine ⟨[(0xF4, 0xF4), (0x80, 0x8F), (0x80, 0xBF), (0x80, 0xBF)], by decide,
        .cons (inRange_ofNat ?_ ?_) (fits_three ?_ ?_ ?_)⟩ <;>
        simp only [UInt8.reduceToNat] <;> omega

/-- The table has what characters are encoded as, and no longer form of one, no surrogate and
nothing above the last code point. -/
theorem fits_iff {front : Bytes} :
    (∃ row ∈ validRanges, Fits row front) ↔ ∃ ch : Char, front = String.utf8EncodeChar ch := by
  constructor
  · rintro ⟨row, hrow, hfits⟩
    exact encoded_of_fits hrow hfits
  · rintro ⟨ch, rfl⟩
    exact fits_encoded ch

/-- Where a text begins with a character, its first byte tells the length. -/
theorem charLength_encoded {ch : Char} {c : UInt8} {s rest : Bytes}
    (h : c :: s = String.utf8EncodeChar ch ++ rest) :
    charLength c = (String.utf8EncodeChar ch).length := by
  obtain ⟨row, hrow, hfits⟩ := fits_encoded ch
  cases hfront : String.utf8EncodeChar ch with
  | nil => exact absurd hfront String.utf8EncodeChar_ne_nil
  | cons c' front =>
      rw [hfront] at h hfits
      obtain ⟨rfl, -⟩ := List.cons.inj h
      rw [charLength_of_fits hrow hfits, hfits.length_eq]

/-- The character that a text begins with. -/
theorem encoded_append_inj {ch ch' : Char} {rest rest' : Bytes}
    (h : String.utf8EncodeChar ch ++ rest = String.utf8EncodeChar ch' ++ rest') :
    String.utf8EncodeChar ch = String.utf8EncodeChar ch' ∧ rest = rest' := by
  cases hs : String.utf8EncodeChar ch ++ rest with
  | nil =>
      exact absurd (List.append_eq_nil_iff.mp hs).1 String.utf8EncodeChar_ne_nil
  | cons c s =>
      have hlength := charLength_encoded hs.symm
      have hlength' := charLength_encoded (hs.symm.trans h)
      exact List.append_inj h (hlength.symm.trans hlength')

/-! ### The text -/

/-- What the call does at a position before the end of the text, where the length that it gets
is not too small: it goes over a character, or the text does not begin with one. -/
theorem charValidate_spec (signed : Bool) {len : Int} {s : Bytes} (tail : Bytes) (hne : s ≠ [])
    (hlen : (s.length : Int) ≤ len) :
    (∃ ch rest, s = String.utf8EncodeChar ch ++ rest ∧
      charValidate signed len (s ++ 0 :: tail) = some (some (rest ++ 0 :: tail))) ∨
    ((∀ ch rest, s ≠ String.utf8EncodeChar ch ++ rest) ∧
      charValidate signed len (s ++ 0 :: tail) = some none) := by
  cases s with
  | nil => exact absurd rfl hne
  | cons c s =>
      obtain ⟨good, hgood, htells⟩ :=
        matchesTable_eq signed (charLength c) (fun _ h => h) c s tail
      rw [List.cons_append] at hgood ⊢
      rw [charValidate, hgood]
      by_cases hchar : ∃ ch rest, c :: s = String.utf8EncodeChar ch ++ rest
      · obtain ⟨ch, rest, hs⟩ := hchar
        have hlength := charLength_encoded hs
        obtain ⟨row, hrow, hfits⟩ := fits_encoded ch
        have hrow_length : row.length = charLength c := hfits.length_eq.trans hlength.symm
        have htrue : good = true := htells.mpr ⟨row, hrow, hrow_length, _, rest, hs, hfits⟩
        have henough : ¬ len < charLength c := by
          have htotal := congrArg List.length hs
          rw [List.length_append] at htotal
          omega
        refine .inl ⟨ch, rest, hs, ?_⟩
        rw [if_neg henough, Option.map_some, if_pos htrue, ← List.cons_append, hs, hlength,
          List.append_assoc, List.drop_left]
      · refine .inr ⟨fun ch rest hs => hchar ⟨ch, rest, hs⟩, ?_⟩
        have hfalse : good ≠ true := fun h => by
          obtain ⟨row, hrow, -, front, back, hs, hfits⟩ := htells.mp h
          obtain ⟨ch, rfl⟩ := encoded_of_fits hrow hfits
          exact hchar ⟨ch, back, hs⟩
        rw [Option.map_some, if_neg hfalse, ite_self]

/-- The bytes are what a list of characters is encoded as. -/
def Encoded (s : Bytes) : Prop :=
  ∃ text : List Char, s = text.flatMap String.utf8EncodeChar

theorem encoded_append_iff (ch : Char) (rest : Bytes) :
    Encoded (String.utf8EncodeChar ch ++ rest) ↔ Encoded rest := by
  constructor
  · rintro ⟨text, htext⟩
    cases text with
    | nil => exact absurd (List.append_eq_nil_iff.mp htext).1 String.utf8EncodeChar_ne_nil
    | cons ch' text => exact ⟨text, (encoded_append_inj htext).2⟩
  · rintro ⟨text, rfl⟩
    exact ⟨ch :: text, rfl⟩

theorem not_encoded {s : Bytes} (hne : s ≠ [])
    (h : ∀ ch rest, s ≠ String.utf8EncodeChar ch ++ rest) : ¬ Encoded s := by
  rintro ⟨text, htext⟩
  cases text with
  | nil => exact hne htext
  | cons ch text => exact h ch _ htext

/-- One call, and the loop after it. -/
theorem validateFrom_spec (signed : Bool) {len : Int} {position : Nat} {s : Bytes}
    (hlen : (position + s.length : Nat) = len) :
    ∃ good, validateFrom signed len position (s ++ [0]) = some good ∧
      (good = true ↔ Encoded s) := by
  induction hn : s.length using Nat.strongRecOn generalizing s position with
  | ind n ih =>
      unfold validateFrom
      by_cases hne : s = []
      · subst hne
        refine ⟨true, if_neg ?_, iff_of_true rfl ⟨[], rfl⟩⟩
        rw [List.length_nil] at hlen
        omega
      · have hpos := List.length_pos_iff.mpr hne
        rw [if_pos (by omega)]
        obtain ⟨ch, rest, rfl, hcall⟩ | ⟨hnone, hcall⟩ :=
          charValidate_spec signed [] hne (by omega : (s.length : Int) ≤ len)
        · have hch := List.length_pos_iff.mpr (String.utf8EncodeChar_ne_nil (c := ch))
          rw [List.length_append] at hlen hn
          have hrest :
              (position + (String.utf8EncodeChar ch).length + rest.length : Nat) = len := by
            omega
          obtain ⟨good, hgood, hiff⟩ := ih rest.length (by omega) hrest rfl
          refine ⟨good, ?_, hiff.trans (encoded_append_iff ch rest).symm⟩
          rw [hcall]
          show validateFrom _ _ _ _ = _
          rw [← hgood]
          congr 1
          simp only [List.length_append]
          omega
        · rw [hcall]
          exact ⟨false, rfl, iff_of_false Bool.false_ne_true (not_encoded hne hnone)⟩

/-- The first call is one of the loop, whose condition holds for a text that is not empty. -/
theorem validate_eq (signed : Bool) (s : Bytes) :
    validate signed s.length (s ++ [0]) = validateFrom signed s.length 0 (s ++ [0]) := by
  rw [validate, validateFrom]
  split_ifs with hempty hmore hmore
  · omega
  · rfl
  · simp only [Nat.zero_add]
    split <;> split <;> simp_all
  · omega

/-- The validation of a topic ends, whether or not `char` is signed, it reads nothing behind
the NUL, and it accepts just the UTF-8 texts. -/
theorem validateString_iff (signed : Bool) {string : Bytes} (hlength : string.length < 2147483648) :
    validateString signed string ≠ none ∧
      (validateString signed string = some true ↔ Encoded string) := by
  have hlen : Int.bmod (string.length : Int) 4294967296 = string.length := by
    rw [Int.bmod_def]
    omega
  have hall : ((0 + string.length : Nat) : Int) = string.length := by
    omega
  obtain ⟨good, hgood, hiff⟩ := validateFrom_spec signed hall
  rw [validateString, hlen, validate_eq, hgood]
  exact ⟨Option.some_ne_none _, (Option.some_inj).trans hiff⟩

/-- A text of seven bytes in four characters. -/
theorem validateString_iff_four :
    validateString true [0x41, 0xE2, 0x89, 0xA2, 0xCE, 0x91, 0x2E] ≠ none ∧
      (validateString true [0x41, 0xE2, 0x89, 0xA2, 0xCE, 0x91, 0x2E] = some true ↔
        Encoded [0x41, 0xE2, 0x89, 0xA2, 0xCE, 0x91, 0x2E]) :=
  validateString_iff true (by decide)

end Utf8
