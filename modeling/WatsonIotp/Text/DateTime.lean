import Mathlib.Algebra.Group.Nat.Defs
import WatsonIotp.Text.StdString

/-!
# Times as text

`gmtime` and `strftime` with the format `%FT%TZ`, on times in seconds since the
epoch. A year starts in March here, so that the leap day is its last day. The buffers of
the client have room for a year of four characters; `strftime_eq` says what that
means for the time.
-/

namespace DateTime

/-- The date `days` after the first of January 1970: year, month and day. -/
def civil (days : Int) : Int × Nat × Nat :=
  let era := (days + 719468) / 146097
  let dayOfEra := ((days + 719468) % 146097).toNat
  let yearOfEra := (dayOfEra - dayOfEra / 1460 + dayOfEra / 36524 - dayOfEra / 146096) / 365
  let dayOfYear := dayOfEra - (365 * yearOfEra + yearOfEra / 4 - yearOfEra / 100)
  let shifted := (5 * dayOfYear + 2) / 153
  let day := dayOfYear - (153 * shifted + 2) / 5 + 1
  let month := if shifted < 10 then shifted + 3 else shifted - 9
  (yearOfEra + era * 400 + (if month ≤ 2 then 1 else 0), month, day)

/-- A number in two digits. -/
def twoDigits (n : Nat) : StdString :=
  if n < 10 then '0' :: StdString.ofNat n else StdString.ofNat n

/-- The text of a time. It is what `strftime` writes if the buffer has room for it. -/
def text (time : Int) : StdString :=
  let (year, month, day) := civil (time / 86400)
  let second := (time % 86400).toNat
  (if year < 0 then '-' :: StdString.ofNat year.natAbs else StdString.ofNat year.natAbs) ++
    '-' :: twoDigits month ++ '-' :: twoDigits day ++ 'T' :: twoDigits (second / 3600) ++
    ':' :: twoDigits (second / 60 % 60) ++ ':' :: twoDigits (second % 60) ++ ['Z']

/-- `strftime` into a buffer of `maxsize` bytes. If the text and the NUL behind it take more
of them, it returns 0, and what is in the buffer then is not defined. -/
def strftime (maxsize : Nat) (time : Int) : Option StdString :=
  if (text time).length < maxsize then some (text time) else none

/-! ### The buffer -/

/-- The year of a time. -/
def year (time : Int) : Int := (civil (time / 86400)).1

/-- The year has four characters at most, its sign included. -/
def Fits (time : Int) : Prop := -999 ≤ year time ∧ year time ≤ 9999

instance (time : Int) : Decidable (Fits time) := inferInstanceAs (Decidable (_ ∧ _))

theorem length_ofNat_le_iff {n k : Nat} (hk : 0 < k) :
    (StdString.ofNat n).length ≤ k ↔ n < 10 ^ k :=
  Nat.length_toDigits_le_iff (by decide) hk

theorem length_twoDigits {n : Nat} (h : n < 100) : (twoDigits n).length = 2 := by
  have hle : ∀ k, 0 < k → ((StdString.ofNat n).length ≤ k ↔ n < 10 ^ k) :=
    fun _ => length_ofNat_le_iff
  have hpos : 0 < (StdString.ofNat n).length := Nat.length_toDigits_pos
  have hone := hle 1 (by decide)
  have htwo := hle 2 (by decide)
  rw [twoDigits]
  split_ifs with hn
  · rw [List.length_cons]
    omega
  · omega

/-- Months and days have two digits. -/
theorem civil_lt (days : Int) : (civil days).2.1 < 100 ∧ (civil days).2.2 < 100 := by
  simp only [civil]
  constructor
  · split_ifs <;> omega
  · omega

/-- The characters of a year. -/
def yearText (year : Int) : StdString :=
  if year < 0 then '-' :: StdString.ofNat year.natAbs else StdString.ofNat year.natAbs

theorem text_eq (time : Int) : text time =
    yearText (year time) ++ '-' :: twoDigits (civil (time / 86400)).2.1 ++
      '-' :: twoDigits (civil (time / 86400)).2.2 ++
      'T' :: twoDigits ((time % 86400).toNat / 3600) ++
      ':' :: twoDigits ((time % 86400).toNat / 60 % 60) ++
      ':' :: twoDigits ((time % 86400).toNat % 60) ++ ['Z'] := rfl

theorem length_text (time : Int) :
    (text time).length = (yearText (year time)).length + 16 := by
  obtain ⟨hmonth, hday⟩ := civil_lt (time / 86400)
  have hhour : (time % 86400).toNat / 3600 < 100 := by omega
  have hminute : (time % 86400).toNat / 60 % 60 < 100 := by omega
  have hsecond : (time % 86400).toNat % 60 < 100 := by omega
  rw [text_eq]
  simp only [List.length_append, List.length_cons, List.length_nil, length_twoDigits hmonth,
    length_twoDigits hday, length_twoDigits hhour, length_twoDigits hminute,
    length_twoDigits hsecond]

theorem length_yearText_le_iff (year : Int) :
    (yearText year).length ≤ 4 ↔ -999 ≤ year ∧ year ≤ 9999 := by
  rw [yearText]
  split_ifs with hsign
  · have hthree : (StdString.ofNat year.natAbs).length ≤ 3 ↔ year.natAbs < 10 ^ 3 :=
      length_ofNat_le_iff (by decide)
    rw [List.length_cons]
    omega
  · rw [length_ofNat_le_iff (by decide)]
    omega

/-- A buffer of the length of `YYYY-MM-DDTHH:MM:SSZ` has room for the times whose year has
four characters at most. -/
theorem strftime_eq (time : Int) :
    strftime 21 time = if Fits time then some (text time) else none := by
  have hyear : (yearText (year time)).length ≤ 4 ↔ Fits time := length_yearText_le_iff _
  rw [strftime]
  refine if_congr ?_ rfl rfl
  rw [length_text, ← hyear]
  omega

/-! ### Stamps -/

/-- The last digits of a number. -/
def padded : Nat → Nat → StdString
  | 0, _ => []
  | width + 1, n => padded width (n / 10) ++ [Nat.digitChar (n % 10)]

/-- The year has a 29th of February. -/
def IsLeap (year : Nat) : Prop := year % 4 = 0 ∧ (year % 100 ≠ 0 ∨ year % 400 = 0)

instance (year : Nat) : Decidable (IsLeap year) := inferInstanceAs (Decidable (_ ∧ _))

def daysIn (year month : Nat) : Nat :=
  if month = 2 then if IsLeap year then 29 else 28
  else if month = 4 ∨ month = 6 ∨ month = 9 ∨ month = 11 then 30
  else 31

/-- `YYYY-MM-DDTHH:MM:SSZ`. -/
def stamp (year month day hour minute second : Nat) : StdString :=
  padded 4 year ++ '-' :: padded 2 month ++ '-' :: padded 2 day ++ 'T' :: padded 2 hour ++
    ':' :: padded 2 minute ++ ':' :: padded 2 second ++ ['Z']

/-- The text is the stamp of a time in the years to 9999. -/
def Canonical (s : StdString) : Prop :=
  ∃ year month day hour minute second, year < 10000 ∧ 1 ≤ month ∧ month ≤ 12 ∧ 1 ≤ day ∧
    day ≤ daysIn year month ∧ hour < 24 ∧ minute < 60 ∧ second < 60 ∧
    s = stamp year month day hour minute second

theorem length_padded (width n : Nat) : (padded width n).length = width := by
  induction width generalizing n with
  | zero => rfl
  | succ width ih => rw [padded, List.length_append, ih, List.length_singleton]

theorem digitChar_ne_nul : ∀ n < 10, Char.ofNat 0 ≠ Nat.digitChar n := by decide

theorem nul_notMem_padded (width n : Nat) : Char.ofNat 0 ∉ padded width n := by
  induction width generalizing n with
  | zero => exact List.not_mem_nil
  | succ width ih =>
      rw [padded, List.mem_append, List.mem_singleton, not_or]
      exact ⟨ih _, digitChar_ne_nul _ (Nat.mod_lt _ (by decide))⟩

theorem Canonical.length_eq {s : StdString} (h : Canonical s) : s.length = 20 := by
  obtain ⟨year, month, day, hour, minute, second, -, -, -, -, -, -, -, -, rfl⟩ := h
  simp only [stamp, List.length_append, List.length_cons, List.length_nil, length_padded]

theorem Canonical.nul_notMem {s : StdString} (h : Canonical s) : Char.ofNat 0 ∉ s := by
  obtain ⟨year, month, day, hour, minute, second, -, -, -, -, -, -, -, -, rfl⟩ := h
  have hsign : ∀ c : Char, c = '-' ∨ c = 'T' ∨ c = ':' ∨ c = 'Z' → Char.ofNat 0 ≠ c := by
    rintro c (rfl | rfl | rfl | rfl) <;> decide
  simp only [stamp, List.mem_append, List.mem_cons, List.not_mem_nil, nul_notMem_padded,
    hsign '-' (by simp), hsign 'T' (by simp), hsign ':' (by simp), hsign 'Z' (by simp), or_false,
    not_false_eq_true]

example : text 951782400 = "2000-02-29T00:00:00Z".toList := by decide

end DateTime
