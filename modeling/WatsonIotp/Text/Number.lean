import WatsonIotp.Text.StdString
import Mathlib.Data.Int.Notation
import Mathlib.Data.List.TakeWhile

/-!
# Integers as text

`std::stoi` skips white space, takes a sign and then as many digits as there are, and
ignores what follows them. It throws if there is no digit, or if the value is no `int`.
-/

namespace StdString

/-- `std::isspace`. -/
def isSpace (c : Char) : Bool := c = ' ' || ('\t' ≤ c && c ≤ '\r')

/-- What `std::stoi` throws. -/
inductive StoiError where
  | invalidArgument
  | outOfRange
  deriving DecidableEq

/-- Whether there is a minus sign, and what follows the sign. -/
def readSign : StdString → Bool × StdString
  | '-' :: cs => (true, cs)
  | '+' :: cs => (false, cs)
  | cs => (false, cs)

/-- The value as an `int`. -/
def toInt (value : Int) : Except StoiError Int :=
  if -2147483648 ≤ value ∧ value ≤ 2147483647 then .ok value else .error .outOfRange

/-- `std::stoi`. -/
def stoi (s : StdString) : Except StoiError Int :=
  let signed := readSign (s.dropWhile isSpace)
  let digits := signed.2.takeWhile Char.isDigit
  let value := Nat.ofDigitChars 10 digits 0
  if digits = [] then .error .invalidArgument
  else toInt (if signed.1 then -(value : Int) else value)

/-- `std::to_string` of an `int`. -/
def ofInt (i : Int) : StdString := if i < 0 then '-' :: ofNat i.natAbs else ofNat i.natAbs

/-- A number in decimal digits, and nothing else. -/
def IsDecimal (s : StdString) : Prop := s ≠ [] ∧ ∀ c ∈ s, c.isDigit = true

instance (s : StdString) : Decidable s.IsDecimal :=
  decidable_of_iff (s ≠ [] ∧ s.all Char.isDigit = true) (and_congr_right' List.all_eq_true)

/-- Digits are no white space. -/
theorem isSpace_eq_false {c : Char} (h : c.isDigit = true) : isSpace c = false := by
  simp only [isSpace, Bool.or_eq_false_iff, Bool.and_eq_false_iff, decide_eq_false_iff_not]
  constructor
  · rintro rfl
    revert h
    decide
  · right
    intro hle
    simp only [Char.isDigit, Bool.and_eq_true, decide_eq_true_eq] at h
    exact absurd (UInt32.le_trans (show '0'.val ≤ c.val from h.1) hle) (by decide)

/-- Digits are no sign. -/
theorem readSign_of_isDecimal {s : StdString} (h : s.IsDecimal) : readSign s = (false, s) := by
  unfold readSign
  split
  · exact absurd (h.2 '-' List.mem_cons_self) (by decide)
  · exact absurd (h.2 '+' List.mem_cons_self) (by decide)
  · rfl

theorem dropWhile_isSpace {s : StdString} (h : s.IsDecimal) : s.dropWhile isSpace = s := by
  cases s with
  | nil => rfl
  | cons c s =>
      rw [List.dropWhile_cons_of_neg]
      simp [isSpace_eq_false (h.2 c List.mem_cons_self)]

theorem takeWhile_isDigit {s : StdString} (h : s.IsDecimal) : s.takeWhile Char.isDigit = s :=
  List.takeWhile_eq_self_iff.mpr h.2

/-- A number in decimal digits is read as that number. -/
theorem stoi_of_isDecimal {s : StdString} (h : s.IsDecimal) :
    stoi s = toInt (Nat.ofDigitChars 10 s 0) := by
  rw [stoi, dropWhile_isSpace h, readSign_of_isDecimal h, takeWhile_isDigit h, if_neg h.1,
    if_neg Bool.false_ne_true]

end StdString
