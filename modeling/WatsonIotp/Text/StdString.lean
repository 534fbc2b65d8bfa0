import WatsonIotp.Text.Search

/-!
# The part of `std::string` that the client uses

A `std::string` is the list of its bytes, one character each. Positions are
natural numbers; a search that finds nothing answers `npos`, the largest value
of the position type, which is `none` here. Arithmetic on `npos` wraps around,
and the client does compute with it, so `plus` and `minus` say what comes out:
`npos + k` is `k - 1`, and `npos - k` still exceeds every length.
-/

/-- A byte string. -/
abbrev StdString := List Char

namespace StdString

/-- `s.find(needle, pos)`, with `none` for `npos`. -/
def find (s needle : StdString) (pos : Nat) : Option Nat :=
  if pos ≤ s.length then (Text.occurrence needle (s.drop pos)).map (pos + ·) else none

/-- `s.find_first_of(c, pos)`, with `none` for `npos`. -/
def findFirstOf (s : StdString) (c : Char) (pos : Nat) : Option Nat := find s [c] pos

/-- `pos + k` on the unsigned position type. -/
def plus (pos : Option Nat) (k : Nat) : Nat :=
  match pos with
  | some p => p + k
  | none => k - 1

/-- `pos - k` as the length of a piece to cut: from `npos` it reaches to the end. -/
def minus (pos : Option Nat) (k : Nat) : Option Nat := pos.map (· - k)

/-- `s.substr(pos, count)`; `none` where it throws `std::out_of_range`. -/
def substr (s : StdString) (pos : Nat) (count : Option Nat) : Option StdString :=
  if pos ≤ s.length then
    match count with
    | some n => some ((s.drop pos).take n)
    | none => some (s.drop pos)
  else none

/-- A number as an output stream writes it. -/
def ofNat (n : Nat) : StdString := Nat.toDigits 10 n

@[simp] theorem ofNat_inj {m n : Nat} : ofNat m = ofNat n ↔ m = n := by
  refine ⟨fun h => ?_, fun h => h ▸ rfl⟩
  have hparse := congrArg (Nat.ofDigitChars 10 · 0) h
  simpa only [ofNat, Nat.ofDigitChars_toDigits (b := 10) (by decide) (by decide)] using hparse

@[simp] theorem plus_some (p k : Nat) : plus (some p) k = p + k := rfl

@[simp] theorem plus_none (k : Nat) : plus none k = k - 1 := rfl

@[simp] theorem minus_some (p k : Nat) : minus (some p) k = some (p - k) := rfl

@[simp] theorem minus_none (k : Nat) : minus none k = none := rfl

theorem substr_isSome_iff {s : StdString} {pos : Nat} {count : Option Nat} :
    (substr s pos count).isSome ↔ pos ≤ s.length := by
  cases count <;> simp [substr]

/-- What a search finds lies inside the text. -/
theorem find_add_le {s needle : StdString} {pos i : Nat} (h : find s needle pos = some i) :
    i + needle.length ≤ s.length := by
  have hocc : ∀ {t : StdString} {j : Nat}, Text.occurrence needle t = some j →
      j + needle.length ≤ t.length := by
    intro t
    induction t with
    | nil =>
        intro j hj
        simp only [Text.occurrence, Option.ite_none_right_eq_some, Option.some.injEq] at hj
        obtain ⟨rfl, rfl⟩ := hj
        simp
    | cons c t ih =>
        intro j hj
        rw [Text.occurrence] at hj
        split at hj
        · next hprefix =>
            cases hj
            simpa using hprefix.length_le
        · obtain ⟨k, hk, rfl⟩ := Option.map_eq_some_iff.mp hj
          have := ih hk
          simp only [List.length_cons]
          omega
  simp only [find, Option.ite_none_right_eq_some, Option.map_eq_some_iff] at h
  obtain ⟨hpos, j, hj, rfl⟩ := h
  have := hocc hj
  simp only [List.length_drop] at this
  omega

end StdString
