/-!
# Unsigned numerals

The textual form of a count: an optional plus sign and at least one ASCII digit, with a value below
a bound. `readNat?` reads what decimal printing writes (`readNat?_toDigits`).
-/

namespace BoundSql.Text

/-- The value of a run of ASCII digits, if it is one and stays below `bound`. -/
def readDigits? (bound : Nat) (s : List Char) : Option Nat :=
  if s ≠ [] ∧ s.all Char.isDigit ∧ Nat.ofDigitChars 10 s 0 < bound then
    some (Nat.ofDigitChars 10 s 0)
  else none

/-- The value of an unsigned numeral below `bound`; one leading plus sign is allowed. -/
def readNat? (bound : Nat) (s : List Char) : Option Nat :=
  match s with
  | '+' :: digits => readDigits? bound digits
  | _ => readDigits? bound s

/-- **Reading takes back decimal printing.** -/
theorem readNat?_toDigits {bound n : Nat} (h : n < bound) :
    readNat? bound (Nat.toDigits 10 n) = some n := by
  have digits : ∀ c ∈ Nat.toDigits 10 n, c.isDigit = true := fun c hc =>
    Nat.isDigit_of_mem_toDigits (by decide) (by decide) hc
  have value : Nat.ofDigitChars 10 (Nat.toDigits 10 n) 0 = n :=
    Nat.ofDigitChars_toDigits (by decide) (by decide)
  have nonempty : Nat.toDigits 10 n ≠ [] := Nat.toDigits_ne_nil
  have noPlus : ∀ rest, Nat.toDigits 10 n ≠ '+' :: rest := fun rest e => by
    have := digits '+' (by simp [e])
    exact absurd this (by decide)
  have : readNat? bound (Nat.toDigits 10 n) = readDigits? bound (Nat.toDigits 10 n) := by
    unfold readNat?
    split
    · rename_i rest e
      exact absurd e (noPlus rest)
    · rfl
  rw [this]
  simp only [readDigits?, value]
  rw [if_pos ⟨nonempty, by simpa using digits, h⟩]

end BoundSql.Text
