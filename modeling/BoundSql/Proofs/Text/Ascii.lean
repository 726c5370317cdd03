import BoundSql.Text.Case
import BoundSql.Text.DecimalDigit
import BoundSql.Text.WhiteSpace
import BoundSql.Text.WordChar

/-!
# ASCII characters

What is computed of the 128 ASCII characters holds of each of them (`of_lt_of_table`). Letters and
digits are among them, and so is everything that folds to a small letter, but for the long s and the
Kelvin sign. What a table shows not to depend on the case of ASCII does not for any character
(`apply_toLower`), and texts that differ in the case of ASCII letters only have the same capitals
(`sameButCase_iff`).
-/

namespace BoundSql.Text

variable {x : Char}

/-- **A table of the ASCII characters speaks of each of them.** -/
theorem of_lt_of_table {P : Char → Prop} (h : x.toNat < 128)
    (table : ∀ n < 128, P (Char.ofNat n)) : P x :=
  x.ofNat_toNat ▸ table x.toNat h

theorem toNat_lt_of_isAlpha (h : x.isAlpha = true) : x.toNat < 128 := by
  rcases Bool.or_eq_true_iff.mp h with upper | lower
  · have last : x.toNat ≤ 90 := UInt32.le_iff_toNat_le.mp (of_decide_eq_true upper).2
    omega
  · have last : x.toNat ≤ 122 :=
      UInt32.le_iff_toNat_le.mp (of_decide_eq_true (Bool.and_eq_true_iff.mp lower).2)
    omega

theorem toNat_lt_of_isDigit (h : x.isDigit = true) : x.toNat < 128 := by
  have last : x.toNat ≤ 57 :=
    UInt32.le_iff_toNat_le.mp (of_decide_eq_true (Bool.and_eq_true_iff.mp h).2)
  omega

theorem toNat_lt_of_isAsciiWordChar (h : isAsciiWordChar x = true) : x.toNat < 128 := by
  rcases Bool.or_eq_true_iff.mp h with alphanum | underscore
  · rcases Bool.or_eq_true_iff.mp alphanum with alpha | digit
    · exact toNat_lt_of_isAlpha alpha
    · exact toNat_lt_of_isDigit digit
  · rw [beq_iff_eq.mp underscore]
    decide

theorem isWordChar_of_isAsciiWordChar (h : isAsciiWordChar x = true) : isWordChar x = true :=
  (isWordChar_of_lt (toNat_lt_of_isAsciiWordChar h)).trans h

theorem isWordChar_of_isAlphanum (h : x.isAlphanum = true) : isWordChar x = true :=
  isWordChar_of_isAsciiWordChar (Bool.or_eq_true_iff.mpr (Or.inl h))

theorem isWordChar_of_isDigit (h : x.isDigit = true) : isWordChar x = true :=
  isWordChar_of_isAlphanum (Bool.or_eq_true_iff.mpr (Or.inr h))

/-! ## Letter case -/

/-- What has a small letter for its lower case is a letter. -/
theorem isAlpha_of_isLower_toLower (h : x.toLower.isLower = true) : x.isAlpha = true := by
  by_cases upper : x.isUpper = true
  · exact Bool.or_eq_true_iff.mpr (Or.inl upper)
  · have same : x.toLower = x := dif_neg fun between => upper (decide_eq_true between)
    rw [same] at h
    exact Bool.or_eq_true_iff.mpr (Or.inr h)

/-- What folds to a small letter is a letter of ASCII or one of the two beyond. -/
theorem eq_or_isAlpha_of_caseFold (h : (caseFold x).isLower = true) :
    x = '\u017f' ∨ x = '\u212a' ∨ x.isAlpha = true := by
  by_cases long : x = '\u017f'
  · exact .inl long
  by_cases kelvin : x = '\u212a'
  · exact .inr (.inl kelvin)
  rw [caseFold, if_neg long, if_neg kelvin] at h
  exact .inr (.inr (isAlpha_of_isLower_toLower h))

/-- What folds to a small letter is a word character. -/
theorem isWordChar_of_caseFold (h : (caseFold x).isLower = true) : isWordChar x = true := by
  rcases eq_or_isAlpha_of_caseFold h with rfl | rfl | alpha
  · decide +kernel
  · decide +kernel
  · exact isWordChar_of_isAlphanum (Bool.or_eq_true_iff.mpr (Or.inl alpha))

/-- Folding a letter of ASCII gives the small one. -/
theorem caseFold_of_isLower_toLower (h : x.toLower.isLower = true) : caseFold x = x.toLower := by
  have long : x ≠ '\u017f' := by
    rintro rfl
    exact absurd h (by decide)
  have kelvin : x ≠ '\u212a' := by
    rintro rfl
    exact absurd h (by decide)
  rw [caseFold, if_neg long, if_neg kelvin]

/-- The upper case does not depend on the case that folding gives. -/
theorem toUpper_caseFold (h : x.toNat < 128) : (caseFold x).toUpper = x.toUpper :=
  of_lt_of_table (P := fun x => (caseFold x).toUpper = x.toUpper) h (by decide)

/-- Digits have no case. -/
theorem caseFold_of_isDigit (h : x.isDigit = true) : caseFold x = x :=
  of_lt_of_table (P := fun x => x.isDigit = true → caseFold x = x) (toNat_lt_of_isDigit h)
    (by decide) h

/-- Beyond ASCII capitals are what they are. -/
theorem toUpper_of_le (h : 128 ≤ x.toNat) : x.toUpper = x :=
  dif_neg fun lower => by
    have last : x.toNat ≤ 122 := UInt32.le_iff_toNat_le.mp lower.2
    omega

/-- Beyond ASCII small letters are what they are. -/
theorem toLower_of_le (h : 128 ≤ x.toNat) : x.toLower = x :=
  dif_neg fun upper => by
    have last : x.toNat ≤ 90 := UInt32.le_iff_toNat_le.mp upper.2
    omega

theorem toLower_toUpper (x : Char) : x.toUpper.toLower = x.toLower := by
  rcases Nat.lt_or_ge x.toNat 128 with ascii | beyond
  · exact of_lt_of_table (P := fun x => x.toUpper.toLower = x.toLower) ascii (by decide)
  · rw [toUpper_of_le beyond]

/-- What is the same for the small letter of every character of ASCII is so for every character. -/
theorem apply_toLower {α : Type} [DecidableEq α] {f : Char → α}
    (table : ∀ n < 128, f (Char.ofNat n).toLower = f (Char.ofNat n)) (x : Char) :
    f x.toLower = f x := by
  rcases Nat.lt_or_ge x.toNat 128 with ascii | beyond
  · exact of_lt_of_table (P := fun x => f x.toLower = f x) ascii table
  · rw [toLower_of_le beyond]

theorem toUpper_toLower (x : Char) : x.toLower.toUpper = x.toUpper :=
  apply_toLower (by decide) x

/-- Folding does not see the case. -/
theorem caseFold_toLower (x : Char) : caseFold x.toLower = caseFold x :=
  apply_toLower (by decide) x

theorem isDigit_toLower (x : Char) : x.toLower.isDigit = x.isDigit :=
  apply_toLower (by decide) x

theorem isWordChar_toLower (x : Char) : isWordChar x.toLower = isWordChar x :=
  apply_toLower (by decide) x

theorem isWhiteSpace_toLower (x : Char) : isWhiteSpace x.toLower = isWhiteSpace x :=
  apply_toLower (by decide) x

theorem isDecimalDigit_toLower (x : Char) : isDecimalDigit x.toLower = isDecimalDigit x :=
  apply_toLower (by decide) x

/-- **Texts are the same but for case if their capitals are.** -/
theorem sameButCase_iff {s t : List Char} : SameButCase s t ↔ asciiUpper s = asciiUpper t := by
  have lower (u : List Char) : asciiLower (asciiUpper u) = asciiLower u := by
    simp only [asciiLower, asciiUpper, List.map_map, Function.comp_def, toLower_toUpper]
  have upper (u : List Char) : asciiUpper (asciiLower u) = asciiUpper u := by
    simp only [asciiLower, asciiUpper, List.map_map, Function.comp_def, toUpper_toLower]
  constructor
  · intro h
    rw [← upper s, ← upper t, h]
  · intro h
    rw [SameButCase, ← lower s, ← lower t, h]

/-- What is a word in small letters but for the case of ASCII letters folds to it. -/
theorem map_caseFold_of_sameButCase {s w : List Char} (small : ∀ x ∈ w, x.isLower = true)
    (same : SameButCase s w) : s.map caseFold = w := by
  have lower : asciiLower w = w := by
    refine (List.map_congr_left fun x hx => ?_).trans (List.map_id w)
    have ascii : x.toNat < 128 := toNat_lt_of_isAlpha (Bool.or_eq_true_iff.mpr (.inr (small x hx)))
    exact of_lt_of_table (P := fun x => x.isLower = true → x.toLower = x) ascii (by decide)
      (small x hx)
  rw [SameButCase, lower] at same
  refine (List.map_congr_left fun x hx => ?_).trans same
  exact caseFold_of_isLower_toLower (small _ (same ▸ List.mem_map_of_mem hx))

/-- What is so for both cases of a letter is so for all characters of a text if it is so for those
of a text that is the same but for case. -/
theorem forall_mem_of_sameButCase {α : Type} {f : Char → α} {a : α} {s t : List Char}
    (caseless : ∀ x, f x.toLower = f x) (same : SameButCase s t) (h : ∀ y ∈ t, f y = a) :
    ∀ x ∈ s, f x = a := by
  intro x hx
  have lower : x.toLower ∈ asciiLower t := same ▸ List.mem_map_of_mem hx
  obtain ⟨y, hy, e⟩ := List.mem_map.mp lower
  rw [← caseless x, ← e, caseless y, h y hy]

/-- Digits are the same but for case only if they are the same. -/
theorem eq_of_sameButCase_digits {s t : List Char} (same : SameButCase s t)
    (digits : ∀ y ∈ t, y.isDigit = true) : s = t := by
  have small (u : List Char) (hu : ∀ x ∈ u, x.isDigit = true) : asciiLower u = u := by
    refine (List.map_congr_left fun x hx => ?_).trans (List.map_id u)
    exact of_lt_of_table (P := fun x => x.isDigit = true → x.toLower = x)
      (toNat_lt_of_isDigit (hu x hx)) (by decide) (hu x hx)
  rw [← small s (forall_mem_of_sameButCase isDigit_toLower same digits), ← small t digits, same]

end BoundSql.Text
