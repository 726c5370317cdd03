import BoundSql.Proofs.Text.Ascii
import BoundSql.Text.DecimalDigit
import BoundSql.Text.WhiteSpace

/-!
# Digits, words and white space

Two sets of characters given as ranges are compared in one pass over the tables: the ranges of one
set lie in ranges of the other (`covers`), or a range lies between those of the other (`misses`). So
the decimal digits are word characters, and white space is not.
-/

namespace BoundSql.Text

variable {ranges : List Range} {r : Range} {n : Nat} {x : Char}

/-- Whether each range is one and ends before the next one starts. -/
def ascending : List Range → Bool
  | [] => true
  | r :: rest => Nat.ble r.1 r.2 && rest.head?.all (fun s => Nat.blt r.2 s.1) && ascending rest

/-- Whether all of `inner` lie in ranges of the list, in the same order. -/
def covers : List Range → List Range → Bool
  | [], inner => inner.isEmpty
  | r :: rest, inner => covers rest (inner.dropWhile fun s => Nat.ble r.1 s.1 && Nat.ble s.2 r.2)

/-- Whether `r` lies between the ranges. -/
def misses : List Range → Range → Bool
  | [], _ => true
  | (first, last) :: rest, r => Nat.blt r.2 first || (Nat.blt last r.1 && misses rest r)

theorem sorted_of_ascending (h : ascending ranges = true) : Sorted ranges := by
  induction ranges with
  | nil => trivial
  | cons r rest ih =>
    simp only [ascending, Bool.and_eq_true, Nat.ble_eq] at h
    obtain ⟨⟨range, next⟩, later⟩ := h
    refine ⟨range, ?_, ih later⟩
    cases rest with
    | nil => exact fun s hs => absurd hs List.not_mem_nil
    | cons s rest =>
      have next : r.2 < s.1 := by simpa using next
      obtain ⟨range', above, -⟩ := ih later
      refine List.forall_mem_cons.mpr ⟨next, fun u hu => ?_⟩
      have := above u hu
      omega

theorem exists_of_covers {inner : List Range} (h : covers ranges inner = true) :
    ∀ s ∈ inner, ∃ r ∈ ranges, r.1 ≤ s.1 ∧ s.2 ≤ r.2 := by
  induction ranges generalizing inner with
  | nil =>
    rw [List.isEmpty_iff.mp h]
    exact fun s hs => absurd hs List.not_mem_nil
  | cons r rest ih =>
    intro s hs
    rw [← List.takeWhile_append_dropWhile (p := fun s => Nat.ble r.1 s.1 && Nat.ble s.2 r.2)
      (l := inner)] at hs
    rcases List.mem_append.mp hs with here | later
    · have inside := List.all_eq_true.mp List.all_takeWhile s here
      simp only [Bool.and_eq_true, Nat.ble_eq] at inside
      exact ⟨r, List.mem_cons_self, inside⟩
    · obtain ⟨r', hr, inside⟩ := ih h s later
      exact ⟨r', List.mem_cons_of_mem r hr, inside⟩

/-- **A set whose ranges are covered is part of the other.** -/
theorem inRanges_of_covers {inner : List Range} (ascends : ascending inner = true)
    (ascends' : ascending ranges = true) (h : covers ranges inner = true)
    (hn : inRanges inner n = true) : inRanges ranges n = true := by
  obtain ⟨s, hs, low, high⟩ := (inRanges_eq_true_iff (sorted_of_ascending ascends) n).mp hn
  obtain ⟨r, hr, low', high'⟩ := exists_of_covers h s hs
  exact (inRanges_eq_true_iff (sorted_of_ascending ascends') n).mpr
    ⟨r, hr, Nat.le_trans low' low, Nat.le_trans high high'⟩

theorem not_inRanges_of_misses (h : misses ranges r = true) (low : r.1 ≤ n) (high : n ≤ r.2) :
    inRanges ranges n = false := by
  induction ranges with
  | nil => rfl
  | cons s rest ih =>
    obtain ⟨first, last⟩ := s
    simp only [misses, Bool.or_eq_true, Bool.and_eq_true, Nat.blt_eq] at h
    simp only [inRanges, Bool.and_eq_false_iff, Bool.or_eq_false_iff, decide_eq_false_iff_not,
      Nat.not_le]
    exact h.imp (Nat.lt_of_le_of_lt high) fun later => ⟨Nat.lt_of_lt_of_le later.1 low, ih later.2⟩

/-- **The decimal digits of every script are word characters.** -/
theorem isWordChar_of_isDecimalDigit (h : isDecimalDigit x = true) : isWordChar x = true := by
  rw [isDecimalDigit] at h
  split at h
  · exact isWordChar_of_isDigit h
  · rename_i beyond
    rw [isWordChar, if_neg beyond]
    exact inRanges_of_covers (by decide +kernel) (by decide +kernel) (by decide +kernel) h

/-- **White space is in no word.** -/
theorem not_isWordChar_of_isWhiteSpace (h : isWhiteSpace x = true) : isWordChar x = false := by
  by_cases ascii : x.toNat < 128
  · exact of_lt_of_table (P := fun x => isWhiteSpace x = true → isWordChar x = false) ascii
      (by decide) h
  · have table : ∀ r ∈ whiteSpaceRanges, misses wordCharRanges r = true := by decide +kernel
    obtain ⟨r, hr, low, high⟩ := (inRanges_eq_true_iff sorted_whiteSpaceRanges _).mp h
    rw [isWordChar, if_neg ascii]
    exact not_inRanges_of_misses (table r hr) low high

theorem not_isDecimalDigit_of_isWordChar (h : isWordChar x = false) : isDecimalDigit x = false := by
  rw [Bool.eq_false_iff] at h ⊢
  exact mt isWordChar_of_isDecimalDigit h

end BoundSql.Text
