/-!
# Sets of characters as sorted ranges

A character property is a list of ranges of code points, first to last, both ends included, in
increasing order. `inRanges` walks the list and stops at the first range that starts above the
code point; on a sorted list that is membership in some range (`inRanges_eq_true_iff`).
-/

namespace BoundSql.Text

/-- A range of code points, both ends included. -/
abbrev Range := Nat × Nat

/-- Whether `n` lies in one of the sorted `ranges`. -/
def inRanges : List Range → Nat → Bool
  | [], _ => false
  | (first, last) :: rest, n => decide (first ≤ n) && (decide (n ≤ last) || inRanges rest n)

/-- Each range is non-empty and ends before the next one starts. -/
def Sorted : List Range → Prop
  | [] => True
  | (first, last) :: rest => first ≤ last ∧ (∀ r ∈ rest, last < r.1) ∧ Sorted rest

/-- **Membership in sorted ranges.** -/
theorem inRanges_eq_true_iff {ranges : List Range} (sorted : Sorted ranges) (n : Nat) :
    inRanges ranges n = true ↔ ∃ r ∈ ranges, r.1 ≤ n ∧ n ≤ r.2 := by
  induction ranges with
  | nil => simp [inRanges]
  | cons r rest ih =>
    obtain ⟨first, last⟩ := r
    obtain ⟨_, hrest, sorted⟩ := sorted
    simp only [inRanges, Bool.and_eq_true, Bool.or_eq_true, decide_eq_true_eq, ih sorted,
      List.mem_cons, exists_eq_or_imp]
    constructor
    · rintro ⟨hfirst, hlast | h⟩
      · exact Or.inl ⟨hfirst, hlast⟩
      · exact Or.inr h
    · rintro (⟨hfirst, hlast⟩ | ⟨r, hr, hle, hge⟩)
      · exact ⟨hfirst, Or.inl hlast⟩
      · exact ⟨by have := hrest r hr; omega, Or.inr ⟨r, hr, hle, hge⟩⟩

end BoundSql.Text
