import Mathlib.Data.List.Basic

/-!
# Nesting of parentheses

`nesting i s` is the number of parentheses open behind a text, when `i` are open before it; there is
none if the text closes more than are open. Texts in a row are read one after the other
(`nesting_append`), more open parentheses in front change nothing (`nesting_add`), and a text that
leaves none open is balanced (`balanced_of_nesting`).
-/

namespace BoundSql.Text

/-- The number of open parentheses behind a text, if it closes no more than there are. -/
def nesting : Nat → List Char → Option Nat
  | i, [] => some i
  | i, x :: s =>
    if x = '(' then nesting (i + 1) s
    else if x = ')' then if i = 0 then none else nesting (i - 1) s
    else nesting i s

/-- The text has as many closing as opening parentheses, and never more of them up to a place. -/
def Balanced (s : List Char) : Prop :=
  s.count '(' = s.count ')' ∧ ∀ p, p <+: s → p.count ')' ≤ p.count '('

/-- No parentheses. -/
def Flat (s : List Char) : Prop := ∀ x ∈ s, x ≠ '(' ∧ x ≠ ')'

variable {i j k : Nat} {s t : List Char}

theorem nesting_open : nesting i ('(' :: s) = nesting (i + 1) s := by
  rw [nesting, if_pos rfl]

theorem nesting_close : nesting (i + 1) (')' :: s) = nesting i s := by
  rw [nesting, if_neg (by decide), if_pos rfl, if_neg (Nat.succ_ne_zero i), Nat.add_sub_cancel]

theorem nesting_zero_close : nesting 0 (')' :: s) = none := by
  rw [nesting, if_neg (by decide), if_pos rfl, if_pos rfl]

theorem nesting_cons_of_flat {x : Char} (h : x ≠ '(' ∧ x ≠ ')') :
    nesting i (x :: s) = nesting i s := by
  rw [nesting, if_neg h.1, if_neg h.2]

theorem nesting_of_flat (h : Flat s) : nesting i s = some i := by
  induction s with
  | nil => rfl
  | cons x s ih =>
    rw [nesting_cons_of_flat (h x List.mem_cons_self)]
    exact ih fun y hy => h y (List.mem_cons_of_mem x hy)

/-- **Texts in a row are read one after the other.** -/
theorem nesting_append : nesting i (s ++ t) = (nesting i s).bind (nesting · t) := by
  induction s generalizing i with
  | nil => rfl
  | cons x s ih =>
    rw [List.cons_append]
    by_cases ho : x = '('
    · subst ho
      rw [nesting_open, nesting_open, ih]
    · by_cases hc : x = ')'
      · subst hc
        cases i with
        | zero => rw [nesting_zero_close, nesting_zero_close, Option.bind_none]
        | succ i => rw [nesting_close, nesting_close, ih]
      · rw [nesting_cons_of_flat ⟨ho, hc⟩, nesting_cons_of_flat ⟨ho, hc⟩, ih]

/-- More open parentheses in front change nothing. -/
theorem nesting_add (h : nesting i s = some j) (k : Nat) : nesting (i + k) s = some (j + k) := by
  induction s generalizing i with
  | nil =>
    cases h
    rfl
  | cons x s ih =>
    by_cases ho : x = '('
    · subst ho
      rw [nesting_open] at h ⊢
      rw [Nat.add_right_comm]
      exact ih h
    · by_cases hc : x = ')'
      · subst hc
        cases i with
        | zero => exact absurd (nesting_zero_close.symm.trans h) (by simp)
        | succ i =>
          rw [nesting_close] at h
          rw [Nat.add_right_comm, nesting_close]
          exact ih h
      · rw [nesting_cons_of_flat ⟨ho, hc⟩] at h ⊢
        exact ih h

theorem count_of_nesting (h : nesting i s = some j) : i + s.count '(' = j + s.count ')' := by
  induction s generalizing i with
  | nil =>
    cases h
    rfl
  | cons x s ih =>
    by_cases ho : x = '('
    · subst ho
      rw [nesting_open] at h
      have := ih h
      rw [List.count_cons_self, List.count_cons_of_ne (by decide)]
      omega
    · by_cases hc : x = ')'
      · subst hc
        cases i with
        | zero => exact absurd (nesting_zero_close.symm.trans h) (by simp)
        | succ i =>
          rw [nesting_close] at h
          have := ih h
          rw [List.count_cons_self, List.count_cons_of_ne (by decide)]
          omega
      · rw [nesting_cons_of_flat ⟨ho, hc⟩] at h
        rw [List.count_cons_of_ne ho, List.count_cons_of_ne hc]
        exact ih h

/-- **A text that leaves no parenthesis open is balanced.** -/
theorem balanced_of_nesting (h : nesting 0 s = some 0) : Balanced s := by
  constructor
  · have := count_of_nesting h
    omega
  · rintro p ⟨t, rfl⟩
    rw [nesting_append] at h
    obtain ⟨j, hp, -⟩ := Option.bind_eq_some_iff.mp h
    have := count_of_nesting hp
    omega

end BoundSql.Text
